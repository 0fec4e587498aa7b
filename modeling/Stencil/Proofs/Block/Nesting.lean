import Stencil.Proofs.Block.Change

/-!
# Proofs/Block/Nesting — the braces of the generated control flow

A statement is a few pieces of host control flow: it opens and closes braces, and says `else` behind
a brace that was just closed.  The host reads these pieces against the stack of open braces
(`Control.step`): a closing brace takes the innermost one away, and `else` is right only behind the
brace of an `if`.

The open blocks of the scanner determine that stack (`Block.braces`), and every change of the blocks
is the same change of the braces: `nest_of_change`, and over a whole template `nestAll_of_run`.
-/

namespace Stencil

/-! ## Host control flow -/

/-- What an open brace of host code belongs to. -/
inductive Brace
  /-- The `if` that asks whether the loop of a frame has anything to run over. -/
  | guard (frame : Nat)
  /-- The `foreach` that assigns a frame. -/
  | each (frame : Nat)
  /-- The `if` or `else if` of a branch. -/
  | test
  /-- The `else` of a brace that was closed before it. -/
  | otherwise (closed : Brace)
  deriving DecidableEq, Repr

/-- Whether a brace belongs to an `if`. -/
def Brace.isIf : Brace → Bool
  | guard _ | test => true
  | each _ | otherwise _ => false

/-- A piece of host control flow. -/
inductive Control
  /-- Code without braces. -/
  | text (text : Text)
  | value (e : Expr)
  | opens (brace : Brace)
  | closes
  /-- `else` before another `if`. -/
  | elseIf
  /-- `else` with a brace of its own. -/
  | elseOpens

/-- The host while it reads control flow: the open braces, innermost first, and the brace that was
closed right before. -/
structure Host where
  nest : List Brace
  closed : Option Brace
  deriving DecidableEq, Repr

namespace Control

/-- The code of a piece. -/
def code (r : Registry) : Control → Text
  | text t => t
  | value e => e.code r
  | opens _ => "\x7b"
  | closes => "\x7d"
  | elseIf => " else if ("
  | elseOpens => " else \x7b"

/-- **The host reads one piece**, or finds it misplaced. -/
def step (h : Host) : Control → Option Host
  | text _ | value _ => some ⟨h.nest, none⟩
  | opens brace => some ⟨brace :: h.nest, none⟩
  | closes =>
    match h.nest with
    | [] => none
    | brace :: nest => some ⟨nest, some brace⟩
  | elseIf => if h.closed.any Brace.isIf then some ⟨h.nest, none⟩ else none
  | elseOpens =>
    match h.closed with
    | none => none
    | some brace => if brace.isIf then some ⟨.otherwise brace :: h.nest, none⟩ else none

/-- The host reads pieces one after the other. -/
def steps (h : Host) : List Control → Option Host
  | [] => some h
  | piece :: pieces => (step h piece).bind fun h => steps h pieces

end Control

/-- A text without braces. -/
def Braceless (t : Text) : Prop := '{' ∉ t ∧ '}' ∉ t

instance (t : Text) : Decidable (Braceless t) := inferInstanceAs (Decidable (_ ∧ _))

theorem Braceless.append {s t : Text} (hs : Braceless s) (ht : Braceless t) :
    Braceless (s ++ t) := by
  constructor
  · rw [List.mem_append]
    exact fun h => h.elim hs.1 ht.1
  · rw [List.mem_append]
    exact fun h => h.elim hs.2 ht.2

theorem FrameVar.braceless_code (v : FrameVar) (depth : Nat) : Braceless (v.code depth) := by
  have hdigits : ∀ c ∈ Text.decimal depth, c.isDigit = true := fun c hc =>
    Nat.isDigit_of_mem_toDigits (by decide) (by decide) hc
  have hdecimal : Braceless (Text.decimal depth) :=
    ⟨fun h => absurd (hdigits _ h) (by decide), fun h => absurd (hdigits _ h) (by decide)⟩
  have hletter : Braceless v.suffix := by
    cases v <;> decide
  exact (Braceless.append (by decide) hdecimal).append hletter

namespace Statement

/-- **The control flow of a statement.** -/
def controls : Statement → List Control
  | echo value => [.value value]
  | loop frame array =>
    let a := FrameVar.array.code frame
    let i := FrameVar.index.code frame
    let s := FrameVar.size.code frame
    let k := FrameVar.key.code frame
    let v := FrameVar.value.code frame
    [.text (a ++ "="), .value array,
      .text (";if (is_array(" ++ a ++ ") and !empty(" ++ a ++ ")) "), .opens (.guard frame),
      .text (s ++ "=count(" ++ a ++ ");" ++ i ++ "=-1;foreach(" ++ a ++ " as " ++ k ++ "=>" ++ v
        ++ ") "), .opens (.each frame), .text (" ++" ++ i ++ ";")]
  | branch test => [.text "if (", .value test, .text ") ", .opens .test]
  | loopElse => [.closes, .closes, .elseOpens]
  | elseIf test => [.closes, .elseIf, .value test, .text ") ", .opens .test]
  | branchElse => [.closes, .elseOpens]
  | endLoop => [.closes, .closes]
  | endBranch => [.closes]

/-- **The pieces of a statement are its code.** -/
theorem body_eq_controls (r : Registry) (s : Statement) :
    s.body r = s.controls.flatMap (Control.code r) := by
  have hopen : (") \x7b" : Text) = (") " : Text) ++ ("\x7b" : Text) := rfl
  cases s with
  | echo value => exact (List.append_nil _).symm
  | loop frame array =>
    have hguard : (")) \x7b" : Text) = (")) " : Text) ++ ("\x7b" : Text) := rfl
    have heach : (") \x7b ++" : Text) = (") " : Text) ++ (("\x7b" : Text) ++ (" ++" : Text)) := rfl
    unfold body controls
    rewrite [hguard, heach]
    simp only [List.flatMap_cons, List.flatMap_nil]
    dsimp only [Control.code]
    simp only [List.append_assoc, List.append_nil]
  | branch test =>
    unfold body controls
    rewrite [hopen]
    simp only [List.flatMap_cons, List.flatMap_nil]
    dsimp only [Control.code]
    simp only [List.append_assoc, List.append_nil]
  | elseIf test =>
    have helse : ("\x7d else if (" : Text) = ("\x7d" : Text) ++ (" else if (" : Text) := rfl
    unfold body controls
    rewrite [hopen, helse]
    simp only [List.flatMap_cons, List.flatMap_nil]
    dsimp only [Control.code]
    simp only [List.append_assoc, List.append_nil]
  | loopElse => rfl
  | branchElse => rfl
  | endLoop => rfl
  | endBranch => rfl

/-- **Every brace of a statement is a piece of its own**: the texts between them hold none. -/
theorem braceless_of_mem_controls {s : Statement} {t : Text} (h : .text t ∈ s.controls) :
    Braceless t := by
  cases s with
  | loop frame array =>
    have ha : Braceless (FrameVar.array.code frame) := FrameVar.braceless_code .array frame
    have hi : Braceless (FrameVar.index.code frame) := FrameVar.braceless_code .index frame
    have hs : Braceless (FrameVar.size.code frame) := FrameVar.braceless_code .size frame
    have hk : Braceless (FrameVar.key.code frame) := FrameVar.braceless_code .key frame
    have hv : Braceless (FrameVar.value.code frame) := FrameVar.braceless_code .value frame
    simp only [controls, List.mem_cons, Control.text.injEq, reduceCtorEq, false_or, or_false,
      List.not_mem_nil] at h
    rcases h with rfl | rfl | rfl | rfl
    · exact ha.append (by decide)
    · exact ((((Braceless.append (by decide) ha).append (by decide)).append ha).append (by decide))
    · have hcount :
          Braceless (FrameVar.size.code frame ++ "=count(" ++ FrameVar.array.code frame) :=
        (hs.append (by decide)).append ha
      exact ((((((((hcount.append (by decide)).append hi).append (by decide)).append ha).append
        (by decide)).append hk).append (by decide)).append hv).append (by decide)
    · exact (Braceless.append (by decide) hi).append (by decide)
  | branch test =>
    simp only [controls, List.mem_cons, Control.text.injEq, reduceCtorEq, false_or, or_false,
      List.not_mem_nil] at h
    rcases h with rfl | rfl <;> decide
  | elseIf test =>
    simp only [controls, List.mem_cons, Control.text.injEq, reduceCtorEq, false_or, or_false,
      List.not_mem_nil] at h
    rw [h]
    decide
  | _ => simp [controls] at h

/-- The braces around the next statement. -/
def nest (s : Statement) (braces : List Brace) : Option (List Brace) :=
  (Control.steps ⟨braces, none⟩ s.controls).map Host.nest

end Statement

/-- The braces around what follows some statements. -/
def nestAll (braces : List Brace) : List Statement → Option (List Brace)
  | [] => some braces
  | s :: others => (s.nest braces).bind fun braces => nestAll braces others

/-! ## Braces of the open blocks -/

namespace Block

/-- The blocks that tags can leave open: an else marker stands right on its own block. -/
inductive Shaped : List Block → Prop
  | nil : Shaped []
  | loop (line : Nat) {blocks : List Block} (h : Shaped blocks) : Shaped (⟨.loop, line⟩ :: blocks)
  | loopElse (line start : Nat) {blocks : List Block} (h : Shaped blocks) :
      Shaped (⟨.loopElse, line⟩ :: ⟨.loop, start⟩ :: blocks)
  | branch (line : Nat) {blocks : List Block} (h : Shaped blocks) :
      Shaped (⟨.branch, line⟩ :: blocks)
  | branchElse (line start : Nat) {blocks : List Block} (h : Shaped blocks) :
      Shaped (⟨.branchElse, line⟩ :: ⟨.branch, start⟩ :: blocks)

/-- **The braces that the open blocks stand for.**  A loop has two, and its else part takes the
place of both. -/
def braces : List Block → List Brace
  | [] => []
  | ⟨.loop, _⟩ :: blocks => .each (loops blocks + 1) :: .guard (loops blocks + 1) :: braces blocks
  | ⟨.loopElse, _⟩ :: blocks => .otherwise (.guard (loops blocks)) :: (braces blocks).drop 2
  | ⟨.branch, _⟩ :: blocks => .test :: braces blocks
  | ⟨.branchElse, _⟩ :: blocks => .otherwise .test :: (braces blocks).drop 1

/-- The number of loops with one more block. -/
theorem loops_cons (b : Block) (blocks : List Block) :
    loops (b :: blocks) = loops blocks + if b.kind = .loop then 1 else 0 := by
  unfold loops
  rw [List.countP_cons]
  simp

/-- Closing takes one shape off. -/
theorem Shaped.close {blocks : List Block} (h : Shaped blocks) : Shaped (Block.close blocks) := by
  cases h with
  | nil => exact .nil
  | loop _ h => exact h
  | loopElse _ _ h => exact h
  | branch _ h => exact h
  | branchElse _ _ h => exact h

/-- Only no block at all counts as closed. -/
theorem Shaped.eq_nil {blocks : List Block} (h : Shaped blocks) (hc : needClosed blocks = .ok ()) :
    blocks = [] := by
  cases h with
  | nil => rfl
  | loop _ _ => cases hc
  | loopElse _ _ _ => cases hc
  | branch _ _ => cases hc
  | branchElse _ _ _ => cases hc

end Block

/-- **A change of the blocks is the change of the braces** that the host makes. -/
theorem nest_of_change {line : Nat} {before after : List Block} {s : Statement}
    (h : Change line before s after) (hb : Block.Shaped before) :
    Block.Shaped after ∧ s.nest (Block.braces before) = some (Block.braces after) := by
  cases h with
  | echo value => exact ⟨hb, rfl⟩
  | loop array => exact ⟨.loop line hb, rfl⟩
  | branch test => exact ⟨.branch line hb, rfl⟩
  | loopElse start blocks =>
    obtain _ | ⟨_, hb⟩ := hb
    refine ⟨.loopElse line start hb, ?_⟩
    change some (Brace.otherwise (.guard (Block.loops blocks + 1)) :: Block.braces blocks) = _
    rw [Block.braces, Block.loops_cons]
    rfl
  | elseIf start blocks test => exact ⟨hb, rfl⟩
  | branchElse start blocks =>
    cases hb with
    | branch _ hb => exact ⟨.branchElse line start hb, rfl⟩
  | endLoop start blocks =>
    cases hb with
    | loop _ hb => exact ⟨hb, rfl⟩
  | endBranch top blocks hk =>
    refine ⟨hb.close, ?_⟩
    cases hb with
    | loop _ _ => exact absurd rfl hk
    | loopElse _ _ _ => rfl
    | branch _ _ => rfl
    | branchElse _ _ _ => rfl

/-- **The host reads a run of tags as nested control flow.** -/
theorem nestAll_of_run {before after : List Block} {run : List Statement}
    (h : Run before run after) (hb : Block.Shaped before) :
    Block.Shaped after ∧ nestAll (Block.braces before) run = some (Block.braces after) := by
  induction h with
  | done => exact ⟨hb, rfl⟩
  | step change _ ih =>
    obtain ⟨hm, hnest⟩ := nest_of_change change hb
    obtain ⟨ha, hothers⟩ := ih hm
    refine ⟨ha, ?_⟩
    rw [nestAll, hnest]
    exact hothers

end Stencil
