import Stencil.Proofs.Block.Nesting
import Stencil.Proofs.Expr.Resolve

/-!
# Proofs/Block/Frame — which loop a reference belongs to

A chain with `n` leading dots becomes a variable of frame `n`.  That frame is assigned by the
`foreach` of the `n`-th loop around the tag, counted from the outermost, as long as the tag stands
in the bodies of the first `n` loops: an else part still counts the loop that it belongs to,
although the frame of that loop is no longer assigned.  `frame_iff_bodies` says that this is the
only exception.
-/

namespace Stencil

/-! ## References -/

mutual

/-- The chains of a value, with what they stand for. -/
def Value.references : Value → List (Chain × Reference)
  | .number _ => []
  | .quoted _ => []
  | .name chain target => [(chain, target)]
  | .call chain target args => (chain, target) :: args.references
  | .paren inner => inner.references
  | .literal _ items => items.references
  | .index value _ key => value.references ++ key.references
  | .method value _ args => value.references ++ args.references

/-- The chains of terms. -/
def Terms.references : Terms → List (Chain × Reference)
  | .one _ value => value.references
  | .more left _ _ value => left.references ++ value.references

/-- **The chains of an expression**, with what they stand for. -/
def Expr.references : Expr → List (Chain × Reference)
  | .plain terms => terms.references
  | .ternary test yes no => test.references ++ (yes.references ++ no.references)

/-- The chains of the parts of a group. -/
def Items.references : Items → List (Chain × Reference)
  | .empty => []
  | .item before value => before.references ++ value.references
  | .pair before key value => before.references ++ (key.references ++ value.references)

end

/-- A chain that stands for its target, called or not. -/
def Resolved (s : Scope) (p : Chain × Reference) : Prop := ∃ called, p.1.Denotes s called p.2

mutual

/-- The chains of a value are resolved. -/
theorem Value.resolved_of_mem {s : Scope} {p : Chain × Reference} : ∀ {value : Value},
    value.WellFormed s → p ∈ value.references → Resolved s p
  | .number _, _, hp => nomatch hp
  | .quoted _, _, hp => nomatch hp
  | .name _ _, hw, hp => by
    rw [List.mem_singleton.1 hp]
    exact ⟨false, hw⟩
  | .call _ _ args, hw, hp => by
    rcases List.mem_cons.1 hp with rfl | hp
    · exact ⟨true, hw.1⟩
    · exact Items.resolved_of_mem hw.2.2 hp
  | .paren _, hw, hp => Expr.resolved_of_mem hw hp
  | .literal _ _, hw, hp => Items.resolved_of_mem hw.2 hp
  | .index _ _ _, hw, hp => by
    rcases List.mem_append.1 hp with hp | hp
    · exact Value.resolved_of_mem hw.1 hp
    · exact Expr.resolved_of_mem hw.2.2 hp
  | .method _ _ _, hw, hp => by
    rcases List.mem_append.1 hp with hp | hp
    · exact Value.resolved_of_mem hw.1 hp
    · exact Items.resolved_of_mem hw.2.2.2.2 hp

/-- The chains of terms are resolved. -/
theorem Terms.resolved_of_mem {s : Scope} {p : Chain × Reference} : ∀ {terms : Terms},
    terms.WellFormed s → p ∈ terms.references → Resolved s p
  | .one _ _, hw, hp => Value.resolved_of_mem hw.2 hp
  | .more _ _ _ _, hw, hp => by
    rcases List.mem_append.1 hp with hp | hp
    · exact Terms.resolved_of_mem hw.1 hp
    · exact Value.resolved_of_mem hw.2.2.2 hp

/-- **The chains of an expression are resolved.** -/
theorem Expr.resolved_of_mem {s : Scope} {p : Chain × Reference} : ∀ {e : Expr},
    e.WellFormed s → p ∈ e.references → Resolved s p
  | .plain _, hw, hp => Terms.resolved_of_mem hw hp
  | .ternary _ _ _, hw, hp => by
    rcases List.mem_append.1 hp with hp | hp
    · exact Terms.resolved_of_mem hw.1 hp
    rcases List.mem_append.1 hp with hp | hp
    · exact Expr.resolved_of_mem hw.2.1.2 hp
    · exact Expr.resolved_of_mem hw.2.2.2 hp

/-- The chains of the parts of a group are resolved. -/
theorem Items.resolved_of_mem {s : Scope} {p : Chain × Reference} : ∀ {items : Items},
    items.WellFormed s → p ∈ items.references → Resolved s p
  | .empty, _, hp => nomatch hp
  | .item _ _, hw, hp => by
    rcases List.mem_append.1 hp with hp | hp
    · exact Items.resolved_of_mem hw.1 hp
    · exact Expr.resolved_of_mem hw.2 hp
  | .pair _ _ _, hw, hp => by
    rcases List.mem_append.1 hp with hp | hp
    · exact Items.resolved_of_mem hw.1 hp
    rcases List.mem_append.1 hp with hp | hp
    · exact Expr.resolved_of_mem hw.2.1 hp
    · exact Expr.resolved_of_mem hw.2.2 hp

end

/-! ## Frames -/

/-- The frame that a root belongs to. -/
def Root.frame? : Root → Option Nat
  | frame depth _ => some depth
  | _ => none

/-- The frame whose variables a reference reads. -/
def Reference.frame? : Reference → Option Nat
  | value root _ | wrapped root _ _ | objectMethod root _ _ => root.frame?
  | helper depth _ => some depth
  | _ => none

/-- **A reference to a frame reads a variable of that frame.** -/
theorem Reference.code_of_frame? {target : Reference} {n : Nat} (r : Registry)
    (h : target.frame? = some n) :
    ∃ (v : FrameVar) (front back : Text), target.code r = front ++ v.code n ++ back := by
  have hroot : ∀ root : Root, root.frame? = some n → ∃ v : FrameVar, root.code = v.code n := by
    intro root hr
    cases root with
    | frame depth v =>
      cases hr
      exact ⟨v, rfl⟩
    | _ => cases hr
  cases target with
  | value root keys =>
    obtain ⟨v, hv⟩ := hroot root h
    exact ⟨v, [], indexCode keys, congrArg (· ++ indexCode keys) hv⟩
  | wrapped root keys method =>
    obtain ⟨v, hv⟩ := hroot root h
    refine ⟨v, r.wrapper.opening, indexCode keys ++ (")->" ++ method), ?_⟩
    change r.wrapper.opening ++ root.code ++ indexCode keys ++ ")->" ++ method = _
    rewrite [hv]
    simp only [List.append_assoc]
  | objectMethod root keys method =>
    obtain ⟨v, hv⟩ := hroot root h
    refine ⟨v, [], indexCode keys ++ ("->" ++ method), ?_⟩
    change root.code ++ indexCode keys ++ "->" ++ method = _
    rewrite [hv]
    simp only [List.append_assoc, List.nil_append]
  | helper depth method =>
    cases h
    refine ⟨.index, r.helper.opening, "," ++ (FrameVar.size.code n ++ ("," ++
      (FrameVar.key.code n ++ ("," ++ (FrameVar.value.code n ++ (")->" ++ method)))))), ?_⟩
    change r.helper.opening ++ FrameVar.index.code n ++ "," ++ FrameVar.size.code n ++ "," ++
      FrameVar.key.code n ++ "," ++ FrameVar.value.code n ++ ")->" ++ method = _
    simp only [List.append_assoc]
  | _ => cases h

/-- **A chain with leading dots reads the frame that its dots count**, and there are as many loops
around it. -/
theorem Chain.Denotes.frame {s : Scope} {c : Chain} {called : Bool} {target : Reference}
    (h : c.Denotes s called target) (hd : 0 < c.depth) :
    c.depth ≤ s.loops ∧ target.frame? = some c.depth := by
  rcases h with ⟨word, -, -, rfl, -, -⟩ | ⟨-, -, hr⟩
  · cases hd
  rw [resolve, if_pos hd] at hr
  obtain ⟨hle, ⟨_, _, -, rfl⟩ | ⟨_, _, _, -, -, rfl⟩ | ⟨_, _, _, -, -, rfl⟩ | ⟨_, -, rfl⟩⟩ :=
    resolveLoop_cases hr
  · exact ⟨hle, rfl⟩
  · exact ⟨hle, rfl⟩
  · exact ⟨hle, rfl⟩
  · exact ⟨hle, rfl⟩

/-! ## Loops around a place -/

/-- The frame that the `foreach` of a brace assigns. -/
def Brace.frame? : Brace → Option Nat
  | each frame => some frame
  | _ => none

/-- The frames of the `foreach` bodies around a place, the outermost first. -/
def framesAround (nest : List Brace) : List Nat := (nest.filterMap Brace.frame?).reverse

/-- The place is in the else part of the loop of frame `n`. -/
def InElse (n : Nat) (nest : List Brace) : Prop := Brace.otherwise (.guard n) ∈ nest

instance (n : Nat) (nest : List Brace) : Decidable (InElse n nest) :=
  inferInstanceAs (Decidable (_ ∈ nest))

/-- **The `n`-th loop around a place assigns frame `n`**, and no loop inside it assigns it again. -/
def Encloses (n : Nat) (nest : List Brace) : Prop :=
  (framesAround nest)[n - 1]? = some n ∧ n ∉ (framesAround nest).drop n

instance (n : Nat) (nest : List Brace) : Decidable (Encloses n nest) :=
  inferInstanceAs (Decidable (_ ∧ _))

/-- Of the numbers up to `k` that pass a test, the `n`-th is `n` exactly when all up to `n` pass; it
comes only once. -/
theorem getElem?_filter_range' {p : Nat → Bool} {k n : Nat} (hn : 0 < n) (hk : n ≤ k) :
    (((List.range' 1 k).filter p)[n - 1]? = some n ∧ n ∉ ((List.range' 1 k).filter p).drop n) ↔
      ∀ m, 0 < m → m ≤ n → p m = true := by
  have hsplit : List.range' 1 k = List.range' 1 n ++ List.range' (1 + n) (k - n) := by
    rw [List.range'_append_1, show n + (k - n) = k by omega]
  have hhigh : ∀ m ∈ (List.range' (1 + n) (k - n)).filter p, n < m := by
    intro m hm
    have := (List.mem_range'_1.1 (List.mem_filter.1 hm).1).1
    omega
  rw [hsplit, List.filter_append]
  constructor
  · rintro ⟨hnth, -⟩
    have hlen : ((List.range' 1 n).filter p).length = (List.range' 1 n).length := by
      have hle := List.length_filter_le p (List.range' 1 n)
      rw [List.length_range'] at hle ⊢
      -- Fewer than `n` numbers would leave the `n`-th place to one that is greater than `n`.
      by_cases hlt : ((List.range' 1 n).filter p).length < n
      · rw [List.getElem?_append_right (by omega)] at hnth
        have := hhigh n (List.mem_of_getElem? hnth)
        omega
      · omega
    intro m hpos hle
    exact List.length_filter_eq_length_iff.1 hlen m (List.mem_range'_1.2 (by omega))
  · intro h
    have hall : (List.range' 1 n).filter p = List.range' 1 n := by
      refine List.filter_eq_self.2 fun m hm => ?_
      have := List.mem_range'_1.1 hm
      exact h m (by omega) (by omega)
    rw [hall]
    constructor
    · rw [List.getElem?_append_left (by rw [List.length_range']; omega),
        List.getElem?_range' (by omega)]
      congr 1
      omega
    · rw [List.drop_left' List.length_range']
      intro hm
      have := hhigh n hm
      omega

theorem inElse_cons {n : Nat} {b : Brace} {nest : List Brace} :
    InElse n (b :: nest) ↔ b = .otherwise (.guard n) ∨ InElse n nest := by
  unfold InElse
  rw [List.mem_cons, eq_comm]

theorem framesAround_cons (b : Brace) (nest : List Brace) :
    framesAround (b :: nest) = framesAround nest ++ b.frame?.toList := by
  unfold framesAround
  rw [List.filterMap_cons]
  cases b.frame? with
  | none => exact (List.append_nil _).symm
  | some n => exact List.reverse_cons

/-- **The loops around a place, as the open blocks count them**: those in their else part are the
ones whose `foreach` is closed. -/
structure Counts (k : Nat) (nest : List Brace) : Prop where
  bound : ∀ n, InElse n nest → 0 < n ∧ n ≤ k
  frames : framesAround nest = (List.range' 1 k).filter fun n => ¬ InElse n nest

namespace Counts

variable {k : Nat} {nest : List Brace}

/-- A brace that is neither a `foreach` nor the else part of a loop does not count. -/
theorem cons (h : Counts k nest) {b : Brace} (hf : b.frame? = none)
    (hb : ∀ n, b ≠ .otherwise (.guard n)) : Counts k (b :: nest) := by
  have hsame : ∀ n, InElse n (b :: nest) ↔ InElse n nest := by
    intro n
    rw [inElse_cons]
    exact or_iff_right (hb n)
  refine ⟨fun n hn => h.bound n ((hsame n).1 hn), ?_⟩
  rw [framesAround_cons, hf, h.frames]
  simp only [hsame, Option.toList_none, List.append_nil]

/-- The body of one more loop. -/
theorem each (h : Counts k nest) : Counts (k + 1) (.each (k + 1) :: nest) := by
  have hsame : ∀ n, InElse n (.each (k + 1) :: nest) ↔ InElse n nest := by
    intro n
    rw [inElse_cons]
    exact or_iff_right nofun
  have hlast : ¬ InElse (1 + k) nest := by
    intro hn
    have := (h.bound _ hn).2
    omega
  refine ⟨fun n hn => ?_, ?_⟩
  · have := h.bound n ((hsame n).1 hn)
    omega
  · rw [framesAround_cons, h.frames, List.range'_1_concat, List.filter_append]
    simp only [hsame]
    rw [List.filter_cons_of_pos (by simpa using hlast), Nat.add_comm 1 k]
    rfl

/-- The else part of one more loop. -/
theorem elsePart (h : Counts k nest) : Counts (k + 1) (.otherwise (.guard (k + 1)) :: nest) := by
  have hlater : ∀ n,
      InElse n (.otherwise (.guard (k + 1)) :: nest) ↔ k + 1 = n ∨ InElse n nest := by
    intro n
    rw [inElse_cons, Brace.otherwise.injEq, Brace.guard.injEq]
  refine ⟨fun n hn => ?_, ?_⟩
  · rcases (hlater n).1 hn with rfl | hn
    · omega
    · have := h.bound n hn
      omega
  · rw [framesAround_cons, h.frames, List.range'_1_concat, List.filter_append]
    have hsame :
        (List.range' 1 k).filter (fun n => ¬ InElse n (.otherwise (.guard (k + 1)) :: nest)) =
          (List.range' 1 k).filter fun n => ¬ InElse n nest := by
      refine List.filter_congr fun n hn => ?_
      have := List.mem_range'_1.1 hn
      simp only [hlater, show k + 1 ≠ n by omega, false_or]
    have hlast : InElse (1 + k) (.otherwise (.guard (k + 1)) :: nest) :=
      (hlater _).2 (.inl (Nat.add_comm k 1))
    rw [hsame, List.filter_cons_of_neg (by simpa using hlast)]
    rfl

/-- **A loop is around a place as its number says** exactly if none up to it is in its else part. -/
theorem encloses_iff (h : Counts k nest) {n : Nat} (hn : 0 < n) (hk : n ≤ k) :
    Encloses n nest ↔ ∀ m, m ≤ n → ¬ InElse m nest := by
  unfold Encloses
  rw [h.frames, getElem?_filter_range' hn hk]
  constructor
  · intro hall m hm hin
    have := hall m (h.bound m hin).1 hm
    simp [hin] at this
  · intro hall m _ hm
    simpa using hall m hm

end Counts

/-- **The open blocks count the loops around a place.** -/
theorem counts_braces {blocks : List Block} (h : Block.Shaped blocks) :
    Counts (Block.loops blocks) (Block.braces blocks) := by
  induction h with
  | nil => exact ⟨fun n hn => absurd hn List.not_mem_nil, rfl⟩
  | loop line _ ih =>
    rw [Block.loops_cons]
    exact (ih.cons (b := .guard _) rfl (by rintro n ⟨⟩)).each
  | @loopElse line start blocks _ ih =>
    have hloops : Block.loops (⟨.loopElse, line⟩ :: ⟨.loop, start⟩ :: blocks) =
        Block.loops blocks + 1 := by
      rw [Block.loops_cons, Block.loops_cons]
      rfl
    have hbraces : Block.braces (⟨.loopElse, line⟩ :: ⟨.loop, start⟩ :: blocks) =
        .otherwise (.guard (Block.loops blocks + 1)) :: Block.braces blocks := by
      rw [Block.braces, Block.loops_cons]
      rfl
    rw [hloops, hbraces]
    exact ih.elsePart
  | branch line _ ih =>
    rw [Block.loops_cons]
    exact ih.cons rfl (by rintro n ⟨⟩)
  | branchElse line start _ ih =>
    rw [Block.loops_cons, Block.loops_cons]
    exact ih.cons rfl (by rintro n ⟨⟩)

/-! ## References in a template -/

/-- The first piece of a list that is no expression stands before the expression. -/
theorem split_cons {a : Control} {pieces front back : List Control} {e : Expr}
    (h : a :: pieces = front ++ .value e :: back) (ha : a ≠ .value e) :
    ∃ front', front = a :: front' ∧ pieces = front' ++ .value e :: back := by
  cases front with
  | nil => exact absurd (List.cons.inj h).1 ha
  | cons b front' =>
    obtain ⟨rfl, hrest⟩ := List.cons.inj h
    exact ⟨front', rfl, hrest⟩

/-- An expression that is the first piece is the only one, if the others are none. -/
theorem split_value {e e' : Expr} {pieces front back : List Control}
    (h : .value e' :: pieces = front ++ .value e :: back) (hp : ∀ e, Control.value e ∉ pieces) :
    front = [] ∧ e' = e := by
  cases front with
  | nil => exact ⟨rfl, Control.value.inj (List.cons.inj h).1⟩
  | cons b front' =>
    refine absurd ?_ (hp e)
    rw [(List.cons.inj h).2]
    simp

/-- **The braces around the expression of a tag**: those around the tag, less the one that an else
tag closes before its condition. -/
theorem Change.steps_before_value {line : Nat} {before after : List Block} {s : Statement}
    {front back : List Control} {e : Expr} (h : Change line before s after)
    (hb : Block.Shaped before) (hs : s.controls = front ++ .value e :: back) :
    s.value? = some e ∧ ∃ blocks, Block.Shaped blocks ∧
      Block.loops blocks = Block.loops before ∧
      Control.steps ⟨Block.braces before, none⟩ front = some ⟨Block.braces blocks, none⟩ := by
  have hmem : Control.value e ∈ s.controls := by
    rw [hs]
    simp
  cases h with
  | echo value =>
    obtain ⟨rfl, rfl⟩ := split_value hs nofun
    exact ⟨rfl, before, hb, rfl, rfl⟩
  | loop array =>
    obtain ⟨front, rfl, hs1⟩ := split_cons hs nofun
    obtain ⟨rfl, rfl⟩ := split_value hs1 (by simp)
    exact ⟨rfl, before, hb, rfl, rfl⟩
  | branch test =>
    obtain ⟨front, rfl, hs1⟩ := split_cons hs nofun
    obtain ⟨rfl, rfl⟩ := split_value hs1 (by simp)
    exact ⟨rfl, before, hb, rfl, rfl⟩
  | elseIf start blocks test =>
    obtain ⟨front, rfl, hs1⟩ := split_cons hs nofun
    obtain ⟨front, rfl, hs2⟩ := split_cons hs1 nofun
    obtain ⟨rfl, rfl⟩ := split_value hs2 (by simp)
    obtain _ | _ | _ | ⟨_, hb⟩ := hb
    refine ⟨rfl, blocks, hb, ?_, rfl⟩
    rw [Block.loops_cons]
    rfl
  | loopElse => simp [Statement.controls] at hmem
  | branchElse => simp [Statement.controls] at hmem
  | endLoop => simp [Statement.controls] at hmem
  | endBranch => simp [Statement.controls] at hmem

/-- A segment that is a tag was read as one. -/
theorem readStatement_of_tag {r : Registry} {blocks after : List Block} {start line : Nat}
    {o : Opener} {text rest : Text} {s : Statement}
    (h : readSegment r blocks start o = .ok ((.tag text line s, after), rest)) :
    ∃ command, readStatement r blocks start command o.rest = .ok (some ((s, after), rest)) := by
  simp only [readSegment] at h
  split at h
  · cases h
  split at h
  · cases h
  next command _ =>
  split at h
  · cases h
  · cases h
  · next hs =>
    cases h
    exact ⟨command, hs⟩

/-- **The scope of a loop reference.**  In a template that compiles, a chain with `n` leading dots
reads frame `n`.  The host reads the tags before it as nested control flow, and there the `n`-th
loop around the reference is the one that assigns frame `n`, and no loop inside assigns it again,
exactly if the reference stands in no else part of one of the first `n` loops. -/
theorem frame_iff_bodies (c : Compiler) (source : Text) (segments before after : List Segment)
    (text : Text) (line : Nat) (s : Statement) (front back : List Control) (e : Expr)
    (chain : Chain) (target : Reference) (hok : c.segments source = .ok segments)
    (htag : segments = before ++ .tag text line s :: after)
    (hvalue : s.controls = front ++ .value e :: back) (hmem : (chain, target) ∈ e.references)
    (hdots : 0 < chain.depth) :
    (∃ (v : FrameVar) (f b : Text), target.code c.registry = f ++ v.code chain.depth ++ b) ∧
    ∃ braces nest, nestAll [] (statements before) = some braces ∧
      Control.steps ⟨braces, none⟩ front = some ⟨nest, none⟩ ∧
      (Encloses chain.depth nest ↔ ∀ m, m ≤ chain.depth → ¬ InElse m nest) := by
  obtain ⟨-, hscan⟩ := Compiler.segments_eq_ok_iff.1 hok
  obtain ⟨middle, hrun, ⟨text', ht⟩ | ⟨start, o, after', rest, hr⟩⟩ := run_of_scan hscan htag
  · cases ht
  obtain ⟨hshaped, hnest⟩ := nestAll_of_run hrun .nil
  obtain ⟨command, hs⟩ := readStatement_of_tag hr
  obtain ⟨-, hchange, hfills⟩ := change_of_readStatement hs
  obtain ⟨hv, blocks, hb, hloops, hsteps⟩ := hchange.steps_before_value hshaped hvalue
  obtain ⟨rest', hfill⟩ := hfills e hv
  obtain ⟨called, hden⟩ := Expr.resolved_of_mem hfill.wellFormed hmem
  obtain ⟨hle, hframe⟩ := hden.frame hdots
  refine ⟨Reference.code_of_frame? c.registry hframe, _, _, hnest, hsteps, ?_⟩
  refine (counts_braces hb).encloses_iff hdots ?_
  rw [hloops]
  exact hle

/-- In the body of a loop its frame is assigned. -/
theorem encloses_loop_body :
    ∃ segments before after text line e target nest,
      (Compiler.mk .standard false).segments "[@ a ][= .v ][/]" = .ok segments ∧
      segments = before ++ .tag text line (.echo e) :: after ∧
      (⟨1, ["v"]⟩, target) ∈ e.references ∧
      nestAll [] (statements before) = some nest ∧ Encloses 1 nest := by
  let array : Expr := .plain (.one none (.name ⟨0, ["a"]⟩ (.value .data ["a"])))
  let shown : Expr := .plain (.one none (.name ⟨1, ["v"]⟩ (.value (.frame 1 .value) [])))
  have hok : (Compiler.mk .standard false).segments "[@ a ][= .v ][/]" =
      .ok [.plain [], .tag "[@ a ]" 1 (.loop 1 array), .plain [], .tag "[= .v ]" 1 (.echo shown),
        .plain [], .tag "[/]" 1 .endLoop, .plain []] := by
    with_unfolding_all rfl
  have hmem : (⟨1, ["v"]⟩, .value (.frame 1 .value) []) ∈ shown.references :=
    List.mem_singleton.2 rfl
  obtain ⟨-, braces, nest, hbraces, hnest, hiff⟩ := frame_iff_bodies _ _ _
    [.plain [], .tag "[@ a ]" 1 (.loop 1 array), .plain []] _ _ _ (.echo shown) [] [] shown
    _ _ hok rfl rfl hmem Nat.one_pos
  cases hnest
  have hnone : ∀ m, m ≤ 1 → ¬ InElse m braces := by
    cases hbraces
    decide
  exact ⟨_, _, _, _, _, shown, _, braces, hok, rfl, hmem, hbraces, hiff.2 hnone⟩

/-- **In the else part of a loop its frame still counts**, though no `foreach` assigns it there: the
tag compiles, and no loop is around it. -/
theorem not_encloses_loop_else :
    ∃ segments before after text line e target nest,
      (Compiler.mk .standard false).segments "[@ a ][:][= .v ][/]" = .ok segments ∧
      segments = before ++ .tag text line (.echo e) :: after ∧
      (⟨1, ["v"]⟩, target) ∈ e.references ∧ target.frame? = some 1 ∧
      nestAll [] (statements before) = some nest ∧ framesAround nest = [] ∧ ¬ Encloses 1 nest := by
  let array : Expr := .plain (.one none (.name ⟨0, ["a"]⟩ (.value .data ["a"])))
  let shown : Expr := .plain (.one none (.name ⟨1, ["v"]⟩ (.value (.frame 1 .value) [])))
  have hok : (Compiler.mk .standard false).segments "[@ a ][:][= .v ][/]" =
      .ok [.plain [], .tag "[@ a ]" 1 (.loop 1 array), .plain [], .tag "[:]" 1 .loopElse, .plain [],
        .tag "[= .v ]" 1 (.echo shown), .plain [], .tag "[/]" 1 .endBranch, .plain []] := by
    with_unfolding_all rfl
  exact ⟨_, [.plain [], .tag "[@ a ]" 1 (.loop 1 array), .plain [], .tag "[:]" 1 .loopElse,
    .plain []], _, _, _, shown, _, [.otherwise (.guard 1)], hok, rfl, List.mem_singleton.2 rfl, rfl,
    rfl, rfl, by decide⟩

end Stencil
