import Stencil.Proofs.Expr.Complete
import Stencil.Template.Basic

/-!
# Proofs/Block/Change — what a tag does to the open blocks

`Change line before s after` lists all that a tag can do: the blocks it finds, the statement it
becomes, and the blocks it leaves.  `change_of_readStatement` says that the reader of tags does
nothing else, and `run_of_scan` carries this over a whole template.  Everything about blocks, frames
and braces is derived from these changes, and no later proof opens the reader again.
-/

namespace Stencil

/-! ## One tag -/

namespace Statement

/-- The command of the tag that a statement comes from. -/
def command : Statement → Command
  | echo _ => .echo
  | loop .. => .loop
  | branch _ => .branch
  | loopElse | elseIf _ | branchElse => .otherwise
  | endLoop | endBranch => .finish

/-- The expression of a statement. -/
def value? : Statement → Option Expr
  | echo value | loop _ value | branch value | elseIf value => some value
  | loopElse | branchElse | endLoop | endBranch => none

end Statement

/-- **What a tag on `line` does**: the blocks before it, its statement, and the blocks after it. -/
inductive Change (line : Nat) : List Block → Statement → List Block → Prop
  | echo (blocks : List Block) (value : Expr) : Change line blocks (.echo value) blocks
  | loop (blocks : List Block) (array : Expr) :
      Change line blocks (.loop (Block.loops blocks + 1) array) (⟨.loop, line⟩ :: blocks)
  | branch (blocks : List Block) (test : Expr) :
      Change line blocks (.branch test) (⟨.branch, line⟩ :: blocks)
  | loopElse (start : Nat) (blocks : List Block) :
      Change line (⟨.loop, start⟩ :: blocks) .loopElse
        (⟨.loopElse, line⟩ :: ⟨.loop, start⟩ :: blocks)
  | elseIf (start : Nat) (blocks : List Block) (test : Expr) :
      Change line (⟨.branch, start⟩ :: blocks) (.elseIf test) (⟨.branch, start⟩ :: blocks)
  | branchElse (start : Nat) (blocks : List Block) :
      Change line (⟨.branch, start⟩ :: blocks) .branchElse
        (⟨.branchElse, line⟩ :: ⟨.branch, start⟩ :: blocks)
  | endLoop (start : Nat) (blocks : List Block) :
      Change line (⟨.loop, start⟩ :: blocks) .endLoop blocks
  | endBranch (top : Block) (blocks : List Block) (h : top.kind ≠ .loop) :
      Change line (top :: blocks) .endBranch (Block.close (top :: blocks))

/-- An else tag changes the blocks as its block says. -/
theorem change_of_readElse {r : Registry} {top : Block} {blocks after : List Block} {line : Nat}
    {t rest : Text} {s : Statement}
    (h : readElse r (top :: blocks) line top t = .ok ((s, after), rest)) :
    s.command = .otherwise ∧ Change line (top :: blocks) s after ∧
      ∀ e, s.value? = some e → readTag ⟨r, Block.loops (top :: blocks)⟩ t = .ok (e, rest) := by
  obtain ⟨kind, start⟩ := top
  unfold readElse at h
  dsimp only at h
  split at h
  · cases h
  · cases h
  · cases h
    exact ⟨rfl, .loopElse start blocks, nofun⟩
  · split at h
    · cases h
      exact ⟨rfl, .branchElse start blocks, nofun⟩
    · obtain ⟨⟨test, r1⟩, ht, hr⟩ := bind_eq_ok_iff.1 h
      cases hr
      refine ⟨rfl, .elseIf start blocks test, ?_⟩
      rintro e ⟨⟩
      exact ht

/-- **A command that was read** does one of the changes, and its expression is all it read. -/
theorem change_of_readCommand {r : Registry} {blocks after : List Block} {line : Nat}
    {command : Command} {t rest : Text} {s : Statement}
    (h : readCommand r blocks line command t = .ok (some ((s, after), rest))) :
    s.command = command ∧ Change line blocks s after ∧
      ∀ e, s.value? = some e → readTag ⟨r, Block.loops blocks⟩ t = .ok (e, rest) := by
  cases command with
  | echo =>
    obtain ⟨⟨value, r1⟩, ht, hr⟩ := bind_eq_ok_iff.1 h
    cases hr
    refine ⟨rfl, .echo blocks value, ?_⟩
    rintro e ⟨⟩
    exact ht
  | loop =>
    obtain ⟨⟨array, r1⟩, ht, hr⟩ := bind_eq_ok_iff.1 h
    cases hr
    refine ⟨rfl, .loop blocks array, ?_⟩
    rintro e ⟨⟩
    exact ht
  | branch =>
    obtain ⟨⟨test, r1⟩, ht, hr⟩ := bind_eq_ok_iff.1 h
    cases hr
    refine ⟨rfl, .branch blocks test, ?_⟩
    rintro e ⟨⟩
    exact ht
  | otherwise =>
    cases blocks with
    | nil => cases h
    | cons top blocks =>
      obtain ⟨found, he, hr⟩ := bind_eq_ok_iff.1 h
      cases hr
      exact change_of_readElse he
  | finish =>
    cases blocks with
    | nil => cases h
    | cons top blocks =>
      obtain ⟨kind, start⟩ := top
      cases h
      dsimp only
      by_cases hk : kind = .loop
      · rw [if_pos hk, hk]
        exact ⟨rfl, .endLoop start blocks, nofun⟩
      · rw [if_neg hk]
        exact ⟨rfl, .endBranch ⟨kind, start⟩ blocks hk, nofun⟩

/-- **A tag that was read** does one of the changes, and its expression fills it. -/
theorem change_of_readStatement {r : Registry} {blocks after : List Block} {line : Nat}
    {command : Command} {t rest : Text} {s : Statement}
    (h : readStatement r blocks line command t = .ok (some ((s, after), rest))) :
    s.command = command ∧ Change line blocks s after ∧
      ∀ e, s.value? = some e → ∃ rest', Fills ⟨r, Block.loops blocks⟩ t e rest' := by
  obtain ⟨result, hc, hr⟩ := bind_eq_ok_iff.1 h
  cases result with
  | none => cases hr
  | some found =>
    obtain ⟨⟨s', after'⟩, r1⟩ := found
    obtain ⟨r2, -, hr⟩ := bind_eq_ok_iff.1 hr
    cases hr
    obtain ⟨hcommand, hchange, hvalue⟩ := change_of_readCommand hc
    exact ⟨hcommand, hchange, fun e hv => ⟨_, readTag_eq_ok_iff.1 (hvalue e hv)⟩⟩

/-! ## A whole template -/

namespace Compiler

theorem segments_eq_ok_iff {c : Compiler} {source : Text} {segments : List Segment} :
    c.segments source = .ok segments ↔
      HostTag.reject c.shortTags (Source.normalize source) = .ok () ∧
        scan c.registry [] 1 (Source.normalize source) = .ok segments := by
  unfold Compiler.segments
  dsimp only
  split
  · next hhost => simp [hhost]
  · next hhost => simp [hhost]

theorem compile_eq_ok_iff {c : Compiler} {source out : Text} :
    c.compile source = .ok out ↔
      ∃ segments, c.segments source = .ok segments ∧
        out = segments.flatMap (Segment.code c.registry) := by
  unfold compile
  split
  · next hs => simp [hs]
  · next hs => simp [hs, eq_comm]

theorem compile_eq_error_iff {c : Compiler} {source : Text} {d : Diagnostic} :
    c.compile source = .error d ↔ c.segments source = .error d := by
  unfold compile
  split
  · next hs => simp [hs]
  · next hs => simp [hs]

end Compiler

/-- The statement of a segment. -/
def Segment.statement? : Segment → Option Statement
  | tag _ _ statement => some statement
  | _ => none

/-- The statements of segments, in order. -/
def statements (segments : List Segment) : List Statement := segments.filterMap Segment.statement?

/-- **The changes of a run of tags.** -/
inductive Run : List Block → List Statement → List Block → Prop
  | done (blocks : List Block) : Run blocks [] blocks
  | step {line : Nat} {before middle after : List Block} {s : Statement} {others : List Statement}
      (change : Change line before s middle) (run : Run middle others after) :
      Run before (s :: others) after

/-- A segment that was read is a tag that changes the blocks, or it leaves them alone. -/
theorem run_of_readSegment {r : Registry} {blocks after : List Block} {line : Nat} {o : Opener}
    {segment : Segment} {rest : Text}
    (h : readSegment r blocks line o = .ok ((segment, after), rest)) :
    Run blocks (statements [segment]) after := by
  simp only [readSegment] at h
  split at h
  · cases h
    exact .done blocks
  split at h
  · cases h
    exact .done blocks
  split at h
  · cases h
  · cases h
    exact .done blocks
  · next hs =>
    cases h
    exact .step (change_of_readStatement hs).2.1 (.done after)

theorem Run.append {a b c : List Block} {s s' : List Statement} (h : Run a s b) (k : Run b s' c) :
    Run a (s ++ s') c := by
  induction h with
  | done => exact k
  | step change _ ih => exact .step change (ih k)

/-- **Every segment of a scanned text was read** behind the changes of those before it. -/
theorem run_of_scan {r : Registry} {blocks : List Block} {line : Nat} {t : Text}
    {segments front back : List Segment} {segment : Segment}
    (h : scan r blocks line t = .ok segments) (hsplit : segments = front ++ segment :: back) :
    ∃ middle, Run blocks (statements front) middle ∧
      ((∃ text, segment = .plain text) ∨
        ∃ start o after rest, readSegment r middle start o = .ok ((segment, after), rest)) := by
  fun_induction scan r blocks line t generalizing segments front with
  | case1 => cases h
  | case2 blocks line t hf hclosed =>
    cases h
    cases front with
    | nil =>
      obtain ⟨rfl, -⟩ := List.cons.inj hsplit
      exact ⟨blocks, .done blocks, .inl ⟨t, rfl⟩⟩
    | cons _ front => simp at hsplit
  | case3 => cases h
  | case4 => cases h
  | case5 blocks line t o hf start segment' after rest hr segments' hscan =>
    rename_i ih
    cases h
    rcases front with _ | ⟨first, _ | ⟨second, front⟩⟩
    · obtain ⟨rfl, -⟩ := List.cons.inj hsplit
      exact ⟨blocks, .done blocks, .inl ⟨_, rfl⟩⟩
    · simp only [List.cons_append, List.nil_append, List.cons.injEq] at hsplit
      obtain ⟨rfl, rfl, -⟩ := hsplit
      exact ⟨blocks, .done blocks, .inr ⟨start, o, after, rest, hr⟩⟩
    · simp only [List.cons_append, List.cons.injEq] at hsplit
      obtain ⟨rfl, rfl, hsplit⟩ := hsplit
      obtain ⟨middle, hrun, hsegment⟩ := ih hscan hsplit
      have hfront : statements (.plain o.before :: segment' :: front) =
          statements [segment'] ++ statements front := by
        cases segment' <;> rfl
      rw [hfront]
      exact ⟨middle, (run_of_readSegment hr).append hrun, hsegment⟩

/-- **A scanned text runs to blocks that are all closed.** -/
theorem run_of_scan_ok {r : Registry} {blocks : List Block} {line : Nat} {t : Text}
    {segments : List Segment} (h : scan r blocks line t = .ok segments) :
    ∃ after, Run blocks (statements segments) after ∧ needClosed after = .ok () := by
  fun_induction scan r blocks line t generalizing segments with
  | case1 => cases h
  | case2 blocks line t hf hclosed =>
    cases h
    exact ⟨blocks, .done blocks, hclosed⟩
  | case3 => cases h
  | case4 => cases h
  | case5 blocks line t o hf start segment after rest hr segments' hscan =>
    rename_i ih
    cases h
    obtain ⟨last, hrun, hclosed⟩ := ih hscan
    have hsegments : statements (.plain o.before :: segment :: segments') =
        statements [segment] ++ statements segments' := by
      cases segment <;> rfl
    rw [hsegments]
    exact ⟨last, (run_of_readSegment hr).append hrun, hclosed⟩

end Stencil
