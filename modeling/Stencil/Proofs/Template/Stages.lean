import Stencil.Proofs.Block.Exact
import Stencil.Proofs.Template.Segments

/-!
# Proofs/Template/Stages — how far a scan has come

    stage ──plain · piece──▸ stage ──plain · piece──▸ … ──▸ last stage

A stage is where a scan stands: the blocks that are open, the line, and the text ahead.  `Passes`
goes from stage to stage over segments that were read, so it tells all that a scan has done before
it ends or fails.  Every scan passes to a last stage (`exists_passes`), and from there on it does
what a scan of the last stage does (`Passes.scan`).
-/

namespace Stencil

/-- Where a scan stands: inside blocks, on a line, with a text ahead. -/
structure Stage where
  blocks : List Block
  line : Nat
  ahead : Text

namespace Stage

/-- The scan from a stage on. -/
def scan (r : Registry) (p : Stage) : Except Diagnostic (List Segment) :=
  Stencil.scan r p.blocks p.line p.ahead

/-- The stage behind a segment that was read at an opener. -/
def next (p : Stage) (o : Opener) (segment : Segment) (after : List Block) (rest : Text) : Stage :=
  ⟨after, p.line + o.before.newlines + segment.source.newlines, rest⟩

end Stage

/-- **The segments between two stages**, each read where the one before it ends. -/
inductive Passes (r : Registry) : Stage → List Segment → Stage → Prop
  | done (p : Stage) : Passes r p [] p
  | step {p q : Stage} {o : Opener} {segment : Segment} {after : List Block} {rest : Text}
      {segments : List Segment} (find : Opener.find? p.ahead = some o)
      (read : readSegment r p.blocks (p.line + o.before.newlines) o =
        .ok ((segment, after), rest))
      (others : Passes r (p.next o segment after rest) segments q) :
      Passes r p (.plain o.before :: segment :: segments) q

/-- A segment that was read leaves the blocks as they are, or opens one on its line, or closes
some. -/
theorem blocks_of_readSegment {r : Registry} {blocks after : List Block} {line : Nat} {o : Opener}
    {segment : Segment} {rest : Text}
    (h : readSegment r blocks line o = .ok ((segment, after), rest)) {b : Block} (hb : b ∈ after) :
    b ∈ blocks ∨ b.line = line := by
  simp only [readSegment] at h
  split at h
  · cases h
    exact .inl hb
  split at h
  · cases h
    exact .inl hb
  split at h
  · cases h
  · cases h
    exact .inl hb
  next hread =>
  cases h
  have hnew : ∀ {kind : BlockKind} {blocks : List Block}, b ∈ (⟨kind, line⟩ : Block) :: blocks →
      b ∈ blocks ∨ b.line = line := by
    intro kind blocks hb
    rcases List.mem_cons.1 hb with rfl | hb
    · exact .inr rfl
    · exact .inl hb
  cases (change_of_readStatement hread).2.1 with
  | echo => exact .inl hb
  | loop => exact hnew hb
  | branch => exact hnew hb
  | loopElse => exact hnew hb
  | elseIf => exact .inl hb
  | branchElse => exact hnew hb
  | endLoop => exact .inl (List.mem_cons_of_mem _ hb)
  | endBranch => exact .inl ((List.dropWhile_sublist _).subset (List.mem_of_mem_tail hb))

namespace Passes

variable {r : Registry} {p q : Stage} {segments : List Segment}

/-- **The sources of the segments lie between the stages.** -/
theorem source (h : Passes r p segments q) :
    p.ahead = segments.flatMap Segment.source ++ q.ahead := by
  induction h with
  | done => rfl
  | step find read others ih =>
    simp only [Stage.next] at ih
    rw [← Opener.find?_append find, List.append_assoc, (fits_of_readSegment find read).1, ih]
    simp [Segment.source]

/-- **The line counts the line feeds of the segments.** -/
theorem line (h : Passes r p segments q) :
    q.line = p.line + Text.newlines (segments.flatMap Segment.source) := by
  induction h with
  | done => rfl
  | step find read others ih =>
    rw [ih, List.flatMap_cons, List.flatMap_cons, Text.newlines_append, Text.newlines_append]
    simp only [Stage.next, Segment.source]
    omega

/-- A block that is open was open before, or a tag in between has opened it. -/
theorem blocks (h : Passes r p segments q) {b : Block} (hb : b ∈ q.blocks) :
    b ∈ p.blocks ∨ p.line ≤ b.line ∧ b.line ≤ q.line := by
  induction h with
  | done => exact .inl hb
  | @step p q o segment after rest segments find read others ih =>
    have hlines := others.line
    simp only [Stage.next] at hlines ih
    rcases ih hb with hmem | hline
    · rcases blocks_of_readSegment read hmem with hmem | hline
      · exact .inl hmem
      · exact .inr (by omega)
    · exact .inr (by omega)

/-- **A scan goes on from the last stage.** -/
theorem scan (h : Passes r p segments q) : p.scan r = (q.scan r).map (segments ++ ·) := by
  induction h with
  | done p => cases hscan : p.scan r <;> simp [Except.map]
  | step find read others ih =>
    simp only [Stage.scan, Stage.next] at ih ⊢
    rw [scan_of_ok find read, ih]
    cases Stencil.scan .. <;> rfl

theorem run (h : Passes r p segments q) : Run p.blocks (statements segments) q.blocks := by
  induction h with
  | done => exact .done _
  | @step p q o segment after rest segments find read others ih =>
    have hsegments : statements (.plain o.before :: segment :: segments) =
        statements [segment] ++ statements segments := by
      cases segment <;> rfl
    rw [hsegments]
    exact (run_of_readSegment read).append ih

end Passes

/-- **Every scan passes to a last stage**: no opener is ahead, or a piece that cannot be read. -/
theorem exists_passes (r : Registry) (p : Stage) :
    ∃ segments q, Passes r p segments q ∧
      (Opener.find? q.ahead = none ∨
        ∃ o d, Opener.find? q.ahead = some o ∧
          readSegment r q.blocks (q.line + o.before.newlines) o = .error d) := by
  obtain ⟨blocks, line, ahead⟩ := p
  fun_induction Stencil.scan r blocks line ahead with
  | case1 blocks line t hfind => exact ⟨[], _, .done _, .inl hfind⟩
  | case2 blocks line t hfind => exact ⟨[], _, .done _, .inl hfind⟩
  | case3 blocks line t o hfind start d hread =>
    exact ⟨[], _, .done _, .inr ⟨o, d, hfind, hread⟩⟩
  | case4 blocks line t o hfind start segment after rest hread =>
    rename_i ih
    obtain ⟨segments, q, hpasses, hend⟩ := ih
    exact ⟨_, q, .step hfind hread hpasses, hend⟩
  | case5 blocks line t o hfind start segment after rest hread =>
    rename_i ih
    obtain ⟨segments, q, hpasses, hend⟩ := ih
    exact ⟨_, q, .step hfind hread hpasses, hend⟩

end Stencil
