import Stencil.Proofs.Expr.Extend
import Stencil.Proofs.Template.Stages

/-!
# Proofs/Template/Extend — a template under more symbols

    registry        stage ──segments──▸ stage ──segments──▸ … ──▸ end
    more symbols    stage ──segments──▸ stage ──segments──▸ … ──▸ end

Only the expressions of a template look at the registry.  So a template that compiles is scanned
through the same stages under more symbols (`Passes.extends`), tag by tag, and no two stages differ
in their blocks, their line or the text ahead.  What its segments are is the same up to what the
chains in them stand for (`Segment.bare`), and `compile_extends` says it of a whole template.
-/

namespace Stencil

/-! ## Tags -/

/-- A statement without what its chains stand for. -/
def Statement.bare : Statement → Statement
  | echo value => echo value.bare
  | loop frame array => loop frame array.bare
  | branch test => branch test.bare
  | elseIf test => elseIf test.bare
  | loopElse => loopElse
  | branchElse => branchElse
  | endLoop => endLoop
  | endBranch => endBranch

section Readers

variable {r r' : Registry} {blocks after : List Block} {line : Nat} {t rest : Text}
  {s : Statement}

theorem readElse_extends (hr : r.Extends r') {top : Block}
    (h : readElse r blocks line top t = .ok ((s, after), rest)) :
    ∃ s', readElse r' blocks line top t = .ok ((s', after), rest) ∧ s'.bare = s.bare := by
  unfold readElse at h ⊢
  split at h
  · cases h
  · cases h
  · exact ⟨s, h, rfl⟩
  split at h
  · next hends =>
    rw [if_pos hends]
    exact ⟨s, h, rfl⟩
  · next hends =>
    rw [if_neg hends]
    obtain ⟨⟨test, rest'⟩, htest, hfound⟩ := bind_eq_ok_iff.1 h
    cases hfound
    obtain ⟨test', htest', hbare⟩ := readTag_extends hr htest
    exact ⟨.elseIf test', bind_eq_ok_iff.2 ⟨_, htest', rfl⟩, by simp only [Statement.bare, hbare]⟩

theorem readCommand_extends (hr : r.Extends r') {command : Command}
    (h : readCommand r blocks line command t = .ok (some ((s, after), rest))) :
    ∃ s', readCommand r' blocks line command t = .ok (some ((s', after), rest)) ∧
      s'.bare = s.bare := by
  have hvalue : ∀ {value : Expr} {rest : Text},
      readTag ⟨r, Block.loops blocks⟩ t = .ok (value, rest) →
      ∃ value', readTag ⟨r', Block.loops blocks⟩ t = .ok (value', rest) ∧
        value'.bare = value.bare := readTag_extends hr
  cases command with
  | echo | loop | branch =>
    obtain ⟨⟨value, rest'⟩, hread, hfound⟩ := bind_eq_ok_iff.1 h
    cases hfound
    obtain ⟨value', hread', hbare⟩ := hvalue hread
    exact ⟨_, bind_eq_ok_iff.2 ⟨_, hread', rfl⟩, by simp only [Statement.bare, hbare]⟩
  | otherwise =>
    cases blocks with
    | nil => cases h
    | cons top blocks =>
      obtain ⟨found, hread, hfound⟩ := bind_eq_ok_iff.1 h
      cases hfound
      obtain ⟨s', hread', hbare⟩ := readElse_extends hr hread
      exact ⟨s', bind_eq_ok_iff.2 ⟨_, hread', rfl⟩, hbare⟩
  | finish => exact ⟨s, h, rfl⟩

/-- An else or end opener outside any block is no tag, whatever the symbols. -/
theorem readCommand_none (r' : Registry) {command : Command}
    (h : readCommand r blocks line command t = .ok none) :
    readCommand r' blocks line command t = .ok none := by
  cases command with
  | echo | loop | branch =>
    obtain ⟨found, -, hfound⟩ := bind_eq_ok_iff.1 h
    cases hfound
  | otherwise =>
    cases blocks with
    | nil => rfl
    | cons top blocks =>
      obtain ⟨found, -, hfound⟩ := bind_eq_ok_iff.1 h
      cases hfound
  | finish => exact h

/-- **A tag stays a tag**: it is read up to the same place and leaves the same blocks. -/
theorem readStatement_extends (hr : r.Extends r') {command : Command}
    (h : readStatement r blocks line command t = .ok (some ((s, after), rest))) :
    ∃ s', readStatement r' blocks line command t = .ok (some ((s', after), rest)) ∧
      s'.bare = s.bare := by
  obtain ⟨found, hcommand, hfound⟩ := bind_eq_ok_iff.1 h
  cases found with
  | none => cases hfound
  | some found =>
    obtain ⟨⟨s₁, after₁⟩, rest₁⟩ := found
    obtain ⟨rest₂, hclose, hfound⟩ := bind_eq_ok_iff.1 hfound
    cases hfound
    obtain ⟨s', hcommand', hbare⟩ := readCommand_extends hr hcommand
    exact ⟨s', bind_eq_ok_iff.2 ⟨_, hcommand', bind_eq_ok_iff.2 ⟨_, hclose, rfl⟩⟩, hbare⟩

theorem readStatement_none (r' : Registry) {command : Command}
    (h : readStatement r blocks line command t = .ok none) :
    readStatement r' blocks line command t = .ok none := by
  obtain ⟨found, hcommand, hfound⟩ := bind_eq_ok_iff.1 h
  cases found with
  | none => exact bind_eq_ok_iff.2 ⟨none, readCommand_none r' hcommand, rfl⟩
  | some found =>
    obtain ⟨rest', -, hfound⟩ := bind_eq_ok_iff.1 hfound
    cases hfound

end Readers

/-! ## Segments -/

/-- **A segment without what its chains stand for**: what it was read from, and of a tag its line,
its command and its expression as it is written. -/
def Segment.bare : Segment → Segment
  | plain text => plain text
  | escaped opener => escaped opener
  | comment text => comment text
  | tag text line statement => tag text line statement.bare
  | stray text => stray text

theorem Segment.source_bare (segment : Segment) : segment.bare.source = segment.source := by
  cases segment <;> rfl

/-- **One piece of a template** is read up to the same place and leaves the same blocks. -/
theorem readSegment_extends {r r' : Registry} (hr : r.Extends r') {blocks after : List Block}
    {line : Nat} {o : Opener} {segment : Segment} {rest : Text}
    (h : readSegment r blocks line o = .ok ((segment, after), rest)) :
    ∃ segment', readSegment r' blocks line o = .ok ((segment', after), rest) ∧
      segment'.bare = segment.bare := by
  unfold readSegment at h ⊢
  dsimp only at h ⊢
  split at h
  · next hescaped =>
    rw [if_pos hescaped]
    exact ⟨segment, h, rfl⟩
  next hescaped =>
  rw [if_neg hescaped]
  split at h
  · exact ⟨segment, h, rfl⟩
  split at h
  · cases h
  · next hread =>
    rw [readStatement_none r' hread]
    exact ⟨segment, h, rfl⟩
  · next statement after' rest' hread =>
    cases h
    obtain ⟨statement', hread', hbare⟩ := readStatement_extends hr hread
    rw [hread']
    exact ⟨_, rfl, by simp only [Segment.bare, hbare]⟩

/-- **A scan passes the same stages under more symbols.** -/
theorem Passes.extends {r r' : Registry} (hr : r.Extends r') {p q : Stage}
    {segments : List Segment} (h : Passes r p segments q) :
    ∃ segments', Passes r' p segments' q ∧
      segments'.map Segment.bare = segments.map Segment.bare := by
  induction h with
  | done p => exact ⟨[], .done p, rfl⟩
  | @step p q o segment after rest segments find read others ih =>
    obtain ⟨segment', read', hbare⟩ := readSegment_extends hr read
    obtain ⟨segments', others', hbares⟩ := ih
    have hnext : p.next o segment' after rest = p.next o segment after rest := by
      unfold Stage.next
      rw [← segment'.source_bare, hbare, segment.source_bare]
    refine ⟨.plain o.before :: segment' :: segments', .step find read' (hnext ▸ others'), ?_⟩
    simp only [List.map_cons, hbare, hbares]

/-- The scan of a stage without an opener ahead does not look at the registry. -/
theorem Stage.scan_of_find?_none {p : Stage} (h : Opener.find? p.ahead = none) (r r' : Registry) :
    p.scan r' = p.scan r := by
  rw [Stage.scan, Stage.scan, Stencil.scan_of_find?_none h, Stencil.scan_of_find?_none h]

theorem Stage.scan_extends {r r' : Registry} (hr : r.Extends r') {p : Stage}
    {segments : List Segment} (h : p.scan r = .ok segments) :
    ∃ segments', p.scan r' = .ok segments' ∧
      segments'.map Segment.bare = segments.map Segment.bare := by
  obtain ⟨front, q, hpasses, hend⟩ := exists_passes r p
  rw [hpasses.scan] at h
  rcases hend with hnone | ⟨o, d, hfind, hread⟩
  · obtain ⟨front', hpasses', hbare⟩ := hpasses.extends hr
    rw [hpasses'.scan, Stage.scan_of_find?_none hnone r r']
    cases hlast : q.scan r with
    | error d => rw [hlast] at h; cases h
    | ok last =>
      rw [hlast] at h
      cases h
      exact ⟨front' ++ last, rfl, by rw [List.map_append, List.map_append, hbare]⟩
  · rw [Stage.scan, scan_of_error hfind hread] at h
    cases h

/-! ## Templates -/

/-- **More symbols never break a template.**  Let a registry gain functions, constants, adapter
methods and members of the classes it has.  A template that compiled still compiles: its segments
are the same up to what the chains in them stand for, so each tag has its text, its line and hence
its mark, its command and its frame; and the scan passes the same stages, with the same blocks open
behind the same segments. -/
theorem compile_extends {r r' : Registry} (hr : r.Extends r') (shortTags : Bool) (source : Text)
    {body : Text} (h : (Compiler.mk r shortTags).compile source = .ok body) :
    ∃ segments segments' body', (Compiler.mk r shortTags).segments source = .ok segments ∧
      (Compiler.mk r' shortTags).segments source = .ok segments' ∧
      (Compiler.mk r' shortTags).compile source = .ok body' ∧
      segments'.map Segment.bare = segments.map Segment.bare ∧
      ∀ front stage, Passes r ⟨[], 1, Source.normalize source⟩ front stage →
        ∃ front', Passes r' ⟨[], 1, Source.normalize source⟩ front' stage ∧
          front'.map Segment.bare = front.map Segment.bare ∧ front' <+: segments' := by
  obtain ⟨segments, hsegments, -⟩ := Compiler.compile_eq_ok_iff.1 h
  obtain ⟨hhost, hscan⟩ := Compiler.segments_eq_ok_iff.1 hsegments
  obtain ⟨segments', hscan', hbare⟩ :=
    Stage.scan_extends (p := ⟨[], 1, Source.normalize source⟩) hr hscan
  have hsegments' := (Compiler.segments_eq_ok_iff (c := ⟨r', shortTags⟩)).2 ⟨hhost, hscan'⟩
  refine ⟨segments, segments', _, hsegments, hsegments',
    Compiler.compile_eq_ok_iff.2 ⟨segments', hsegments', rfl⟩, hbare, ?_⟩
  intro front stage hpasses
  obtain ⟨front', hpasses', hfront⟩ := hpasses.extends hr
  refine ⟨front', hpasses', hfront, ?_⟩
  rw [hpasses'.scan] at hscan'
  cases hlast : stage.scan r' with
  | error d => rw [hlast] at hscan'; cases hscan'
  | ok last =>
    rw [hlast] at hscan'
    cases hscan'
    exact List.prefix_append front' last

/-- A new function of a namespace takes a chain away from the wrapper: the template compiles to
another body, of the same segments. -/
theorem compile_extends_function : ∃ (segments segments' : List Segment) (body body' : Text),
    (Compiler.mk .standard false).compile "[= item.esc() ]" = .ok body ∧
    (Compiler.mk ⟨.valueWrapper, .loopHelper, Symbols.builtin.defineFunction "item\\esc"⟩
      false).compile "[= item.esc() ]" = .ok body' ∧ body ≠ body' ∧
    (Compiler.mk .standard false).segments "[= item.esc() ]" = .ok segments ∧
    segments'.map Segment.bare = segments.map Segment.bare := by
  let more : Registry :=
    ⟨.valueWrapper, .loopHelper, Symbols.builtin.defineFunction "item\\esc"⟩
  have hextends : Registry.standard.Extends more :=
    ⟨⟨rfl, List.Subset.refl _⟩, ⟨rfl, List.Subset.refl _⟩, Symbols.extends_defineFunction _ _⟩
  have hok : ((Compiler.mk .standard false).compile "[= item.esc() ]").toBool = true := by
    decide +kernel
  have hdiffers : ((Compiler.mk .standard false).compile "[= item.esc() ]").toOption ≠
      ((Compiler.mk more false).compile "[= item.esc() ]").toOption := by
    decide +kernel
  cases hbody : (Compiler.mk .standard false).compile "[= item.esc() ]" with
  | error d => rw [hbody] at hok; cases hok
  | ok body =>
    obtain ⟨segments, segments', body', hsegments, -, hbody', hbare, -⟩ :=
      compile_extends hextends false "[= item.esc() ]" hbody
    refine ⟨segments, segments', body, body', rfl, hbody', ?_, hsegments, hbare⟩
    rintro rfl
    exact hdiffers (by rw [hbody, hbody'])

end Stencil
