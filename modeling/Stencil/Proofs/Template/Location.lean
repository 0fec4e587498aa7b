import Mathlib.Algebra.Group.Nat.Defs
import Stencil.Proofs.Expr.Stuck
import Stencil.Proofs.Template.Stages

/-!
# Proofs/Template/Location — where a report points

    │ segments that compile │ before │ opener … stop … end of excerpt │ back │
                                     └──────────── tag ────────────┘

A fault of a tag is made without a place, and the scanner adds the place when the fault comes back
to it.  The place is right whatever the fault is: the reader has stopped inside the tag
(`readStatement_stopsIn`), so the text that the report quotes stands in the template where the
opener starts, and all before it was read (`error_location`).
-/

namespace Stencil

/-! ## The excerpt -/

theorem excerptEnd_prefix (t : Text) : excerptEnd t <+: t := by
  induction t with
  | nil => exact List.nil_prefix
  | cons c t ih =>
    unfold excerptEnd
    split
    · exact List.prefix_append [c] t
    split
    · exact List.nil_prefix
    · exact (List.prefix_cons_inj c).2 ih

/-- An excerpt ends within its line. -/
theorem newlines_excerptEnd (t : Text) : (excerptEnd t).newlines = 0 := by
  induction t with
  | nil => rfl
  | cons c t ih =>
    unfold excerptEnd
    split
    · next hc =>
      rw [hc]
      rfl
    split
    · rfl
    · next hc =>
      rw [Text.newlines, List.count_cons_of_ne hc]
      exact ih

/-! ## One tag -/

/-- **What a report about a tag says**: it quotes a text that starts with the opener, and its line is
that of the end of the quote. -/
theorem locate_cases (line : Nat) {o : Opener} {stuck : Stuck} (h : stuck.rest <:+ o.rest) :
    ∃ tag back, o.text ++ o.rest = tag ++ back ∧ o.text <+: tag ∧
      locate (o.text ++ o.rest) line stuck =
        ⟨stuck.fault.code, stuck.fault.message, some (line + tag.newlines), some tag, none⟩ := by
  obtain ⟨passed, hpassed⟩ := h
  obtain ⟨back, hback⟩ := excerptEnd_prefix stuck.rest
  have hupTo : Text.upTo (o.text ++ o.rest) stuck.rest = o.text ++ passed := by
    rw [← hpassed, ← List.append_assoc, Text.upTo_append]
  refine ⟨o.text ++ passed ++ excerptEnd stuck.rest, back, ?_, ?_, ?_⟩
  · rw [List.append_assoc, hback, List.append_assoc, hpassed]
  · rw [List.append_assoc]
    exact List.prefix_append _ _
  · unfold locate
    rw [hupTo, Text.newlines_append _ (excerptEnd _), newlines_excerptEnd]
    rfl

/-- **A tag that cannot be read** at a stage: the first opener ahead starts it, and a report quotes
`tag` of it, with `back` behind the quote. -/
structure Stage.RefusesTag (r : Registry) (q : Stage) (o : Opener) (tag back : Text)
    (e : Diagnostic) : Prop where
  find : Opener.find? q.ahead = some o
  ahead : q.ahead = o.before ++ (tag ++ back)
  opener : o.text <+: tag
  plain : o.backslashes = 0
  read : ∃ command stuck, Command.ofChar? o.command = some command ∧
    readStatement r q.blocks (q.line + o.before.newlines) command o.rest = .error stuck ∧
    e = ⟨stuck.fault.code, stuck.fault.message,
      some (q.line + o.before.newlines + tag.newlines), some tag, none⟩

/-- A report about a tag is about a reader that stopped in it. -/
theorem stuck_of_readSegment {r : Registry} {blocks : List Block} {line : Nat} {o : Opener}
    {e : Diagnostic} (h : readSegment r blocks line o = .error e) :
    o.backslashes = 0 ∧ ∃ command stuck, Command.ofChar? o.command = some command ∧
      readStatement r blocks line command o.rest = .error stuck ∧
      e = locate (o.text ++ o.rest) line stuck := by
  simp only [readSegment] at h
  split at h
  · cases h
  next hplain =>
  split at h
  · cases h
  next command hcommand =>
  split at h
  · next stuck hstuck =>
    cases h
    exact ⟨Nat.eq_zero_of_not_pos hplain, command, stuck, hcommand, hstuck, rfl⟩
  · cases h
  · cases h

/-- Only a tag can fail to be read, at a fault of its own. -/
theorem refusesTag_of_readSegment {r : Registry} {q : Stage} {o : Opener} {e : Diagnostic}
    (ho : Opener.find? q.ahead = some o)
    (h : readSegment r q.blocks (q.line + o.before.newlines) o = .error e) :
    (∃ tag back, q.RefusesTag r o tag back e) ∧ e.code ≠ .hostTag ∧ e.code ≠ .unclosedBlock := by
  obtain ⟨hplain, command, stuck, hcommand, hstuck, rfl⟩ := stuck_of_readSegment h
  obtain ⟨hrest, hfault⟩ := readStatement_stopsIn _ _ _ _ _ stuck hstuck
  obtain ⟨tag, back, hsplit, hopener, hlocate⟩ := locate_cases (q.line + o.before.newlines) hrest
  rw [hlocate]
  refine ⟨⟨tag, back, ho, ?_, hopener, hplain, command, stuck, hcommand, hstuck, rfl⟩, hfault⟩
  rw [← Opener.find?_append ho, List.append_assoc, hsplit]

/-! ## The first host tag -/

/-- **The host tag that is found is the first**, and its line is counted from the start. -/
theorem HostTag.find?_cases {short : Bool} {line n : Nat} {t tag : Text}
    (h : HostTag.find? short line t = some (tag, n)) :
    ∃ front rest, t = front ++ rest ∧ HostTag.at? short rest = some tag ∧
      (∀ x y, front = x ++ y → y ≠ [] → HostTag.at? short (y ++ rest) = none) ∧
      n = line + front.newlines := by
  induction t generalizing line with
  | nil => cases h
  | cons c t ih =>
    unfold HostTag.find? at h
    split at h
    · next hat =>
      cases h
      refine ⟨[], c :: t, rfl, hat, fun x y hxy hy => ?_, rfl⟩
      exact absurd (List.append_eq_nil_iff.1 hxy.symm).2 hy
    next hnone =>
    obtain ⟨front, rest, rfl, hat, hfirst, rfl⟩ := ih h
    refine ⟨c :: front, rest, rfl, hat, fun x y hxy hy => ?_, ?_⟩
    · cases x with
      | nil =>
        rw [List.nil_append] at hxy
        rw [← hxy]
        exact hnone
      | cons d x => exact hfirst x y (List.cons.inj hxy).2 hy
    · simp only [Text.newlines, List.count_cons]
      split
      · next hc =>
        rw [if_pos (by simp [hc])]
        omega
      · next hc => rw [if_neg (by simp [hc]), Nat.add_zero]

/-! ## A whole template -/

/-- The stage at which the scan of a template starts. -/
def Stage.first (text : Text) : Stage := ⟨[], 1, text⟩

/-- A template fails to compile at its first host tag, behind segments that were all read where the
next one cannot be, or at its end with a block left open. -/
theorem compile_error_read {c : Compiler} {source : Text} {e : Diagnostic}
    (h : c.compile source = .error e) :
    (∃ tag line, HostTag.find? c.shortTags 1 (Source.normalize source) = some (tag, line) ∧
        e = (Fault.hostTag tag).diagnostic.withLine line) ∨
      ∃ segments q, Passes c.registry (.first (Source.normalize source)) segments q ∧
        ((∃ o, Opener.find? q.ahead = some o ∧
            readSegment c.registry q.blocks (q.line + o.before.newlines) o = .error e) ∨
          ∃ b ∈ q.blocks, e = (Fault.unclosedBlock b.kind.symbol).diagnostic.withLine b.line) := by
  rw [Compiler.compile_eq_error_iff] at h
  unfold Compiler.segments HostTag.reject at h
  dsimp only at h
  split at h
  · next hreject =>
    cases h
    split at hreject
    · next tag line hfind =>
      cases hreject
      exact .inl ⟨tag, line, hfind, rfl⟩
    · cases hreject
  right
  obtain ⟨segments, q, hpasses, hend⟩ := exists_passes c.registry (.first (Source.normalize source))
  have hscan : (q.scan c.registry).map (segments ++ ·) = .error e := hpasses.scan.symm.trans h
  have hq : q.scan c.registry = .error e := by
    cases hlast : q.scan c.registry with
    | error d =>
      rw [hlast] at hscan
      exact hscan
    | ok last =>
      rw [hlast] at hscan
      cases hscan
  refine ⟨segments, q, hpasses, ?_⟩
  rcases hend with hnone | ⟨o, d, hfind, hread⟩
  · rw [Stage.scan, scan_of_find?_none hnone] at hq
    unfold needClosed at hq
    split at hq
    · next b hb =>
      cases hq
      exact .inr ⟨b, List.mem_of_find?_eq_some hb, rfl⟩
    · cases hq
  · rw [Stage.scan, scan_of_error hfind hread] at hq
    cases hq
    exact .inl ⟨o, hfind, hread⟩

/-- **How a template fails to compile**: at its first host tag, at the first tag that cannot be
read, or at its end with a block left open. -/
theorem compile_error_cases {c : Compiler} {source : Text} {e : Diagnostic}
    (h : c.compile source = .error e) :
    (∃ tag line, HostTag.find? c.shortTags 1 (Source.normalize source) = some (tag, line) ∧
        e = (Fault.hostTag tag).diagnostic.withLine line) ∨
      ∃ segments q, Passes c.registry (.first (Source.normalize source)) segments q ∧
        ((∃ o tag back, q.RefusesTag c.registry o tag back e ∧
            e.code ≠ .hostTag ∧ e.code ≠ .unclosedBlock) ∨
          ∃ b ∈ q.blocks, e = (Fault.unclosedBlock b.kind.symbol).diagnostic.withLine b.line) := by
  rcases compile_error_read h with hhost | ⟨segments, q, hpasses, ⟨o, hfind, hread⟩ | hopen⟩
  · exact .inl hhost
  · obtain ⟨⟨tag, back, hrefuses⟩, hcode⟩ := refusesTag_of_readSegment hfind hread
    exact .inr ⟨segments, q, hpasses, .inl ⟨o, tag, back, hrefuses, hcode⟩⟩
  · exact .inr ⟨segments, q, hpasses, .inr hopen⟩

/-- **A report points to its place**, for every registry, every setting and every template: it has a
line of the template, and a tag exactly if its fault is one of a tag.  The tag is the text at the
first opener that starts no readable tag, behind segments that were all read, and the line is the
one on which the quoted text ends.  The report of a host tag has the line of the first one.  A line
has no more than 32 bits where these can count the lines of the template. -/
theorem error_location (c : Compiler) (source : Text) (e : Diagnostic)
    (h : c.compile source = .error e) :
    (∃ line, e.line = some line ∧ 1 ≤ line ∧ line ≤ 1 + (Source.normalize source).newlines ∧
      ((Source.normalize source).newlines < 2 ^ 32 - 1 → line < 2 ^ 32)) ∧
    (e.tag.isSome ↔ e.code ≠ .hostTag ∧ e.code ≠ .unclosedBlock) ∧
    (∀ tag, e.tag = some tag → ∃ segments q o, ∃ front back : Text,
      Passes c.registry (.first (Source.normalize source)) segments q ∧
      q.RefusesTag c.registry o tag back e ∧
      front = segments.flatMap Segment.source ++ o.before ∧
      Source.normalize source = front ++ tag ++ back ∧
      e.line = some (1 + front.newlines + tag.newlines)) ∧
    (e.code = .hostTag → ∃ front rest, Source.normalize source = front ++ rest ∧
      (HostTag.at? c.shortTags rest).isSome ∧
      (∀ x y, front = x ++ y → y ≠ [] → HostTag.at? c.shortTags (y ++ rest) = none) ∧
      e.line = some (1 + front.newlines)) := by
  rcases compile_error_cases h with
    ⟨tag, line, hfind, rfl⟩ | ⟨segments, q, hpasses, ⟨o, tag, back, hrefuses, hcode⟩ | ⟨b, hb, rfl⟩⟩
  · obtain ⟨front, rest, hsplit, hat, hfirst, rfl⟩ := HostTag.find?_cases hfind
    have hlines : (Source.normalize source).newlines = front.newlines + rest.newlines := by
      rw [hsplit, Text.newlines_append]
    refine ⟨⟨1 + front.newlines, rfl, by omega, by omega, by omega⟩, ⟨nofun, fun hcode => ?_⟩,
      nofun, fun _ => ⟨front, rest, hsplit, by rw [hat]; rfl, hfirst, rfl⟩⟩
    exact absurd rfl hcode.1
  · obtain ⟨command, stuck, hcommand, hread, he⟩ := hrefuses.read
    have hsource : Source.normalize source =
        segments.flatMap Segment.source ++ o.before ++ tag ++ back := by
      have hahead := hpasses.source
      rw [hrefuses.ahead] at hahead
      simpa only [Stage.first, List.append_assoc] using hahead
    have hline : e.line = some (1 + Text.newlines (segments.flatMap Segment.source ++ o.before) +
        tag.newlines) := by
      rw [he]
      dsimp only
      rw [hpasses.line, Stage.first, Text.newlines_append, Nat.add_assoc 1]
    have hlines := congrArg Text.newlines hsource
    simp only [Text.newlines_append] at hlines hline
    have htag : e.tag = some tag := by rw [he]
    refine ⟨⟨_, hline, by omega, by omega, by omega⟩,
      ⟨fun _ => hcode, fun _ => by rw [htag]; rfl⟩, ?_, fun hhost => absurd hhost hcode.1⟩
    intro tag' htag'
    obtain rfl : tag = tag' := Option.some.inj (htag.symm.trans htag')
    refine ⟨segments, q, o, _, back, hpasses, hrefuses, rfl, hsource, ?_⟩
    rw [hline, Text.newlines_append]
  · have hline := hpasses.line
    have hsource := congrArg Text.newlines hpasses.source
    simp only [Stage.first, Text.newlines_append] at hline hsource
    refine ⟨⟨b.line, rfl, ?_⟩, ⟨nofun, fun hcode => absurd rfl hcode.2⟩, nofun, nofun⟩
    rcases hpasses.blocks hb with hnone | hopened
    · cases hnone
    · simp only [Stage.first] at hopened
      omega

/-- A tag inside an HTML comment and over two lines, behind a tag that compiles. -/
theorem error_location_second_tag :
    ∃ e, (Compiler.mk .standard false).compile "a\n[= v]\n<!-- [= 1\n+ ] b" = .error e ∧
      e.code = .danglingEnd ∧ e.tag = some "<!-- [= 1\n+ ]" ∧ e.line = some 4 ∧
      ∃ segments q o back, Passes .standard (.first "a\n[= v]\n<!-- [= 1\n+ ] b") segments q ∧
        q.RefusesTag .standard o "<!-- [= 1\n+ ]" back e := by
  have herror : (Compiler.mk .standard false).compile "a\n[= v]\n<!-- [= 1\n+ ] b" =
      .error ⟨.danglingEnd, "Expression ends with `+`", some 4, some "<!-- [= 1\n+ ]", none⟩ := by
    with_unfolding_all rfl
  have hnormal : Source.normalize "a\n[= v]\n<!-- [= 1\n+ ] b" =
      ("a\n[= v]\n<!-- [= 1\n+ ] b" : Text) := by decide
  obtain ⟨-, -, htag, -⟩ := error_location _ _ _ herror
  obtain ⟨segments, q, o, front, back, hpasses, hrefuses, -⟩ := htag _ rfl
  exact ⟨_, herror, rfl, rfl, rfl, segments, q, o, back, hnormal ▸ hpasses, hrefuses⟩

end Stencil
