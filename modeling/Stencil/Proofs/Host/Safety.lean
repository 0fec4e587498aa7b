import Stencil.Proofs.Host.Code

/-!
# Proofs/Host/Safety — where host script starts in a body

A template without host script compiles to a body whose host script starts at its statements, and
nowhere else, as long as no comment keeps the two halves of a host tag apart: a comment leaves
nothing behind, so the texts around it meet in the body.  `fires_iff_spliced` says that this is the
only exception.
-/

namespace Stencil

open HostTag

variable {short : Bool}

/-! ## Openers -/

namespace Opener

theorem isCommandChar_of_bracket? {t rest : Text} {n : Nat} {c : Char}
    (h : bracket? t = some (n, c, rest)) : isCommandChar c = true := by
  unfold bracket? at h
  split at h
  · split at h
    · split at h
      · next hc =>
        cases h
        exact hc
      · cases h
    · cases h
  · cases h

theorem isCommandChar_of_search? {t before rest : Text} {n : Nat} {c : Char}
    (h : search? t = some (before, n, c, rest)) : isCommandChar c = true := by
  fun_induction search? t generalizing before with
  | case1 => cases h
  | case2 d t found hb =>
    cases h
    exact isCommandChar_of_bracket? hb
  | case3 d t _ ih =>
    obtain ⟨⟨b, f⟩, hs, he⟩ := Option.map_eq_some_iff.1 h
    cases he
    exact ih hs

/-- **The HTML part of an opener**: nothing, or a comment start and blanks. -/
theorem splitHtml_cases (before : Text) :
    (splitHtml before).2 = [] ∨
      ∃ blanks, (splitHtml before).2 = htmlOpen ++ blanks ∧
        ∀ c ∈ blanks, Text.isBlank c = true := by
  have hbefore :
      before = Text.trimEnd before ++ (before.reverse.takeWhile Text.isBlank).reverse := by
    unfold Text.trimEnd
    rw [← List.reverse_append, List.takeWhile_append_dropWhile, List.reverse_reverse]
  have hblanks : ∀ c ∈ (before.reverse.takeWhile Text.isBlank).reverse, Text.isBlank c = true := by
    intro c hc
    exact List.all_eq_true.1 List.all_takeWhile c (List.mem_reverse.1 hc)
  unfold splitHtml
  dsimp only
  split
  · next hs =>
    obtain ⟨front, hfront⟩ := List.isSuffixOf_iff_suffix.1 hs
    refine .inr ⟨_, ?_, hblanks⟩
    rw [← hfront] at hbefore ⊢
    have hlength : (front ++ htmlOpen).length - htmlOpen.length = front.length := by simp
    rw [hlength, List.splitAt_eq]
    conv => lhs; rw [hbefore]
    simp
  · exact .inl rfl

/-- **The text of an opener is sealed**, and what stands before it cannot go on with it. -/
theorem sealed_textWith {t : Text} {o : Opener} (h : find? t = some o) (n : Nat) :
    Sealed short (o.textWith n) ∧ ∃ c r, o.textWith n = c :: r ∧ continues c = false := by
  obtain ⟨⟨before, k, c, rest⟩, hs, he⟩ := Option.map_eq_some_iff.1 h
  subst he
  have hcommand : c ≠ '<' := by
    rintro rfl
    exact absurd (isCommandChar_of_search? hs) (by decide)
  have hbracket : Sealed short ('[' :: (List.replicate n '\\' ++ [c])) := by
    refine sealed_of_not_mem fun hm => ?_
    simp [List.mem_replicate, hcommand.symm] at hm
  unfold textWith
  dsimp only
  rcases splitHtml_cases before with hhtml | ⟨blanks, hhtml, hblanks⟩
  · rw [hhtml]
    exact ⟨hbracket, '[', _, rfl, by decide⟩
  · rw [hhtml]
    have hopen : Sealed short htmlOpen := sealed_word _
    have hspace : Sealed short blanks := by
      refine sealed_of_not_mem fun hm => ?_
      exact absurd (hblanks '<' hm) (by decide)
    exact ⟨(hopen.append hspace).append hbracket, '<', _, rfl, by decide⟩

end Opener

/-! ## Pieces of a template -/

/-- **A piece between two plain texts that keeps to itself**: it is a comment or starts with no
character that goes on with an opener, and host script starts in it only at the start of a tag. -/
structure Segment.Contained (short : Bool) (r : Registry) (segment : Segment) : Prop where
  ends : (∃ text, segment = .comment text) ∨
    ∃ c t, segment.code r = c :: t ∧ continues c = false
  inside : ∀ x y k, segment.code r = x ++ y → y ≠ [] → Fires short (y ++ k) →
    x = [] ∧ ∃ text line s, segment = .tag text line s

theorem Segment.contained_of_sealed {r : Registry} {segment : Segment}
    (h : Sealed short (segment.code r))
    (hc : ∃ c t, segment.code r = c :: t ∧ continues c = false) :
    segment.Contained short r := by
  refine ⟨.inr hc, ?_⟩
  intro x y k hxy hne hf
  exact absurd hf (h y ⟨x, hxy.symm⟩ hne k)

/-- **A piece that was read from a quiet text keeps to itself.** -/
theorem contained_of_readSegment {r : Registry} (hr : r.Named) {blocks after : List Block}
    {line : Nat} {t rest : Text} {o : Opener} {segment : Segment} (hq : Quiet short t)
    (ho : Opener.find? t = some o)
    (h : readSegment r blocks line o = .ok ((segment, after), rest)) :
    segment.Contained short r := by
  have hhere : o.text ++ o.rest <:+ t := ⟨o.before, by
    rw [← List.append_assoc]
    exact Opener.find?_append ho⟩
  have hrest : o.rest <:+ t := (List.suffix_append _ _).trans hhere
  simp only [readSegment] at h
  split at h
  · cases h
    obtain ⟨hsealed, hstart⟩ := Opener.sealed_textWith ho (o.backslashes - 1)
    exact Segment.contained_of_sealed hsealed hstart
  split at h
  · cases h
    refine ⟨.inl ⟨_, rfl⟩, fun x y k hxy hne _ => ?_⟩
    exact absurd (List.append_eq_nil_iff.1 hxy.symm).2 hne
  split at h
  · cases h
  · cases h
    obtain ⟨hsealed, hstart⟩ := Opener.sealed_textWith ho o.backslashes
    exact Segment.contained_of_sealed hsealed hstart
  · next s after' rest' hs =>
    cases h
    have hbody : Sealed short (s.body r) :=
      sealed_body_of_readStatement hr (hq.of_infix hrest.isInfix) hs
    have htext : Quiet short (Text.upTo (o.text ++ o.rest) rest) :=
      hq.of_infix (((List.take_prefix _ _).isInfix).trans hhere.isInfix)
    obtain ⟨tail, hcode, htail⟩ := Statement.code_eq (m := ⟨line, _⟩) hbody htext
    refine ⟨.inr ⟨'<', tail, hcode, by decide⟩, fun x y k hxy hne hf => ⟨?_, _, _, _, rfl⟩⟩
    -- Behind its first character the code is sealed, so `y` is all of it.
    rcases x with - | ⟨c, x⟩
    · rfl
    · have htail' : tail = x ++ y := (List.cons.inj (hcode.symm.trans hxy)).2
      exact absurd hf (htail y ⟨x, htail'.symm⟩ hne k)

/-- **The pieces of a quiet text**: quiet plain texts, and between each two of them a piece that
keeps to itself. -/
inductive Pieces (short : Bool) (r : Registry) : List Segment → Prop
  | last {text : Text} (h : Quiet short text) : Pieces short r [.plain text]
  | more {text : Text} {segment : Segment} {others : List Segment} (h : Quiet short text)
      (hs : segment.Contained short r) (rest : Pieces short r others) :
      Pieces short r (.plain text :: segment :: others)

theorem pieces_of_scan {r : Registry} (hr : r.Named) {blocks : List Block} {line : Nat} {t : Text}
    {segments : List Segment} (hq : Quiet short t) (h : scan r blocks line t = .ok segments) :
    Pieces short r segments := by
  fun_induction scan r blocks line t generalizing segments with
  | case1 => cases h
  | case2 =>
    cases h
    exact .last hq
  | case3 => cases h
  | case4 => cases h
  | case5 blocks line t o hf start segment after rest hread segments' hscan =>
    rename_i ih
    cases h
    have happend := Opener.find?_append hf
    rw [List.append_assoc] at happend
    have hbefore : o.before <:+: t := (happend ▸ List.prefix_append _ _).isInfix
    have hrest : rest <:+ t := by
      refine (readSegment_suffix hread).trans ⟨o.before ++ o.text, ?_⟩
      exact Opener.find?_append hf
    exact .more (hq.of_infix hbefore) (contained_of_readSegment hr hq hf hread)
      (ih (hq.of_infix hrest.isInfix) hscan)

/-- **A piece in its place**: a plain text before nothing or before a piece that keeps to itself, or
such a piece. -/
theorem Pieces.cases_of_split {r : Registry} {segments front back : List Segment}
    {segment : Segment} (h : Pieces short r segments)
    (hsplit : segments = front ++ segment :: back) :
    (∃ text, segment = .plain text ∧ Quiet short text ∧
        ∀ next others, back = next :: others → next.Contained short r) ∨
      segment.Contained short r := by
  induction h generalizing front with
  | @last text hq =>
    rcases front with - | ⟨first, front⟩
    · obtain ⟨rfl, rfl⟩ := List.cons.inj hsplit
      exact .inl ⟨text, rfl, hq, nofun⟩
    · simp at hsplit
  | @more text second others hq hs hrest ih =>
    rcases front with - | ⟨first, - | ⟨first', front⟩⟩
    · obtain ⟨rfl, rfl⟩ := List.cons.inj hsplit
      refine .inl ⟨text, rfl, hq, fun next others' hback => ?_⟩
      rw [← (List.cons.inj hback).1]
      exact hs
    · simp only [List.cons_append, List.nil_append, List.cons.injEq] at hsplit
      rw [← hsplit.2.1]
      exact .inr hs
    · simp only [List.cons_append, List.cons.injEq] at hsplit
      exact ih hsplit.2.2

/-! ## Positions in a body -/

/-- **A place in a body lies in one piece.** -/
theorem exists_piece {f : Segment → Text} {segments : List Segment} {front back : Text}
    (h : segments.flatMap f = front ++ back) (hne : back ≠ []) :
    ∃ a segment b x y, segments = a ++ segment :: b ∧ f segment = x ++ y ∧ y ≠ [] ∧
      front = a.flatMap f ++ x ∧ back = y ++ b.flatMap f := by
  induction segments generalizing front with
  | nil => exact absurd (List.append_eq_nil_iff.1 h.symm).2 hne
  | cons segment segments ih =>
    rw [List.flatMap_cons] at h
    rcases List.append_eq_append_iff.1 h with ⟨w, rfl, hw⟩ | ⟨w, hw, hback⟩
    · obtain ⟨a, segment', b, x, y, rfl, hxy, hy, rfl, hb⟩ := ih hw
      exact ⟨segment :: a, segment', b, x, y, rfl, hxy, hy, by simp, hb⟩
    · by_cases hempty : w = []
      · rw [hempty, List.append_nil] at hw
        rw [hempty, List.nil_append] at hback
        obtain ⟨a, segment', b, x, y, rfl, hxy, hy, hx, hb⟩ :=
          @ih [] hback.symm
        refine ⟨segment :: a, segment', b, x, y, rfl, hxy, hy, ?_, hb⟩
        rw [List.flatMap_cons, List.append_assoc, ← hx, List.append_nil, hw]
      · exact ⟨[], segment, segments, front, w, rfl, hw, hempty, rfl, hback⟩

/-- **Two texts form a host tag across their border**, and the first does not hold it alone. -/
def Straddles (short : Bool) (a b : Text) : Prop :=
  ∃ x y, a = x ++ y ∧ y ≠ [] ∧ ¬ Fires short y ∧ Fires short (y ++ b)

/-- **Host script starts at a tag**, unless a comment has joined the halves of a host tag. -/
theorem Pieces.starts_tag {r : Registry} {segments : List Segment} (h : Pieces short r segments)
    (hcomments : ∀ a text b, segments = a ++ .comment text :: b →
      ¬ Straddles short (a.flatMap (Segment.code r)) (b.flatMap (Segment.code r)))
    {front back : Text} (hsplit : segments.flatMap (Segment.code r) = front ++ back)
    (hf : Fires short back) :
    ∃ a text line s b, segments = a ++ .tag text line s :: b ∧
      front = a.flatMap (Segment.code r) := by
  have hne : back ≠ [] := by
    rintro rfl
    obtain ⟨t, ht⟩ := hf.eq_cons
    cases ht
  obtain ⟨a, segment, b, x, y, hsegments, hxy, hy, rfl, rfl⟩ := exists_piece hsplit hne
  rcases h.cases_of_split hsegments with ⟨text, rfl, hquiet, hnext⟩ | hcontained
  · -- What follows a plain text has to complete the opener, and only behind a comment it can.
    have hquiet' : ¬ Fires short y := hquiet y ⟨x, hxy.symm⟩
    rcases b with - | ⟨next, others⟩
    · rw [List.flatMap_nil, List.append_nil] at hf
      exact absurd hf hquiet'
    rcases (hnext next others rfl).ends with ⟨text', rfl⟩ | ⟨c, t, hcode, hc⟩
    · refine absurd ?_ (hcomments (a ++ [.plain text]) text' others (by rw [hsegments]; simp))
      refine ⟨a.flatMap (Segment.code r) ++ x, y, ?_, hy, hquiet', hf⟩
      rw [List.flatMap_append, List.flatMap_singleton, hxy, List.append_assoc]
    · rw [List.flatMap_cons, hcode, List.cons_append] at hf
      exact absurd (hf.of_append_cons hy hc) hquiet'
  · obtain ⟨rfl, text, line, s, rfl⟩ := hcontained.inside x y _ hxy hy hf
    exact ⟨a, text, line, s, b, hsegments, List.append_nil _⟩

/-- **A comment that joins the halves of a host tag** starts host script where no tag stands. -/
theorem not_straddles_of_starts_tag {r : Registry} {segments a b : List Segment} {text : Text}
    (h : ∀ front back, segments.flatMap (Segment.code r) = front ++ back → Fires short back →
      ∃ a text line s b, segments = a ++ .tag text line s :: b ∧
        front = a.flatMap (Segment.code r))
    (hsplit : segments = a ++ .comment text :: b) :
    ¬ Straddles short (a.flatMap (Segment.code r)) (b.flatMap (Segment.code r)) := by
  rintro ⟨x, y, hxy, hy, hquiet, hf⟩
  have hbody : segments.flatMap (Segment.code r) = x ++ (y ++ b.flatMap (Segment.code r)) := by
    rw [hsplit, List.flatMap_append, List.flatMap_cons, hxy, List.append_assoc]
    rfl
  obtain ⟨a', text', line, s, b', htag, hx⟩ := h _ _ hbody hf
  rw [hsplit] at htag
  rcases List.append_eq_append_iff.1 htag with ⟨w, rfl, -⟩ | ⟨w, rfl, hw⟩
  · -- The tag stands behind the comment, but `y` stands before it.
    rw [List.flatMap_append, hxy, List.append_assoc] at hx
    have hnil := List.append_eq_nil_iff.1 (List.self_eq_append_right.1 hx)
    exact hy hnil.1
  · rcases w with - | ⟨first, w⟩
    · cases (List.cons.inj hw).1
    · -- The tag stands before the comment, and so host script starts in `y` alone.
      obtain ⟨rfl, -⟩ := List.cons.inj hw
      rw [List.flatMap_append, ← hx, List.flatMap_cons] at hxy
      have hyeq := List.append_cancel_left hxy
      refine hquiet ?_
      rw [← hyeq]
      exact (Statement.fires_code r _ s).append _

/-- **Where host script starts in a body.**  In the body of a template that compiles, every place
where the host-tag test fires is the first character of a statement, exactly if no comment has
joined the halves of a host tag. -/
theorem fires_iff_spliced (c : Compiler) (source out : Text) (hnamed : c.registry.Named)
    (hok : c.compile source = .ok out) :
    ∃ segments, c.segments source = .ok segments ∧
      out = segments.flatMap (Segment.code c.registry) ∧
      ((∀ front back, out = front ++ back → at? c.shortTags back ≠ none →
          ∃ a text line s b, segments = a ++ .tag text line s :: b ∧
            front = a.flatMap (Segment.code c.registry)) ↔
        ∀ a text b, segments = a ++ .comment text :: b →
          ¬ Straddles c.shortTags (a.flatMap (Segment.code c.registry))
            (b.flatMap (Segment.code c.registry))) := by
  obtain ⟨segments, hsegments, rfl⟩ := Compiler.compile_eq_ok_iff.1 hok
  refine ⟨segments, hsegments, rfl, ?_⟩
  obtain ⟨hreject, hscan⟩ := Compiler.segments_eq_ok_iff.1 hsegments
  have hpieces : Pieces c.shortTags c.registry segments :=
    pieces_of_scan hnamed (quiet_of_reject hreject) hscan
  constructor
  · intro h a text b hsplit
    exact not_straddles_of_starts_tag h hsplit
  · intro h front back hsplit hf
    exact hpieces.starts_tag h hsplit hf

/-- A comment behind `<` that joins it with no host tag: only the statement starts host script. -/
theorem fires_at_statement :
    ∃ out, (Compiler.mk .standard false).compile "<[* c *]b[= x ]" = .ok out ∧
      ∀ front back, out = front ++ back → at? false back ≠ none → front = "<b" := by
  let shown : Expr := .plain (.one none (.name ⟨0, ["x"]⟩ (.value .data ["x"])))
  have hok : (Compiler.mk .standard false).segments "<[* c *]b[= x ]" =
      .ok [.plain "<", .comment "[* c *]", .plain "b", .tag "[= x ]" 1 (.echo shown),
        .plain []] := by
    with_unfolding_all rfl
  have hout := Compiler.compile_eq_ok_iff.2 ⟨_, hok, rfl⟩
  have hnamed : Registry.standard.Named :=
    ⟨fun c hc => .inl (List.all_eq_true.1 (by decide) c hc),
      fun c hc => .inl (List.all_eq_true.1 (by decide) c hc)⟩
  refine ⟨_, hout, ?_⟩
  obtain ⟨segments, hsegments, -, hiff⟩ := fires_iff_spliced _ _ _ hnamed hout
  rw [hok] at hsegments
  cases hsegments
  have hcomments : ∀ a text b, [Segment.plain "<", .comment "[* c *]", .plain "b",
      .tag "[= x ]" 1 (.echo shown), .plain []] = a ++ .comment text :: b →
      ¬ Straddles false (a.flatMap (Segment.code .standard))
        (b.flatMap (Segment.code .standard)) := by
    intro a text b hsplit
    rcases a with - | ⟨_, - | ⟨_, - | ⟨_, - | ⟨_, - | ⟨_, a⟩⟩⟩⟩⟩ <;>
      simp only [List.cons_append, List.nil_append, List.cons.injEq, reduceCtorEq, false_and,
        and_false, List.nil_eq, List.append_eq_nil_iff] at hsplit
    obtain ⟨rfl, -, rfl⟩ := hsplit
    rintro ⟨x, y, hxy, hy, -, hf⟩
    have hxy' : x ++ y = ['<'] := hxy.symm
    rcases List.append_eq_singleton_iff.1 hxy' with ⟨-, rfl⟩ | ⟨-, rfl⟩
    · obtain ⟨t, ht⟩ := hf.eq_cons
      cases (List.cons.inj (List.cons.inj ht).2).1
    · exact hy rfl
  intro front back hsplit hf
  obtain ⟨a, text, line, s, b, htag, rfl⟩ := hiff.2 hcomments front back hsplit hf
  rcases a with - | ⟨_, - | ⟨_, - | ⟨_, - | ⟨_, - | ⟨_, a⟩⟩⟩⟩⟩ <;>
    simp only [List.cons_append, List.nil_append, List.cons.injEq, reduceCtorEq, false_and,
      and_false, List.nil_eq, List.append_eq_nil_iff] at htag
  obtain ⟨rfl, rfl, rfl, -⟩ := htag
  rfl

/-- **A comment can join the halves of a host tag**: the template passes the test, and the body
starts with host script although there is no statement in it. -/
theorem splices_host_tag :
    ∃ segments out, (Compiler.mk .standard false).segments "<[* c *]?= 1 ?>" = .ok segments ∧
      (Compiler.mk .standard false).compile "<[* c *]?= 1 ?>" = .ok out ∧
      statements segments = [] ∧ at? false out ≠ none := by
  have hok : (Compiler.mk .standard false).segments "<[* c *]?= 1 ?>" =
      .ok [.plain "<", .comment "[* c *]", .plain "?= 1 ?>"] := by
    with_unfolding_all rfl
  exact ⟨_, "<?= 1 ?>", hok, Compiler.compile_eq_ok_iff.2 ⟨_, hok, rfl⟩, rfl, by decide⟩

end Stencil
