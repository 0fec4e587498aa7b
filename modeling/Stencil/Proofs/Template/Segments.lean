import Mathlib.Algebra.Group.Nat.Defs
import Stencil.Proofs.Host.Safety

/-!
# Proofs/Template/Segments — a template is its segments, in order

    text ──scan──▸ plain · opener piece · plain · … ──code──▸ body

Nothing of a template is lost, said twice or moved: the sources of its segments make up the text
(`source_of_scan`), and each segment is what stands at its place there (`fits_of_scan`).  What can
stand at a place is said by `Segment.Fits`, from the characters alone: where an opener starts, where
a comment or a tag ends, and that plain text holds no opener.
-/

namespace Stencil

/-! ## Where an opener starts -/

/-- **What may stand before the bracket of an opener**: nothing, or an HTML comment start and
blanks. -/
def IsHtmlLead (html : Text) : Prop :=
  html = [] ∨ ∃ blanks, html = htmlOpen ++ blanks ∧ ∀ c ∈ blanks, Text.isBlank c = true

/-- **An opener starts a text**: `[`, backslashes and a command, behind an HTML lead. -/
def StartsOpener (t : Text) : Prop :=
  ∃ html n c rest, IsHtmlLead html ∧ isCommandChar c = true ∧
    t = html ++ '[' :: (List.replicate n '\\' ++ c :: rest)

theorem not_mem_of_isHtmlLead {html : Text} (h : IsHtmlLead html) : '[' ∉ html := by
  rcases h with rfl | ⟨blanks, rfl, hblanks⟩
  · exact List.not_mem_nil
  · intro hmem
    rcases List.mem_append.1 hmem with hmem | hmem
    · exact absurd hmem (by decide)
    · exact absurd (hblanks _ hmem) (by decide)

namespace Opener

theorem bracket?_eq_some {n : Nat} {c : Char} (hc : isCommandChar c = true) (rest : Text) :
    bracket? ('[' :: (List.replicate n '\\' ++ c :: rest)) = some (n, c, rest) := by
  have hstop : c ≠ '\\' := by
    rintro rfl
    cases hc
  have hall : ∀ b ∈ List.replicate n '\\', (b == '\\') = true := by
    intro b hb
    rw [(List.mem_replicate.1 hb).2]
    rfl
  have hdrop : (List.replicate n '\\' ++ c :: rest).dropWhile (· == '\\') = c :: rest := by
    rw [List.dropWhile_append_of_pos hall, List.dropWhile_cons_of_neg (by simp [hstop])]
  have htake : (List.replicate n '\\' ++ c :: rest).takeWhile (· == '\\') =
      List.replicate n '\\' := by
    rw [List.takeWhile_append_of_pos hall, List.takeWhile_cons_of_neg (by simp [hstop]),
      List.append_nil]
  simp only [bracket?, hdrop, htake, hc, if_true, List.length_replicate]

/-- **The search stops at the first bracket**: none starts in the text before it. -/
theorem bracket?_before_search? {t before rest : Text} {n : Nat} {c : Char}
    (h : search? t = some (before, n, c, rest)) {x y : Text} (hxy : before = x ++ y)
    (hy : y ≠ []) : bracket? (y ++ '[' :: (List.replicate n '\\' ++ c :: rest)) = none := by
  induction x generalizing t before with
  | nil =>
    obtain ⟨d, y, rfl⟩ := List.exists_cons_of_ne_nil hy
    rw [← search?_append h, hxy] at h
    simp only [List.nil_append, List.cons_append, search?] at h
    split at h
    · cases h
    · next hnone => exact hnone
  | cons d x ih =>
    cases t with
    | nil => cases h
    | cons e t =>
      unfold search? at h
      split at h
      · obtain ⟨rfl, -⟩ := Prod.mk.inj (Option.some.inj h)
        cases hxy
      · obtain ⟨⟨b, f⟩, hs, he⟩ := Option.map_eq_some_iff.1 h
        obtain ⟨rfl, rfl⟩ := Prod.mk.inj he
        exact ih hs (List.cons.inj hxy).2

theorem bracket?_of_search?_none {t : Text} (h : search? t = none) {x y : Text}
    (hxy : t = x ++ y) : bracket? y = none := by
  induction x generalizing t with
  | nil =>
    rw [List.nil_append] at hxy
    subst hxy
    cases t with
    | nil => rfl
    | cons c t =>
      unfold search? at h
      split at h
      · cases h
      · next hnone => exact hnone
  | cons d x ih =>
    subst hxy
    rw [List.cons_append] at h
    unfold search? at h
    split at h
    · cases h
    · exact ih (Option.map_eq_none_iff.1 h) rfl

end Opener

namespace Opener

/-- An HTML comment start and the blanks behind it are split off. -/
theorem splitHtml_htmlOpen (x : Text) {blanks : Text}
    (hblanks : ∀ c ∈ blanks, Text.isBlank c = true) :
    splitHtml (x ++ (htmlOpen ++ blanks)) = (x, htmlOpen ++ blanks) := by
  have htrim : Text.trimEnd (x ++ (htmlOpen ++ blanks)) = x ++ htmlOpen := by
    have hreverse : ∀ c ∈ blanks.reverse, Text.isBlank c = true := fun c hc =>
      hblanks c (List.mem_reverse.1 hc)
    have hdash : Text.isBlank '-' = false := by decide
    rw [← List.append_assoc, Text.trimEnd, List.reverse_append,
      List.dropWhile_append_of_pos hreverse, List.reverse_append]
    change (('-' :: '-' :: '!' :: '<' :: x.reverse).dropWhile Text.isBlank).reverse = _
    rw [List.dropWhile_cons_of_neg (by simp [hdash])]
    simp [htmlOpen]
  have hsuffix : htmlOpen.isSuffixOf (x ++ htmlOpen) = true :=
    List.isSuffixOf_iff_suffix.2 (List.suffix_append _ _)
  simp only [splitHtml, htrim, hsuffix, if_true, List.length_append, Nat.add_sub_cancel,
    List.splitAt_eq, List.take_left', List.drop_left']

/-- **No opener starts before the first opener.** -/
theorem not_startsOpener_before {t : Text} {o : Opener} (h : find? t = some o) {x y : Text}
    (hxy : o.before = x ++ y) (hy : y ≠ []) : ¬ StartsOpener (y ++ (o.text ++ o.rest)) := by
  obtain ⟨⟨before, n, c, rest⟩, hs, rfl⟩ := Option.map_eq_some_iff.1 h
  dsimp only at hxy
  have hbefore : before = x ++ (y ++ (splitHtml before).2) := by
    rw [← List.append_assoc, ← hxy, splitHtml_append]
  rintro ⟨html, m, d, rest', hhtml, hd, heq⟩
  -- The lead cannot be the text up to the bracket: it would have been split off.
  have hlead : html ≠ y ++ (splitHtml before).2 := by
    rintro rfl
    rcases hhtml with hnil | ⟨blanks, hopen, hblanks⟩
    · exact hy (List.append_eq_nil_iff.1 hnil).1
    · rw [hopen] at hbefore
      rw [hbefore, splitHtml_htmlOpen x hblanks] at hxy
      exact hy (List.self_eq_append_right.1 hxy)
  simp only [text, textWith, List.append_assoc, List.cons_append, List.nil_append] at heq
  rw [← List.append_assoc] at heq
  rcases List.append_eq_append_iff.1 heq with ⟨w, hw, hrest⟩ | ⟨w, hw, hrest⟩
  · rcases w with - | ⟨e, w⟩
    · exact hlead (by rw [hw, List.append_nil])
    · -- The lead would hold a bracket.
      obtain ⟨rfl, -⟩ := List.cons.inj hrest
      refine not_mem_of_isHtmlLead hhtml ?_
      rw [hw]
      exact List.mem_append_right _ List.mem_cons_self
  · rcases w with - | ⟨e, w⟩
    · exact hlead (by rw [hw, List.append_nil])
    · -- A bracket would start before the first one.
      have hnone := bracket?_before_search? hs (x := x ++ html) (y := e :: w)
        (by rw [hbefore, hw, List.append_assoc]) (List.cons_ne_nil e w)
      rw [← hrest, bracket?_eq_some hd] at hnone
      cases hnone

/-- **A text without openers**: none starts in it. -/
theorem not_startsOpener_of_find?_none {t : Text} (h : find? t = none) {x y : Text}
    (hxy : t = x ++ y) : ¬ StartsOpener y := by
  rintro ⟨html, n, c, rest, -, hc, rfl⟩
  rw [← List.append_assoc] at hxy
  have hnone := bracket?_of_search?_none (Option.map_eq_none_iff.1 h) hxy
  rw [bracket?_eq_some hc] at hnone
  cases hnone

theorem isHtmlLead_of_find? {t : Text} {o : Opener} (h : find? t = some o) :
    IsHtmlLead o.html := by
  obtain ⟨⟨before, n, c, rest⟩, -, rfl⟩ := Option.map_eq_some_iff.1 h
  exact splitHtml_cases before

theorem isCommandChar_of_find? {t : Text} {o : Opener} (h : find? t = some o) :
    isCommandChar o.command = true := by
  obtain ⟨⟨before, n, c, rest⟩, hs, rfl⟩ := Option.map_eq_some_iff.1 h
  exact isCommandChar_of_search? hs

end Opener

/-! ## Where a comment or a tag ends -/

/-- **What follows the closing bracket and still belongs to it**: blanks and an HTML comment end if
there is one ahead, else nothing. -/
def IsHtmlTail (close after : Text) : Prop :=
  (close = [] ∧ ∀ blanks, (∀ c ∈ blanks, Text.isBlank c = true) →
      ¬ blanks ++ htmlClose <+: after) ∨
    ∃ blanks, close = blanks ++ htmlClose ∧ ∀ c ∈ blanks, Text.isBlank c = true

/-- Blanks before an HTML comment end are skipped with it. -/
theorem dropPrefix?_htmlClose {blanks rest : Text} (h : ∀ c ∈ blanks, Text.isBlank c = true) :
    Text.dropPrefix? htmlClose (Text.trimStart (blanks ++ htmlClose ++ rest)) = some rest := by
  have hdash : Text.isBlank '-' = false := by decide
  rw [List.append_assoc, Text.trimStart, List.dropWhile_append_of_pos h]
  change Text.dropPrefix? htmlClose (('-' :: '-' :: '>' :: rest).dropWhile Text.isBlank) = _
  rw [List.dropWhile_cons_of_neg (by simp [hdash])]
  rfl

theorem skipHtmlClose_cases (t : Text) :
    ∃ close, t = close ++ skipHtmlClose t ∧ IsHtmlTail close (skipHtmlClose t) := by
  unfold skipHtmlClose
  cases h : Text.dropPrefix? htmlClose (Text.trimStart t) with
  | none =>
    refine ⟨[], rfl, .inl ⟨rfl, ?_⟩⟩
    rintro blanks hblanks ⟨rest, hrest⟩
    change _ = t at hrest
    rw [← hrest, dropPrefix?_htmlClose hblanks] at h
    cases h
  | some rest =>
    refine ⟨t.takeWhile Text.isBlank ++ htmlClose, ?_, .inr ⟨_, rfl, ?_⟩⟩
    · rw [Option.getD_some, List.append_assoc, Token.dropPrefix?_append h]
      exact List.takeWhile_append_dropWhile.symm
    · exact List.all_eq_true.1 List.all_takeWhile

/-- The end of a comment. -/
def commentEnd : Text := "*]"

theorem breakOn?_append {pat t front rest : Text} (h : Text.breakOn? pat t = some (front, rest)) :
    t = front ++ pat ++ rest := by
  fun_induction Text.breakOn? pat t generalizing front with
  | case1 hpat =>
    cases h
    rw [List.isEmpty_iff.1 hpat]
    rfl
  | case2 => cases h
  | case3 c t hpat =>
    cases h
    obtain ⟨back, hback⟩ := List.isPrefixOf_iff_prefix.1 hpat
    rw [← hback, List.nil_append, List.drop_left]
  | case4 c t _ ih =>
    obtain ⟨⟨f, b⟩, hb, he⟩ := Option.map_eq_some_iff.1 h
    cases he
    rw [ih hb]
    rfl

/-- **A text breaks at the first place**: the word starts nowhere before. -/
theorem not_prefix_of_breakOn? {pat t front rest : Text}
    (h : Text.breakOn? pat t = some (front, rest)) {x y : Text} (hxy : front = x ++ y)
    (hy : y ≠ []) : ¬ pat <+: y ++ pat ++ rest := by
  fun_induction Text.breakOn? pat t generalizing front x with
  | case1 =>
    cases h
    exact absurd (List.append_eq_nil_iff.1 hxy.symm).2 hy
  | case2 => cases h
  | case3 c t hpat =>
    cases h
    exact absurd (List.append_eq_nil_iff.1 hxy.symm).2 hy
  | case4 c t hpat ih =>
    obtain ⟨⟨f, b⟩, hb, he⟩ := Option.map_eq_some_iff.1 h
    cases he
    rcases x with - | ⟨d, x⟩
    · rw [List.nil_append] at hxy
      rw [breakOn?_append hb] at hpat
      rw [← hxy]
      exact fun hp => hpat (List.isPrefixOf_iff_prefix.2 hp)
    · exact ih hb (List.cons.inj hxy).2

theorem not_infix_of_breakOn?_none {pat t : Text} (hne : pat ≠ [])
    (h : Text.breakOn? pat t = none) : ¬ pat <:+: t := by
  fun_induction Text.breakOn? pat t with
  | case1 => cases h
  | case2 => exact fun hp => hne (List.infix_nil.1 hp)
  | case3 => cases h
  | case4 c t hpat ih =>
    intro hp
    rcases List.infix_cons_iff.1 hp with hp | hp
    · exact hpat (List.isPrefixOf_iff_prefix.2 hp)
    · exact ih (Option.map_eq_none_iff.1 h) hp

/-- **What a comment holds behind its opener**: all up to the first `*]` and the HTML comment end
behind it, or all there is. -/
def IsCommentBody (body after : Text) : Prop :=
  (∃ inner close, body = inner ++ commentEnd ++ close ∧ IsHtmlTail close after ∧
      ∀ x y, inner = x ++ y → y ≠ [] → ¬ commentEnd <+: y ++ commentEnd) ∨
    after = [] ∧ ¬ commentEnd <:+: body

theorem skipComment_cases (t : Text) :
    ∃ body, t = body ++ skipComment t ∧ IsCommentBody body (skipComment t) := by
  unfold skipComment
  split
  · next inner rest h =>
    obtain ⟨close, hclose, htail⟩ := skipHtmlClose_cases rest
    refine ⟨inner ++ commentEnd ++ close, ?_, .inl ⟨inner, close, rfl, htail, ?_⟩⟩
    · rw [List.append_assoc, ← hclose]
      exact breakOn?_append h
    · intro x y hxy hy hp
      exact not_prefix_of_breakOn? h hxy hy (hp.trans (List.prefix_append _ _))
  · next h =>
    exact ⟨t, (List.append_nil t).symm, .inr ⟨rfl, not_infix_of_breakOn?_none (by decide) h⟩⟩

/-- The closing bracket of a tag, with the HTML comment end behind it. -/
theorem closeTag_cases {t rest : Text} (h : closeTag t = .ok rest) :
    ∃ blanks close, t = blanks ++ ']' :: (close ++ rest) ∧ IsHtmlTail close rest := by
  unfold closeTag at h
  split at h
  · cases h
  next c r hc =>
  split at h
  · next hbracket =>
    cases h
    obtain ⟨close, hclose, htail⟩ := skipHtmlClose_cases r
    obtain ⟨blanks, hblanks⟩ := Text.trimStart_suffix t
    refine ⟨blanks, close, ?_, htail⟩
    rw [← hclose, ← hbracket, ← hc, hblanks]
  · cases h

/-- **What a tag holds behind its command**: something, its closing bracket, and the HTML comment
end behind it. -/
def IsTagBody (body after : Text) : Prop :=
  ∃ inner close, body = inner ++ ']' :: close ∧ IsHtmlTail close after

theorem readStatement_cases {r : Registry} {blocks : List Block} {line : Nat} {command : Command}
    {t rest : Text} {found : Statement × List Block}
    (h : readStatement r blocks line command t = .ok (some (found, rest))) :
    ∃ body, t = body ++ rest ∧ IsTagBody body rest := by
  obtain ⟨result, hc, hr⟩ := bind_eq_ok_iff.1 h
  cases result with
  | none => cases hr
  | some p =>
    obtain ⟨found', r1⟩ := p
    obtain ⟨r2, ht, hr⟩ := bind_eq_ok_iff.1 hr
    cases hr
    obtain ⟨front, hfront⟩ := readCommand_suffix hc
    obtain ⟨blanks, close, hblanks, htail⟩ := closeTag_cases ht
    refine ⟨front ++ blanks ++ ']' :: close, ?_, front ++ blanks, close, rfl, htail⟩
    rw [← hfront, hblanks]
    simp

/-! ## Segments in their places -/

/-- **What a segment is**, on `line` with `blocks` open around it and `after` behind it. -/
inductive Segment.Fits (r : Registry) (blocks : List Block) (line : Nat) (after : Text) :
    Segment → Prop
  /-- Plain text holds no place where an opener starts. -/
  | plain {text : Text}
      (quiet : ∀ x y, text = x ++ y → y ≠ [] → ¬ StartsOpener (y ++ after)) :
      Fits r blocks line after (.plain text)
  /-- An escaped opener has at least one backslash. -/
  | escaped {o : Opener} (lead : IsHtmlLead o.html) (command : isCommandChar o.command = true)
      (backslash : 0 < o.backslashes) : Fits r blocks line after (.escaped o)
  /-- A comment starts at `[*`. -/
  | comment {html body : Text} (lead : IsHtmlLead html) (ends : IsCommentBody body after) :
      Fits r blocks line after (.comment (html ++ '[' :: '*' :: body))
  /-- A tag is read from its command on as a statement, and has the line on which it starts. -/
  | tag {html body : Text} {c : Char} {command : Command} {s : Statement} {later : List Block}
      (lead : IsHtmlLead html) (letter : Command.ofChar? c = some command)
      (ends : IsTagBody body after)
      (read : readStatement r blocks line command (body ++ after) =
        .ok (some ((s, later), after))) :
      Fits r blocks line after (.tag (html ++ '[' :: c :: body) line s)
  /-- A stray opener is one of two, outside any block. -/
  | stray {html : Text} {c : Char} (lead : IsHtmlLead html) (command : c = ':' ∨ c = '/')
      (outside : blocks = []) : Fits r blocks line after (.stray (html ++ ['[', c]))

/-- Only an else or an end outside any block is no tag. -/
theorem stray_of_readStatement {r : Registry} {blocks : List Block} {line : Nat} {c : Char}
    {command : Command} {t : Text} (hc : Command.ofChar? c = some command)
    (h : readStatement r blocks line command t = .ok none) :
    (c = ':' ∨ c = '/') ∧ blocks = [] := by
  have hcommand : readCommand r blocks line command t = .ok none := by
    obtain ⟨result, hread, hr⟩ := bind_eq_ok_iff.1 h
    cases result with
    | none => exact hread
    | some p =>
      obtain ⟨rest, -, hr⟩ := bind_eq_ok_iff.1 hr
      cases hr
  have hletter : (command = .otherwise → c = ':') ∧ (command = .finish → c = '/') := by
    unfold Command.ofChar? at hc
    repeat' split at hc
    all_goals cases hc <;> simp_all
  cases command with
  | otherwise =>
    cases blocks with
    | nil => exact ⟨.inl (hletter.1 rfl), rfl⟩
    | cons top blocks =>
      obtain ⟨found, -, hr⟩ := bind_eq_ok_iff.1 hcommand
      cases hr
  | finish =>
    cases blocks with
    | nil => exact ⟨.inr (hletter.2 rfl), rfl⟩
    | cons top blocks => cases hcommand
  | _ =>
    obtain ⟨found, -, hr⟩ := bind_eq_ok_iff.1 hcommand
    cases hr

/-- A command character that is no command starts a comment. -/
theorem eq_star_of_ofChar?_none {c : Char} (hc : isCommandChar c = true)
    (h : Command.ofChar? c = none) : c = '*' := by
  unfold Command.ofChar? at h
  repeat' split at h
  all_goals simp_all [isCommandChar]

/-- **A segment that was read** starts the text at the opener, and is what stands there. -/
theorem fits_of_readSegment {r : Registry} {blocks after : List Block} {line : Nat} {t rest : Text}
    {o : Opener} {segment : Segment} (ho : Opener.find? t = some o)
    (h : readSegment r blocks line o = .ok ((segment, after), rest)) :
    o.text ++ o.rest = segment.source ++ rest ∧ segment.Fits r blocks line rest := by
  have hlead := Opener.isHtmlLead_of_find? ho
  have hcommand := Opener.isCommandChar_of_find? ho
  simp only [readSegment] at h
  split at h
  · next hescape =>
    cases h
    exact ⟨rfl, .escaped hlead hcommand hescape⟩
  next hescape =>
  have htext : o.text = o.html ++ ['[', o.command] := by
    rw [Opener.text, Opener.textWith, Nat.eq_zero_of_not_pos hescape]
    rfl
  split at h
  · next hnone =>
    obtain ⟨body, hbody, hends⟩ := skipComment_cases o.rest
    have hhere : o.text ++ o.rest = (o.html ++ '[' :: '*' :: body) ++ skipComment o.rest := by
      rw [htext, eq_star_of_ofChar?_none hcommand hnone, List.append_assoc, List.append_assoc]
      conv => lhs; rw [hbody]
      rfl
    rw [hhere, Text.upTo_append] at h
    cases h
    exact ⟨hhere, .comment hlead hends⟩
  next command hcommand' =>
  split at h
  · cases h
  · next hstray =>
    cases h
    obtain ⟨hletter, hblocks⟩ := stray_of_readStatement hcommand' hstray
    rw [htext]
    exact ⟨rfl, .stray hlead hletter hblocks⟩
  · next s later rest' hread =>
    obtain ⟨body, hbody, hends⟩ := readStatement_cases hread
    have hhere : o.text ++ o.rest = (o.html ++ '[' :: o.command :: body) ++ rest' := by
      rw [htext, hbody]
      simp
    rw [hhere, Text.upTo_append] at h
    cases h
    rw [hbody] at hread
    exact ⟨hhere, .tag hlead hcommand' hends hread⟩

/-- **The sources of the segments make up the text.** -/
theorem source_of_scan {r : Registry} {blocks : List Block} {line : Nat} {t : Text}
    {segments : List Segment} (h : scan r blocks line t = .ok segments) :
    segments.flatMap Segment.source = t := by
  fun_induction scan r blocks line t generalizing segments with
  | case1 => cases h
  | case2 =>
    cases h
    exact List.append_nil _
  | case3 => cases h
  | case4 => cases h
  | case5 blocks line t o hf start segment after rest hread segments' hscan =>
    rename_i ih
    cases h
    have hpiece := (fits_of_readSegment hf hread).1
    rw [← Opener.find?_append hf, List.append_assoc, hpiece, ← ih hscan]
    rfl

/-- **Every segment of a scanned text is what stands at its place**, behind the changes of the tags
before it and on the line to which the segments before it lead. -/
theorem fits_of_scan {r : Registry} {blocks : List Block} {line : Nat} {t : Text}
    {segments front back : List Segment} {segment : Segment}
    (h : scan r blocks line t = .ok segments) (hsplit : segments = front ++ segment :: back) :
    ∃ middle, Run blocks (statements front) middle ∧
      segment.Fits r middle (line + Text.newlines (front.flatMap Segment.source))
        (back.flatMap Segment.source) := by
  fun_induction scan r blocks line t generalizing segments front with
  | case1 => cases h
  | case2 blocks line t hf hclosed =>
    cases h
    rcases front with - | ⟨first, front⟩
    · obtain ⟨rfl, rfl⟩ := List.cons.inj hsplit
      refine ⟨blocks, .done blocks, .plain fun x y hxy _ => ?_⟩
      rw [List.flatMap_nil, List.append_nil]
      exact Opener.not_startsOpener_of_find?_none hf hxy
    · simp at hsplit
  | case3 => cases h
  | case4 => cases h
  | case5 blocks line t o hf start segment' after rest hread segments' hscan =>
    rename_i ih
    cases h
    obtain ⟨hpiece, hfits⟩ := fits_of_readSegment hf hread
    have hrest := source_of_scan hscan
    rcases front with - | ⟨first, - | ⟨second, front⟩⟩
    · obtain ⟨rfl, rfl⟩ := List.cons.inj hsplit
      refine ⟨blocks, .done blocks, .plain fun x y hxy hy => ?_⟩
      rw [List.flatMap_cons, hrest, ← hpiece]
      exact Opener.not_startsOpener_before hf hxy hy
    · simp only [List.cons_append, List.nil_append, List.cons.injEq] at hsplit
      obtain ⟨rfl, rfl, rfl⟩ := hsplit
      refine ⟨blocks, .done blocks, ?_⟩
      rw [hrest, List.flatMap_singleton]
      exact hfits
    · simp only [List.cons_append, List.cons.injEq] at hsplit
      obtain ⟨rfl, rfl, hsplit⟩ := hsplit
      obtain ⟨middle, hrun, hsegment⟩ := ih hscan hsplit
      refine ⟨middle, ?_, ?_⟩
      · have hfront : statements (.plain o.before :: segment' :: front) =
            statements [segment'] ++ statements front := by
          cases segment' <;> rfl
        rw [hfront]
        exact (run_of_readSegment hread).append hrun
      · rw [List.flatMap_cons, List.flatMap_cons, Text.newlines_append, Text.newlines_append,
          ← Nat.add_assoc, ← Nat.add_assoc]
        exact hsegment

/-- **The line of a tag is one of the text.** -/
theorem Compiler.line_le_of_tag {c : Compiler} {source text : Text} {segments : List Segment}
    {line : Nat} {s : Statement} (hsegments : c.segments source = .ok segments)
    (hmem : .tag text line s ∈ segments) : line ≤ 1 + (Source.normalize source).newlines := by
  obtain ⟨-, hscan⟩ := Compiler.segments_eq_ok_iff.1 hsegments
  obtain ⟨front, back, hsplit⟩ := List.append_of_mem hmem
  obtain ⟨middle, -, hfits⟩ := fits_of_scan hscan hsplit
  have hsource := congrArg Text.newlines (source_of_scan hscan)
  rw [hsplit, List.flatMap_append, Text.newlines_append] at hsource
  cases hfits
  omega

/-- **Nothing is lost, said twice or moved.**  The segments of a template that compiles make up its
normal form, their codes make up the body, and each of them is what stands at its place.  The line
of a tag has no more than 32 bits where these can count the lines of the template. -/
theorem segments_cover (c : Compiler) (source out : Text) (hok : c.compile source = .ok out) :
    ∃ segments : List Segment, segments.flatMap Segment.source = Source.normalize source ∧
      out = segments.flatMap (Segment.code c.registry) ∧
      (∀ front segment back, segments = front ++ segment :: back →
        ∃ blocks, Run [] (statements front) blocks ∧
          segment.Fits c.registry blocks (1 + Text.newlines (front.flatMap Segment.source))
            (back.flatMap Segment.source)) ∧
      ((Source.normalize source).newlines < 2 ^ 32 - 1 →
        ∀ text line s, .tag text line s ∈ segments → line < 2 ^ 32) := by
  obtain ⟨segments, hsegments, rfl⟩ := Compiler.compile_eq_ok_iff.1 hok
  obtain ⟨-, hscan⟩ := Compiler.segments_eq_ok_iff.1 hsegments
  refine ⟨segments, source_of_scan hscan, rfl, ?_, fun hlines text line s hmem => ?_⟩
  · intro front segment back hsplit
    exact fits_of_scan hscan hsplit
  · have := Compiler.line_le_of_tag hsegments hmem
    omega

/-- A byte-order mark, an escaped opener, a tag inside an HTML comment and a stray opener. -/
theorem segments_cover_html_tag :
    ∃ out, (Compiler.mk .standard false).compile "\uFEFF[\\: a\n<!-- [= v ] -->[/" = .ok out ∧
      ∃ segments : List Segment, segments.flatMap Segment.source = "[\\: a\n<!-- [= v ] -->[/" ∧
        out = segments.flatMap (Segment.code .standard) := by
  let shown : Expr := .plain (.one none (.name ⟨0, ["v"]⟩ (.value .data ["v"])))
  have hok : (Compiler.mk .standard false).segments "\uFEFF[\\: a\n<!-- [= v ] -->[/" =
      .ok [.plain [], .escaped ⟨[], [], 1, ':', " a\n<!-- [= v ] -->[/"⟩, .plain " a\n",
        .tag "<!-- [= v ] -->" 2 (.echo shown), .plain [], .stray "[/", .plain []] := by
    with_unfolding_all rfl
  have hout := Compiler.compile_eq_ok_iff.2 ⟨_, hok, rfl⟩
  have hnormal : Source.normalize "\uFEFF[\\: a\n<!-- [= v ] -->[/" =
      ("[\\: a\n<!-- [= v ] -->[/" : Text) := by decide
  obtain ⟨segments, hsource, hcode, -⟩ := segments_cover _ _ _ hout
  exact ⟨_, hout, segments, hsource.trans hnormal, hcode⟩

end Stencil
