import Stencil.Proofs.Artifact.Stem
import Stencil.Proofs.Template.Stages
import Stencil.Proofs.Token.Ahead

/-!
# Proofs/Template/Walled — what stays when a template goes on

    │ text … x │ more │        x is no blank, and belongs to no opener, tag end or comment end

A text is walled if it ends in `x`.  Nothing that a scan does in front of the wall takes a look
behind it: the first opener is the same, a tag and a comment that end in front of it end at the same
place, and no HTML comment end is found behind it.  So a scan passes a walled text in the same way
when the text goes on (`Passes.extend`), and where no opener is left in front of the wall, the next
one is the first one behind it (`Opener.find?_of_walled`).
-/

namespace Stencil

/-! ## Walls -/

/-- **A text that ends in a wall.** -/
def Walled (t : Text) : Prop := t.getLast? = some 'x'

namespace Walled

variable {t : Text}

theorem mem (h : Walled t) : 'x' ∈ t := List.mem_of_getLast? h

theorem ne_nil (h : Walled t) : t ≠ [] := List.ne_nil_of_mem h.mem

theorem of_suffix {rest : Text} (h : Walled t) (hrest : rest <:+ t) (hne : rest ≠ []) :
    Walled rest := by
  obtain ⟨front, rfl⟩ := hrest
  rw [Walled, List.getLast?_append, List.getLast?_eq_some_getLast hne, Option.some_or] at h
  rw [Walled, List.getLast?_eq_some_getLast hne, h]

/-- What is read of a walled text leaves the wall, unless it ends in one. -/
theorem of_append (front : Text) {rest : Text} (h : Walled (front ++ rest))
    (hfront : front.getLast? ≠ some 'x') : Walled rest := by
  refine h.of_suffix (List.suffix_append _ _) ?_
  rintro rfl
  rw [List.append_nil] at h
  exact hfront h

/-- A wall stops blanks. -/
theorem trimStart_ne_nil (h : Walled t) : Text.trimStart t ≠ [] :=
  Text.trimStart_ne_nil h.mem (by decide)

theorem trimStart (h : Walled t) : Walled (Text.trimStart t) :=
  h.of_suffix (Text.trimStart_suffix t) h.trimStart_ne_nil

theorem trimStart_append (h : Walled t) (more : Text) :
    Text.trimStart (t ++ more) = Text.trimStart t ++ more :=
  Text.trimStart_extend h.trimStart_ne_nil more

end Walled

/-! ## Ends of tags and comments -/

/-- **No HTML comment end is found behind a wall.** -/
theorem skipHtmlClose_extend {t : Text} (h : Walled t) (more : Text) :
    skipHtmlClose (t ++ more) = skipHtmlClose t ++ more ∧ Walled (skipHtmlClose t) := by
  have hclose : 'x' ∉ htmlClose := by decide
  unfold skipHtmlClose
  rw [h.trimStart_append, Token.dropPrefix?_extend h.trimStart.mem hclose]
  cases hdrop : Text.dropPrefix? htmlClose (Text.trimStart t) with
  | none => exact ⟨rfl, h⟩
  | some rest =>
    refine ⟨rfl, Walled.of_append htmlClose ?_ (by decide)⟩
    rw [Option.getD_some, Token.dropPrefix?_append hdrop]
    exact h.trimStart

theorem closeTag_extend {t rest : Text} (h : closeTag t = .ok rest) (hwall : Walled t)
    (more : Text) : closeTag (t ++ more) = .ok (rest ++ more) ∧ Walled rest := by
  unfold closeTag at h ⊢
  rw [hwall.trimStart_append]
  split at h
  · cases h
  next c r hc =>
  split at h
  · next hbracket =>
    cases h
    subst hbracket
    have hwhole := hwall.trimStart
    rw [hc] at hwhole ⊢
    have hr : Walled r := Walled.of_append [']'] hwhole (by decide)
    obtain ⟨hskip, hwall'⟩ := skipHtmlClose_extend hr more
    refine ⟨?_, hwall'⟩
    simp only [List.cons_append, if_true, hskip]
  · cases h

/-- A word that is found stays the first when the text goes on. -/
theorem breakOn?_extend {pat t front rest : Text} (hpat : pat ≠ [])
    (h : Text.breakOn? pat t = some (front, rest)) (more : Text) :
    Text.breakOn? pat (t ++ more) = some (front, rest ++ more) := by
  fun_induction Text.breakOn? pat t generalizing front with
  | case1 hempty => exact absurd (List.isEmpty_iff.1 hempty) hpat
  | case2 => cases h
  | case3 c t hhere =>
    cases h
    have hp := List.isPrefixOf_iff_prefix.1 hhere
    have hmore : pat.isPrefixOf (c :: (t ++ more)) = true :=
      List.isPrefixOf_iff_prefix.2 (hp.trans (List.prefix_append (c :: t) more))
    rw [List.cons_append, Text.breakOn?, if_pos hmore, ← List.cons_append,
      List.drop_append_of_le_length hp.length_le]
  | case4 c t hhere ih =>
    obtain ⟨⟨f, b⟩, hb, he⟩ := Option.map_eq_some_iff.1 h
    cases he
    -- The word fits into the text, so what follows does not complete it here.
    have hlength : pat.length ≤ (c :: t).length := by
      rw [breakOn?_append hb]
      simp only [List.length_cons, List.length_append]
      omega
    have hmore : ¬ pat.isPrefixOf (c :: (t ++ more)) = true := by
      rw [List.isPrefixOf_iff_prefix, ← List.cons_append]
      intro hp
      exact hhere (List.isPrefixOf_iff_prefix.2
        (List.prefix_of_prefix_length_le hp (List.prefix_append _ _) hlength))
    rw [List.cons_append, Text.breakOn?, if_neg hmore, ih hb]
    rfl

/-- **A comment that ends in front of a wall** ends there also when the text goes on. -/
theorem skipComment_extend {t : Text} (h : commentEnd <:+: t) (hwall : Walled t) (more : Text) :
    skipComment (t ++ more) = skipComment t ++ more ∧ Walled (skipComment t) := by
  unfold skipComment
  cases hbreak : Text.breakOn? "*]" t with
  | none => exact absurd h (not_infix_of_breakOn?_none (by decide) hbreak)
  | some found =>
    obtain ⟨front, rest⟩ := found
    have hrest : Walled rest := by
      rw [breakOn?_append hbreak] at hwall
      refine hwall.of_append _ ?_
      rw [List.getLast?_append]
      nofun
    rw [breakOn?_extend (by decide) hbreak]
    exact skipHtmlClose_extend hrest more

/-! ## Tags -/

/-- **The expression of a tag** is the same when the text goes on behind its bracket. -/
theorem readTag_extend {s : Scope} {t rest : Text} {e : Expr} (h : readTag s t = .ok (e, rest))
    (more : Text) : readTag s (t ++ more) = .ok (e, rest ++ more) := by
  obtain ⟨hwell, hdepth, hreads, hcloses⟩ := readTag_eq_ok_iff.1 h
  refine readTag_eq_ok_iff.2 ⟨hwell, hdepth, hreads.extend (List.mem_of_head? hcloses) more, ?_⟩
  rw [List.head?_append, hcloses]
  rfl

theorem readElse_extend {r : Registry} {blocks : List Block} {line : Nat} {top : Block}
    {t rest : Text} {found : Statement × List Block}
    (h : readElse r blocks line top t = .ok (found, rest)) (hwall : Walled t) (more : Text) :
    readElse r blocks line top (t ++ more) = .ok (found, rest ++ more) := by
  have hhead : (Text.trimStart (t ++ more)).head? = (Text.trimStart t).head? := by
    rw [hwall.trimStart_append, List.head?_append]
    cases htrim : Text.trimStart t with
    | nil => exact absurd htrim hwall.trimStart.ne_nil
    | cons c r => rfl
  unfold readElse at h ⊢
  rw [hhead]
  split at h
  · cases h
  · cases h
  · cases h
    rfl
  split at h
  · next hbracket =>
    cases h
    rw [if_pos hbracket]
  · next hbracket =>
    obtain ⟨⟨test, rest'⟩, htest, hr⟩ := bind_eq_ok_iff.1 h
    cases hr
    rw [if_neg hbracket, readTag_extend htest]
    rfl

theorem readCommand_extend {r : Registry} {blocks : List Block} {line : Nat} {command : Command}
    {t : Text} {result : Option ((Statement × List Block) × Text)}
    (h : readCommand r blocks line command t = .ok result) (hwall : Walled t) (more : Text) :
    readCommand r blocks line command (t ++ more) =
      .ok (result.map fun found => (found.1, found.2 ++ more)) := by
  cases command with
  | echo =>
    obtain ⟨⟨value, rest⟩, hvalue, hr⟩ := bind_eq_ok_iff.1 h
    cases hr
    rw [readCommand, readTag_extend hvalue]
    rfl
  | loop =>
    obtain ⟨⟨array, rest⟩, harray, hr⟩ := bind_eq_ok_iff.1 h
    cases hr
    rw [readCommand, readTag_extend harray]
    rfl
  | branch =>
    obtain ⟨⟨test, rest⟩, htest, hr⟩ := bind_eq_ok_iff.1 h
    cases hr
    rw [readCommand, readTag_extend htest]
    rfl
  | otherwise =>
    cases blocks with
    | nil =>
      cases h
      rfl
    | cons top blocks =>
      obtain ⟨⟨found, rest⟩, hfound, hr⟩ := bind_eq_ok_iff.1 h
      cases hr
      rw [readCommand, readElse_extend hfound hwall]
      rfl
  | finish =>
    cases blocks with
    | nil =>
      cases h
      rfl
    | cons top blocks =>
      cases h
      rfl

/-- **A tag that ends in front of a wall** is the same when the text goes on. -/
theorem readStatement_extend {r : Registry} {blocks : List Block} {line : Nat} {command : Command}
    {t : Text} {result : Option ((Statement × List Block) × Text)}
    (h : readStatement r blocks line command t = .ok result) (hwall : Walled t) (more : Text) :
    readStatement r blocks line command (t ++ more) =
        .ok (result.map fun found => (found.1, found.2 ++ more)) ∧
      ∀ found ∈ result, Walled found.2 := by
  obtain ⟨read, hread, hr⟩ := bind_eq_ok_iff.1 h
  cases read with
  | none =>
    cases hr
    refine ⟨?_, nofun⟩
    rw [readStatement, readCommand_extend hread hwall]
    rfl
  | some found =>
    obtain ⟨found, rest⟩ := found
    obtain ⟨rest', hclose, hr⟩ := bind_eq_ok_iff.1 hr
    cases hr
    have hrest : Walled rest := by
      refine hwall.of_suffix (readCommand_suffix hread) ?_
      rintro rfl
      cases hclose
    obtain ⟨hextend, hwall'⟩ := closeTag_extend hclose hrest more
    refine ⟨?_, ?_⟩
    · rw [readStatement, readCommand_extend hread hwall]
      change closeTag (rest ++ more) >>= _ = _
      rw [hextend]
      rfl
    · rintro _ ⟨⟩
      exact hwall'

/-! ## Openers -/

namespace Opener

/-- The opener in a text that starts earlier and goes on later. -/
def between (front back : Text) (o : Opener) : Opener :=
  { o with before := front ++ o.before, rest := o.rest ++ back }

theorem bracket?_extend_some {t rest : Text} {n : Nat} {c : Char}
    (h : bracket? t = some (n, c, rest)) (more : Text) :
    bracket? (t ++ more) = some (n, c, rest ++ more) := by
  rw [← bracket?_append h]
  simp only [List.cons_append, List.append_assoc]
  exact bracket?_eq_some (isCommandChar_of_bracket? h) _

/-- A bracket that opens nothing needs one character to tell. -/
theorem bracket?_extend_none {c d : Char} {t : Text} (h : bracket? (c :: t) = none) (hd : d ∈ t)
    (hne : d ≠ '\\') (more : Text) : bracket? (c :: t ++ more) = none := by
  by_cases hc : c = '['
  · subst hc
    have hdrop : t.dropWhile (· == '\\') ≠ [] := by
      intro hnil
      have hsplit := List.takeWhile_append_dropWhile (p := (· == '\\')) (l := t)
      rw [hnil, List.append_nil] at hsplit
      have hall := List.all_eq_true.1 (List.all_takeWhile (p := (· == '\\')) (l := t)) d
        (hsplit.symm ▸ hd)
      exact hne (beq_iff_eq.1 hall)
    obtain ⟨e, u, he⟩ := List.exists_cons_of_ne_nil hdrop
    simp only [List.cons_append, bracket?, (run_extend hdrop more).2, he] at h ⊢
    split at h
    · cases h
    · next hcommand => rw [if_neg hcommand]
  · rw [List.cons_append]
    unfold bracket?
    split
    · next heq => exact absurd (List.cons.inj heq).1 hc
    · rfl

/-- **The first bracket stays the first** when the text goes on. -/
theorem search?_extend {t before rest : Text} {n : Nat} {c : Char}
    (h : search? t = some (before, n, c, rest)) (more : Text) :
    search? (t ++ more) = some (before, n, c, rest ++ more) := by
  fun_induction search? t generalizing before with
  | case1 => cases h
  | case2 d t found hbracket =>
    cases h
    rw [List.cons_append, search?, ← List.cons_append, bracket?_extend_some hbracket]
  | case3 d t hbracket ih =>
    obtain ⟨⟨b, f⟩, hsearch, he⟩ := Option.map_eq_some_iff.1 h
    cases he
    have hmem : '[' ∈ t := by
      rw [← search?_append hsearch]
      simp
    rw [List.cons_append, search?, ← List.cons_append,
      bracket?_extend_none hbracket hmem (by decide), ih hsearch]
    rfl

/-- **Behind a wall the search starts anew.** -/
theorem search?_of_walled {t : Text} (h : search? t = none) (hwall : Walled t) (more : Text) :
    search? (t ++ more) = (search? more).map fun found => (t ++ found.1, found.2) := by
  induction t with
  | nil => exact absurd rfl hwall.ne_nil
  | cons c t ih =>
    unfold search? at h
    split at h
    · cases h
    next hbracket =>
    by_cases ht : t = []
    · subst ht
      obtain rfl : c = 'x' := Option.some.inj hwall
      rfl
    · have hrest : Walled t := hwall.of_suffix (List.suffix_cons c t) ht
      rw [List.cons_append, search?, ← List.cons_append,
        bracket?_extend_none hbracket hrest.mem (by decide), ih (Option.map_eq_none_iff.1 h) hrest,
        Option.map_map]
      rfl

theorem trimEnd_of_walled {t : Text} (hwall : Walled t) (more : Text) :
    Text.trimEnd (t ++ more) = t ++ Text.trimEnd more := by
  obtain ⟨front, rfl⟩ := List.getLast?_eq_some_iff.1 hwall
  unfold Text.trimEnd
  rw [List.reverse_append, List.dropWhile_append]
  split
  · next hblank =>
    have hx : Text.isBlank 'x' = false := by decide
    rw [List.isEmpty_iff.1 hblank, List.reverse_nil, List.append_nil, List.reverse_append,
      List.reverse_singleton, List.singleton_append, List.dropWhile_cons_of_neg (by simp [hx])]
    simp
  · rw [List.reverse_append, List.reverse_reverse]

/-- **No HTML comment start reaches over a wall.** -/
theorem splitHtml_of_walled {t : Text} (hwall : Walled t) (more : Text) :
    splitHtml (t ++ more) = (t ++ (splitHtml more).1, (splitHtml more).2) := by
  have hsuffix : htmlOpen <:+ t ++ Text.trimEnd more ↔ htmlOpen <:+ Text.trimEnd more := by
    refine ⟨fun h => ?_, fun h => h.trans (List.suffix_append _ _)⟩
    obtain ⟨front, hfront⟩ := h
    rcases List.append_eq_append_iff.1 hfront with ⟨w, ht, hopen⟩ | ⟨w, -, hmore⟩
    · by_cases hw : w = []
      · rw [hw, List.nil_append] at hopen
        exact hopen ▸ List.suffix_refl _
      · have hmem : 'x' ∈ htmlOpen := by
          rw [hopen]
          exact List.mem_append_left _ (hwall.of_suffix ⟨front, ht.symm⟩ hw).mem
        exact absurd hmem (by decide)
    · exact ⟨w, hmore.symm⟩
  simp only [splitHtml, trimEnd_of_walled hwall, List.isSuffixOf_iff_suffix, hsuffix]
  split
  · next hopen =>
    have hlength := hopen.length_le
    rw [List.length_append, Nat.add_sub_assoc hlength, List.splitAt_eq, List.splitAt_eq,
      List.take_length_add_append, List.drop_length_add_append]
  · rfl

/-- **The first opener stays the first** when the text goes on. -/
theorem find?_extend {t : Text} {o : Opener} (h : find? t = some o) (more : Text) :
    find? (t ++ more) = some (o.between [] more) := by
  obtain ⟨⟨before, n, c, rest⟩, hsearch, rfl⟩ := Option.map_eq_some_iff.1 h
  rw [find?, search?_extend hsearch]
  rfl

/-- **The first opener behind a wall** is the first one of the text behind it. -/
theorem find?_of_walled {t : Text} (h : find? t = none) (hwall : Walled t) (more : Text) :
    find? (t ++ more) = (find? more).map (between t []) := by
  unfold find?
  rw [search?_of_walled (Option.map_eq_none_iff.1 h) hwall, Option.map_map, Option.map_map]
  refine congrArg (fun f => Option.map f (search? more)) (funext fun found => ?_)
  obtain ⟨before, n, c, rest⟩ := found
  simp [between, splitHtml_of_walled hwall]

end Opener

/-! ## Segments -/

namespace Segment

/-- The segment in a text that starts earlier and goes on later. -/
def between (front back : Text) : Segment → Segment
  | escaped o => escaped (o.between front back)
  | segment => segment

@[simp] theorem source_between (front back : Text) (segment : Segment) :
    (segment.between front back).source = segment.source := by
  cases segment <;> rfl

@[simp] theorem code_between (r : Registry) (front back : Text) (segment : Segment) :
    (segment.between front back).code r = segment.code r := by
  cases segment <;> rfl

/-- **A comment that is closed**: its end stands somewhere behind its opener. -/
def IsClosed : Segment → Prop
  | comment text => ∃ html body, text = html ++ '[' :: '*' :: body ∧ IsHtmlLead html ∧
      commentEnd <:+: body
  | _ => True

end Segment

/-- **A segment in front of a wall** is the same when the text goes on, unless it is a comment that
does not end there. -/
theorem readSegment_extend {r : Registry} {blocks after : List Block} {line : Nat} {t rest : Text}
    {o : Opener} {segment : Segment} (ho : Opener.find? t = some o) (hwall : Walled t)
    (h : readSegment r blocks line o = .ok ((segment, after), rest)) (hclosed : segment.IsClosed)
    (more : Text) :
    readSegment r blocks line (o.between [] more) =
        .ok ((segment.between [] more, after), rest ++ more) ∧ Walled rest := by
  have hcommand := Opener.isCommandChar_of_find? ho
  have hrest : Walled o.rest := by
    rw [← Opener.find?_append ho] at hwall
    refine hwall.of_append _ ?_
    have hlast : (o.before ++ o.text).getLast? = some o.command := by
      rw [Opener.text, Opener.textWith, ← List.cons_append, ← List.append_assoc,
        ← List.append_assoc, List.getLast?_concat]
    rw [hlast]
    intro hx
    rw [Option.some.inj hx] at hcommand
    cases hcommand
  have hpiece := (fits_of_readSegment ho h).1
  have htext : (o.between [] more).text ++ (o.between [] more).rest =
      segment.source ++ (rest ++ more) := by
    rw [← List.append_assoc, ← hpiece, List.append_assoc]
    rfl
  simp only [readSegment] at h ⊢
  rw [htext]
  split at h
  · next hescape =>
    cases h
    exact ⟨if_pos hescape, hrest⟩
  next hescape =>
  rw [if_neg (show ¬ 0 < (o.between [] more).backslashes from hescape),
    show (o.between [] more).command = o.command from rfl]
  cases hletter : Command.ofChar? o.command with
  | none =>
    rw [hletter] at h
    cases h
    have hend : commentEnd <:+: o.rest := by
      obtain ⟨html, body, htext, hlead, hend⟩ := hclosed
      rw [Segment.source, htext, Opener.text, Opener.textWith,
        Nat.eq_zero_of_not_pos hescape, eq_star_of_ofChar?_none hcommand hletter] at hpiece
      simp only [List.replicate_zero, List.nil_append, List.append_assoc, List.cons_append]
        at hpiece
      obtain ⟨-, hbody⟩ := Text.append_cons_inj
        (not_mem_of_isHtmlLead (Opener.isHtmlLead_of_find? ho)) (not_mem_of_isHtmlLead hlead) hpiece
      rw [(List.cons.inj hbody).2]
      exact hend.trans (List.prefix_append _ _).isInfix
    obtain ⟨hskip, hwall'⟩ := skipComment_extend hend hrest more
    have hskip' : skipComment (o.between [] more).rest = skipComment o.rest ++ more := hskip
    refine ⟨?_, hwall'⟩
    rw [hskip', Text.upTo_append]
    rfl
  | some command =>
    rw [hletter] at h
    dsimp only at h ⊢
    cases hread : readStatement r blocks line command o.rest with
    | error stuck =>
      rw [hread] at h
      cases h
    | ok found =>
      rw [hread] at h
      obtain ⟨hextend, hwall'⟩ := readStatement_extend hread hrest more
      have hread' : readStatement r blocks line command (o.between [] more).rest = _ := hextend
      rw [hread']
      rcases found with - | ⟨⟨s, later⟩, rest'⟩
      · cases h
        exact ⟨rfl, hrest⟩
      · cases h
        refine ⟨?_, hwall' _ rfl⟩
        dsimp only [Option.map_some]
        rw [Text.upTo_append]
        rfl

/-! ## Passing on -/

/-- The stage with more text ahead. -/
def Stage.extend (more : Text) (p : Stage) : Stage := { p with ahead := p.ahead ++ more }

/-- **A scan passes a walled text in the same way** when the text goes on, as long as every comment
is closed in front of the wall. -/
theorem Passes.extend {r : Registry} {p q : Stage} {segments : List Segment}
    (h : Passes r p segments q) (hwall : Walled p.ahead)
    (hclosed : ∀ segment ∈ segments, segment.IsClosed) (more : Text) :
    Passes r (p.extend more) (segments.map (Segment.between [] more)) (q.extend more) ∧
      Walled q.ahead := by
  induction h with
  | done p => exact ⟨.done _, hwall⟩
  | @step p q o segment after rest segments find read others ih =>
    obtain ⟨hread, hrest⟩ := readSegment_extend find hwall read (hclosed segment (by simp)) more
    obtain ⟨hothers, hlast⟩ := ih hrest fun other hmem => hclosed other (by simp [hmem])
    refine ⟨?_, hlast⟩
    have hnext : (p.extend more).next (o.between [] more) (segment.between [] more) after
        (rest ++ more) = (p.next o segment after rest).extend more := by
      simp only [Stage.next, Stage.extend, Segment.source_between]
      rfl
    have hfind : Opener.find? (p.extend more).ahead = some (o.between [] more) :=
      Opener.find?_extend find more
    exact Passes.step (o := o.between [] more) hfind hread (hnext ▸ hothers)

end Stencil
