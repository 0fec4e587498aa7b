import Stencil.Proofs.Json.Spelling
import Stencil.Proofs.Template.Segments
import Stencil.Proofs.Text.Lines

/-!
# Proofs/Template/Mark — a mark reads back

    mark ──json──▸ object ──guardCommentEnd──▸ /* object */ ──at?──▸ mark

The guarded JSON of a mark holds no comment end, so the comment ends behind it; and it is a spelling
of the same object, as JSON reads a slash behind a backslash as a slash.  So the comment of a mark
gives the mark back, whatever its tag holds (`Mark.at?_comment`).  A text in which no comment opens
like a mark holds none (`Mark.find?_eq_none`), and a comment behind such a text is the first one in
it (`Mark.find?_append_comment`): so a mark is found in whatever text its comment stands
(`Mark.find?_comment`).
-/

namespace Stencil

/-! ## Characters above a bound -/

/-- A text without characters below a bound is told by looking through it. -/
theorem Text.le_of_all {n : Nat} {t : Text} (h : t.all (n ≤ ·.toNat) = true) :
    ∀ c ∈ t, n ≤ c.toNat := by
  simpa only [List.all_eq_true, decide_eq_true_eq] using h

/-! ## Guarded texts -/

theorem guardCommentEnd_cons {c : Char} {t : Text} (h : c = '*' → t.head? ≠ some '/') :
    guardCommentEnd (c :: t) = c :: guardCommentEnd t := by
  rw [guardCommentEnd]
  rintro t' rfl rfl
  exact h rfl rfl

theorem guardCommentEnd_append {s : Text} (h : '*' ∉ s) (t : Text) :
    guardCommentEnd (s ++ t) = s ++ guardCommentEnd t := by
  induction s with
  | nil => rfl
  | cons c s ih =>
    have hc : c ≠ '*' := fun hc => h (hc ▸ List.mem_cons_self)
    rw [List.cons_append, guardCommentEnd_cons fun hstar => absurd hstar hc,
      ih fun hs => h (List.mem_cons_of_mem c hs)]
    rfl

/-- Guarding keeps the first character. -/
theorem head?_guardCommentEnd (t : Text) : (guardCommentEnd t).head? = t.head? := by
  fun_cases guardCommentEnd t <;> rfl

/-- A text is guarded on its own when no slash follows it. -/
theorem guardCommentEnd_append_of_head {t : Text} (h : t.head? ≠ some '/') (s : Text) :
    guardCommentEnd (s ++ t) = guardCommentEnd s ++ guardCommentEnd t := by
  fun_induction guardCommentEnd s with
  | case1 => rfl
  | case2 s ih =>
    rw [List.cons_append, List.cons_append, guardCommentEnd, ih]
    rfl
  | case3 c s hpair ih =>
    rw [List.cons_append, guardCommentEnd_cons, ih]
    · rfl
    · rintro rfl hslash
      cases s with
      | nil => exact h hslash
      | cons d s => exact hpair s rfl (by rw [Option.some.inj hslash])

theorem mem_guardCommentEnd {c : Char} {t : Text} (h : c ∈ guardCommentEnd t) :
    c ∈ t ∨ c = '\\' := by
  fun_induction guardCommentEnd t with
  | case1 => exact .inl h
  | case2 t ih =>
    simp only [List.mem_cons] at h ⊢
    rcases h with h | h | h | h
    · exact .inl (.inl h)
    · exact .inr h
    · exact .inl (.inr (.inl h))
    · exact (ih h).imp_left fun h => .inr (.inr h)
  | case3 d t _ ih =>
    rcases List.mem_cons.1 h with rfl | h
    · exact .inl List.mem_cons_self
    · exact (ih h).imp_left (List.mem_cons_of_mem d)

/-- A guarded text in front of a blank does not start with a comment end. -/
theorem not_prefix_guardCommentEnd (t k : Text) :
    ¬ ['*', '/'] <+: guardCommentEnd t ++ ' ' :: k := by
  fun_cases guardCommentEnd t with
  | case1 => simp
  | case2 t => simp
  | case3 c t hpair =>
    rw [List.cons_append, List.cons_prefix_cons]
    rintro ⟨rfl, hslash⟩
    have hhead := head?_guardCommentEnd t
    cases hguarded : guardCommentEnd t with
    | nil =>
      rw [hguarded] at hslash
      simp at hslash
    | cons d s =>
      rw [hguarded, List.cons_append, List.cons_prefix_cons] at hslash
      rw [hguarded, ← hslash.1] at hhead
      obtain ⟨t, rfl⟩ := List.head?_eq_some_iff.1 hhead.symm
      exact hpair t rfl rfl

/-- **A guarded text holds no comment end.** -/
theorem not_infix_guardCommentEnd (t : Text) : ¬ ['*', '/'] <:+: guardCommentEnd t := by
  have hfront : ∀ t, ¬ ['*', '/'] <+: guardCommentEnd t := fun t h =>
    not_prefix_guardCommentEnd t [] (h.trans (List.prefix_append _ _))
  fun_induction guardCommentEnd t with
  | case1 => simp
  | case2 t ih =>
    -- The backslash parts the star from the slash, and neither starts a comment end on its own.
    simpa [List.infix_cons_iff] using ih
  | case3 c t hpair ih =>
    have hhead := hfront (c :: t)
    rw [guardCommentEnd_cons fun hc ht => ?_] at hhead
    · rw [List.infix_cons_iff, not_or]
      exact ⟨hhead, ih⟩
    · obtain ⟨s, rfl⟩ := List.head?_eq_some_iff.1 ht
      exact hpair s hc rfl

/-- **A guarded text ends where its comment ends.** -/
theorem breakOn?_guardCommentEnd (t rest : Text) :
    Text.breakOn? " */" (guardCommentEnd t ++ " */" ++ rest) =
      some (guardCommentEnd t, rest) := by
  have hstep : ∀ (c : Char) (s : Text),
      (c = ' ' → ¬ ['*', '/'] <+: s ++ ' ' :: ("*/" ++ rest)) →
      Text.breakOn? " */" (s ++ " */" ++ rest) = some (s, rest) →
      Text.breakOn? " */" (c :: s ++ " */" ++ rest) = some (c :: s, rest) := by
    intro c s hc hs
    have hpat : ¬ (" */" : String).toList.isPrefixOf (c :: (s ++ " */" ++ rest)) = true := by
      rw [List.isPrefixOf_iff_prefix]
      intro hp
      obtain ⟨hblank, hp⟩ := List.cons_prefix_cons.1 hp
      rw [List.append_assoc] at hp
      exact hc hblank.symm hp
    rw [List.cons_append, List.cons_append, Text.breakOn?, if_neg hpat, hs]
    rfl
  fun_induction guardCommentEnd t with
  | case1 => rfl
  | case2 t ih =>
    refine hstep '*' _ (by simp) (hstep '\\' _ (by simp) (hstep '/' _ (by simp) ih))
  | case3 c t _ ih => exact hstep c _ (fun _ => not_prefix_guardCommentEnd t _) ih

/-! ## The JSON of a mark -/

namespace Json

theorem head?_flatMap_escapeChar {t : Text} (h : (t.flatMap escapeChar).head? = some '/') :
    t.head? = some '/' := by
  cases t with
  | nil => cases h
  | cons c t =>
    obtain ⟨d, ds, hescape⟩ := List.exists_cons_of_ne_nil (escapeChar_ne_nil c)
    rw [List.flatMap_cons, hescape] at h
    have hd : d = '/' := Option.some.inj h
    have hmem : '/' ∈ escapeChar c := by
      rw [hescape, hd]
      exact List.mem_cons_self
    rw [← (eq_of_mem_escapeChar (by decide) hmem).1]
    rfl

/-- A JSON string holds no control character. -/
theorem le_of_mem_quote {c : Char} {t : Text} (h : c ∈ quote t) : 32 ≤ c.toNat := by
  have hletters : ∀ c ∈ escapeLetters, 32 ≤ c.toNat := Text.le_of_all (by decide)
  have hquote : 32 ≤ '"'.toNat := by decide
  simp only [quote, List.mem_append, List.mem_singleton] at h
  rcases h with (rfl | h) | rfl
  · exact hquote
  · obtain ⟨d, -, hd⟩ := List.mem_flatMap.1 h
    rcases mem_escapeChar hd with ⟨rfl, hcontrol⟩ | hescape
    · exact hcontrol
    · exact hletters c hescape
  · exact hquote

theorem le_of_mem_decimal {c : Char} {n : Nat} (h : c ∈ Text.decimal n) : 32 ≤ c.toNat := by
  have hdigit := isDigit_of_mem_decimal h
  rw [Text.isDigit, Bool.and_eq_true, decide_eq_true_iff, decide_eq_true_iff] at hdigit
  exact Nat.le_trans (by decide : 32 ≤ '0'.toNat) (UInt32.le_iff_toNat_le.1 hdigit.1)

/-- **The guarded form of a text is one of its spellings.** -/
theorem spells_guardCommentEnd (t : Text) : Spells (guardCommentEnd (t.flatMap escapeChar)) t := by
  fun_induction guardCommentEnd t with
  | case1 => exact .nil
  | case2 t ih => exact .char '*' (.slash ih)
  | case3 c t hpair ih =>
    rw [List.flatMap_cons]
    by_cases hc : c = '*'
    · rw [hc]
      have hslash : (t.flatMap escapeChar).head? ≠ some '/' := by
        intro hhead
        obtain ⟨s, rfl⟩ := List.head?_eq_some_iff.1 (head?_flatMap_escapeChar hhead)
        exact hpair s hc rfl
      change Spells (guardCommentEnd ('*' :: t.flatMap escapeChar)) ('*' :: t)
      rw [guardCommentEnd_cons fun _ => hslash]
      exact .char '*' ih
    · have hstar : '*' ∉ escapeChar c := fun hmem =>
        hc (eq_of_mem_escapeChar (by decide) hmem).1.symm
      rw [guardCommentEnd_append hstar]
      exact .char c ih

end Json

namespace Mark

/-- How every mark starts: a comment with a brace. -/
def opening : Text := ['/', '*', ' ', '\x7b']

/-- The guarded JSON is that of the mark, with its code in a guarded form. -/
theorem guarded_json (m : Mark) :
    guardCommentEnd m.json =
      '\x7b' :: '"' :: (['l', 'i', 'n', 'e'] ++ '"' :: ':' :: (Text.decimal m.line ++
        ',' :: '"' :: (['c', 'o', 'd', 'e'] ++ '"' :: ':' :: '"' ::
          (guardCommentEnd (m.code.flatMap Json.escapeChar) ++ '"' :: ['\x7d'])))) := by
  have hline : ("\x7b\"line\":" : Text) = ['\x7b', '"', 'l', 'i', 'n', 'e', '"', ':'] := by decide
  have hcode : (",\"code\":" : Text) = [',', '"', 'c', 'o', 'd', 'e', '"', ':'] := by decide
  have hclose : ("\x7d" : Text) = ['\x7d'] := by decide
  have hjson : m.json =
      (['\x7b', '"', 'l', 'i', 'n', 'e', '"', ':'] ++ Text.decimal m.line ++
        [',', '"', 'c', 'o', 'd', 'e', '"', ':', '"']) ++
        (m.code.flatMap Json.escapeChar ++ ['"', '\x7d']) := by
    unfold json Json.quote
    rw [hline, hcode, hclose]
    simp only [List.append_assoc, List.cons_append, List.nil_append]
  have hstar : '*' ∉ ['\x7b', '"', 'l', 'i', 'n', 'e', '"', ':'] ++ Text.decimal m.line ++
      [',', '"', 'c', 'o', 'd', 'e', '"', ':', '"'] := by
    have hdecimal : '*' ∉ Text.decimal m.line := fun h =>
      absurd (Json.isDigit_of_mem_decimal h) (by decide)
    simp [hdecimal]
  have hquote : guardCommentEnd ['"', '\x7d'] = ['"', '\x7d'] := rfl
  rw [hjson, guardCommentEnd_append hstar, guardCommentEnd_append_of_head (by simp), hquote]
  simp only [List.append_assoc, List.cons_append, List.nil_append]

/-- The members of the object of a mark. -/
def members (m : Mark) : List (Option Text × Json.Doc) :=
  [(some ['l', 'i', 'n', 'e'], .number ⟨false, m.line, 0, true⟩),
    (some ['c', 'o', 'd', 'e'], .text (some m.code))]

/-- **The guarded JSON is read as the object of the mark.** -/
theorem read_guarded_json {m : Mark} (h : m.line < Nat.pow 2 32) :
    Json.Doc.read (guardCommentEnd m.json) = (.object m.members none, some []) := by
  have hwide : m.line < Nat.pow 2 Json.significandBits := Nat.lt_trans h (by decide)
  have hline : Json.Spells ['l', 'i', 'n', 'e'] ['l', 'i', 'n', 'e'] :=
    .char 'l' (.char 'i' (.char 'n' (.char 'e' .nil)))
  have hcode : Json.Spells ['c', 'o', 'd', 'e'] ['c', 'o', 'd', 'e'] :=
    .char 'c' (.char 'o' (.char 'd' (.char 'e' .nil)))
  -- The object, its two members, and its closing brace: each level of the reading takes one unit.
  have hread : ∀ fuel, Json.readValue (fuel + 4) (guardCommentEnd m.json) =
      (.object m.members none, some []) := by
    intro fuel
    have hclose : Json.readMembers (fuel + 1) false ['\x7d'] = (([], none), some []) := rfl
    have hsecond := Json.readMembers_member hcode false
      (Json.readValue_string (Json.spells_guardCommentEnd m.code) fuel ['\x7d']) hclose
    have hfirst := Json.readMembers_member hline true
      (Json.readValue_decimal hwide (fuel + 1) _) hsecond
    rw [guarded_json]
    exact Json.readValue_object hfirst
  have hlong : 2 ≤ (guardCommentEnd m.json).length := by
    rw [guarded_json]
    simp
  obtain ⟨fuel, hfuel⟩ := Nat.exists_eq_add_of_le hlong
  rw [Json.Doc.read, hfuel, show 2 * (2 + fuel) + 2 = (2 * fuel + 2) + 4 by omega]
  exact hread _

theorem ofMembers?_members {m : Mark} (h : m.line < Nat.pow 2 32) :
    ofMembers? none none m.members = some m := by
  have hwidth : (Json.Doc.number ⟨false, m.line, 0, true⟩).asNat 32 = .ok m.line := by
    simp [Json.Doc.asNat, h]
  have hline : ['l', 'i', 'n', 'e'] = ("line" : String).toList := by decide
  have hcode : ['c', 'o', 'd', 'e'] = ("code" : String).toList := by decide
  have hne : ['c', 'o', 'd', 'e'] ≠ ("line" : String).toList := by decide
  unfold members ofMembers?
  rw [if_pos hline, hwidth]
  dsimp only
  unfold ofMembers?
  rw [if_neg hne, if_pos hcode]
  rfl

theorem ofJson?_guarded_json {m : Mark} (h : m.line < Nat.pow 2 32) :
    ofJson? (guardCommentEnd m.json) = some m := by
  rw [ofJson?, read_guarded_json h]
  exact ofMembers?_members h

/-! ## The comment of a mark -/

/-- A comment that starts with a brace is read as JSON. -/
theorem at?_eq_ofJson? {t rest json more : Text}
    (hopen : Text.dropPrefix? "/* " t = some ('\x7b' :: rest))
    (hclose : Text.breakOn? " */" ('\x7b' :: rest) = some (json, more)) :
    at? t = ofJson? json := by
  simp only [at?, hopen, hclose]

/-- **The comment of a mark reads back**, whatever its tag holds and whatever follows. -/
theorem at?_comment {m : Mark} (h : m.line < Nat.pow 2 32) (rest : Text) :
    at? (m.comment ++ rest) = some m := by
  have hcomment : m.comment ++ rest =
      "/* " ++ (guardCommentEnd m.json ++ " */" ++ rest) := by
    simp only [comment, List.append_assoc]
  have hbrace : guardCommentEnd m.json ++ " */" ++ rest =
      '\x7b' :: ((guardCommentEnd m.json ++ " */" ++ rest).drop 1) := by
    rw [guarded_json]
    rfl
  have hbreak := breakOn?_guardCommentEnd m.json rest
  have hopen : Text.dropPrefix? "/* " (m.comment ++ rest) =
      some (guardCommentEnd m.json ++ " */" ++ rest) := by
    rw [hcomment, Text.dropPrefix?_append_self]
  rw [hbrace] at hopen hbreak
  rw [at?_eq_ofJson? hopen hbreak]
  exact ofJson?_guarded_json h

theorem comment_eq (m : Mark) : ∃ rest, m.comment = '/' :: rest := ⟨_, rfl⟩

theorem getLast?_comment (m : Mark) : m.comment.getLast? = some '/' := by
  rw [comment, List.getLast?_append]
  rfl

/-- **A mark holds no control character**: those of its tag are escaped. -/
theorem le_of_mem_comment {m : Mark} {c : Char} (h : c ∈ m.comment) : 32 ≤ c.toNat := by
  have hfirst : ∀ c ∈ ("\x7b\"line\":" : Text), 32 ≤ c.toNat := Text.le_of_all (by decide)
  have hsecond : ∀ c ∈ (",\"code\":" : Text), 32 ≤ c.toNat := Text.le_of_all (by decide)
  have hclose : ∀ c ∈ ("\x7d" : Text), 32 ≤ c.toNat := Text.le_of_all (by decide)
  have hjson : ∀ c ∈ m.json, 32 ≤ c.toNat := by
    unfold json
    simp only [List.forall_mem_append]
    exact ⟨⟨⟨⟨hfirst, fun _ => Json.le_of_mem_decimal⟩, hsecond⟩, fun _ => Json.le_of_mem_quote⟩,
      hclose⟩
  have hguarded : ∀ c ∈ guardCommentEnd m.json, 32 ≤ c.toNat := by
    intro c hc
    rcases mem_guardCommentEnd hc with hc | rfl
    · exact hjson c hc
    · decide
  have hopen : ∀ c ∈ ("/* " : Text), 32 ≤ c.toNat := Text.le_of_all (by decide)
  have hend : ∀ c ∈ (" */" : Text), 32 ≤ c.toNat := Text.le_of_all (by decide)
  rcases List.mem_append.1 h with h | h
  · exact (List.mem_append.1 h).elim (hopen c) (hguarded c)
  · exact hend c h

/-- A mark lies on one line. -/
theorem feed_not_mem_comment (m : Mark) : '\n' ∉ m.comment := fun h =>
  absurd (le_of_mem_comment h) (by decide)

/-- A mark is a line. -/
theorem lines_comment (m : Mark) : Text.lines m.comment = [m.comment] := by
  have hlines := Text.linesAfter_append m.feed_not_mem_comment [] []
  rw [List.append_nil, List.append_nil] at hlines
  rw [Text.lines, hlines, Text.linesAfter, List.reverse_reverse, if_neg]
  obtain ⟨rest, hrest⟩ := m.comment_eq
  simp [hrest]

/-- **A mark holds one comment end**, its own: nothing stands behind one. -/
theorem eq_nil_of_comment {m : Mark} {s t : Text} (h : m.comment = s ++ '*' :: '/' :: t) :
    t = [] := by
  have hguarded := not_infix_guardCommentEnd m.json
  have hcomment : m.comment =
      (['/', '*'] ++ ' ' :: (guardCommentEnd m.json ++ ' ' :: ['*'])) ++ ['/'] := by
    simp [comment]
  have hfront : ¬ ['*', '/'] <:+:
      ['/', '*'] ++ ' ' :: (guardCommentEnd m.json ++ ' ' :: ['*']) := by
    have hne : (['*', '/'] : Text) ≠ [] := by decide
    have hblank : ' ' ∉ ['*', '/'] := by decide
    rw [Text.infix_append_cons_iff hne hblank, Text.infix_append_cons_iff hne hblank]
    exact not_or.2 ⟨by decide, not_or.2 ⟨hguarded, by decide⟩⟩
  -- Behind a comment end that is not the last, there is a last character to drop.
  rcases List.eq_nil_or_concat t with rfl | ⟨t, c, rfl⟩
  · rfl
  · have hconcat : s ++ '*' :: '/' :: t.concat c = (s ++ '*' :: '/' :: t) ++ [c] := by simp
    rw [hcomment, hconcat, List.append_singleton_inj] at h
    exact absurd ⟨s, t, by rw [h.1]; simp⟩ hfront

/-! ## The first mark of a text -/

theorem at?_eq_none {t : Text} (h : ¬ opening <+: t) : at? t = none := by
  unfold at?
  split
  · next rest hrest =>
    refine absurd ⟨rest, ?_⟩ h
    rw [← Token.dropPrefix?_append hrest]
    rfl
  · rfl

/-- **A text in which nothing opens like a mark holds none.** -/
theorem find?_eq_none {t : Text} (h : ¬ opening <:+: t) : find? t = none := by
  induction t with
  | nil => rfl
  | cons c t ih =>
    rw [List.infix_cons_iff, not_or] at h
    rw [find?, at?_eq_none h.1, ih h.2]

/-- **A comment behind such a text is the first mark.** -/
theorem find?_append_comment {s : Text} (hs : ¬ opening <:+: s) {m : Mark}
    (h : m.line < Nat.pow 2 32) (rest : Text) : find? (s ++ (m.comment ++ rest)) = some m := by
  induction s with
  | nil =>
    obtain ⟨k, hk⟩ := m.comment_eq
    have hat := at?_comment h rest
    rw [hk, List.cons_append] at hat
    rw [List.nil_append, hk, List.cons_append, find?, hat]
  | cons c s ih =>
    rw [List.infix_cons_iff, not_or] at hs
    have hopening : ¬ opening <+: c :: (s ++ (m.comment ++ rest)) := by
      obtain ⟨k, hk⟩ := m.comment_eq
      rw [hk, ← List.cons_append]
      exact fun hp => hs.1 (Text.prefix_of_prefix_append_cons (by decide) (by simp) hp)
    rw [List.cons_append, find?, at?_eq_none hopening]
    exact ih hs.2

/-- **A mark is found where its comment stands**, behind any text in which no comment opens like a
mark, whatever its tag holds and whatever follows.  The comment is one line without control
characters, and it ends at the only comment end in it.  The line of a mark is a number of 32
bits. -/
theorem find?_comment (m : Mark) (front back : Text) (hline : m.line < Nat.pow 2 32)
    (hfront : ¬ opening <:+: front) :
    find? (front ++ m.comment ++ back) = some m ∧
      Text.lines m.comment = [m.comment] ∧ (∀ c ∈ m.comment, 32 ≤ c.toNat) ∧
      (∃ s, m.comment = s ++ ['*', '/']) ∧
      ∀ s t, m.comment = s ++ ['*', '/'] ++ t → t = [] := by
  refine ⟨?_, m.lines_comment, fun c => le_of_mem_comment, ?_, fun s t h => ?_⟩
  · rw [List.append_assoc]
    exact find?_append_comment hfront hline back
  · exact ⟨"/* " ++ guardCommentEnd m.json ++ [' '], by simp [comment]⟩
  · exact eq_nil_of_comment (by rw [h, List.append_assoc]; rfl)

/-- The last line that 32 bits count, and a tag with quotes, a line feed, comment ends and something
that opens like a mark. -/
theorem find?_comment_hostile_tag :
    let m : Mark := ⟨4294967295, "[= '\\*/ /* \x7b\n */' ]"⟩
    m.line < Nat.pow 2 32 ∧ ¬ opening <:+: ("/* no mark */ <?= 1 " : Text) ∧
      find? ("/* no mark */ <?= 1 " ++ m.comment ++ " ?>/* \x7b") = some m ∧
      Text.lines m.comment = [m.comment] ∧ ∀ s t, m.comment = s ++ ['*', '/'] ++ t → t = [] := by
  intro m
  have hline : m.line < Nat.pow 2 32 := by decide
  have hfront : ¬ opening <:+: ("/* no mark */ <?= 1 " : Text) := by decide +kernel
  obtain ⟨hfind, hlines, -, -, hend⟩ := find?_comment m _ " ?>/* \x7b" hline hfront
  exact ⟨hline, hfront, hfind, hlines, hend⟩

end Mark

end Stencil
