import Stencil.Json.Document

/-!
# Proofs/Json/Spelling — what is written as JSON reads back

    text ──escape each character──▸ spelling ──string──▸ text
    number ──decimal──▸ digits ──number──▸ number

A text has many spellings, as a character may stand for itself or be escaped.  `Spells` lists those
that are written here: each character in the form that `escapeChar` gives it, or a slash behind a
backslash.  Reading a spelling gives its text (`string_of_spells`).  The digits of a number read
back as far as a significand is wide (`number_decimal`).
-/

namespace Stencil

namespace Json

/-! ## Strings -/

/-- **The spellings of a text**: its characters in their JSON form, but for slashes, which may stand
behind a backslash. -/
inductive Spells : Text → Text → Prop
  | nil : Spells [] []
  | char (c : Char) {spelled t : Text} (h : Spells spelled t) :
      Spells (escapeChar c ++ spelled) (c :: t)
  | slash {spelled t : Text} (h : Spells spelled t) : Spells ('\\' :: '/' :: spelled) ('/' :: t)

/-- What an escape is made of. -/
def escapeLetters : Text := "\"\\bfnrtu0123456789abcdef"

theorem hexDigit_mem_escapeLetters {n : Nat} (h : n < 16) : hexDigit n ∈ escapeLetters := by
  have hall : ∀ m : Fin 16, hexDigit m ∈ escapeLetters := by decide
  exact hall ⟨n, h⟩

/-- **The form of a character** is the character, which is no control character, or an escape. -/
theorem mem_escapeChar {c d : Char} (h : d ∈ escapeChar c) :
    d = c ∧ 32 ≤ c.toNat ∨ d ∈ escapeLetters := by
  unfold escapeChar at h
  iterate 7
    split at h
    · refine .inr ?_
      simp only [List.mem_cons, List.not_mem_nil, or_false] at h
      rcases h with rfl | rfl <;> decide
  split at h
  · next hc =>
    refine .inr ?_
    simp only [List.mem_cons, List.not_mem_nil, or_false] at h
    rcases h with rfl | rfl | rfl | rfl | rfl | rfl
    · decide
    · decide
    · decide
    · decide
    · exact hexDigit_mem_escapeLetters (by omega)
    · exact hexDigit_mem_escapeLetters (by omega)
  · next hc => exact .inl ⟨List.mem_singleton.1 h, Nat.le_of_not_lt hc⟩

/-- A character that no escape is made of comes from itself. -/
theorem eq_of_mem_escapeChar {c d : Char} (hd : d ∉ escapeLetters) (h : d ∈ escapeChar c) :
    d = c ∧ 32 ≤ c.toNat :=
  (mem_escapeChar h).resolve_right hd

theorem escapeChar_ne_nil (c : Char) : escapeChar c ≠ [] := by
  unfold escapeChar
  repeat' split
  all_goals exact List.cons_ne_nil _ _

/-- A text is no longer than its spelling. -/
theorem Spells.length_le {spelled t : Text} (h : Spells spelled t) :
    t.length ≤ spelled.length := by
  induction h with
  | nil => exact Nat.le_refl _
  | char c h ih =>
    have hpos := List.length_pos_iff.2 (escapeChar_ne_nil c)
    simp only [List.length_append, List.length_cons]
    omega
  | slash h ih =>
    simp only [List.length_cons]
    omega

theorem hexValue?_hexDigit {n : Nat} (h : n < 16) : hexValue? (hexDigit n) = some n := by
  have hall : ∀ m : Fin 16, hexValue? (hexDigit m) = some m.val := by decide
  exact hall ⟨n, h⟩

/-- A control character is escaped by its code. -/
theorem escape_control {c : Char} (h : c.toNat < 32) (t : Text) :
    escape ('u' :: '0' :: '0' :: hexDigit (c.toNat / 16) :: hexDigit (c.toNat % 16) :: t) =
      .ok (some c, t) := by
  have hhigh : hexValue? (hexDigit (c.toNat / 16)) = some (c.toNat / 16) :=
    hexValue?_hexDigit (by omega)
  have hlow : hexValue? (hexDigit (c.toNat % 16)) = some (c.toNat % 16) :=
    hexValue?_hexDigit (by omega)
  have hzero : hexValue? '0' = some 0 := rfl
  have hcode : ((0 * 16 + 0) * 16 + c.toNat / 16) * 16 + c.toNat % 16 = c.toNat := by omega
  have hisHigh : isHigh c.toNat = false := by
    simp only [isHigh, Bool.and_eq_false_iff, decide_eq_false_iff_not]
    omega
  have hisLow : isLow c.toNat = false := by
    simp only [isLow, Bool.and_eq_false_iff, decide_eq_false_iff_not]
    omega
  simp only [escape, hex4, hzero, hhigh, hlow, hcode, hisHigh, hisLow, Bool.false_eq_true, if_false,
    Char.ofNat_toNat]

/-- **One character reads back.** -/
theorem string_escapeChar (fuel : Nat) (c : Char) (t : Text) :
    string (fuel + 1) (escapeChar c ++ t) =
      (string fuel t).map fun (found, rest) => (found.map (c :: ·), rest) := by
  have hescape : ∀ {e : Text}, escape (e ++ t) = .ok (some c, t) →
      string (fuel + 1) ('\\' :: e ++ t) =
        (string fuel t).map fun (found, rest) => (found.map (c :: ·), rest) := by
    intro e he
    rw [List.cons_append, string, he]
    dsimp only
    cases string fuel t <;> rfl
  unfold escapeChar
  split
  · next hc => exact hescape (e := ['"']) (by rw [hc]; rfl)
  split
  · next hc => exact hescape (e := ['\\']) (by rw [hc]; rfl)
  split
  · next hc => exact hescape (e := ['b']) (by rw [hc]; rfl)
  split
  · next hc => exact hescape (e := ['t']) (by rw [hc]; rfl)
  split
  · next hc => exact hescape (e := ['n']) (by rw [hc]; rfl)
  split
  · next hc => exact hescape (e := ['f']) (by rw [hc]; rfl)
  split
  · next hc => exact hescape (e := ['r']) (by rw [hc]; rfl)
  split
  · next hc => exact hescape (escape_control hc t)
  · next hquote hbackslash _ _ _ _ _ hc =>
    rw [List.singleton_append, string]
    · dsimp only
      rw [if_neg hc]
      cases string fuel t <;> rfl
    · exact hquote
    · exact hbackslash

/-- **A spelling reads back**, up to its closing quote. -/
theorem string_of_spells {spelled t : Text} (h : Spells spelled t) {fuel : Nat}
    (hfuel : t.length < fuel) (rest : Text) :
    string fuel (spelled ++ '"' :: rest) = .ok (some t, rest) := by
  induction h generalizing fuel with
  | nil =>
    obtain ⟨fuel, rfl⟩ := Nat.exists_eq_add_one_of_ne_zero (Nat.ne_of_gt hfuel)
    rfl
  | char c h ih =>
    obtain ⟨fuel, rfl⟩ := Nat.exists_eq_add_one_of_ne_zero (Nat.ne_of_gt (Nat.zero_lt_of_lt hfuel))
    rw [List.append_assoc, string_escapeChar, ih (Nat.lt_of_succ_lt_succ hfuel)]
    rfl
  | @slash spelled t h ih =>
    obtain ⟨fuel, rfl⟩ := Nat.exists_eq_add_one_of_ne_zero (Nat.ne_of_gt (Nat.zero_lt_of_lt hfuel))
    have hescape : escape ('/' :: (spelled ++ '"' :: rest)) =
        .ok (some '/', spelled ++ '"' :: rest) := rfl
    rw [List.cons_append, List.cons_append, string, hescape]
    dsimp only
    rw [ih (Nat.lt_of_succ_lt_succ hfuel)]
    rfl

/-! ## Numbers -/

/-- Only zero starts with a zero. -/
theorem eq_zero_of_decimal {n : Nat} {t : Text} (h : Text.decimal n = '0' :: t) : n = 0 := by
  induction n using Nat.strongRecOn generalizing t with
  | ind n ih =>
    rw [Text.decimal] at h
    by_cases hn : n < 10
    · rw [Nat.toDigits_of_lt_base hn] at h
      exact Nat.digitChar_eq_zero.1 (List.cons.inj h).1
    · rw [Nat.toDigits_of_base_le (by decide) (Nat.le_of_not_lt hn)] at h
      obtain ⟨c, front, hfront⟩ := List.exists_cons_of_ne_nil (@Nat.toDigits_ne_nil (n / 10) 10)
      rw [hfront] at h
      rw [(List.cons.inj h).1] at hfront
      have hzero : n / 10 = 0 := ih (n / 10) (by omega) hfront
      omega

theorem isDigit_of_mem_decimal {n : Nat} {c : Char} (h : c ∈ Text.decimal n) :
    Text.isDigit c = true :=
  (Nat.isDigit_of_mem_toDigits (by decide) (by decide) h : c.isDigit = true)

theorem decimal_eq_cons (n : Nat) :
    ∃ c digits, Text.decimal n = c :: digits ∧ Text.isDigit c = true := by
  obtain ⟨c, digits, hcons⟩ := List.exists_cons_of_ne_nil (@Nat.toDigits_ne_nil n 10)
  have hdecimal : Text.decimal n = c :: digits := hcons
  have hmem : c ∈ Text.decimal n := hdecimal ▸ List.mem_cons_self
  exact ⟨c, digits, hdecimal, isDigit_of_mem_decimal hmem⟩

/-- The digits of a number are the part before its point. -/
theorem wholePart_decimal (n : Nat) (rest : Text) :
    wholePart (Text.decimal n ++ ',' :: rest) = .ok (Text.decimal n, ',' :: rest) := by
  have hall : ∀ c ∈ Text.decimal n, Text.isDigit c = true := fun c => isDigit_of_mem_decimal
  have htake : (Text.decimal n ++ ',' :: rest).takeWhile Text.isDigit = Text.decimal n := by
    rw [List.takeWhile_append_of_pos hall, List.takeWhile_cons_of_neg (by decide),
      List.append_nil]
  have hdrop : (Text.decimal n ++ ',' :: rest).dropWhile Text.isDigit = ',' :: rest := by
    rw [List.dropWhile_append_of_pos hall, List.dropWhile_cons_of_neg (by decide)]
  have hdigits : digits1 (Text.decimal n ++ ',' :: rest) = .ok (Text.decimal n, ',' :: rest) := by
    obtain ⟨c, digits, hdecimal, hc⟩ := decimal_eq_cons n
    unfold digits1
    rw [htake, hdrop, hdecimal, List.cons_append]
    exact if_pos hc
  unfold wholePart
  rw [hdigits]
  split
  · next d digits _ hzero =>
    obtain ⟨hzero, -⟩ := Prod.mk.inj (Except.ok.inj hzero)
    rw [eq_zero_of_decimal hzero] at hzero
    cases hzero
  · rfl

theorem le_ofDigitChars (s : Nat) (digits : Text) : s ≤ Nat.ofDigitChars 10 digits s := by
  induction digits generalizing s with
  | nil => exact Nat.le_refl s
  | cons c digits ih =>
    rw [Nat.ofDigitChars_cons]
    exact Nat.le_trans (by omega) (ih _)

/-- Digits that make no number too wide all go into the significand. -/
theorem extend_eq {s : Nat} {digits : Text}
    (h : Nat.ofDigitChars 10 digits s < Nat.pow 2 significandBits) :
    extend s digits = (Nat.ofDigitChars 10 digits s, digits.length) := by
  induction digits generalizing s with
  | nil => rfl
  | cons c digits ih =>
    change Nat.ofDigitChars 10 digits (10 * s + (c.toNat - 48)) < _ at h
    have hwider := Nat.lt_of_le_of_lt (le_ofDigitChars _ digits) h
    rw [extend, if_pos hwider, ih h]
    rfl

/-- **A number reads back**, if a significand is wide enough for it. -/
theorem number_decimal {n : Nat} (h : n < Nat.pow 2 significandBits) (rest : Text) :
    number false (Text.decimal n ++ ',' :: rest) = .ok (⟨false, n, 0, true⟩, ',' :: rest) := by
  have hback : Nat.ofDigitChars 10 (Text.decimal n) 0 = n :=
    Nat.ofDigitChars_toDigits (by decide) (by decide)
  have hextend : extend 0 (Text.decimal n) = (n, (Text.decimal n).length) := by
    rw [extend_eq (by rwa [hback]), hback]
  have hparts : Number.ofParts false (Text.decimal n) [] none = ⟨false, n, 0, true⟩ := by
    simp [Number.ofParts, hextend, extend]
  unfold number
  rw [wholePart_decimal]
  change Except.ok (Number.ofParts false (Text.decimal n) [] none, ',' :: rest) = _
  rw [hparts]

/-! ## Documents -/

theorem skipSpace_cons {c : Char} (h : isSpace c = false) (t : Text) :
    skipSpace (c :: t) = c :: t :=
  List.dropWhile_cons_of_neg (by simp [h])

/-- The text ahead is long enough for a spelling in it. -/
theorem string_ahead {spelled t : Text} (h : Spells spelled t) (rest : Text) :
    string ((spelled ++ '"' :: rest).length + 1) (spelled ++ '"' :: rest) = .ok (some t, rest) := by
  refine string_of_spells h ?_ rest
  have := h.length_le
  simp only [List.length_append, List.length_cons]
  omega

theorem readValue_string {spelled t : Text} (h : Spells spelled t) (fuel : Nat) (rest : Text) :
    readValue (fuel + 1) ('"' :: (spelled ++ '"' :: rest)) = (.text (some t), some rest) := by
  rw [readValue, skipSpace_cons rfl]
  change ofScalar Doc.text (string ((spelled ++ '"' :: rest).length + 1) _) = _
  rw [string_ahead h]
  rfl

theorem readValue_decimal {n : Nat} (h : n < Nat.pow 2 significandBits) (fuel : Nat)
    (rest : Text) :
    readValue (fuel + 1) (Text.decimal n ++ ',' :: rest) =
      (.number ⟨false, n, 0, true⟩, some (',' :: rest)) := by
  have hnumber := number_decimal h rest
  obtain ⟨c, digits, hdecimal, hc⟩ := decimal_eq_cons n
  rw [hdecimal, List.cons_append] at hnumber ⊢
  have hne : ∀ d : Char, Text.isDigit d = false → c ≠ d := by
    rintro d hd rfl
    rw [hc] at hd
    cases hd
  have hblank : isSpace c = false := by
    simp [isSpace, hne ' ' rfl, hne '\n' rfl, hne '\t' rfl, hne '\r' rfl]
  rw [readValue, skipSpace_cons hblank]
  split
  · next heq => cases heq
  iterate 7
    · next heq => exact absurd (List.cons.inj heq).1 (hne _ rfl)
  · next heq =>
    obtain ⟨rfl, rfl⟩ := List.cons.inj heq
    rw [if_pos hc, hnumber]
    rfl

theorem readValue_object {fuel : Nat} {t more : Text} {members : List (Option Text × Doc)}
    {flaw : Option Problem} (h : readMembers fuel true t = ((members, flaw), some more)) :
    readValue (fuel + 1) ('\x7b' :: t) = (.object members flaw, some more) := by
  rw [readValue, skipSpace_cons rfl]
  change (Doc.object (readMembers fuel true t).1.1 (readMembers fuel true t).1.2,
    (readMembers fuel true t).2) = _
  rw [h]

/-- **A member reads back**: its key, a colon, and a value in front of what is left. -/
theorem readMembers_member {key name : Text} (h : Spells key name) {fuel : Nat} (first : Bool)
    {t rest more : Text} {value : Doc} {members : List (Option Text × Doc)}
    {flaw : Option Problem} (hvalue : readValue fuel t = (value, some rest))
    (hmembers : readMembers fuel false rest = ((members, flaw), some more)) :
    readMembers (fuel + 1) first
        ((if first then [] else [',']) ++ '"' :: (key ++ '"' :: ':' :: t)) =
      (((some name, value) :: members, flaw), some more) := by
  have hcolon : colon (':' :: t) = .ok t := rfl
  -- Up to the opening quote of the key.
  cases first
  case' true =>
    rw [if_pos rfl, List.nil_append, readMembers, skipSpace_cons rfl]
    dsimp only
    rw [if_neg (by decide), if_pos (.inl rfl), if_pos rfl, skipSpace_cons rfl]
  case' false =>
    rw [if_neg Bool.false_ne_true, List.singleton_append, readMembers, skipSpace_cons rfl]
    dsimp only
    rw [if_neg (by decide), if_pos (.inr rfl), if_neg Bool.false_ne_true, skipSpace_cons rfl]
  -- The key, its colon, the value and the other members.
  all_goals
    split
    · next heq => cases heq
    · next heq =>
      obtain rfl := (List.cons.inj heq).2
      rw [string_ahead h]
      dsimp only
      rw [hcolon]
      dsimp only
      rw [hvalue]
      dsimp only
      rw [hmembers]
    · next hother => exact (hother _ rfl).elim

end Json

end Stencil
