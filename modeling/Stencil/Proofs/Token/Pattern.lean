import Mathlib.Computability.Language
import Stencil.Proofs.Token.Stream

/-!
# Proofs/Token/Pattern — what the tokens are

    patterns ──language──▸ texts that match ◂──matches_of_read?── tokens

The kinds of tokens are declared by patterns (`Token.patterns`), each of which stands for a language
of texts.  The lexer never looks at them: it goes by the first character, which tells the patterns
with many texts apart.  What it takes matches all the same (`matches_of_read?`).
-/

open scoped Computability

namespace Stencil

/-! ## Patterns -/

/-- A pattern of characters. -/
inductive Pattern
  /-- One character of a class. -/
  | one (p : Char → Bool)
  /-- A text as it is written. -/
  | word (spelling : Text)
  | seq (first second : Pattern)
  | either (left right : Pattern)
  /-- Any number of times. -/
  | many (part : Pattern)

namespace Pattern

/-- At least once. -/
def repeated (part : Pattern) : Pattern := seq part (many part)

/-- Once or not at all. -/
def optional (part : Pattern) : Pattern := either part (word [])

/-- **The texts that match a pattern.** -/
def language : Pattern → Language Char
  | one p => {t | ∃ c, p c = true ∧ t = [c]}
  | word spelling => {t | t = spelling}
  | seq first second => first.language * second.language
  | either left right => left.language + right.language
  | many part => part.language∗

theorem mem_seq {a b : Pattern} {t : Text} :
    t ∈ (seq a b).language ↔ ∃ x ∈ a.language, ∃ y ∈ b.language, x ++ y = t := Language.mem_mul

theorem mem_either {a b : Pattern} {t : Text} :
    t ∈ (either a b).language ↔ t ∈ a.language ∨ t ∈ b.language := Iff.rfl

theorem mem_optional {a : Pattern} {t : Text} :
    t ∈ (optional a).language ↔ t ∈ a.language ∨ t = [] := Iff.rfl

theorem nil_mem_many (a : Pattern) : [] ∈ (many a).language := Language.nil_mem_kstar _

theorem cons_mem_many {a : Pattern} {x t : Text} (hx : x ∈ a.language)
    (ht : t ∈ (many a).language) : x ++ t ∈ (many a).language := by
  obtain ⟨parts, rfl, hparts⟩ := Language.mem_kstar.1 ht
  refine Language.mem_kstar.2 ⟨x :: parts, rfl, ?_⟩
  intro y hy
  rcases List.mem_cons.1 hy with rfl | hy
  · exact hx
  · exact hparts y hy

/-- **What matches many times is built from the front.** -/
theorem many_induction {a : Pattern} {motive : Text → Prop} (nil : motive [])
    (append : ∀ x t, x ∈ a.language → motive t → motive (x ++ t)) {t : Text}
    (h : t ∈ (many a).language) : motive t := by
  obtain ⟨parts, rfl, hparts⟩ := Language.mem_kstar.1 h
  induction parts with
  | nil => exact nil
  | cons x parts ih =>
    obtain ⟨hx, htail⟩ := List.forall_mem_cons.1 hparts
    exact append x _ hx (ih htail (Language.mem_kstar.2 ⟨parts, rfl, htail⟩))

theorem mem_many_one {p : Char → Bool} {t : Text} :
    t ∈ (many (one p)).language ↔ ∀ c ∈ t, p c = true := by
  constructor
  · refine many_induction (motive := fun t => ∀ c ∈ t, p c = true) (by simp) ?_
    rintro _ t ⟨c, hc, rfl⟩ ht
    exact List.forall_mem_cons.2 ⟨hc, ht⟩
  · intro h
    induction t with
    | nil => exact nil_mem_many _
    | cons c t ih =>
      obtain ⟨hc, ht⟩ := List.forall_mem_cons.1 h
      exact cons_mem_many (x := [c]) ⟨c, hc, rfl⟩ (ih ht)

theorem mem_seq_one {p : Char → Bool} {a : Pattern} {t : Text} :
    t ∈ (seq (one p) a).language ↔ ∃ c r, p c = true ∧ r ∈ a.language ∧ t = c :: r := by
  rw [mem_seq]
  constructor
  · rintro ⟨_, ⟨c, hc, rfl⟩, r, hr, rfl⟩
    exact ⟨c, r, hc, hr, rfl⟩
  · rintro ⟨c, r, hc, hr, rfl⟩
    exact ⟨[c], ⟨c, hc, rfl⟩, r, hr, rfl⟩

/-- A run of one class, behind a first character of its own. -/
theorem mem_run {first later : Char → Bool} {t : Text} :
    t ∈ (seq (one first) (many (one later))).language ↔
      ∃ c r, first c = true ∧ (∀ d ∈ r, later d = true) ∧ t = c :: r := by
  simp only [mem_seq_one, mem_many_one]

end Pattern

/-! ## The patterns of the tokens -/

namespace Token

open Pattern

/-- A decimal digit. -/
def digit : Pattern := one Text.isDigit

/-- A point and digits, of which there may be none. -/
def fractionPattern : Pattern := seq (one (· == '.')) (many digit)

/-- A mark, a sign and digits. -/
def exponentPattern : Pattern :=
  seq (one fun c => c == 'e' || c == 'E') (seq (one fun c => c == '+' || c == '-') digit.repeated)

/-- Digits, perhaps with a fraction, perhaps with an exponent. -/
def numberPattern : Pattern :=
  seq digit.repeated (seq fractionPattern.optional exponentPattern.optional)

/-- What may stand between two quotes: a character that is neither the quote nor a backslash, or a
backslash and any character. -/
def quotedPart (quote : Char) : Pattern :=
  either (one fun c => c != quote && c != '\\') (seq (one (· == '\\')) (one fun _ => true))

/-- A text between two quotes. -/
def quotedPattern (quote : Char) : Pattern :=
  seq (one (· == quote)) (seq (many (quotedPart quote)) (one (· == quote)))

/-- The kinds with one pattern for many texts. -/
def runs : List (Kind × Pattern) :=
  [(.space, (one Text.isBlank).repeated), (.dots, (one (· == '.')).repeated),
   (.name, seq (one Text.isNameStart) (many (one Text.isNamePart))), (.number, numberPattern),
   (.quoted, quotedPattern '"'), (.quoted, quotedPattern '\'')]

/-- The kinds that are lists of spellings. -/
def spellings : List (Kind × List String) :=
  [(.crement, ["++", "--"]),
   (.comparison, ["===", "==", "!==", "!=", "<=", "<", ">=", ">"]),
   (.logic, ["&&", "||"]),
   (.elvis, ["?:", "??"]),
   (.arithmetic, ["%", "*", "/", "&", "|", "^", "<<", ">>"]),
   (.question, ["?"]), (.colon, [":"]), (.comma, [","]),
   (.opening .paren, ["("]), (.opening .brace, ["\x7b"]), (.opening .square, ["["]),
   (.closing .paren, [")"]), (.closing .brace, ["\x7d"]), (.closing .square, ["]"]),
   (.unary, ["!", "~"]), (.plus, ["+"]), (.minus, ["-"])]

/-- **The patterns of the tokens.** -/
def patterns : List (Kind × Pattern) :=
  runs ++ spellings.flatMap fun (kind, words) => words.map fun w => (kind, word w.toList)

/-- **A text matches a kind**: it matches one of the patterns of that kind. -/
def Kind.Matches (kind : Kind) (t : Text) : Prop :=
  ∃ pattern, (kind, pattern) ∈ patterns ∧ t ∈ pattern.language

/-- The table of the lexer holds the spellings, and nothing else. -/
theorem mem_fixed_iff {kind : Kind} {w : String} :
    (w, kind) ∈ fixed ↔ ∃ words, (kind, words) ∈ spellings ∧ w ∈ words := by
  have hto : ∀ p ∈ fixed, ∃ q ∈ spellings, q.1 = p.2 ∧ p.1 ∈ q.2 := by decide
  have hof : ∀ q ∈ spellings, ∀ w ∈ q.2, (w, q.1) ∈ fixed := by decide
  constructor
  · intro h
    obtain ⟨⟨_, words⟩, hq, rfl, hw⟩ := hto _ h
    exact ⟨words, hq, hw⟩
  · rintro ⟨words, hq, hw⟩
    exact hof _ hq w hw

/-- **What can match**, kind by kind. -/
theorem matches_iff {kind : Kind} {t : Text} :
    kind.Matches t ↔ (∃ pattern, (kind, pattern) ∈ runs ∧ t ∈ pattern.language) ∨
      ∃ w : String, (w, kind) ∈ fixed ∧ t = w.toList := by
  simp only [Kind.Matches, patterns, List.mem_append, List.mem_flatMap, List.mem_map]
  constructor
  · rintro ⟨pattern, hrun | ⟨⟨kind', words⟩, hq, w, hw, heq⟩, ht⟩
    · exact .inl ⟨pattern, hrun, ht⟩
    · cases heq
      exact .inr ⟨w, mem_fixed_iff.2 ⟨words, hq, hw⟩, ht⟩
  · rintro (⟨pattern, hrun, ht⟩ | ⟨w, hw, rfl⟩)
    · exact ⟨pattern, .inl hrun, ht⟩
    · obtain ⟨words, hq, hw⟩ := mem_fixed_iff.1 hw
      exact ⟨_, .inr ⟨_, hq, w, hw, rfl⟩, rfl⟩

/-! ## First characters

Every pattern of a run starts with a character that no other pattern starts with, so the lexer may
go by the first character alone. -/

theorem read?_blank {c : Char} (hc : Text.isBlank c = true) (t : Text) :
    read? (c :: t) =
      some (⟨.space, c :: t.takeWhile Text.isBlank⟩, t.dropWhile Text.isBlank) := by
  rw [read?, if_pos hc]

/-- No name starts with a blank. -/
theorem isBlank_of_isNameStart {c : Char} (hc : Text.isNameStart c = true) :
    Text.isBlank c = false := by
  have htable : ∀ range ∈ Text.blankRanges, ∀ n ∈ List.range' range.1 (range.2 + 1 - range.1),
      (n == '_'.toNat || CodeRange.mem Text.letterRanges n) = false := by decide +kernel
  rw [Bool.eq_false_iff]
  intro hblank
  obtain ⟨⟨lo, hi⟩, hrange, hle⟩ := List.any_eq_true.1 hblank
  simp only [Bool.and_eq_true, decide_eq_true_eq] at hle
  have hnone := htable _ hrange c.toNat (List.mem_range'_1.2 ⟨hle.1, by omega⟩)
  rw [Bool.or_eq_false_iff] at hnone
  rw [Text.isNameStart, Text.isLetter, hnone.2, Bool.or_false, beq_iff_eq] at hc
  rw [hc] at hnone
  exact absurd hnone.1 (by decide)

theorem read?_name {c : Char} (hc : Text.isNameStart c = true) (t : Text) :
    read? (c :: t) =
      some (⟨.name, c :: t.takeWhile Text.isNamePart⟩, t.dropWhile Text.isNamePart) := by
  have hdot : c ≠ '.' := by
    rintro rfl
    exact absurd hc (by decide)
  rw [read?, if_neg (by rw [isBlank_of_isNameStart hc]; exact Bool.false_ne_true), if_neg hdot,
    if_pos hc]

/-- The digits are ten characters. -/
theorem mem_digits_of_isDigit {c : Char} (hc : Text.isDigit c = true) :
    c ∈ ['0', '1', '2', '3', '4', '5', '6', '7', '8', '9'] := by
  have htable : ∀ n ∈ List.range' '0'.toNat 10,
      Char.ofNat n ∈ ['0', '1', '2', '3', '4', '5', '6', '7', '8', '9'] := by decide
  simp only [Text.isDigit, Bool.and_eq_true, decide_eq_true_eq] at hc
  rw [← Char.ofNat_toNat c]
  refine htable _ (List.mem_range'_1.2 ⟨hc.1, ?_⟩)
  exact Nat.lt_succ_of_le hc.2

theorem read?_digit {c : Char} (hc : Text.isDigit c = true) (t : Text) :
    read? (c :: t) = some (⟨.number, (number (c :: t)).1⟩, (number (c :: t)).2) := by
  have htable : ['0', '1', '2', '3', '4', '5', '6', '7', '8', '9'].all (fun c =>
      decide (Text.isBlank c = false ∧ c ≠ '.' ∧ Text.isNameStart c = false)) = true := by decide
  obtain ⟨hblank, hdot, hname⟩ :=
    of_decide_eq_true (List.all_eq_true.1 htable c (mem_digits_of_isDigit hc))
  simp only [read?, hblank, hdot, hname, hc, Bool.false_eq_true, if_false, if_true]

theorem read?_quote {c : Char} (hc : c = '"' ∨ c = '\'') (t : Text) :
    read? (c :: t) = (closeQuote c t).map fun (body, rest) => (⟨.quoted, c :: body⟩, rest) := by
  rcases hc with rfl | rfl <;> rfl

/-- A fixed token starts with no character of a run. -/
theorem read?_fixed {w : String} {kind : Kind} (hw : (w, kind) ∈ fixed) (t : Text) :
    read? (w.toList ++ t) = readFixed? fixed (w.toList ++ t) := by
  have hne : w.toList ≠ [] := fixed_ne_nil _ hw
  have htable : ∀ p ∈ fixed, p.1.toList.head?.all (fun c =>
      decide (Text.isBlank c = false ∧ c ≠ '.' ∧ Text.isNameStart c = false ∧
        Text.isDigit c = false ∧ ¬(c = '"' ∨ c = '\''))) = true := by decide
  obtain ⟨c, r, hcr⟩ := List.exists_cons_of_ne_nil hne
  have hfirst := htable _ hw
  rw [show (w, kind).1.toList = c :: r from hcr] at hfirst
  obtain ⟨hblank, hdot, hname, hdigit, hquote⟩ := of_decide_eq_true hfirst
  rw [hcr]
  simp only [List.cons_append, read?, hblank, hdot, hname, hdigit, hquote, Bool.false_eq_true,
    if_false]

/-! ## What is taken matches -/

theorem matches_of_mem_runs {kind : Kind} {pattern : Pattern} {t : Text}
    (hp : (kind, pattern) ∈ runs) (ht : t ∈ pattern.language) : kind.Matches t :=
  matches_iff.2 (.inl ⟨pattern, hp, ht⟩)

/-- A run of one class matches. -/
theorem run_mem {p q : Char → Bool} {c : Char} (hc : p c = true) (t : Text) :
    c :: t.takeWhile q ∈ (seq (one p) (many (one q))).language :=
  mem_run.2 ⟨c, _, hc, List.all_eq_true.1 List.all_takeWhile, rfl⟩

theorem fraction_mem (t : Text) : (fraction t).1 ∈ fractionPattern.optional.language := by
  unfold fraction
  split
  · exact mem_optional.2 (.inl (run_mem (p := (· == '.')) rfl _))
  · exact mem_optional.2 (.inr rfl)

theorem exponent_mem (t : Text) : (exponent t).1 ∈ exponentPattern.optional.language := by
  unfold exponent
  split
  · next e s d t =>
    split
    · next hmark =>
      simp only [Bool.and_eq_true] at hmark
      obtain ⟨⟨he, hs⟩, hd⟩ := hmark
      refine mem_optional.2 (.inl (mem_seq_one.2 ⟨e, _, he, mem_seq_one.2 ⟨s, _, hs, ?_, rfl⟩, rfl⟩))
      exact run_mem hd t
    · exact mem_optional.2 (.inr rfl)
  · exact mem_optional.2 (.inr rfl)

theorem number_mem {c : Char} (hc : Text.isDigit c = true) (t : Text) :
    (number (c :: t)).1 ∈ numberPattern.language := by
  have hdigits : (c :: t).takeWhile Text.isDigit ∈ digit.repeated.language := by
    rw [List.takeWhile_cons_of_pos hc]
    exact run_mem hc t
  have htail := mem_seq.2 ⟨_, fraction_mem ((c :: t).dropWhile Text.isDigit), _,
    exponent_mem (fraction ((c :: t).dropWhile Text.isDigit)).2, rfl⟩
  exact mem_seq.2 ⟨_, hdigits, _, htail, (List.append_assoc _ _ _).symm⟩

/-- What is read up to a closing quote are parts of a quoted text, and the quote. -/
theorem closeQuote_mem {quote : Char} {t body rest : Text}
    (h : closeQuote quote t = some (body, rest)) :
    ∃ inner ∈ (many (quotedPart quote)).language, body = inner ++ [quote] := by
  fun_induction closeQuote quote t generalizing body rest with
  | case1 => cases h
  | case2 c t ih =>
    obtain ⟨⟨b, r⟩, hb, he⟩ := Option.map_eq_some_iff.1 h
    cases he
    obtain ⟨inner, hinner, rfl⟩ := ih hb
    have hpair : ['\\', c] ∈ (quotedPart quote).language :=
      mem_either.2 (.inr (mem_seq_one.2 ⟨'\\', [c], rfl, ⟨c, rfl, rfl⟩, rfl⟩))
    exact ⟨_, cons_mem_many hpair hinner, rfl⟩
  | case3 t =>
    cases h
    exact ⟨[], nil_mem_many _, rfl⟩
  | case4 c t hescape hne ih =>
    obtain ⟨⟨b, r⟩, hb, he⟩ := Option.map_eq_some_iff.1 h
    cases he
    obtain ⟨inner, hinner, rfl⟩ := ih hb
    -- A backslash would take the next character with it, and there is one.
    have hc : c ≠ '\\' := by
      rintro rfl
      cases t with
      | nil => cases hb
      | cons d t => exact hescape d t rfl rfl
    have hone : [c] ∈ (quotedPart quote).language :=
      mem_either.2 (.inl ⟨c, by simp [hne, hc], rfl⟩)
    exact ⟨_, cons_mem_many hone hinner, rfl⟩

theorem mem_quotedPattern {quote : Char} {t : Text} :
    t ∈ (quotedPattern quote).language ↔
      ∃ inner ∈ (many (quotedPart quote)).language, t = quote :: (inner ++ [quote]) := by
  rw [quotedPattern, mem_seq_one]
  constructor
  · rintro ⟨c, r, hc, hr, rfl⟩
    obtain ⟨inner, hinner, _, ⟨d, hd, rfl⟩, rfl⟩ := mem_seq.1 hr
    rw [beq_iff_eq] at hc hd
    exact ⟨inner, hinner, by rw [hc, hd]⟩
  · rintro ⟨inner, hinner, rfl⟩
    exact ⟨quote, _, beq_self_eq_true quote,
      mem_seq.2 ⟨inner, hinner, [quote], ⟨quote, beq_self_eq_true quote, rfl⟩, rfl⟩, rfl⟩

/-- **A token matches its kind.** -/
theorem matches_of_read? {t rest : Text} {token : Token} (h : read? t = some (token, rest)) :
    token.kind.Matches token.text := by
  obtain ⟨c, r, rfl⟩ := exists_cons_of_next (next_eq_ok_iff.2 h)
  rw [read?] at h
  split at h
  · next hc =>
    cases h
    exact matches_of_mem_runs List.mem_cons_self (run_mem hc r)
  split at h
  · next hc =>
    cases h
    have hruns : (Kind.dots, (one (· == '.')).repeated) ∈ runs := by simp [runs]
    exact matches_of_mem_runs hruns (run_mem (p := (· == '.')) (beq_iff_eq.2 hc) r)
  split at h
  · next hc =>
    cases h
    have hruns : (Kind.name, seq (one Text.isNameStart) (many (one Text.isNamePart))) ∈ runs := by
      simp [runs]
    exact matches_of_mem_runs hruns (run_mem hc r)
  split at h
  · next hc =>
    cases h
    have hruns : (Kind.number, numberPattern) ∈ runs := by simp [runs]
    exact matches_of_mem_runs hruns (number_mem hc r)
  split at h
  · next hc =>
    obtain ⟨⟨body, r'⟩, hbody, he⟩ := Option.map_eq_some_iff.1 h
    cases he
    obtain ⟨inner, hinner, rfl⟩ := closeQuote_mem hbody
    have hruns : (Kind.quoted, quotedPattern c) ∈ runs := by
      rcases hc with rfl | rfl <;> simp [runs]
    exact matches_of_mem_runs hruns (mem_quotedPattern.2 ⟨inner, hinner, rfl⟩)
  · obtain ⟨⟨w, kind⟩, hp, rfl⟩ := mem_of_readFixed? h
    exact matches_iff.2 (.inr ⟨w, hp, rfl⟩)

end Token

end Stencil
