import Stencil.Token.Lexer

/-!
# Proofs/Token/Stream — the tokens of a text

`Reads t tokens rest` says that `t`, read token by token with the blanks between them left out,
starts with `tokens` and goes on with `rest`, which starts with no blank.  Streams compose
(`Reads.append`) and come apart again (`Reads.split`), so a grammar over tokens can be stated
without a word about blanks or longest matches.

The first section says what the first character of a text decides about its first token.
-/

namespace Stencil

namespace Token

/-! ## The first character of a token -/

/-- Kinds whose tokens are the characters that end an expression. -/
def Kind.isStop : Kind → Bool
  | closing _ | colon | comma => true
  | _ => false

/-- Kinds whose tokens have a spelling of their own. -/
def Kind.isFixed : Kind → Bool
  | space | dots | name | number | quoted => false
  | _ => true

/-- The dot between two names. -/
def dot : Token := ⟨.dots, ['.']⟩

/-- A name. -/
def named (text : Text) : Token := ⟨.name, text⟩

/-- An opening bracket. -/
def opens (bracket : Bracket) : Token := ⟨.opening bracket, [bracket.opener]⟩

/-- A closing bracket. -/
def closes (bracket : Bracket) : Token := ⟨.closing bracket, [bracket.closer]⟩

/-- The comma between two items. -/
def comma : Token := ⟨.comma, [',']⟩

/-- The colon of a pair or a ternary. -/
def colon : Token := ⟨.colon, [':']⟩

/-- The mark that starts a ternary. -/
def question : Token := ⟨.question, ['?']⟩

theorem next_opener (bracket : Bracket) (t : Text) :
    next (bracket.opener :: t) = .ok (opens bracket, t) := by
  cases bracket <;> rfl

theorem next_closer (bracket : Bracket) (t : Text) :
    next (bracket.closer :: t) = .ok (closes bracket, t) := by
  cases bracket <;> rfl

theorem next_comma (t : Text) : next (',' :: t) = .ok (comma, t) := rfl

theorem next_colon (t : Text) : next (':' :: t) = .ok (colon, t) := rfl

theorem next_dots (t : Text) :
    next ('.' :: t) = .ok (⟨.dots, '.' :: t.takeWhile (· == '.')⟩, t.dropWhile (· == '.')) := rfl

/-- **A token and the text after it make up the text.** -/
theorem append_of_next {t rest : Text} {token : Token} (h : next t = .ok (token, rest)) :
    token.text ++ rest = t := (read?_append (next_eq_ok_iff.1 h)).1

/-- A text with a token is not empty. -/
theorem exists_cons_of_next {t rest : Text} {token : Token} (h : next t = .ok (token, rest)) :
    ∃ c r, t = c :: r := by
  cases t with
  | nil => simp [next] at h
  | cons c r => exact ⟨c, r, rfl⟩

/-- A token from a table is spelled as the table says. -/
theorem mem_of_readFixed? {table : List (String × Kind)} {t rest : Text} {token : Token}
    (h : readFixed? table t = some (token, rest)) :
    ∃ p ∈ table, token = ⟨p.2, p.1.toList⟩ := by
  induction table with
  | nil => simp [readFixed?] at h
  | cons p others ih =>
    obtain ⟨spelling, kind⟩ := p
    rw [readFixed?] at h
    split at h
    · obtain ⟨rfl, -⟩ := Prod.mk.inj (Option.some.inj h)
      exact ⟨_, List.mem_cons_self, rfl⟩
    · obtain ⟨p, hp, he⟩ := ih h
      exact ⟨p, List.mem_cons_of_mem _ hp, he⟩

/-- **What a token can be**, by its first character. -/
theorem next_cases {c : Char} {t rest : Text} {token : Token}
    (h : next (c :: t) = .ok (token, rest)) :
    (Text.isBlank c = true ∧ token.kind = .space) ∨
    (c = '.' ∧ token.kind = .dots) ∨
    (Text.isNameStart c = true ∧ token = named (c :: t.takeWhile Text.isNamePart)) ∨
    (Text.isDigit c = true ∧ token = ⟨.number, (number (c :: t)).1⟩) ∨
    ((c = '"' ∨ c = '\'') ∧ ∃ body, closeQuote c t = some (body, rest) ∧
      token = ⟨.quoted, c :: body⟩) ∨
    ∃ p ∈ fixed, token = ⟨p.2, p.1.toList⟩ := by
  rw [next_eq_ok_iff, read?] at h
  split at h
  · next hc =>
    obtain ⟨rfl, -⟩ := Prod.mk.inj (Option.some.inj h)
    exact .inl ⟨hc, rfl⟩
  split at h
  · next hc =>
    obtain ⟨rfl, -⟩ := Prod.mk.inj (Option.some.inj h)
    exact .inr (.inl ⟨hc, rfl⟩)
  split at h
  · next hc =>
    obtain ⟨rfl, -⟩ := Prod.mk.inj (Option.some.inj h)
    exact .inr (.inr (.inl ⟨hc, rfl⟩))
  split at h
  · next hc =>
    obtain ⟨rfl, -⟩ := Prod.mk.inj (Option.some.inj h)
    exact .inr (.inr (.inr (.inl ⟨hc, rfl⟩)))
  split at h
  · next hc =>
    obtain ⟨⟨body, r⟩, hb, he⟩ := Option.map_eq_some_iff.1 h
    obtain ⟨rfl, rfl⟩ := Prod.mk.inj he
    exact .inr (.inr (.inr (.inr (.inl ⟨hc, body, hb, rfl⟩))))
  · exact .inr (.inr (.inr (.inr (.inr (mem_of_readFixed? h)))))

/-- **A token of a fixed kind is spelled as the table says.** -/
theorem mem_fixed_of_next {t rest : Text} {token : Token} (h : next t = .ok (token, rest))
    (hk : token.kind.isFixed = true) : ∃ p ∈ fixed, token = ⟨p.2, p.1.toList⟩ := by
  obtain ⟨c, r, rfl⟩ := exists_cons_of_next h
  rcases next_cases h with ⟨-, hs⟩ | ⟨-, hs⟩ | ⟨-, rfl⟩ | ⟨-, rfl⟩ | ⟨-, b, -, rfl⟩ | hp
  · rw [hs] at hk; cases hk
  · rw [hs] at hk; cases hk
  · cases hk
  · cases hk
  · cases hk
  · exact hp

/-- An opening bracket has one spelling. -/
theorem eq_opens_of_next {t rest : Text} {token : Token} {bracket : Bracket}
    (h : next t = .ok (token, rest)) (hk : token.kind = .opening bracket) :
    token = opens bracket := by
  have htable : ∀ p ∈ fixed, ∀ b : Bracket, p.2 = .opening b → p.1.toList = [b.opener] := by
    intro p hp b
    cases b <;> revert p <;> decide
  obtain ⟨p, hp, rfl⟩ := mem_fixed_of_next h (by rw [hk]; rfl)
  rw [show p.2 = Kind.opening bracket from hk, htable p hp bracket hk]
  rfl

/-- The mark of a ternary has one spelling. -/
theorem eq_question_of_next {t rest : Text} {token : Token} (h : next t = .ok (token, rest))
    (hk : token.kind = .question) : token = question := by
  have htable : ∀ p ∈ fixed, p.2 = .question → p.1.toList = ['?'] := by decide
  obtain ⟨p, hp, rfl⟩ := mem_fixed_of_next h (by rw [hk]; rfl)
  rw [show p.2 = Kind.question from hk, htable p hp hk]
  rfl

/-- **A run of dots holds nothing but dots.** -/
theorem eq_dots_of_next {t rest : Text} {token : Token} (h : next t = .ok (token, rest))
    (hk : token.kind = .dots) :
    token.text.length ≠ 0 ∧ token = ⟨.dots, List.replicate token.text.length '.'⟩ := by
  obtain ⟨c, r, rfl⟩ := exists_cons_of_next h
  have htable : ∀ p ∈ fixed, p.2 ≠ .dots := by decide
  rcases next_cases h with ⟨-, hs⟩ | ⟨rfl, -⟩ | ⟨-, rfl⟩ | ⟨-, rfl⟩ | ⟨-, b, -, rfl⟩ | ⟨p, hp, rfl⟩
  · rw [hs] at hk; cases hk
  · obtain ⟨rfl, -⟩ := Prod.mk.inj (Except.ok.inj (h.symm.trans (next_dots r)))
    have hr : r.takeWhile (· == '.') = List.replicate (r.takeWhile (· == '.')).length '.' :=
      List.eq_replicate_iff.2 ⟨rfl, fun b hb => by
        simpa using List.all_eq_true.1 (List.all_takeWhile (p := (· == '.')) (l := r)) b hb⟩
    refine ⟨by simp, ?_⟩
    simp only [List.length_cons, List.replicate_succ]
    rw [← hr]
  · cases hk
  · cases hk
  · cases hk
  · exact absurd hk (htable p hp)

/-- The first character of a token that is none of the stops. -/
theorem not_isStop_of_next {c : Char} {t rest : Text} {token : Token}
    (h : next (c :: t) = .ok (token, rest)) (hk : token.kind.isStop = false) : c ≠ ')' ∧ c ≠ '}' ∧
      c ≠ ']' ∧ c ≠ ':' ∧ c ≠ ',' := by
  have aux : ∀ d (s : Token), s.kind.isStop = true → next (d :: t) = .ok (s, t) → c ≠ d := by
    rintro d s hs hd rfl
    obtain ⟨rfl, -⟩ := Prod.mk.inj (Except.ok.inj (h.symm.trans hd))
    rw [hs] at hk
    cases hk
  exact ⟨aux ')' _ rfl (next_closer .paren t), aux '}' _ rfl (next_closer .brace t),
    aux ']' _ rfl (next_closer .square t), aux ':' _ rfl (next_colon t),
    aux ',' _ rfl (next_comma t)⟩

/-- A text that starts with a dot starts with a run of dots. -/
theorem ne_dot_of_next {c : Char} {t rest : Text} {token : Token}
    (h : next (c :: t) = .ok (token, rest)) (hk : token.kind ≠ .dots) : c ≠ '.' := by
  rintro rfl
  obtain ⟨rfl, -⟩ := Prod.mk.inj (Except.ok.inj (h.symm.trans (next_dots t)))
  exact hk rfl

/-- A text that starts with an opening bracket starts with its token. -/
theorem ne_opener_of_next {c : Char} {t rest : Text} {token : Token} {bracket : Bracket}
    (h : next (c :: t) = .ok (token, rest)) (hk : token.kind ≠ .opening bracket) :
    c ≠ bracket.opener := by
  rintro rfl
  obtain ⟨rfl, -⟩ := Prod.mk.inj (Except.ok.inj (h.symm.trans (next_opener bracket t)))
  exact hk rfl

/-- **A single dot** is a dot with no other behind it. -/
theorem takeWhile_of_next_dot {t rest : Text} (h : next ('.' :: t) = .ok (dot, rest)) :
    t.takeWhile (· == '.') = [] ∧ rest = t.dropWhile (· == '.') := by
  obtain ⟨hd, rfl⟩ := Prod.mk.inj (Except.ok.inj (h.symm.trans (next_dots t)))
  have ht := congrArg Token.text hd
  exact ⟨(List.cons.inj ht).2.symm, rfl⟩

/-! ## The characters of a token -/

/-- A run holds what it is a run of. -/
theorem not_mem_takeWhile {p : Char → Bool} {d : Char} (hp : p d = false) (t : Text) :
    d ∉ t.takeWhile p := by
  intro hmem
  have hall := List.all_eq_true.1 (List.all_takeWhile (p := p) (l := t)) d hmem
  rw [hp] at hall
  cases hall

/-- A number holds digits and the marks of its fraction and its exponent. -/
theorem not_mem_number {d : Char} (hdigit : Text.isDigit d = false)
    (hmarks : d ∉ ['.', 'e', 'E', '+', '-']) (t : Text) : d ∉ (number t).1 := by
  have hdigits : ∀ t : Text, d ∉ t.takeWhile Text.isDigit := not_mem_takeWhile hdigit
  simp only [List.mem_cons, List.not_mem_nil, or_false, not_or] at hmarks
  obtain ⟨hdot, he, hE, hplus, hminus⟩ := hmarks
  have hfraction : ∀ t : Text, d ∉ (fraction t).1 := by
    intro t
    unfold fraction
    split
    · next t => simpa [hdot] using hdigits t
    · nofun
  have hexponent : ∀ t : Text, d ∉ (exponent t).1 := by
    intro t
    unfold exponent
    split
    · split
      · next mark sign first t hcond =>
        have h := hdigits t
        simp only [Bool.and_eq_true, Bool.or_eq_true, beq_iff_eq] at hcond
        obtain ⟨⟨hmark, hsign⟩, hfirst⟩ := hcond
        have hd : d ≠ first := by
          rintro rfl
          rw [hdigit] at hfirst
          cases hfirst
        rcases hmark with rfl | rfl <;> rcases hsign with rfl | rfl <;>
          simp [h, hd, he, hE, hplus, hminus]
      · nofun
    · nofun
  intro hmem
  unfold number at hmem
  rcases List.mem_append.1 hmem with hmem | hmem
  · rcases List.mem_append.1 hmem with hmem | hmem
    · exact hdigits _ hmem
    · exact hfraction _ hmem
  · exact hexponent _ hmem

/-- A quoted text ends with its quote. -/
theorem eq_concat_of_closeQuote {q : Char} {t body rest : Text}
    (h : closeQuote q t = some (body, rest)) : ∃ front, body = front ++ [q] := by
  fun_induction closeQuote q t generalizing body rest with
  | case1 => cases h
  | case2 c t ih =>
    obtain ⟨⟨b, r⟩, hb, he⟩ := Option.map_eq_some_iff.1 h
    obtain ⟨rfl, -⟩ := Prod.mk.inj he
    obtain ⟨front, rfl⟩ := ih hb
    exact ⟨'\\' :: c :: front, rfl⟩
  | case3 t _ =>
    obtain ⟨rfl, -⟩ := Prod.mk.inj (Option.some.inj h)
    exact ⟨[], rfl⟩
  | case4 c t _ _ ih =>
    obtain ⟨⟨b, r⟩, hb, he⟩ := Option.map_eq_some_iff.1 h
    obtain ⟨rfl, -⟩ := Prod.mk.inj he
    obtain ⟨front, rfl⟩ := ih hb
    exact ⟨c :: front, rfl⟩

end Token

/-! ## Streams -/

/-- **The tokens of a text up to `rest`**, blanks left out. -/
inductive Reads : Text → List Token → Text → Prop
  | done (t : Text) : Reads t [] (Text.trimStart t)
  | token {t r rest : Text} {token : Token} {tokens : List Token}
      (first : Token.next (Text.trimStart t) = .ok (token, r)) (others : Reads r tokens rest) :
      Reads t (token :: tokens) rest

namespace Reads

variable {t r rest : Text} {a b tokens : List Token} {token : Token}

theorem nil_iff : Reads t [] rest ↔ Text.trimStart t = rest := by
  constructor
  · rintro ⟨⟩
    rfl
  · rintro rfl
    exact .done t

theorem cons_iff : Reads t (token :: tokens) rest ↔
    ∃ r, Token.next (Text.trimStart t) = .ok (token, r) ∧ Reads r tokens rest := by
  constructor
  · rintro (_ | ⟨h, k⟩)
    exact ⟨_, h, k⟩
  · rintro ⟨r, h, k⟩
    exact .token h k

/-- Blanks in front of a text do not count. -/
theorem trimStart_iff : Reads (Text.trimStart t) tokens rest ↔ Reads t tokens rest := by
  cases tokens with
  | nil => rw [nil_iff, nil_iff, Text.trimStart_trimStart]
  | cons token tokens => rw [cons_iff, cons_iff, Text.trimStart_trimStart]

/-- What is left starts with no blank. -/
theorem trimStart_rest (h : Reads t tokens rest) : Text.trimStart rest = rest := by
  induction h with
  | done t => exact Text.trimStart_trimStart t
  | token _ _ ih => exact ih

/-- **Streams compose.** -/
theorem append (h : Reads t a r) (k : Reads r b rest) : Reads t (a ++ b) rest := by
  induction h with
  | done t => exact trimStart_iff.1 k
  | token first _ ih => exact .token first (ih k)

/-- Streams compose also where blanks stand between them. -/
theorem andThen (h : Reads t a (Text.trimStart r)) (k : Reads r b rest) : Reads t (a ++ b) rest :=
  h.append (trimStart_iff.2 k)

/-- **Streams come apart.** -/
theorem split (h : Reads t (a ++ b) rest) : ∃ r, Reads t a r ∧ Reads r b rest := by
  induction a generalizing t with
  | nil => exact ⟨_, .done t, trimStart_iff.2 h⟩
  | cons token a ih =>
    obtain ⟨r, first, others⟩ := cons_iff.1 h
    obtain ⟨r', ha, hb⟩ := ih others
    exact ⟨r', .token first ha, hb⟩

/-- A single token. -/
theorem singleton (h : Token.next (Text.trimStart t) = .ok (token, r)) :
    Reads t [token] (Text.trimStart r) := .token h (.done r)

/-- What is left ends the text. -/
theorem suffix (h : Reads t tokens rest) : rest <:+ t := by
  induction h with
  | done t => exact Text.trimStart_suffix t
  | token first _ ih =>
    exact ih.trans ((Token.suffix_of_next first).trans (Text.trimStart_suffix _))

/-- **Every token of a stream stands in the text** and was read there. -/
theorem exists_next (h : Reads t tokens rest) (hm : token ∈ tokens) :
    ∃ s r, s <:+ t ∧ Token.next s = .ok (token, r) := by
  induction h with
  | done t => simp at hm
  | @token t r rest head tokens first _ ih =>
    rcases List.mem_cons.1 hm with rfl | hm
    · exact ⟨_, r, Text.trimStart_suffix t, first⟩
    · obtain ⟨s, r', hs, hn⟩ := ih hm
      exact ⟨s, r', hs.trans ((Token.suffix_of_next first).trans (Text.trimStart_suffix t)), hn⟩

end Reads

end Stencil
