import Stencil.Diagnostic.Fault
import Stencil.Text.Blank
import Stencil.Text.Letter
import Stencil.Token.Basic

/-!
# Token/Lexer — the longest token ahead

`read?` takes the longest token that starts a text.  The classes of runs (blanks, dots, names,
numbers, quoted texts) start with characters of their own, and the fixed tokens are tried from the
longest down, so no longer token is missed.  The main statement is `read?_append`: a token is not
empty, and with the rest it makes up the text.
-/

namespace Stencil

namespace Token

/-! ## Runs -/

/-- An exponent: a mark, a sign and digits; nothing if one of them is missing. -/
def exponent : Text → Text × Text
  | e :: s :: d :: t =>
    if (e == 'e' || e == 'E') && (s == '+' || s == '-') && Text.isDigit d then
      (e :: s :: d :: t.takeWhile Text.isDigit, t.dropWhile Text.isDigit)
    else ([], e :: s :: d :: t)
  | t => ([], t)

/-- A fraction: a point and digits, of which there may be none. -/
def fraction : Text → Text × Text
  | '.' :: t => ('.' :: t.takeWhile Text.isDigit, t.dropWhile Text.isDigit)
  | t => ([], t)

/-- A number: digits, then a fraction, then an exponent. -/
def number (t : Text) : Text × Text :=
  let f := fraction (t.dropWhile Text.isDigit)
  let e := exponent f.2
  (t.takeWhile Text.isDigit ++ f.1 ++ e.1, e.2)

/-- The rest of a quoted text after its opening quote, up to and with the closing quote.  A
backslash takes the next character with it. -/
def closeQuote (quote : Char) : Text → Option (Text × Text)
  | [] => none
  | '\\' :: c :: t => (closeQuote quote t).map fun (body, rest) => ('\\' :: c :: body, rest)
  | c :: t =>
    if c = quote then some ([c], t)
    else (closeQuote quote t).map fun (body, rest) => (c :: body, rest)

/-! ## Fixed tokens -/

/-- The tokens with one spelling, the longest first. -/
def fixed : List (String × Kind) :=
  [("===", .comparison), ("!==", .comparison),
   ("++", .crement), ("--", .crement), ("==", .comparison), ("!=", .comparison),
   ("<=", .comparison), (">=", .comparison), ("&&", .logic), ("||", .logic), ("?:", .elvis),
   ("??", .elvis), ("<<", .arithmetic), (">>", .arithmetic),
   ("<", .comparison), (">", .comparison), ("%", .arithmetic), ("*", .arithmetic),
   ("/", .arithmetic), ("&", .arithmetic), ("|", .arithmetic), ("^", .arithmetic),
   ("?", .question), (":", .colon), (",", .comma),
   ("(", .opening .paren), ("\x7b", .opening .brace), ("[", .opening .square),
   (")", .closing .paren), ("\x7d", .closing .brace), ("]", .closing .square),
   ("!", .unary), ("~", .unary), ("+", .plus), ("-", .minus)]

/-- The first fixed token of a list that starts the text. -/
def readFixed? : List (String × Kind) → Text → Option (Token × Text)
  | [], _ => none
  | (spelling, kind) :: others, t =>
    match Text.dropPrefix? spelling.toList t with
    | some rest => some (⟨kind, spelling.toList⟩, rest)
    | none => readFixed? others t

/-! ## The longest token -/

/-- **The longest token that starts a text**, and the text after it. -/
def read? : Text → Option (Token × Text)
  | [] => none
  | c :: t =>
    if Text.isBlank c then
      some (⟨.space, c :: t.takeWhile Text.isBlank⟩, t.dropWhile Text.isBlank)
    else if c = '.' then
      some (⟨.dots, c :: t.takeWhile (· == '.')⟩, t.dropWhile (· == '.'))
    else if Text.isNameStart c then
      some (⟨.name, c :: t.takeWhile Text.isNamePart⟩, t.dropWhile Text.isNamePart)
    else if Text.isDigit c then
      some (⟨.number, (number (c :: t)).1⟩, (number (c :: t)).2)
    else if c = '"' ∨ c = '\'' then
      (closeQuote c t).map fun (body, rest) => (⟨.quoted, c :: body⟩, rest)
    else readFixed? fixed (c :: t)

/-- How much of the text a complaint about a missing token quotes. -/
def previewLength : Nat := 10

/-- The next token of a tag, or why there is none. -/
def next (t : Text) : Except Stuck (Token × Text) :=
  match t with
  | [] => .error ⟨.endInsideTag, t⟩
  | _ :: _ =>
    match read? t with
    | some result => .ok result
    | none => .error ⟨.noToken (t.take previewLength), t⟩

/-! ## Nothing is lost -/

theorem dropPrefix?_append {pat t rest : Text} (h : Text.dropPrefix? pat t = some rest) :
    pat ++ rest = t := by
  fun_induction Text.dropPrefix? pat t with
  | case1 => simpa using h.symm
  | case2 => simp at h
  | case3 pat c t ih => simp [ih h]
  | case4 => simp at h

theorem exponent_append (t : Text) : (exponent t).1 ++ (exponent t).2 = t := by
  unfold exponent
  split
  · split <;> simp
  · rfl

theorem fraction_append (t : Text) : (fraction t).1 ++ (fraction t).2 = t := by
  unfold fraction
  split <;> simp

theorem number_append (t : Text) : (number t).1 ++ (number t).2 = t := by
  simp only [number, List.append_assoc]
  rw [exponent_append, fraction_append, List.takeWhile_append_dropWhile]

theorem closeQuote_append {q : Char} {t body rest : Text} (h : closeQuote q t = some (body, rest)) :
    body ++ rest = t := by
  fun_induction closeQuote q t generalizing body rest with
  | case1 => simp at h
  | case2 c t ih =>
    obtain ⟨⟨b, r⟩, hb, he⟩ := Option.map_eq_some_iff.1 h
    obtain ⟨rfl, rfl⟩ := Prod.mk.inj he
    simp [ih hb]
  | case3 t _ =>
    obtain ⟨rfl, rfl⟩ := Prod.mk.inj (Option.some.inj h)
    rfl
  | case4 c t _ _ ih =>
    obtain ⟨⟨b, r⟩, hb, he⟩ := Option.map_eq_some_iff.1 h
    obtain ⟨rfl, rfl⟩ := Prod.mk.inj he
    simp [ih hb]

theorem readFixed?_append {table : List (String × Kind)} (hne : ∀ p ∈ table, p.1.toList ≠ [])
    {t : Text} {token : Token} {rest : Text} (h : readFixed? table t = some (token, rest)) :
    token.text ++ rest = t ∧ token.text ≠ [] := by
  induction table with
  | nil => simp [readFixed?] at h
  | cons p others ih =>
    obtain ⟨spelling, kind⟩ := p
    rw [readFixed?] at h
    split at h
    · next r hr =>
      obtain ⟨rfl, rfl⟩ := Prod.mk.inj (Option.some.inj h)
      exact ⟨dropPrefix?_append hr, hne _ List.mem_cons_self⟩
    · exact ih (fun p hp => hne p (List.mem_cons_of_mem _ hp)) h

theorem fixed_ne_nil : ∀ p ∈ fixed, p.1.toList ≠ [] := by decide

theorem number_ne_nil {c : Char} (h : Text.isDigit c = true) (t : Text) :
    (number (c :: t)).1 ≠ [] := by
  simp [number, h]

/-- **A token is not empty, and with the rest it makes up the text.** -/
theorem read?_append {t : Text} {token : Token} {rest : Text} (h : read? t = some (token, rest)) :
    token.text ++ rest = t ∧ token.text ≠ [] := by
  cases t with
  | nil => simp [read?] at h
  | cons c t =>
    simp only [read?] at h
    split at h
    · obtain ⟨rfl, rfl⟩ := Prod.mk.inj (Option.some.inj h); simp
    split at h
    · obtain ⟨rfl, rfl⟩ := Prod.mk.inj (Option.some.inj h); simp
    split at h
    · obtain ⟨rfl, rfl⟩ := Prod.mk.inj (Option.some.inj h); simp
    split at h
    · next hd =>
      obtain ⟨rfl, rfl⟩ := Prod.mk.inj (Option.some.inj h)
      exact ⟨number_append _, number_ne_nil hd t⟩
    split at h
    · obtain ⟨⟨b, r⟩, hb, he⟩ := Option.map_eq_some_iff.1 h
      obtain ⟨rfl, rfl⟩ := Prod.mk.inj he
      simp [closeQuote_append hb]
    · exact readFixed?_append fixed_ne_nil h

theorem next_eq_ok_iff {t : Text} {token : Token} {rest : Text} :
    next t = .ok (token, rest) ↔ read? t = some (token, rest) := by
  cases t with
  | nil => simp [next, read?]
  | cons c t =>
    simp only [next]
    split <;> simp_all

/-- **The text after a token is shorter.** -/
theorem length_lt_of_next {t : Text} {token : Token} {rest : Text}
    (h : next t = .ok (token, rest)) : rest.length < t.length := by
  obtain ⟨ht, hne⟩ := read?_append (next_eq_ok_iff.1 h)
  have := List.length_pos_iff.2 hne
  rw [← ht, List.length_append]
  omega

/-- **The text after a token ends the text.** -/
theorem suffix_of_next {t : Text} {token : Token} {rest : Text}
    (h : next t = .ok (token, rest)) : rest <:+ t :=
  ⟨token.text, (read?_append (next_eq_ok_iff.1 h)).1⟩

end Token

end Stencil
