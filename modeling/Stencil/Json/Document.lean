import Stencil.Json.Number
import Stencil.Json.Quoted

/-!
# Json/Document — JSON as far as it can be read

A text is read as JSON up to its first flaw.  The document that comes out is a tree in which only
the last thing read can be broken, and it holds the flaw there: so whoever walks the tree from the
left meets a wrong type and a flaw in the order in which they stand in the text.

`Doc.read` gives the document, and the text after it if nothing was broken.
-/

namespace Stencil

namespace Json

/-- A document, as far as it was read. -/
inductive Doc
  | null
  | bool (value : Bool)
  | number (value : Number)
  /-- A string; none if its escapes hold half of a surrogate pair. -/
  | text (value : Option Text)
  /-- A list, and what broke it after its last element. -/
  | list (items : List Doc) (flaw : Option Problem)
  /-- An object, its keys read like strings, and what broke it after its last member. -/
  | object (members : List (Option Text × Doc)) (flaw : Option Problem)
  /-- No value could be read. -/
  | broken (problem : Problem)

/-! ## Scalars -/

/-- The blanks of JSON. -/
def isSpace (c : Char) : Bool := c == ' ' || c == '\n' || c == '\t' || c == '\r'

/-- The text without leading blanks. -/
def skipSpace (t : Text) : Text := t.dropWhile isSpace

/-- The text behind the rest of a word. -/
def word : Text → Text → Except Problem Text
  | [], t => .ok t
  | _ :: _, [] => .error .truncated
  | p :: pat, c :: t => if p = c then word pat t else .error .malformed

/-- The value of a hexadecimal digit. -/
def hexValue? (c : Char) : Option Nat :=
  if Text.isDigit c then some (c.toNat - 48)
  else if 'a' ≤ c ∧ c ≤ 'f' then some (c.toNat - 87)
  else if 'A' ≤ c ∧ c ≤ 'F' then some (c.toNat - 55)
  else none

/-- Four hexadecimal digits. -/
def hex4 (t : Text) : Except Problem (Nat × Text) :=
  match t with
  | a :: b :: c :: d :: rest =>
    match hexValue? a, hexValue? b, hexValue? c, hexValue? d with
    | some a, some b, some c, some d => .ok (((a * 16 + b) * 16 + c) * 16 + d, rest)
    | _, _, _, _ => .error .malformed
  | _ => .error (if Text.size t < 4 then .truncated else .malformed)

/-- The first half of a surrogate pair. -/
def isHigh (n : Nat) : Bool := 0xD800 ≤ n && n ≤ 0xDBFF

/-- The second half of a surrogate pair. -/
def isLow (n : Nat) : Bool := 0xDC00 ≤ n && n ≤ 0xDFFF

/-- The second half of a pair, if it follows. -/
def lowAfter (t : Text) : Except Problem (Option (Nat × Text)) :=
  match t with
  | [] => .error .truncated
  | ['\\'] => .error .truncated
  | '\\' :: 'u' :: rest =>
    match hex4 rest with
    | .error p => .error p
    | .ok (n, rest) => .ok (if isLow n then some (n, rest) else none)
  | _ => .ok none

/-- The character of an escape behind its backslash; none for half of a surrogate pair. -/
def escape : Text → Except Problem (Option Char × Text)
  | [] => .error .truncated
  | 'u' :: t =>
    match hex4 t with
    | .error p => .error p
    | .ok (n, rest) =>
      if isHigh n then
        match lowAfter rest with
        | .error p => .error p
        | .ok none => .ok (none, rest)
        | .ok (some (m, rest)) =>
          .ok (some (Char.ofNat ((n - 0xD800) * 0x400 + (m - 0xDC00) + 0x10000)), rest)
      else if isLow n then .ok (none, rest)
      else .ok (some (Char.ofNat n), rest)
  | c :: t =>
    if c = '"' ∨ c = '\\' ∨ c = '/' then .ok (some c, t)
    else if c = 'b' then .ok (some '\x08', t)
    else if c = 'f' then .ok (some '\x0c', t)
    else if c = 'n' then .ok (some '\n', t)
    else if c = 'r' then .ok (some '\r', t)
    else if c = 't' then .ok (some '\t', t)
    else .error .malformed

/-- The rest of a string behind its opening quote.  `fuel` bounds the number of characters. -/
def string : Nat → Text → Except Problem (Option Text × Text)
  | 0, _ => .error .truncated
  | fuel + 1, t =>
    match t with
    | [] => .error .truncated
    | '"' :: rest => .ok (some [], rest)
    | '\\' :: rest =>
      match escape rest with
      | .error p => .error p
      | .ok (none, rest) =>
        match string fuel rest with
        | .error _ => .error .malformed
        | .ok (_, rest) => .ok (none, rest)
      | .ok (some c, rest) =>
        match string fuel rest with
        | .error p => .error p
        | .ok (found, rest) => .ok (found.map (c :: ·), rest)
    | c :: rest =>
      if c.toNat < 32 then .error .malformed
      else
        match string fuel rest with
        | .error p => .error p
        | .ok (found, rest) => .ok (found.map (c :: ·), rest)

/-! ## Documents -/

/-- The result of reading a scalar. -/
def ofScalar (make : α → Doc) : Except Problem (α × Text) → Doc × Option Text
  | .ok (a, rest) => (make a, some rest)
  | .error p => (.broken p, none)

/-- The text behind the colon of a member. -/
def colon (t : Text) : Except Problem Text :=
  match skipSpace t with
  | [] => .error .truncated
  | c :: rest => if c = ':' then .ok rest else .error .malformed

mutual

/-- The value ahead; `fuel` bounds the depth of the reading. -/
def readValue : Nat → Text → Doc × Option Text
  | 0, _ => (.broken .truncated, none)
  | fuel + 1, t =>
    match skipSpace t with
    | [] => (.broken .truncated, none)
    | '"' :: rest => ofScalar Doc.text (string (rest.length + 1) rest)
    | '[' :: rest =>
      let ((items, flaw), rest) := readItems fuel true rest
      (.list items flaw, rest)
    | '{' :: rest =>
      let ((members, flaw), rest) := readMembers fuel true rest
      (.object members flaw, rest)
    | 'n' :: rest => ofScalar (fun _ => .null) ((word "ull" rest).map fun r => ((), r))
    | 't' :: rest => ofScalar (fun _ => .bool true) ((word "rue" rest).map fun r => ((), r))
    | 'f' :: rest => ofScalar (fun _ => .bool false) ((word "alse" rest).map fun r => ((), r))
    | '-' :: rest => ofScalar Doc.number (number true rest)
    | c :: rest =>
      if Text.isDigit c then ofScalar Doc.number (number false (c :: rest))
      else (.broken .malformed, none)

/-- The items of a list and its closing bracket. -/
def readItems : Nat → Bool → Text → (List Doc × Option Problem) × Option Text
  | 0, _, _ => (([], some .truncated), none)
  | fuel + 1, first, t =>
    match skipSpace t with
    | [] => (([], some .truncated), none)
    | c :: rest =>
      if c = ']' then (([], none), some rest)
      else if first ∨ c = ',' then
        let start := if first then c :: rest else rest
        match first, skipSpace start with
        | false, ']' :: _ => (([], some .malformed), none)
        | _, _ =>
          match readValue fuel start with
          | (item, none) => (([item], none), none)
          | (item, some rest) =>
            let ((items, flaw), rest) := readItems fuel false rest
            ((item :: items, flaw), rest)
      else (([], some .malformed), none)

/-- The members of an object and its closing bracket. -/
def readMembers : Nat → Bool → Text → (List (Option Text × Doc) × Option Problem) × Option Text
  | 0, _, _ => (([], some .truncated), none)
  | fuel + 1, first, t =>
    match skipSpace t with
    | [] => (([], some .truncated), none)
    | c :: rest =>
      if c = '}' then (([], none), some rest)
      else if first ∨ c = ',' then
        match skipSpace (if first then c :: rest else rest) with
        | [] => (([], some .truncated), none)
        | '"' :: rest =>
          match string (rest.length + 1) rest with
          | .error p => (([], some p), none)
          | .ok (key, rest) =>
            match colon rest with
            | .error p => (([(key, .broken p)], none), none)
            | .ok rest =>
              match readValue fuel rest with
              | (value, none) => (([(key, value)], none), none)
              | (value, some rest) =>
                let ((members, flaw), rest) := readMembers fuel false rest
                (((key, value) :: members, flaw), rest)
        | _ => (([], some .malformed), none)
      else (([], some .malformed), none)

end

namespace Doc

/-- The document of a text, and the text after it if nothing was broken. -/
def read (t : Text) : Doc × Option Text := readValue (2 * t.length + 2) t

/-! ## Shapes -/

/-- What is wrong with a document of another shape. -/
def misfit : Doc → Problem
  | broken p => p
  | number n => if n.overflows then .malformed else .mistyped
  | text none => .malformed
  | _ => .mistyped

/-- A flaw ends the reading. -/
def checkFlaw : Option Problem → Except Problem Unit
  | none => .ok ()
  | some p => .error p

/-- A string. -/
def asText : Doc → Except Problem Text
  | text (some t) => .ok t
  | d => .error d.misfit

/-- A truth value. -/
def asBool : Doc → Except Problem Bool
  | bool b => .ok b
  | d => .error d.misfit

/-- A list of strings. -/
def asTexts : Doc → Except Problem (List Text)
  | list items flaw => do
    let texts ← items.mapM asText
    checkFlaw flaw
    return texts
  | d => .error d.misfit

/-- A whole number of at most `bits` bits. -/
def asNat (bits : Nat) : Doc → Except Problem Nat
  | number n =>
    if n.whole && !n.negative && n.significand < Nat.pow 2 bits then .ok n.significand
    else .error (misfit (number n))
  | d => .error d.misfit

/-- Sets the fields of a record from the members of an object, each at most once. -/
def setMembers (set : σ → Text → Doc → Except Problem σ) (fields : List Text) :
    List Text → σ → List (Option Text × Doc) → Except Problem σ
  | _, s, [] => .ok s
  | _, _, (none, _) :: _ => .error .malformed
  | seen, s, (some key, value) :: members =>
    if !fields.contains key ∨ seen.contains key then .error .mistyped
    else
      match set s key value with
      | .error p => .error p
      | .ok s => setMembers set fields (key :: seen) s members

/-- Sets the fields of a record from the items of a list, in order. -/
def setItems (set : σ → Text → Doc → Except Problem σ) :
    List Text → σ → List Doc → Except Problem σ
  | _, s, [] => .ok s
  | [], _, _ :: _ => .error .malformed
  | field :: fields, s, item :: items =>
    match set s field item with
    | .error p => .error p
    | .ok s => setItems set fields s items

/-- A record with named fields: an object of some of them, or a list of the first ones. -/
def asRecord (set : σ → Text → Doc → Except Problem σ) (fields : List Text) (start : σ) :
    Doc → Except Problem σ
  | object members flaw => do
    let s ← setMembers set fields [] start members
    checkFlaw flaw
    return s
  | list items flaw => do
    let s ← setItems set fields start items
    checkFlaw flaw
    return s
  | d => .error d.misfit

/-- The value that a text holds, with nothing but blanks after it. -/
def decode (as : Doc → Except Problem α) (t : Text) : Except Problem α :=
  match read t with
  | (doc, rest) =>
    match as doc with
    | .error p => .error p
    | .ok a => if rest.any fun r => (skipSpace r).isEmpty then .ok a else .error .malformed

end Doc

end Json

end Stencil
