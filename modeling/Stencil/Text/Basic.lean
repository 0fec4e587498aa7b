/-!
# Text/Basic — text as a list of characters

Everything this library reads or writes is a `Text`, the list of its characters.  Offsets and sizes
that leave the library count bytes of the UTF-8 form (`Text.size`, `Text.utf8`); line numbers count
line feeds (`Text.newlines`).  A string literal stands for its list of characters.
-/

namespace Stencil

/-- A text: its characters in order. -/
abbrev Text := List Char

/-- A sequence of bytes. -/
abbrev Bytes := List UInt8

/-- A string literal read as a text. -/
instance : Coe String Text := ⟨String.toList⟩

namespace Text

/-! ## Measures -/

/-- The number of bytes of the UTF-8 form. -/
def size : Text → Nat
  | [] => 0
  | c :: t => c.utf8Size + size t

/-- The number of line feeds. -/
def newlines (t : Text) : Nat := t.count '\n'

@[simp] theorem size_nil : size [] = 0 := rfl

@[simp] theorem size_cons (c : Char) (t : Text) : size (c :: t) = c.utf8Size + size t := rfl

@[simp] theorem size_append (s t : Text) : size (s ++ t) = size s + size t := by
  induction s with
  | nil => simp
  | cons c s ih => simp [ih, Nat.add_assoc]

@[simp] theorem newlines_nil : newlines [] = 0 := rfl

@[simp] theorem newlines_append (s t : Text) : newlines (s ++ t) = newlines s + newlines t :=
  List.count_append

/-! ## The UTF-8 form -/

/-- The UTF-8 form of a text. -/
def utf8 (t : Text) : Bytes := t.flatMap String.utf8EncodeChar

@[simp] theorem utf8_append (s t : Text) : utf8 (s ++ t) = utf8 s ++ utf8 t := by
  simp [utf8]

/-- **The size is the number of bytes.** -/
@[simp] theorem length_utf8 (t : Text) : (utf8 t).length = size t := by
  induction t with
  | nil => rfl
  | cons c t ih =>
    rw [show c :: t = [c] ++ t from rfl, utf8_append, List.length_append, ih]
    simp [utf8]

/-- The text of which `b` is the UTF-8 form, if there is one. -/
def ofUtf8? (b : Bytes) : Option Text := (String.fromUTF8? ⟨b.toArray⟩).map String.toList

/-- The characters of `t` that fit into the first `n` bytes, and the others. -/
def splitBytes : Nat → Text → Text × Text
  | _, [] => ([], [])
  | n, c :: t =>
    if c.utf8Size ≤ n then
      let (front, back) := splitBytes (n - c.utf8Size) t
      (c :: front, back)
    else ([], c :: t)

/-- **Splitting loses nothing.** -/
theorem splitBytes_append (n : Nat) (t : Text) :
    (splitBytes n t).1 ++ (splitBytes n t).2 = t := by
  induction t generalizing n with
  | nil => rfl
  | cons c t ih => unfold splitBytes; split <;> simp [ih]

/-! ## Searching -/

/-- The text before the first `pat` in `t` and the text after it. -/
def breakOn? (pat : Text) : Text → Option (Text × Text)
  | [] => if pat.isEmpty then some ([], []) else none
  | c :: t =>
    if pat.isPrefixOf (c :: t) then some ([], (c :: t).drop pat.length)
    else (breakOn? pat t).map fun (front, back) => (c :: front, back)

/-- The text after the prefix `pat`, if `t` starts with it. -/
def dropPrefix? : Text → Text → Option Text
  | [], t => some t
  | _ :: _, [] => none
  | p :: pat, c :: t => if p = c then dropPrefix? pat t else none

/-- The text before the suffix `pat`, if `t` ends with it. -/
def dropSuffix? (pat t : Text) : Option Text :=
  (dropPrefix? pat.reverse t.reverse).map List.reverse

/-- The part of `t` in front of its ending `rest`. -/
def upTo (t rest : Text) : Text := t.take (t.length - rest.length)

/-- **What lies in front of an ending is what was put there.** -/
@[simp] theorem upTo_append (s rest : Text) : upTo (s ++ rest) rest = s := by
  simp [upTo]

/-! ## Numbers -/

/-- The decimal digits of a number. -/
def decimal (n : Nat) : Text := Nat.toDigits 10 n

/-- A text filled up from the left with zeros to a width. -/
def padZeros (width : Nat) (t : Text) : Text := List.replicate (width - t.length) '0' ++ t

/-- An ASCII decimal digit. -/
def isDigit (c : Char) : Bool := '0' ≤ c && c ≤ '9'

/-- The number that a run of decimal digits writes, after the digits read so far. -/
def digitsValue (t : Text) : Nat := t.foldl (fun n c => 10 * n + (c.toNat - '0'.toNat)) 0

/-- A number of at most 64 bits: decimal digits, after an optional `+`. -/
def number64? (t : Text) : Option Nat :=
  let digits := match t with
    | '+' :: rest => rest
    | _ => t
  if digits.isEmpty || !digits.all isDigit then none
  else
    let n := digitsValue digits
    if n < Nat.pow 2 64 then some n else none

/-! ## Lines -/

/-- Drops one carriage return at the end. -/
def dropReturn (t : Text) : Text := (dropSuffix? ['\r'] t).getD t

/-- The lines of a text after the part `line` of its first line: each ends at a line feed, which it
does not hold, nor a carriage return just before it; a last line without a line feed counts if it is
not empty, and keeps its carriage return. -/
def linesAfter (line : Text) : Text → List Text
  | [] => if line.isEmpty then [] else [line.reverse]
  | c :: t =>
    if c = '\n' then dropReturn line.reverse :: linesAfter [] t
    else linesAfter (c :: line) t

/-- The lines of a text. -/
def lines (t : Text) : List Text := linesAfter [] t

end Text

end Stencil
