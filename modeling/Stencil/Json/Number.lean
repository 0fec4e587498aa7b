import Stencil.Text.Basic

/-!
# Json/Number — numbers, and those that are too large

A number is kept as a **significand** of at most 64 bits and a power of ten.  Digits go into the
significand from the left until one would make it too wide; from there on the digits before the
point only raise the power, and those behind it count for nothing.

Whether a number is too large is decided by binary rounding: its significand and its power of ten
are each rounded to 53 bits (`nearest`), and the product must round to less than `2 ^ 1024`.
-/

namespace Stencil

namespace Json

/-- Why a text is not the JSON that was asked for. -/
inductive Problem
  /-- It is not JSON. -/
  | malformed
  /-- It ends too early. -/
  | truncated
  /-- It is JSON of another shape. -/
  | mistyped
  deriving DecidableEq, Repr

/-- A number of about `significand · 10 ^ exponent`, and whether it was written as digits alone that
all went into the significand. -/
structure Number where
  negative : Bool
  significand : Nat
  exponent : Int
  whole : Bool
  deriving DecidableEq, Repr

/-! ## Reading -/

/-- At least one digit. -/
def digits1 (t : Text) : Except Problem (Text × Text) :=
  match t with
  | [] => .error .truncated
  | c :: _ =>
    if Text.isDigit c then .ok (t.takeWhile Text.isDigit, t.dropWhile Text.isDigit)
    else .error .malformed

/-- The digits before the point: no zero leads others. -/
def wholePart (t : Text) : Except Problem (Text × Text) :=
  match digits1 t with
  | .ok ('0' :: _ :: _, _) => .error .malformed
  | other => other

/-- The digits after a point, if there is one. -/
def fractionPart : Text → Except Problem (Text × Text)
  | '.' :: t => digits1 t
  | t => .ok ([], t)

/-- The exponent, if there is one. -/
def exponentPart (t : Text) : Except Problem (Option Int × Text) :=
  match t with
  | c :: rest =>
    if c = 'e' ∨ c = 'E' then
      let (sign, rest) : Int × Text := match rest with
        | '-' :: rest => (-1, rest)
        | '+' :: rest => (1, rest)
        | _ => (1, rest)
      match digits1 rest with
      | .error p => .error p
      | .ok (digits, rest) => .ok (some (sign * Text.digitsValue digits), rest)
    else .ok (none, t)
  | [] => .ok (none, t)

/-- How wide a significand gets. -/
def significandBits : Nat := 64

/-- A significand with the digits that fit behind it, and how many they are. -/
def extend (significand : Nat) : Text → Nat × Nat
  | [] => (significand, 0)
  | c :: digits =>
    let wider := 10 * significand + (c.toNat - 48)
    if wider < Nat.pow 2 significandBits then
      ((extend wider digits).1, (extend wider digits).2 + 1)
    else (significand, 0)

/-- A number, from the digits before and behind its point and its exponent. -/
def Number.ofParts (negative : Bool) (before behind : Text) (exponent : Option Int) : Number :=
  let (significand, kept) := extend 0 before
  let (significand, places) := extend significand behind
  { negative, significand
    exponent := exponent.getD 0 + (before.length - kept : Nat) - places
    whole := behind.isEmpty && exponent.isNone && kept == before.length }

/-- A number, behind its sign. -/
def number (negative : Bool) (t : Text) : Except Problem (Number × Text) := do
  let (before, rest) ← wholePart t
  let (behind, rest) ← fractionPart rest
  let (exponent, rest) ← exponentPart rest
  return (.ofParts negative before behind exponent, rest)

/-! ## Size -/

/-- The number of `bits` significant bits that is nearest to `n`; of two, the even one. -/
def nearest (bits n : Nat) : Nat :=
  let unit := Nat.pow 2 (n.log2 + 1 - bits)
  let down := n / unit
  let rest := 2 * (n % unit)
  if rest < unit ∨ (rest = unit ∧ down % 2 = 0) then down * unit else (down + 1) * unit

/-- The bits that a rounded number keeps. -/
def roundedBits : Nat := 53

/-- The largest power of ten below the bound on numbers. -/
def maxExponent : Nat := 308

/-- The least number that rounds to `2 ^ 1024` or more. -/
def Number.bound : Nat := Nat.pow 2 1024 - Nat.pow 2 970

/-- **Whether a number is too large.** -/
def Number.overflows (n : Number) : Bool :=
  n.significand != 0 && decide (0 ≤ n.exponent) && (maxExponent < n.exponent.toNat
    || decide (Number.bound ≤ nearest roundedBits n.significand
      * nearest roundedBits (Nat.pow 10 n.exponent.toNat)))

/-- **A number that is narrow enough is not rounded.** -/
theorem nearest_of_log2_lt {bits n : Nat} (h : n.log2 < bits) : nearest bits n = n := by
  have hbits : n.log2 + 1 - bits = 0 := by omega
  simp [nearest, hbits, Nat.mod_one]

end Json

end Stencil
