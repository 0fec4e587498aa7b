import Stencil.Text.Basic

/-!
# Source — the normal form of a template's text

A template is normalised once, before anything reads it: byte-order marks are dropped and every line
ending becomes one line feed.  Marks are looked at before line endings are paired, so a mark between
a carriage return and a line feed keeps the two apart.
-/

namespace Stencil

namespace Source

/-- The byte-order mark. -/
def mark : Char := Char.ofNat 0xFEFF

/-- **The normal form**: no byte-order mark, and a line feed for each line ending. -/
def normalize : Text → Text
  | [] => []
  | '\r' :: '\n' :: t => '\n' :: normalize t
  | c :: t =>
    if c = mark then normalize t
    else if c = '\r' then '\n' :: normalize t
    else c :: normalize t

/-- A normal text is left as it is. -/
theorem normalize_eq_self {t : Text} (hm : mark ∉ t) (hr : '\r' ∉ t) : normalize t = t := by
  fun_induction normalize t with
  | case1 => rfl
  | case2 t ih => simp at hr
  | case3 t _ ih => simp at hm
  | case4 t _ _ ih => simp at hr
  | case5 c t _ _ _ ih => simp_all

end Source

end Stencil
