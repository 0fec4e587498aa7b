import Mathlib.Algebra.Ring.Parity
import Stencil.Proofs.Host.Scanner
import Stencil.Proofs.Token.Longest

/-!
# Proofs/Host/Quoted — quoted texts keep their value

    "a$b\$c" ──guardDollars──▸ "a\$b\$c" ──bareDollars──▸ "a$b$c"

In double quotes the host puts values in the place of names behind a `$`, unless the dollar is
guarded by a backslash.  A backslash takes the next character with it, so backslashes count in
pairs, and a run of them guards what follows if it is odd.  In the code of a quoted text every
dollar is guarded (`odd_of_guardDollars`), and but for the guards it is the text that was written
(`bareDollars_guardDollars`).
-/

namespace Stencil

/-! ## Pairs -/

/-- A text without the guards of its dollars: the backslash is taken off each pair `\$`. -/
def bareDollars : Text → Text
  | [] => []
  | '\\' :: c :: t => if c = '$' then '$' :: bareDollars t else '\\' :: c :: bareDollars t
  | c :: t => c :: bareDollars t

/-- The number of backslashes that a text ends with. -/
def endingBackslashes (t : Text) : Nat := (t.reverse.takeWhile (· == '\\')).length

theorem bareDollars_char {c : Char} (hc : c ≠ '\\') (t : Text) :
    bareDollars (c :: t) = c :: bareDollars t := by
  rw [bareDollars]
  intro d r hslash _
  exact hc hslash

theorem guardDollars_char {c : Char} (hc : c ≠ '\\') (t : Text) :
    guardDollars (c :: t) =
      if c = '$' then '\\' :: '$' :: guardDollars t else c :: guardDollars t := by
  rw [guardDollars]
  intro d r hslash _
  exact hc hslash

/-- Backslashes count on in front of nothing but backslashes. -/
theorem endingBackslashes_append (s t : Text) :
    endingBackslashes (s ++ t) =
      if endingBackslashes t = t.length then t.length + endingBackslashes s
      else endingBackslashes t := by
  unfold endingBackslashes
  rw [List.reverse_append, List.takeWhile_append, List.length_reverse]
  split
  · rw [List.length_append, List.length_reverse]
  · rfl

/-- **A pair does not change whether what follows is guarded.** -/
theorem odd_pair {c : Char} {t : Text} (h : Odd (endingBackslashes t)) :
    Odd (endingBackslashes ('\\' :: c :: t)) := by
  have hpair : Even (endingBackslashes ['\\', c]) := by
    by_cases hc : c = '\\'
    · rw [hc]
      decide
    · have hnone : endingBackslashes ['\\', c] = 0 := by simp [endingBackslashes, hc]
      rw [hnone]
      exact Even.zero
  rw [show '\\' :: c :: t = ['\\', c] ++ t from rfl, endingBackslashes_append]
  split
  · next hall => exact (hall ▸ h).add_even hpair
  · exact h

/-- A character that is no backslash does not guard what follows. -/
theorem odd_char {c : Char} {t : Text} (hc : c ≠ '\\') (h : Odd (endingBackslashes t)) :
    Odd (endingBackslashes (c :: t)) := by
  have hnone : endingBackslashes [c] = 0 := by simp [endingBackslashes, hc]
  rw [show c :: t = [c] ++ t from rfl, endingBackslashes_append]
  split
  · next hall =>
    rw [hnone, Nat.add_zero, ← hall]
    exact h
  · exact h

/-! ## Guarded dollars -/

/-- A dollar behind a pair is guarded as it is without it, and one inside of it is guarded. -/
theorem odd_of_pair {c : Char} {t front back : Text} (h : '\\' :: c :: t = front ++ '$' :: back)
    (ht : ∀ front, t = front ++ '$' :: back → Odd (endingBackslashes front)) :
    Odd (endingBackslashes front) := by
  rcases front with _ | ⟨d, _ | ⟨e, front⟩⟩
  · exact absurd (List.cons.inj h).1 (by decide)
  · obtain ⟨rfl, -⟩ := List.cons.inj h
    decide
  · obtain ⟨rfl, hback⟩ := List.cons.inj h
    exact odd_pair (ht front (List.cons.inj hback).2)

/-- **Every dollar is guarded.** -/
theorem odd_of_guardDollars {t front back : Text} (h : guardDollars t = front ++ '$' :: back) :
    Odd (endingBackslashes front) := by
  fun_induction guardDollars t generalizing front with
  | case1 => simp at h
  | case2 c t ih => exact odd_of_pair h fun front => ih
  | case3 t _ ih => exact odd_of_pair h fun front => ih
  | case4 c t hpair hc ih =>
    cases front with
    | nil => exact absurd (List.cons.inj h).1 hc
    | cons d front =>
      obtain ⟨rfl, hback⟩ := List.cons.inj h
      have hslash : c ≠ '\\' := by
        rintro rfl
        -- Only at its end does a text have a backslash without a pair.
        cases t with
        | nil => simp [guardDollars] at hback
        | cons d t => exact hpair d t rfl rfl
      exact odd_char hslash (ih hback)

/-- **But for the guards the text stays as it is.** -/
theorem bareDollars_guardDollars (t : Text) : bareDollars (guardDollars t) = bareDollars t := by
  fun_induction guardDollars t with
  | case1 => rfl
  | case2 c t ih => simp only [bareDollars, ih]
  | case3 t _ ih => rw [bareDollars, if_pos rfl, ih, bareDollars_char (by decide)]
  | case4 c t hpair hc ih =>
    by_cases hslash : c = '\\'
    · cases t with
      | nil => rfl
      | cons d t => exact absurd rfl (hpair d t hslash)
    · rw [bareDollars_char hslash, bareDollars_char hslash, ih]

/-- **Guarded dollars are not guarded again.** -/
theorem guardDollars_guardDollars (t : Text) :
    guardDollars (guardDollars t) = guardDollars t := by
  fun_induction guardDollars t with
  | case1 => rfl
  | case2 c t ih => rw [guardDollars, ih]
  | case3 t _ ih => rw [guardDollars, ih]
  | case4 c t hpair hc ih =>
    by_cases hslash : c = '\\'
    · cases t with
      | nil => rw [hslash]; rfl
      | cons d t => exact absurd rfl (hpair d t hslash)
    · rw [guardDollars_char hslash, if_neg hc, ih]

/-! ## Quoted texts as tokens -/

namespace Script

/-- **What follows an opening quote is read up to the closing one.** -/
theorem QuotedBody.closeQuote_append {quote : Char} (hquote : quote ≠ '\\') {body : Text}
    (h : QuotedBody quote body) (k : Text) :
    Token.closeQuote quote (body ++ k) = some (body, k) := by
  induction h with
  | close =>
    rw [List.singleton_append, Token.closeQuote, if_pos rfl]
    intro c t hslash _
    exact hquote hslash
  | escape c _ ih =>
    rw [List.cons_append, List.cons_append, Token.closeQuote, ih]
    rfl
  | @char c t hq hb _ ih =>
    rw [List.cons_append, Token.closeQuote, if_neg hq, ih]
    · rfl
    · intro d r hslash _
      exact hb hslash

/-- **A quote and what follows it up to the closing one are one token**, whatever stands behind. -/
theorem QuotedBody.read?_append {quote : Char} {body : Text} (h : QuotedBody quote body)
    (hquote : quote = '"' ∨ quote = '\'') (k : Text) :
    Token.read? (quote :: body ++ k) = some (⟨.quoted, quote :: body⟩, k) := by
  have hne : quote ≠ '\\' := by rcases hquote with rfl | rfl <;> decide
  rw [List.cons_append, Token.read?_quote hquote, h.closeQuote_append hne]
  rfl

end Script

namespace Token

/-- A quoted text is a quote and what follows it, up to a quote that closes. -/
theorem Kind.Matches.exists_body {q : Text} (h : Kind.Matches .quoted q) :
    ∃ quote body, (quote = '"' ∨ quote = '\'') ∧ Script.QuotedBody quote body ∧
      q = quote :: body := by
  have hnext := next_eq_ok_iff.2 h.read?_eq
  obtain ⟨c, t, rfl⟩ := exists_cons_of_next hnext
  have htable : ∀ p ∈ fixed, p.2 ≠ .quoted := by decide
  rcases next_cases hnext with ⟨-, hkind⟩ | ⟨-, hkind⟩ | ⟨-, hname⟩ | ⟨-, hnumber⟩ |
    ⟨hc, body, hbody, heq⟩ | ⟨p, hp, heq⟩
  · cases hkind
  · cases hkind
  · cases hname
  · cases hnumber
  · cases heq
    exact ⟨c, t, hc, Script.quotedBody_of_closeQuote hbody, rfl⟩
  · exact absurd (congrArg Token.kind heq).symm (htable p hp)

end Token

/-- **A quoted text keeps its value.**  Its code is one quoted text again, with the same quotes,
whatever follows.  In double quotes every dollar in it stands behind an odd number of backslashes;
but for the guards of the dollars the code is what was written, and it is its own code.  In single
quotes it stays as it is. -/
theorem quotedCode_keeps {q : Text} (h : Token.Kind.quoted.Matches q) :
    (∀ k, Token.read? (quotedCode q ++ k) = some (⟨.quoted, quotedCode q⟩, k)) ∧
      (quotedCode q).head? = q.head? ∧
      (q.head? = some '"' →
        (∀ front back, quotedCode q = front ++ '$' :: back → Odd (endingBackslashes front)) ∧
        bareDollars (quotedCode q) = bareDollars q ∧ quotedCode (quotedCode q) = quotedCode q) ∧
      (q.head? = some '"' ∨ q.head? = some '\'' ∧ quotedCode q = q) := by
  obtain ⟨quote, body, rfl | rfl, hbody, rfl⟩ := h.exists_body
  · have hcode : quotedCode ('"' :: body) = '"' :: guardDollars body := by
      rw [quotedCode, guardDollars_char (by decide), if_neg (by decide)]
    refine ⟨?_, ?_, fun _ => ⟨fun front back => odd_of_guardDollars, ?_, ?_⟩, .inl rfl⟩
    · rw [hcode]
      exact hbody.guardDollars.read?_append (.inl rfl)
    · rw [hcode]
      rfl
    · exact bareDollars_guardDollars _
    · rw [hcode, quotedCode, ← hcode]
      exact guardDollars_guardDollars _
  · refine ⟨hbody.read?_append (.inr rfl), rfl, fun hquote => ?_, .inr ⟨rfl, rfl⟩⟩
    exact absurd (Option.some.inj hquote) (by decide)

/-- A guarded dollar, a dollar behind a pair of backslashes, and a guarded quote. -/
theorem quotedCode_keeps_pairs :
    let q : Text := "\"\\$ \\\\$ \\\"\""
    let code : Text := "\"\\$ \\\\\\$ \\\"\""
    Token.Kind.quoted.Matches q ∧ q.head? = some '"' ∧ quotedCode q = code ∧
      Token.read? (code ++ ['"']) = some (⟨.quoted, code⟩, ['"']) ∧
      (∀ front back, code = front ++ '$' :: back → Odd (endingBackslashes front)) ∧
      bareDollars code = bareDollars q ∧ quotedCode code = code := by
  intro q code
  have hmatches : Token.Kind.quoted.Matches q :=
    Token.matches_of_read? (show Token.read? q = some (⟨.quoted, q⟩, []) by decide)
  have hcode : quotedCode q = code := by decide
  have hquote : q.head? = some '"' := by decide
  obtain ⟨hread, -, hdouble, -⟩ := quotedCode_keeps hmatches
  obtain ⟨hodd, hbare, hagain⟩ := hdouble hquote
  rw [hcode] at hread hodd hbare hagain
  exact ⟨hmatches, hquote, hcode, hread _, hodd, hbare, hagain⟩

end Stencil
