import Stencil.Token.Lexer

/-!
# Proofs/Text/Lines — the parts and the lines of a text

    lines before │ end of a line │ word │ rest of the line │ lines after
                 └─────────────── one line ────────────────┘

A text that was put together is taken apart again where its parts can be told: at a prefix, at a
suffix, at the first place of a character, at line feeds.  A line is told by the line feeds before
it.  The lines that end in the front of a text are those of the front (`getElem?_lines_of_lt`), the
lines that start behind it are those of the back (`getElem?_lines_succ`), and a word without a line
feed lies on the one in between (`getElem?_lines_word`).
-/

namespace Stencil

namespace Text

/-! ## Parts -/

@[simp] theorem dropPrefix?_append_self (pat t : Text) : dropPrefix? pat (pat ++ t) = some t := by
  induction pat with
  | nil => rfl
  | cons p pat ih => rw [List.cons_append, dropPrefix?, if_pos rfl, ih]

@[simp] theorem dropSuffix?_append_self (t pat : Text) : dropSuffix? pat (t ++ pat) = some t := by
  rw [dropSuffix?, List.reverse_append, dropPrefix?_append_self, Option.map_some,
    List.reverse_reverse]

theorem dropSuffix?_append {pat t front : Text} (h : dropSuffix? pat t = some front) :
    front ++ pat = t := by
  obtain ⟨back, hback, rfl⟩ := Option.map_eq_some_iff.1 h
  rw [← List.reverse_inj, List.reverse_append, List.reverse_reverse]
  exact Token.dropPrefix?_append hback

/-- A text breaks at a character that its front does not hold. -/
theorem breakOn?_append_cons {c : Char} {front : Text} (h : c ∉ front) (rest : Text) :
    breakOn? [c] (front ++ c :: rest) = some (front, rest) := by
  induction front with
  | nil => simp [breakOn?]
  | cons d front ih =>
    have hd : c ≠ d := fun hd => h (hd ▸ List.mem_cons_self)
    have hfront : c ∉ front := fun hf => h (List.mem_cons_of_mem d hf)
    simp [breakOn?, hd, ih hfront]

/-- A word that does not go on with a character is not completed by it. -/
theorem prefix_of_prefix_append_cons {pat s k : Text} {c : Char} (hc : c ∉ pat.tail) (hs : s ≠ [])
    (h : pat <+: s ++ c :: k) : pat <+: s := by
  obtain ⟨d, s, rfl⟩ := List.exists_cons_of_ne_nil hs
  obtain ⟨rest, hrest⟩ := h
  rcases List.append_eq_append_iff.1 hrest with ⟨m, hm, -⟩ | ⟨m, rfl, hm⟩
  · exact ⟨m, hm.symm⟩
  · cases m with
    | nil => exact ⟨[], by simp⟩
    | cons b m =>
      rw [List.cons_append, List.cons.injEq] at hm
      rw [← hm.1] at hc
      simp at hc

/-- A word that does not go on with a character lies in front of it or behind. -/
theorem infix_append_cons {pat s k : Text} {c : Char} (hc : c ∉ pat.tail)
    (h : pat <:+: s ++ c :: k) : pat <:+: s ∨ pat <:+: c :: k := by
  induction s with
  | nil => exact .inr h
  | cons d s ih =>
    rw [List.cons_append, List.infix_cons_iff, ← List.cons_append] at h
    rcases h with h | h
    · exact .inl (prefix_of_prefix_append_cons hc (List.cons_ne_nil d s) h).isInfix
    · exact (ih h).imp_left fun h => h.trans (List.suffix_cons d s).isInfix

/-- A word does not start in a text without its first character. -/
theorem infix_of_infix_append {c : Char} {pat s t : Text} (hc : c ∉ s)
    (h : c :: pat <:+: s ++ t) : c :: pat <:+: t := by
  induction s with
  | nil => exact h
  | cons d s ih =>
    rw [List.cons_append, List.infix_cons_iff, List.cons_prefix_cons] at h
    rcases h with ⟨rfl, -⟩ | h
    · exact absurd List.mem_cons_self hc
    · exact ih (fun hs => hc (List.mem_cons_of_mem d hs)) h

/-- **A word does not reach over a separator** that it does not hold. -/
theorem infix_append_cons_iff {pat : Text} {c : Char} (hne : pat ≠ []) (hc : c ∉ pat)
    {s t : Text} : pat <:+: s ++ c :: t ↔ pat <:+: s ∨ pat <:+: t := by
  constructor
  · intro h
    refine (infix_append_cons (fun hmem => hc (List.mem_of_mem_tail hmem)) h).imp_right fun h => ?_
    obtain ⟨d, pat, rfl⟩ := List.exists_cons_of_ne_nil hne
    refine infix_of_infix_append (s := [c]) (fun hd => hc ?_) h
    rw [List.mem_singleton.1 hd]
    exact List.mem_cons_self
  · rintro (h | h)
    · exact h.trans (List.prefix_append s _).isInfix
    · exact h.trans ((List.suffix_cons c t).trans (List.suffix_append s _)).isInfix

/-- A word does not occur in a text that lacks one of its characters. -/
theorem not_infix_of_not_mem {pat : Text} {c : Char} (hc : c ∈ pat) {t : Text} (ht : c ∉ t) :
    ¬ pat <:+: t :=
  fun h => ht (h.subset hc)

/-! ## Lines -/

/-- Dropping a carriage return leaves the text up to it. -/
theorem prefix_dropReturn (t : Text) : dropReturn t <+: t := by
  unfold dropReturn
  cases h : dropSuffix? ['\r'] t with
  | none => exact List.prefix_refl t
  | some front => exact ⟨['\r'], dropSuffix?_append h⟩

/-- A carriage return is dropped from the end only. -/
theorem dropReturn_append {s : Text} {c : Char} (hc : c ≠ '\r') (w : Text) :
    ∃ back, back <+: w ∧ dropReturn (s ++ [c] ++ w) = s ++ [c] ++ back := by
  unfold dropReturn
  cases h : dropSuffix? ['\r'] (s ++ [c] ++ w) with
  | none => exact ⟨w, List.prefix_refl w, rfl⟩
  | some front =>
    have hfront := dropSuffix?_append h
    rcases List.eq_nil_or_concat w with rfl | ⟨back, d, rfl⟩
    · rw [List.append_nil, List.append_singleton_inj] at hfront
      exact absurd hfront.2.symm hc
    · rw [List.concat_eq_append, ← List.append_assoc, List.append_singleton_inj] at hfront
      exact ⟨back, by simp, hfront.1⟩

/-- A word without a line feed belongs to the line it goes on with. -/
theorem linesAfter_append {w : Text} (h : '\n' ∉ w) (line t : Text) :
    linesAfter line (w ++ t) = linesAfter (w.reverse ++ line) t := by
  induction w generalizing line with
  | nil => rfl
  | cons c w ih =>
    have hc : c ≠ '\n' := fun hc => h (hc ▸ List.mem_cons_self)
    rw [List.cons_append, linesAfter, if_neg hc, ih fun hw => h (List.mem_cons_of_mem c hw),
      List.reverse_cons, List.append_assoc]
    rfl

theorem infix_of_mem_linesAfter {line t l : Text} (h : l ∈ linesAfter line t) :
    l <:+: line.reverse ++ t := by
  induction t generalizing line with
  | nil =>
    unfold linesAfter at h
    split at h
    · cases h
    · rw [List.mem_singleton.1 h]
      exact (List.prefix_append _ _).isInfix
  | cons c t ih =>
    unfold linesAfter at h
    split at h
    · rcases List.mem_cons.1 h with rfl | h
      · exact ((prefix_dropReturn _).trans (List.prefix_append _ _)).isInfix
      · exact (ih h).trans (List.suffix_append_of_suffix (List.suffix_cons c t)).isInfix
    · have hl := ih h
      rwa [List.reverse_cons, List.append_assoc] at hl

/-- **A line lies in the text.** -/
theorem infix_of_mem_lines {t l : Text} (h : l ∈ lines t) : l <:+: t := infix_of_mem_linesAfter h

@[simp] theorem newlines_cons_feed (t : Text) : newlines ('\n' :: t) = newlines t + 1 :=
  List.count_cons_self

theorem newlines_cons_of_ne {c : Char} (h : c ≠ '\n') (t : Text) :
    newlines (c :: t) = newlines t :=
  List.count_cons_of_ne h

theorem newlines_eq_zero {t : Text} (h : '\n' ∉ t) : newlines t = 0 := List.count_eq_zero.2 h

/-- **The lines that end in the front of a text are those of the front.** -/
theorem getElem?_lines_of_lt {s : Text} {k : Nat} (h : k < newlines s) (t : Text) :
    (lines (s ++ t))[k]? = (lines s)[k]? := by
  suffices hafter : ∀ line, (linesAfter line (s ++ t))[k]? = (linesAfter line s)[k]? from hafter []
  induction s generalizing k with
  | nil => exact absurd h (Nat.not_lt_zero k)
  | cons c s ih =>
    intro line
    rw [List.cons_append, linesAfter, linesAfter]
    by_cases hc : c = '\n'
    · rw [if_pos hc, if_pos hc]
      rw [hc, newlines_cons_feed] at h
      cases k with
      | zero => rfl
      | succ k => exact ih (Nat.lt_of_succ_lt_succ h) []
    · rw [if_neg hc, if_neg hc]
      rw [newlines_cons_of_ne hc] at h
      exact ih h (c :: line)

/-- What was read of the first line does not matter for the others. -/
theorem getElem?_linesAfter_succ (line t : Text) (k : Nat) :
    (linesAfter line t)[k + 1]? = (lines t)[k + 1]? := by
  suffices h : ∀ line', (linesAfter line t)[k + 1]? = (linesAfter line' t)[k + 1]? from h []
  induction t generalizing line with
  | nil =>
    intro line'
    unfold linesAfter
    split <;> split <;> rfl
  | cons c t ih =>
    intro line'
    rw [linesAfter, linesAfter]
    split
    · rfl
    · exact ih (c :: line) (c :: line')

/-- **The lines that start behind the front of a text are those of the back**, but for its first
line. -/
theorem getElem?_lines_succ (s t : Text) (k : Nat) :
    (lines (s ++ t))[newlines s + (k + 1)]? = (lines t)[k + 1]? := by
  suffices h : ∀ line, (linesAfter line (s ++ t))[newlines s + (k + 1)]? = (lines t)[k + 1]? from
    h []
  induction s with
  | nil =>
    intro line
    rw [newlines_nil, Nat.zero_add]
    exact getElem?_linesAfter_succ line t k
  | cons c s ih =>
    intro line
    rw [List.cons_append, linesAfter]
    by_cases hc : c = '\n'
    · rw [if_pos hc, hc, newlines_cons_feed, Nat.add_right_comm, List.getElem?_cons_succ]
      exact ih []
    · rw [if_neg hc, newlines_cons_of_ne hc]
      exact ih (c :: line)

/-- A text is a word without a line feed, and behind it nothing or a line feed. -/
theorem exists_feed (t : Text) :
    ∃ w rest, t = w ++ rest ∧ '\n' ∉ w ∧ (rest = [] ∨ ∃ rest', rest = '\n' :: rest') := by
  induction t with
  | nil => exact ⟨[], [], rfl, by simp, .inl rfl⟩
  | cons c t ih =>
    by_cases hc : c = '\n'
    · exact ⟨[], c :: t, rfl, by simp, .inr ⟨t, by rw [hc]⟩⟩
    · obtain ⟨w, rest, rfl, hw, hrest⟩ := ih
      exact ⟨c :: w, rest, rfl, by simp [Ne.symm hc, hw], hrest⟩

/-- A line that has begun, and not with a carriage return at last, goes on with the text. -/
theorem getElem?_linesAfter_zero {c : Char} (hc : c ≠ '\r') (line t : Text) :
    ∃ back, back <+: t ∧ (linesAfter (c :: line) t)[0]? = some (line.reverse ++ [c] ++ back) := by
  obtain ⟨w, rest, rfl, hw, hrest⟩ := exists_feed t
  rw [linesAfter_append hw]
  have hreverse : (w.reverse ++ c :: line).reverse = line.reverse ++ [c] ++ w := by simp
  rcases hrest with rfl | ⟨rest, rfl⟩
  · refine ⟨w, by simp, ?_⟩
    rw [linesAfter, if_neg (by simp), hreverse]
    rfl
  · obtain ⟨back, hback, hdrop⟩ := dropReturn_append hc (s := line.reverse) w
    refine ⟨back, hback.trans (List.prefix_append _ _), ?_⟩
    rw [linesAfter, if_pos rfl, hreverse, hdrop]
    rfl

/-- **A word without a line feed lies on one line**, told by the line feeds before it. -/
theorem getElem?_lines_word {w : Text} (hw : '\n' ∉ w) {c : Char} (hc : w.getLast? = some c)
    (hreturn : c ≠ '\r') (s t : Text) :
    ∃ front back, front <:+ s ∧ back <+: t ∧
      (lines (s ++ (w ++ t)))[newlines s]? = some (front ++ (w ++ back)) := by
  obtain ⟨w, rfl⟩ := List.getLast?_eq_some_iff.1 hc
  suffices h : ∀ line, ∃ front back, front <:+ line.reverse ++ s ∧ back <+: t ∧
      (linesAfter line (s ++ (w ++ [c] ++ t)))[newlines s]? = some (front ++ (w ++ [c] ++ back)) from
    h []
  induction s with
  | nil =>
    intro line
    obtain ⟨back, hback, hline⟩ := getElem?_linesAfter_zero hreturn (w.reverse ++ line) t
    refine ⟨line.reverse, back, by simp, hback, ?_⟩
    rw [List.nil_append, linesAfter_append hw, List.reverse_concat]
    exact hline.trans (by simp)
  | cons d s ih =>
    intro line
    rw [List.cons_append, linesAfter]
    by_cases hd : d = '\n'
    · obtain ⟨front, back, hfront, hback, hline⟩ := ih []
      refine ⟨front, back, ?_, hback, ?_⟩
      · exact hfront.trans (List.suffix_append_of_suffix (List.suffix_cons d s))
      · rw [if_pos hd, hd, newlines_cons_feed, List.getElem?_cons_succ]
        exact hline
    · obtain ⟨front, back, hfront, hback, hline⟩ := ih (d :: line)
      refine ⟨front, back, ?_, hback, ?_⟩
      · rwa [List.reverse_cons, List.append_assoc] at hfront
      · rw [if_neg hd, newlines_cons_of_ne hd]
        exact hline

/-- **The first line** ends at the first line feed. -/
theorem lines_append_feed {w : Text} (hw : '\n' ∉ w) {c : Char} (hc : w.getLast? = some c)
    (hreturn : c ≠ '\r') (t : Text) : lines (w ++ '\n' :: t) = w :: lines t := by
  obtain ⟨w, rfl⟩ := List.getLast?_eq_some_iff.1 hc
  obtain ⟨back, hback, hdrop⟩ := dropReturn_append hreturn (s := w) []
  obtain rfl := List.prefix_nil.1 hback
  rw [List.append_nil] at hdrop
  rw [lines, linesAfter_append hw, linesAfter, if_pos rfl, List.append_nil, List.reverse_reverse]
  exact congrArg (· :: lines t) hdrop

end Text

end Stencil
