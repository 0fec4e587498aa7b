import Stencil.Source

/-!
# Proofs/Text/Normal — what a byte-order mark can change

    \r \n        one line ending
    \r mark \n   two: the return does not see the line feed behind the mark

Without marks the normal form is the text with one line feed for each line ending
(`Source.lineFeeds`).  Marks leave no trace in it (`Source.mark_not_mem_normalize`), but they part
the line endings they are put into: each of these counts as two lines (`Source.newlines_normalize`).
So marks change the normal form of a text only where they part more of its line endings than before
(`Source.normalize_marked_iff`).
-/

namespace Stencil

namespace Source

/-! ## Line endings and marks -/

/-- One line feed for each line ending: a carriage return ends a line, with the line feed behind it
if there is one. -/
def lineFeeds : Text → Text
  | [] => []
  | '\r' :: '\n' :: t => '\n' :: lineFeeds t
  | c :: t => if c = '\r' then '\n' :: lineFeeds t else c :: lineFeeds t

/-- The text without its byte-order marks. -/
def unmarked (t : Text) : Text := t.filter (· ≠ mark)

/-- **A text with marks put into it**: any number of them, anywhere. -/
inductive Marked : Text → Text → Prop
  | nil : Marked [] []
  | insert {s t : Text} (h : Marked s t) : Marked s (mark :: t)
  | keep (c : Char) {s t : Text} (h : Marked s t) : Marked (c :: s) (c :: t)

/-- **How many line endings marks part**: a carriage return with a mark behind it and, but for
marks, a line feed. -/
def parted : Text → Nat
  | [] => 0
  | c :: t =>
    parted t + if c = '\r' ∧ t.head? = some mark ∧ (unmarked t).head? = some '\n' then 1 else 0

/-! ## One character at a time

A carriage return in front of a line feed leaves the ending to it, so all of these go by single
characters. -/

theorem normalize_mark (t : Text) : normalize (mark :: t) = normalize t := by
  rw [normalize, if_pos rfl]
  intro u hu _
  exact absurd hu (by decide)

theorem normalize_char {c : Char} (hm : c ≠ mark) (hr : c ≠ '\r') (t : Text) :
    normalize (c :: t) = c :: normalize t := by
  rw [normalize, if_neg hm, if_neg hr]
  intro u hu _
  exact hr hu

theorem normalize_return (t : Text) :
    normalize ('\r' :: t) = if t.head? = some '\n' then normalize t else '\n' :: normalize t := by
  have hreturn : '\r' ≠ mark := by decide
  split
  · next h =>
    obtain ⟨u, rfl⟩ := List.head?_eq_some_iff.1 h
    rw [normalize, normalize_char (by decide) (by decide)]
  · next h =>
    rw [normalize, if_neg hreturn, if_pos rfl]
    rintro u - rfl
    exact h rfl

theorem lineFeeds_char {c : Char} (hr : c ≠ '\r') (t : Text) :
    lineFeeds (c :: t) = c :: lineFeeds t := by
  rw [lineFeeds, if_neg hr]
  intro u hu _
  exact hr hu

theorem lineFeeds_return (t : Text) :
    lineFeeds ('\r' :: t) = if t.head? = some '\n' then lineFeeds t else '\n' :: lineFeeds t := by
  split
  · next h =>
    obtain ⟨u, rfl⟩ := List.head?_eq_some_iff.1 h
    rw [lineFeeds, lineFeeds_char (by decide)]
  · next h =>
    rw [lineFeeds, if_pos rfl]
    rintro u - rfl
    exact h rfl

@[simp] theorem unmarked_mark (t : Text) : unmarked (mark :: t) = unmarked t := by
  simp [unmarked]

@[simp] theorem unmarked_char {c : Char} (hm : c ≠ mark) (t : Text) :
    unmarked (c :: t) = c :: unmarked t := by
  simp [unmarked, hm]

@[simp] theorem parted_char {c : Char} (hr : c ≠ '\r') (t : Text) : parted (c :: t) = parted t := by
  simp [parted, hr]

/-- What stands first, but for marks, stands first or behind a mark. -/
theorem head?_of_unmarked {c : Char} {t : Text} (h : (unmarked t).head? = some c) :
    t.head? = some c ∨ t.head? = some mark := by
  cases t with
  | nil => cases h
  | cons d t =>
    by_cases hd : d = mark
    · exact .inr (congrArg some hd)
    · rw [unmarked_char hd] at h
      exact .inl h

theorem head?_unmarked {c : Char} (hc : c ≠ mark) {t : Text} (h : t.head? = some c) :
    (unmarked t).head? = some c := by
  obtain ⟨u, rfl⟩ := List.head?_eq_some_iff.1 h
  rw [unmarked_char hc]
  rfl

/-- **A carriage return**: the line feed behind it ends the line with it, or is parted from it, or
there is none. -/
theorem return_cases (t : Text) :
    (t.head? = some '\n' ∧ (unmarked t).head? = some '\n' ∧
      normalize ('\r' :: t) = normalize t ∧ parted ('\r' :: t) = parted t) ∨
    (t.head? = some mark ∧ (unmarked t).head? = some '\n' ∧
      normalize ('\r' :: t) = '\n' :: normalize t ∧ parted ('\r' :: t) = parted t + 1) ∨
    ((unmarked t).head? ≠ some '\n' ∧
      normalize ('\r' :: t) = '\n' :: normalize t ∧ parted ('\r' :: t) = parted t) := by
  have hfeed : some '\n' ≠ some mark := by decide
  have hmark : some mark ≠ some '\n' := hfeed.symm
  by_cases hback : (unmarked t).head? = some '\n'
  · rcases head?_of_unmarked hback with hpair | hparted
    · refine .inl ⟨hpair, hback, ?_, ?_⟩
      · rw [normalize_return, if_pos hpair]
      · rw [parted, if_neg fun h => hfeed (hpair.symm.trans h.2.1), Nat.add_zero]
    · refine .inr (.inl ⟨hparted, hback, ?_, ?_⟩)
      · rw [normalize_return, hparted, if_neg hmark]
      · rw [parted, if_pos ⟨rfl, hparted, hback⟩]
  · refine .inr (.inr ⟨hback, ?_, ?_⟩)
    · rw [normalize_return, if_neg fun h => hback (head?_unmarked (by decide) h)]
    · rw [parted, if_neg fun h => hback h.2.2, Nat.add_zero]

/-! ## Normal forms -/

theorem mark_not_mem_normalize (t : Text) : mark ∉ normalize t := by
  have hfeed : mark ≠ '\n' := by decide
  fun_induction normalize t with
  | case1 => exact List.not_mem_nil
  | case2 t ih => exact List.not_mem_cons_of_ne_of_not_mem hfeed ih
  | case3 t _ ih => exact ih
  | case4 t _ _ ih => exact List.not_mem_cons_of_ne_of_not_mem hfeed ih
  | case5 c t _ hm _ ih => exact List.not_mem_cons_of_ne_of_not_mem (Ne.symm hm) ih

theorem return_not_mem_normalize (t : Text) : '\r' ∉ normalize t := by
  have hfeed : '\r' ≠ '\n' := by decide
  fun_induction normalize t with
  | case1 => exact List.not_mem_nil
  | case2 t ih => exact List.not_mem_cons_of_ne_of_not_mem hfeed ih
  | case3 t _ ih => exact ih
  | case4 t _ _ ih => exact List.not_mem_cons_of_ne_of_not_mem hfeed ih
  | case5 c t _ _ hr ih => exact List.not_mem_cons_of_ne_of_not_mem (Ne.symm hr) ih

/-- **A normal form is normal.** -/
theorem normalize_normalize (t : Text) : normalize (normalize t) = normalize t :=
  normalize_eq_self (mark_not_mem_normalize t) (return_not_mem_normalize t)

/-- Without marks there is one line feed for each line ending. -/
theorem normalize_eq_lineFeeds {t : Text} (h : mark ∉ t) : normalize t = lineFeeds t := by
  induction t with
  | nil => rfl
  | cons c t ih =>
    obtain ⟨hc, ht⟩ := not_or.1 (mt List.mem_cons.2 h)
    by_cases hr : c = '\r'
    · rw [hr, normalize_return, lineFeeds_return, ih ht]
    · rw [normalize_char (Ne.symm hc) hr, lineFeeds_char hr, ih ht]

/-- **Each parted line ending counts as two lines.** -/
theorem newlines_normalize (t : Text) :
    (normalize t).newlines = (lineFeeds (unmarked t)).newlines + parted t := by
  have hfeed : ∀ t : Text, Text.newlines ('\n' :: t) = t.newlines + 1 := fun t =>
    List.count_cons_self
  induction t with
  | nil => rfl
  | cons c t ih =>
    by_cases hm : c = mark
    · rw [hm, normalize_mark, unmarked_mark, parted_char (by decide), ih]
    rw [unmarked_char hm]
    by_cases hr : c = '\r'
    · rw [hr, lineFeeds_return]
      rcases return_cases t with ⟨-, hback, hn, hp⟩ | ⟨-, hback, hn, hp⟩ | ⟨hback, hn, hp⟩
      · rw [hn, hp, if_pos hback, ih]
      · rw [hn, hp, if_pos hback, hfeed, ih, Nat.add_assoc]
      · rw [hn, hp, if_neg hback, hfeed, hfeed, ih, Nat.add_right_comm]
    · rw [normalize_char hm hr, lineFeeds_char hr, parted_char hr]
      simp only [Text.newlines, List.count_cons] at ih ⊢
      omega

/-! ## Marks put into a text -/

theorem Marked.unmarked_eq {s t : Text} (h : Marked s t) : unmarked t = unmarked s := by
  induction h with
  | nil => rfl
  | insert _ ih => rw [unmarked_mark, ih]
  | keep c _ ih =>
    by_cases hc : c = mark
    · rw [hc, unmarked_mark, unmarked_mark, ih]
    · rw [unmarked_char hc, unmarked_char hc, ih]

/-- A text comes from the one without its marks. -/
theorem marked_unmarked (t : Text) : Marked (unmarked t) t := by
  induction t with
  | nil => exact .nil
  | cons c t ih =>
    by_cases hc : c = mark
    · rw [hc, unmarked_mark]
      exact .insert ih
    · rw [unmarked_char hc]
      exact .keep c ih

theorem Marked.head? {s t : Text} (h : Marked s t) : t.head? = s.head? ∨ t.head? = some mark := by
  cases h with
  | nil => exact .inl rfl
  | insert _ => exact .inr rfl
  | keep c _ => exact .inl rfl

theorem mark_not_mem_unmarked (t : Text) : mark ∉ unmarked t := by
  simp [unmarked]

/-- Where there are no marks they part nothing. -/
theorem parted_eq_zero {t : Text} (h : mark ∉ t) : parted t = 0 := by
  induction t with
  | nil => rfl
  | cons c t ih =>
    have ht := fun hmem => h (List.mem_cons_of_mem c hmem)
    have hnone : ¬ (c = '\r' ∧ t.head? = some mark ∧ (unmarked t).head? = some '\n') := fun hbad =>
      ht (List.mem_of_head? hbad.2.1)
    rw [parted, if_neg hnone, ih ht]

/-- A carriage return: marks behind it do not join what was parted, and may part what was not. -/
theorem Marked.parted_return_le {s t : Text} (h : Marked s t) (hle : parted s ≤ parted t)
    (hsame : parted t = parted s → normalize t = normalize s) :
    parted ('\r' :: s) ≤ parted ('\r' :: t) ∧
      (parted ('\r' :: t) = parted ('\r' :: s) →
        normalize ('\r' :: t) = normalize ('\r' :: s)) := by
  have hfeed : some '\n' ≠ some mark := by decide
  rcases return_cases s with ⟨-, hback, hn, hp⟩ | ⟨hs, hback, hn, hp⟩ | ⟨hback, hn, hp⟩ <;>
    rw [← h.unmarked_eq] at hback <;> rw [hn, hp]
  · rcases return_cases t with ⟨-, -, hn', hp'⟩ | ⟨-, -, -, hp'⟩ | ⟨hback', -⟩
    · rw [hn', hp']
      exact ⟨hle, hsame⟩
    · rw [hp']
      exact ⟨by omega, fun heq => by omega⟩
    · exact absurd hback hback'
  · rcases return_cases t with ⟨ht, -⟩ | ⟨-, -, hn', hp'⟩ | ⟨hback', -⟩
    · -- Marks do not go away.
      rcases h.head? with heq | hmark
      · exact absurd (ht.symm.trans (heq.trans hs)) hfeed
      · exact absurd (ht.symm.trans hmark) hfeed
    · rw [hn', hp']
      exact ⟨Nat.succ_le_succ hle, fun heq => by rw [hsame (Nat.succ.inj heq)]⟩
    · exact absurd hback hback'
  · rcases return_cases t with ⟨-, hback', -⟩ | ⟨-, hback', -⟩ | ⟨-, hn', hp'⟩
    · exact absurd hback' hback
    · exact absurd hback' hback
    · rw [hn', hp']
      exact ⟨hle, fun heq => by rw [hsame heq]⟩

/-- **Marks part no fewer line endings than before**, and if they part no more, the normal form
stays as it was. -/
theorem Marked.parted_le {s t : Text} (h : Marked s t) :
    parted s ≤ parted t ∧ (parted t = parted s → normalize t = normalize s) := by
  induction h with
  | nil => exact ⟨Nat.le_refl _, fun _ => rfl⟩
  | insert _ ih =>
    rw [parted_char (by decide), normalize_mark]
    exact ih
  | @keep c s t h ih =>
    obtain ⟨hle, hsame⟩ := ih
    by_cases hm : c = mark
    · rw [hm, parted_char (by decide), parted_char (by decide), normalize_mark, normalize_mark]
      exact ⟨hle, hsame⟩
    by_cases hr : c = '\r'
    · rw [hr]
      exact h.parted_return_le hle hsame
    · rw [parted_char hr, parted_char hr, normalize_char hm hr, normalize_char hm hr]
      exact ⟨hle, fun heq => by rw [hsame heq]⟩

/-! ## When marks matter -/

/-- **When marks matter.**  The normal form holds neither marks nor carriage returns and is its own
normal form.  Marks that are put into a text change it exactly where they part more line endings
than before, and it is the text with one line feed for each line ending exactly where they part
none. -/
theorem normalize_marked_iff {s t : Text} (h : Marked s t) :
    (normalize t = lineFeeds (unmarked s) ↔ parted t = 0) ∧
      (normalize t = normalize s ↔ parted t = parted s) ∧
      mark ∉ normalize t ∧ '\r' ∉ normalize t ∧ normalize (normalize t) = normalize t := by
  have hsame : ∀ {s : Text}, Marked s t → (normalize t = normalize s ↔ parted t = parted s) := by
    intro s h
    refine ⟨fun heq => ?_, h.parted_le.2⟩
    have hlines := congrArg Text.newlines heq
    rw [newlines_normalize, newlines_normalize, h.unmarked_eq] at hlines
    exact Nat.add_left_cancel hlines
  have hplain := hsame (marked_unmarked t)
  rw [normalize_eq_lineFeeds (mark_not_mem_unmarked t), parted_eq_zero (mark_not_mem_unmarked t),
    h.unmarked_eq] at hplain
  exact ⟨hplain, hsame h, mark_not_mem_normalize t, return_not_mem_normalize t,
    normalize_normalize t⟩

/-- Marks at both ends of a text, in front of a line ending and behind it. -/
theorem normalize_marked_around_ending :
    let s : Text := ['a', '\r', '\n', 'b']
    let t : Text := [mark, 'a', mark, mark, '\r', '\n', mark, 'b', mark]
    Marked s t ∧ normalize t = ['a', '\n', 'b'] ∧ normalize t = normalize s := by
  intro s t
  have hending : Marked ['\r', '\n', 'b'] ['\r', '\n', mark, 'b', mark] :=
    .keep '\r' (.keep '\n' (.insert (.keep 'b' (.insert .nil))))
  have hmarked : Marked s t := .insert (.keep 'a' (.insert (.insert hending)))
  obtain ⟨hplain, hsame, -⟩ := normalize_marked_iff hmarked
  exact ⟨hmarked, hplain.2 (by decide), hsame.2 (by decide)⟩

/-- **A mark between a carriage return and its line feed makes two lines of one.** -/
theorem normalize_parts_ending :
    Marked ['\r', '\n'] ['\r', mark, '\n'] ∧ normalize ['\r', mark, '\n'] = ['\n', '\n'] ∧
      normalize ['\r', '\n'] = ['\n'] ∧ lineFeeds (unmarked ['\r', '\n']) = ['\n'] :=
  ⟨.keep '\r' (.insert (.keep '\n' .nil)), by decide, by decide, by decide⟩

end Source

end Stencil
