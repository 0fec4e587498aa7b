import Stencil.Proofs.Token.Stream

/-!
# Proofs/Token/Ahead — how far a token looks ahead

A token is the longest one, so it takes a look at what stands behind it: a run goes on as long as it
can, an exponent needs a sign and a digit, and a longer fixed token goes before a shorter one.  None
of them looks past a closing bracket.  So behind such a bracket a text may go on in any way, and the
tokens in front of it stay the same (`Reads.extend`).
-/

namespace Stencil

/-! ## Runs -/

/-- A run that ends inside a text stays as it is when the text goes on. -/
theorem run_extend {p : Char → Bool} {t : Text} (h : t.dropWhile p ≠ []) (more : Text) :
    (t ++ more).takeWhile p = t.takeWhile p ∧ (t ++ more).dropWhile p = t.dropWhile p ++ more := by
  have hlength : (t.takeWhile p).length ≠ t.length := by
    intro hlength
    have hsplit := congrArg List.length (List.takeWhile_append_dropWhile (p := p) (l := t))
    rw [List.length_append, hlength] at hsplit
    exact h (List.eq_nil_of_length_eq_zero (by omega))
  refine ⟨?_, ?_⟩
  · rw [List.takeWhile_append, if_neg hlength]
  · rw [List.dropWhile_append, if_neg (by simpa using h)]

namespace Token

/-! ## Fixed words -/

/-- A word that lacks a character of the text does not reach beyond it. -/
theorem dropPrefix?_extend {c : Char} {pat t : Text} (hc : c ∈ t) (hpat : c ∉ pat) (more : Text) :
    Text.dropPrefix? pat (t ++ more) = (Text.dropPrefix? pat t).map (· ++ more) := by
  fun_induction Text.dropPrefix? pat t with
  | case1 => rfl
  | case2 => cases hc
  | case3 pat d t ih =>
    have hne : c ≠ d := fun heq => hpat (heq ▸ List.mem_cons_self)
    rw [List.cons_append, Text.dropPrefix?, if_pos rfl]
    exact ih ((List.mem_cons.1 hc).resolve_left hne) fun hmem => hpat (List.mem_cons_of_mem _ hmem)
  | case4 p pat d t hne =>
    rw [List.cons_append, Text.dropPrefix?, if_neg hne]
    rfl

/-- A word of one character looks at one character. -/
theorem dropPrefix?_singleton_extend (p c : Char) (t more : Text) :
    Text.dropPrefix? [p] (c :: t ++ more) = (Text.dropPrefix? [p] (c :: t)).map (· ++ more) := by
  simp only [List.cons_append, Text.dropPrefix?]
  split <;> rfl

/-- **Of the fixed tokens only one holds a closing bracket**, and it holds nothing else. -/
theorem fixed_bracket : ∀ p ∈ fixed, ']' ∉ p.1.toList ∨ p.1.toList = [']'] := by decide

theorem readFixed?_extend {table : List (String × Kind)}
    (htable : ∀ p ∈ table, ']' ∉ p.1.toList ∨ p.1.toList = [']']) {c : Char} {t rest : Text}
    {token : Token} (ht : ']' ∈ c :: t) (h : readFixed? table (c :: t) = some (token, rest))
    (more : Text) : readFixed? table (c :: t ++ more) = some (token, rest ++ more) := by
  induction table with
  | nil => cases h
  | cons p others ih =>
    obtain ⟨spelling, kind⟩ := p
    have hword : Text.dropPrefix? spelling.toList (c :: t ++ more) =
        (Text.dropPrefix? spelling.toList (c :: t)).map (· ++ more) := by
      rcases htable _ List.mem_cons_self with hnot | hbracket
      · exact dropPrefix?_extend ht hnot more
      · dsimp only at hbracket
        rw [hbracket]
        exact dropPrefix?_singleton_extend _ c t more
    rw [readFixed?] at h ⊢
    rw [hword]
    split at h
    · next r hr =>
      cases h
      rw [hr]
      rfl
    · next hnone =>
      rw [hnone]
      exact ih (fun p hp => htable p (List.mem_cons_of_mem _ hp)) h

/-! ## Numbers -/

/-- An exponent does not look past a closing bracket. -/
theorem exponent_extend {t : Text} (h : ']' ∈ (exponent t).2) (more : Text) :
    exponent (t ++ more) = ((exponent t).1, (exponent t).2 ++ more) := by
  match t with
  | [] => cases h
  | [a] =>
    obtain rfl : ']' = a := List.mem_singleton.1 h
    match more with
    | [] => rfl
    | [_] => rfl
    | _ :: _ :: _ => rfl
  | [a, b] =>
    have hmem : ']' = a ∨ ']' = b := by simpa [exponent] using h
    rcases hmem with rfl | rfl
    · match more with
      | [] => rfl
      | _ :: _ => rfl
    · match more with
      | [] => rfl
      | d :: more =>
        change exponent (a :: ']' :: d :: more) = _
        simp [exponent]
  | e :: s :: d :: u =>
    simp only [List.cons_append, exponent] at h ⊢
    split at h
    · next hmark =>
      obtain ⟨htake, hdrop⟩ := run_extend (List.ne_nil_of_mem h) more
      rw [if_pos hmark, if_pos hmark, htake, hdrop]
    · next hmark =>
      rw [if_neg hmark, if_neg hmark]
      rfl

theorem fraction_extend {t : Text} (h : ']' ∈ (fraction t).2) (more : Text) :
    fraction (t ++ more) = ((fraction t).1, (fraction t).2 ++ more) := by
  unfold fraction at h
  split at h
  · next u =>
    obtain ⟨htake, hdrop⟩ := run_extend (List.ne_nil_of_mem h) more
    simp only [List.cons_append, fraction, htake, hdrop]
  · next hdot =>
    obtain ⟨c, u, rfl⟩ := List.exists_cons_of_ne_nil (List.ne_nil_of_mem h)
    have hne : c ≠ '.' := fun heq => hdot u (by rw [heq])
    simp [fraction, hne]

theorem number_extend {t : Text} (h : ']' ∈ (number t).2) (more : Text) :
    number (t ++ more) = ((number t).1, (number t).2 ++ more) := by
  have hexponent : ']' ∈ (exponent (fraction (t.dropWhile Text.isDigit)).2).2 := h
  have hfraction : ']' ∈ (fraction (t.dropWhile Text.isDigit)).2 := by
    rw [← exponent_append (fraction (t.dropWhile Text.isDigit)).2]
    exact List.mem_append_right _ hexponent
  have hdigits : ']' ∈ t.dropWhile Text.isDigit := by
    rw [← fraction_append (t.dropWhile Text.isDigit)]
    exact List.mem_append_right _ hfraction
  obtain ⟨htake, hdrop⟩ := run_extend (List.ne_nil_of_mem hdigits) more
  simp only [number, htake, hdrop, fraction_extend hfraction, exponent_extend hexponent]

/-! ## Quoted texts -/

theorem closeQuote_extend {q : Char} {t body rest : Text} (hq : q ≠ '\\')
    (h : closeQuote q t = some (body, rest)) (more : Text) :
    closeQuote q (t ++ more) = some (body, rest ++ more) := by
  fun_induction closeQuote q t generalizing body with
  | case1 => cases h
  | case2 c t ih =>
    obtain ⟨⟨b, r⟩, hb, he⟩ := Option.map_eq_some_iff.1 h
    cases he
    simp only [List.cons_append, closeQuote, ih hb, Option.map_some]
  | case3 t _ =>
    cases h
    simp [closeQuote, hq]
  | case4 c t hescape hne ih =>
    obtain ⟨⟨b, r⟩, hb, he⟩ := Option.map_eq_some_iff.1 h
    cases he
    -- A backslash would take the next character with it, and there is one.
    have hc : c ≠ '\\' := by
      rintro rfl
      cases t with
      | nil => cases hb
      | cons d t => exact hescape d t rfl rfl
    simp [closeQuote, hc, hne, ih hb]

/-! ## Tokens -/

/-- **A token does not look past a closing bracket.** -/
theorem next_extend {t rest : Text} {token : Token} (h : next t = .ok (token, rest))
    (hrest : ']' ∈ rest) (more : Text) : next (t ++ more) = .ok (token, rest ++ more) := by
  rw [next_eq_ok_iff] at h ⊢
  obtain ⟨ht, -⟩ := read?_append h
  cases t with
  | nil => cases h
  | cons c t =>
    simp only [List.cons_append, read?] at h ⊢
    split at h
    · next hc =>
      cases h
      obtain ⟨htake, hdrop⟩ := run_extend (List.ne_nil_of_mem hrest) more
      rw [if_pos hc, htake, hdrop]
    next hblank =>
    rw [if_neg hblank]
    split at h
    · next hc =>
      cases h
      obtain ⟨htake, hdrop⟩ := run_extend (List.ne_nil_of_mem hrest) more
      rw [if_pos hc, htake, hdrop]
    next hdot =>
    rw [if_neg hdot]
    split at h
    · next hc =>
      cases h
      obtain ⟨htake, hdrop⟩ := run_extend (List.ne_nil_of_mem hrest) more
      rw [if_pos hc, htake, hdrop]
    next hname =>
    rw [if_neg hname]
    split at h
    · next hc =>
      cases h
      rw [if_pos hc, ← List.cons_append, number_extend hrest]
    next hdigit =>
    rw [if_neg hdigit]
    split at h
    · next hc =>
      obtain ⟨⟨body, r⟩, hb, he⟩ := Option.map_eq_some_iff.1 h
      cases he
      have hq : c ≠ '\\' := by
        rcases hc with rfl | rfl <;> decide
      rw [if_pos hc, closeQuote_extend hq hb]
      rfl
    · next hquote =>
      rw [if_neg hquote]
      refine readFixed?_extend fixed_bracket ?_ h more
      rw [← ht]
      exact List.mem_append_right _ hrest

end Token

/-- A character that is no blank stops the blanks in front of it. -/
theorem Text.trimStart_ne_nil {t : Text} {c : Char} (hc : c ∈ t) (hblank : isBlank c = false) :
    trimStart t ≠ [] := by
  intro hnil
  have hall : t.takeWhile isBlank = t := by
    have hsplit := List.takeWhile_append_dropWhile (p := isBlank) (l := t)
    rwa [show t.dropWhile isBlank = [] from hnil, List.append_nil] at hsplit
  have hmem : isBlank c = true := List.all_eq_true.1 List.all_takeWhile c (hall.symm ▸ hc)
  rw [hblank] at hmem
  cases hmem

/-- Blanks that end inside a text end there also when the text goes on. -/
theorem Text.trimStart_extend {t : Text} (h : trimStart t ≠ []) (more : Text) :
    trimStart (t ++ more) = trimStart t ++ more := (run_extend h more).2

/-- **Tokens in front of a closing bracket stay the same** when the text goes on behind it. -/
theorem Reads.extend {t rest : Text} {tokens : List Token} (h : Reads t tokens rest)
    (hrest : ']' ∈ rest) (more : Text) : Reads (t ++ more) tokens (rest ++ more) := by
  induction h with
  | done t =>
    rw [← Text.trimStart_extend (List.ne_nil_of_mem hrest)]
    exact .done _
  | @token t r rest token tokens first others ih =>
    have hr : ']' ∈ r := others.suffix.mem hrest
    have hne : Text.trimStart t ≠ [] := by
      obtain ⟨c, u, hcu⟩ := Token.exists_cons_of_next first
      rw [hcu]
      exact List.cons_ne_nil c u
    refine .token ?_ (ih hrest)
    rw [Text.trimStart_extend hne]
    exact Token.next_extend first hr more

end Stencil
