import Stencil.Template.HostTag

/-!
# Proofs/Host/Quiet — texts in which no host script starts

`Quiet` texts hold no host tag; these are the texts that pass `reject`.  A text is `Sealed` if no
host tag starts in it whatever follows, so sealed texts can be put one after the other.  A quiet
text is sealed by any character behind it that does not belong to a host tag
(`Quiet.sealed_concat`), and escaping keeps it sealed (`Sealed.of_escapes`).
-/

namespace Stencil

namespace HostTag

/-! ## Openers -/

/-- What opens host script. -/
def IsOpener (short : Bool) (word : Text) : Prop :=
  if short then word = "<?"
  else word = "<?=" ∨ ∃ a b c d, word = ['<', '?', a, b, c, d] ∧
    [a, b, c].map Char.toLower = "php" ∧ Text.isBlank d = true

/-- Host script starts a text. -/
def Fires (short : Bool) (t : Text) : Prop := at? short t ≠ none

/-- The characters behind the first one of an opener. -/
def continues (c : Char) : Bool :=
  c == '?' || c == '=' || c.toLower == 'p' || c.toLower == 'h' || Text.isBlank c

variable {short : Bool}

/-- An opener is `<?` and characters that go on with it. -/
theorem IsOpener.eq_cons {word : Text} (h : IsOpener short word) :
    ∃ tail, word = '<' :: '?' :: tail ∧ ∀ c ∈ tail, continues c = true := by
  unfold IsOpener at h
  split at h
  · exact ⟨[], h, nofun⟩
  · rcases h with rfl | ⟨a, b, c, d, rfl, hphp, hd⟩
    · exact ⟨['='], rfl, List.all_eq_true.1 rfl⟩
    · refine ⟨[a, b, c, d], rfl, ?_⟩
      obtain ⟨ha, hb, hc⟩ : a.toLower = 'p' ∧ b.toLower = 'h' ∧ c.toLower = 'p' := by
        simpa using hphp
      simp [continues, ha, hb, hc, hd]

/-- **Host script starts a text with an opener.** -/
theorem fires_iff {t : Text} : Fires short t ↔ ∃ word, IsOpener short word ∧ word <+: t := by
  constructor
  · intro h
    unfold Fires at? at h
    split at h
    · next r =>
      cases short with
      | true => exact ⟨"<?", rfl, r, rfl⟩
      | false =>
        simp only [Bool.false_eq_true, if_false] at h
        split at h
        · next r' => exact ⟨"<?=", .inl rfl, r', rfl⟩
        · next a b c d r' _ =>
          split at h
          · next hphp =>
            exact ⟨_, .inr ⟨a, b, c, d, rfl, hphp.1, hphp.2⟩, r', rfl⟩
          · exact absurd rfl h
        · exact absurd rfl h
    · exact absurd rfl h
  · rintro ⟨word, hw, rest, rfl⟩
    unfold IsOpener at hw
    split at hw
    · next hs => simp [hw, hs, Fires, at?]
    · next hs =>
      simp only [Bool.not_eq_true] at hs
      rcases hw with rfl | ⟨a, b, c, d, rfl, hphp, hd⟩
      · simp [hs, Fires, at?]
      · subst hs
        change at? false ('<' :: '?' :: a :: b :: c :: d :: rest) ≠ none
        unfold at?
        simp only [Bool.false_eq_true, if_false]
        split
        · nofun
        · next heq =>
          cases heq
          rw [if_pos ⟨hphp, hd⟩]
          nofun
        · next hno => exact absurd rfl (hno a b c d rest)

/-- Host script starts also a longer text. -/
theorem Fires.append {t : Text} (h : Fires short t) (k : Text) : Fires short (t ++ k) := by
  obtain ⟨word, hw, hp⟩ := fires_iff.1 h
  exact fires_iff.2 ⟨word, hw, hp.trans (List.prefix_append t k)⟩

/-- Host script starts with `<?`. -/
theorem Fires.eq_cons {t : Text} (h : Fires short t) : ∃ r, t = '<' :: '?' :: r := by
  obtain ⟨word, hw, rest, rfl⟩ := fires_iff.1 h
  obtain ⟨tail, rfl, -⟩ := hw.eq_cons
  exact ⟨tail ++ rest, rfl⟩

/-- **A character that does not go on with an opener ends it**: the opener lies before it. -/
theorem Fires.of_append_cons {u k : Text} {q : Char} (h : Fires short (u ++ q :: k)) (hu : u ≠ [])
    (hq : continues q = false) : Fires short u := by
  obtain ⟨word, hw, rest, hrest⟩ := fires_iff.1 h
  refine fires_iff.2 ⟨word, hw, ?_⟩
  rcases List.append_eq_append_iff.1 hrest with ⟨more, hu', -⟩ | ⟨more, hword, hmore⟩
  · exact ⟨more, hu'.symm⟩
  · cases more with
    | nil => exact ⟨[], by rw [hword, List.append_nil, List.append_nil]⟩
    | cons d more =>
      -- The opener would reach beyond `u`, and so hold `q` behind its first character.
      obtain ⟨rfl, -⟩ := List.cons.inj hmore
      obtain ⟨tail, rfl, htail⟩ := hw.eq_cons
      obtain ⟨c, u, rfl⟩ := List.exists_cons_of_ne_nil hu
      have hmem : q ∈ '?' :: tail := by
        rw [(List.cons.inj hword).2]
        simp
      rcases List.mem_cons.1 hmem with rfl | hmem
      · cases hq
      · rw [htail q hmem] at hq
        cases hq

/-! ## Quiet texts -/

/-- **No host script starts anywhere in a text.** -/
def Quiet (short : Bool) (t : Text) : Prop := ∀ u, u <:+ t → ¬ Fires short u

theorem Quiet.of_infix {s t : Text} (h : Quiet short t) (hs : s <:+: t) : Quiet short s := by
  obtain ⟨a, b, rfl⟩ := hs
  intro u hu hf
  obtain ⟨v, rfl⟩ := hu
  refine h (u ++ b) ⟨a ++ v, ?_⟩ (hf.append b)
  simp only [List.append_assoc]

theorem quiet_iff_find? {t : Text} {line : Nat} : Quiet short t ↔ find? short line t = none := by
  induction t generalizing line with
  | nil =>
    refine ⟨fun _ => rfl, fun _ u hu hf => ?_⟩
    obtain ⟨r, rfl⟩ := hf.eq_cons
    cases List.suffix_nil.1 hu
  | cons c t ih =>
    rw [find?]
    constructor
    · intro h
      have hhere : at? short (c :: t) = none := by
        simpa [Fires] using h _ (List.suffix_refl _)
      rw [hhere]
      exact ih.1 fun u hu => h u (hu.trans (List.suffix_cons c t))
    · intro h u hu hf
      split at h
      · cases h
      next hhere =>
      rcases List.suffix_cons_iff.1 hu with rfl | hu
      · exact hf hhere
      · exact ih.2 h u hu hf

/-- **The texts that pass are the quiet ones.** -/
theorem quiet_of_reject {t : Text} (h : reject short t = .ok ()) : Quiet short t := by
  unfold reject at h
  split at h
  · cases h
  · next hf => exact quiet_iff_find?.2 hf

theorem reject_of_quiet {t : Text} (h : Quiet short t) : reject short t = .ok () := by
  rw [reject, quiet_iff_find?.1 h]

/-! ## Sealed texts -/

/-- **No host script starts in a text, whatever follows it.** -/
def Sealed (short : Bool) (t : Text) : Prop :=
  ∀ u, u <:+ t → u ≠ [] → ∀ k, ¬ Fires short (u ++ k)

theorem sealed_nil : Sealed short [] := by
  intro u hu hne
  exact absurd (List.suffix_nil.1 hu) hne

/-- **Sealed texts can be put one after the other.** -/
theorem Sealed.append {s t : Text} (hs : Sealed short s) (ht : Sealed short t) :
    Sealed short (s ++ t) := by
  rintro u ⟨v, hu⟩ hne k hf
  rcases List.append_eq_append_iff.1 hu with ⟨w, hs', rfl⟩ | ⟨w, -, ht'⟩
  · by_cases hw : w = []
    · rw [hw, List.nil_append] at hne hf
      exact ht t (List.suffix_refl t) hne k hf
    · rw [List.append_assoc] at hf
      exact hs w ⟨v, hs'.symm⟩ hw (t ++ k) hf
  · exact ht u ⟨w, ht'.symm⟩ hne k hf

/-- A quiet text stays quiet behind a sealed one. -/
theorem Sealed.quiet_append {s t : Text} (hs : Sealed short s) (ht : Quiet short t) :
    Quiet short (s ++ t) := by
  rintro u ⟨v, hu⟩ hfires
  rcases List.append_eq_append_iff.1 hu with ⟨w, hs', rfl⟩ | ⟨w, -, ht'⟩
  · by_cases hw : w = []
    · rw [hw, List.nil_append] at hfires
      exact ht t (List.suffix_refl t) hfires
    · exact hs w ⟨v, hs'.symm⟩ hw t hfires
  · exact ht u ⟨w, ht'.symm⟩ hfires

/-- A text without `<` is sealed. -/
theorem sealed_of_not_mem {t : Text} (h : '<' ∉ t) : Sealed short t := by
  intro u hu hne k hf
  obtain ⟨c, u, rfl⟩ := List.exists_cons_of_ne_nil hne
  obtain ⟨r, hr⟩ := hf.eq_cons
  obtain ⟨rfl, -⟩ := List.cons.inj hr
  exact h (hu.mem List.mem_cons_self)

/-- Every `<` of a text is followed by another character than `?`. -/
def tame : Text → Bool
  | [] => true
  | c :: t => (c != '<' || t.head?.any (· != '?')) && tame t

/-- **A tame text is sealed.** -/
theorem sealed_of_tame {t : Text} (h : tame t = true) : Sealed short t := by
  induction t with
  | nil => exact sealed_nil
  | cons c t ih =>
    obtain ⟨hc, ht⟩ := Bool.and_eq_true_iff.1 h
    intro u hu hne k hf
    rcases List.suffix_cons_iff.1 hu with rfl | hu
    · obtain ⟨r, hr⟩ := hf.eq_cons
      obtain ⟨rfl, hnext⟩ := List.cons.inj hr
      cases t with
      | nil => cases hc
      | cons d t =>
        obtain ⟨rfl, -⟩ := List.cons.inj hnext
        cases hc
    · exact ih ht u hu hne k hf

/-- A fixed word of generated code. -/
theorem sealed_word (word : Text) (h : tame word = true := by decide) : Sealed short word :=
  sealed_of_tame h

theorem sealed_decimal (n : Nat) : Sealed short (Text.decimal n) := by
  refine sealed_of_not_mem fun hmem => ?_
  have hdigit : '<'.isDigit = true := Nat.isDigit_of_mem_toDigits (by decide) (by decide) hmem
  cases hdigit

theorem sealed_flatMap {α : Type} {f : α → Text} {xs : List α}
    (h : ∀ x ∈ xs, Sealed short (f x)) : Sealed short (xs.flatMap f) := by
  induction xs with
  | nil => exact sealed_nil
  | cons x xs ih =>
    rw [List.flatMap_cons]
    have hx : Sealed short (f x) := h x List.mem_cons_self
    exact hx.append (ih fun y hy => h y (List.mem_cons_of_mem _ hy))

/-- **A quiet text is sealed by a character** that belongs to no opener. -/
theorem Quiet.sealed_concat {t : Text} (h : Quiet short t) {q : Char} (hq : continues q = false)
    (hne : q ≠ '<') : Sealed short (t ++ [q]) := by
  intro u hu hu' k hf
  rcases List.suffix_concat_iff.1 hu with rfl | ⟨v, rfl, hv⟩
  · exact hu' rfl
  · rw [List.append_assoc] at hf
    by_cases hv' : v = []
    · obtain ⟨r, hr⟩ := hf.eq_cons
      rw [hv'] at hr
      exact hne (List.cons.inj hr).1
    · exact h v hv (Fires.of_append_cons hf hv' hq)

/-! ## Escaping -/

/-- A character that stands in no opener. -/
def breaks (c : Char) : Bool := c != '<' && !continues c

/-- **One text is another with characters replaced and added** that stand in no opener. -/
inductive Escapes : Text → Text → Prop
  | nil : Escapes [] []
  | keep (c : Char) {t e : Text} (h : Escapes t e) : Escapes (c :: t) (c :: e)
  | swap (c : Char) {d : Char} {t e : Text} (hd : breaks d = true) (h : Escapes t e) :
      Escapes (c :: t) (d :: e)
  | insert {d : Char} {t e : Text} (hd : breaks d = true) (h : Escapes t e) : Escapes t (d :: e)

namespace Escapes

theorem refl (t : Text) : Escapes t t := by
  induction t with
  | nil => exact .nil
  | cons c t ih => exact .keep c ih

theorem append {t e t' e' : Text} (h : Escapes t e) (h' : Escapes t' e') :
    Escapes (t ++ t') (e ++ e') := by
  induction h with
  | nil => exact h'
  | keep c _ ih => exact .keep c ih
  | swap c hd _ ih => exact .swap c hd ih
  | insert hd _ ih => exact .insert hd ih

/-- A character is replaced by several others. -/
theorem replace (c : Char) {d : Char} {ds t e : Text} (h : (d :: ds).all breaks = true)
    (ht : Escapes t e) : Escapes (c :: t) (d :: ds ++ e) := by
  obtain ⟨hd, hds⟩ := Bool.and_eq_true_iff.1 h
  refine .swap c hd ?_
  clear h
  induction ds with
  | nil => exact ht
  | cons x ds ih =>
    obtain ⟨hx, hrest⟩ := Bool.and_eq_true_iff.1 hds
    exact .insert hx (ih hrest)

/-- An ending of the escaped text escapes an ending of the text. -/
theorem of_suffix {t e u : Text} (h : Escapes t e) (hu : u <:+ e) :
    ∃ s, s <:+ t ∧ Escapes s u := by
  induction h with
  | nil =>
    rw [List.suffix_nil.1 hu]
    exact ⟨[], List.suffix_refl _, .nil⟩
  | @keep c t e h ih =>
    rcases List.suffix_cons_iff.1 hu with rfl | hu
    · exact ⟨c :: t, List.suffix_refl _, .keep c h⟩
    · obtain ⟨s, hs, hsu⟩ := ih hu
      exact ⟨s, hs.trans (List.suffix_cons c t), hsu⟩
  | @swap c d t e hd h ih =>
    rcases List.suffix_cons_iff.1 hu with rfl | hu
    · exact ⟨c :: t, List.suffix_refl _, .swap c hd h⟩
    · obtain ⟨s, hs, hsu⟩ := ih hu
      exact ⟨s, hs.trans (List.suffix_cons c t), hsu⟩
  | @insert d t e hd h ih =>
    rcases List.suffix_cons_iff.1 hu with rfl | hu
    · exact ⟨t, List.suffix_refl _, .insert hd h⟩
    · exact ih hu

/-- **A word without breaking characters** starts the text if it starts the escaped text. -/
theorem isPrefix {t e k word : Text} (h : Escapes t e) (hw : ∀ c ∈ word, breaks c = false)
    (hp : word <+: e ++ k) : word <+: t ++ k := by
  induction h generalizing word with
  | nil => exact hp
  | @keep c t e h ih =>
    rcases List.prefix_cons_iff.1 hp with rfl | ⟨word, rfl, hword⟩
    · exact List.nil_prefix
    · have hrest : ∀ x ∈ word, breaks x = false := fun x hx => hw x (List.mem_cons_of_mem _ hx)
      exact List.cons_prefix_cons.2 ⟨rfl, ih hrest hword⟩
  | @swap c d t e hd h ih =>
    rcases List.prefix_cons_iff.1 hp with rfl | ⟨word, rfl, -⟩
    · exact List.nil_prefix
    · rw [hw d List.mem_cons_self] at hd
      cases hd
  | @insert d t e hd h ih =>
    rcases List.prefix_cons_iff.1 hp with rfl | ⟨word, rfl, -⟩
    · exact List.nil_prefix
    · rw [hw d List.mem_cons_self] at hd
      cases hd

/-- What is added to nothing starts no host script. -/
theorem breaks_of_nil {e : Text} (h : Escapes [] e) : ∀ c ∈ e, breaks c = true := by
  generalize ht : ([] : Text) = t at h
  induction h with
  | nil => nofun
  | keep c h => cases ht
  | swap c hd h => cases ht
  | insert hd h ih =>
    intro c hc
    rcases List.mem_cons.1 hc with rfl | hc
    · exact hd
    · exact ih ht c hc

end Escapes

/-- No character of an opener breaks it. -/
theorem IsOpener.breaks_eq {word : Text} (h : IsOpener short word) {c : Char} (hc : c ∈ word) :
    breaks c = false := by
  obtain ⟨tail, rfl, htail⟩ := h.eq_cons
  rcases List.mem_cons.1 hc with rfl | hc
  · rfl
  rcases List.mem_cons.1 hc with rfl | hc
  · rfl
  · simp [breaks, htail c hc]

/-- **Escaping keeps a text sealed.** -/
theorem Sealed.of_escapes {t e : Text} (h : Sealed short t) (he : Escapes t e) :
    Sealed short e := by
  intro u hu hne k hf
  obtain ⟨s, hs, hsu⟩ := he.of_suffix hu
  obtain ⟨word, hw, hp⟩ := fires_iff.1 hf
  by_cases hempty : s = []
  · subst hempty
    obtain ⟨c, u, rfl⟩ := List.exists_cons_of_ne_nil hne
    obtain ⟨r, hr⟩ := hf.eq_cons
    obtain ⟨rfl, -⟩ := List.cons.inj hr
    cases hsu.breaks_of_nil '<' List.mem_cons_self
  · exact h s hs hempty k (fires_iff.2 ⟨word, hw, hsu.isPrefix (fun c => hw.breaks_eq) hp⟩)

end HostTag

end Stencil
