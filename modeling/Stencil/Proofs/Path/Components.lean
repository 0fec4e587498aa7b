import Stencil.Path

/-!
# Proofs/Path/Components — what a path says

    path ──segments──▸ texts between slashes ──components──▸ root · here · up · name …

The laws of paths as they are written: segments come apart as they were joined, joining a relative
path adds its components (`components_join`), and taking a leading path off leaves the components
behind it (`components_of_relativeTo?`).  Behind its start a path is steps: up, or a name.
-/

namespace Stencil

namespace Path

/-! ## Segments -/

theorem segments_ne_nil (p : Text) : segments p ≠ [] := by
  cases p with
  | nil => nofun
  | cons c t =>
    unfold segments
    split
    · nofun
    · split <;> nofun

/-- **A slash parts segments.** -/
theorem segments_append_slash (a b : Text) :
    segments (a ++ '/' :: b) = segments a ++ segments b := by
  induction a with
  | nil => rfl
  | cons c a ih =>
    rw [List.cons_append, segments, segments, ih]
    split
    · rfl
    · cases h : segments a with
      | nil => exact absurd h (segments_ne_nil a)
      | cons s rest => rfl

/-- A text without slashes is one segment. -/
theorem segments_eq_singleton {s : Text} (h : '/' ∉ s) : segments s = [s] := by
  induction s with
  | nil => rfl
  | cons c s ih =>
    rw [List.mem_cons, not_or] at h
    rw [segments, if_neg (Ne.symm h.1), ih h.2]

/-- No segment holds a slash. -/
theorem not_mem_of_mem_segments {p s : Text} (h : s ∈ segments p) : '/' ∉ s := by
  induction p generalizing s with
  | nil =>
    rw [List.mem_singleton.1 h]
    nofun
  | cons c p ih =>
    rw [segments] at h
    split at h
    · rcases List.mem_cons.1 h with rfl | h
      · nofun
      · exact ih h
    · next hc =>
      split at h
      · rw [List.mem_singleton.1 h]
        simpa using Ne.symm hc
      · next first rest hsegments =>
        rcases List.mem_cons.1 h with rfl | h
        · have hfirst : '/' ∉ first := ih (by rw [hsegments]; exact List.mem_cons_self)
          simp [hfirst, Ne.symm hc]
        · exact ih (by rw [hsegments]; exact List.mem_cons_of_mem _ h)

theorem joinSegments_cons_cons (s next : Text) (rest : List Text) :
    joinSegments (s :: next :: rest) = s ++ '/' :: joinSegments (next :: rest) := by
  rw [joinSegments, List.intercalate_cons_cons, List.append_assoc]
  rfl

/-- **Joined segments come apart again.** -/
theorem segments_joinSegments {l : List Text} (hne : l ≠ []) (h : ∀ s ∈ l, '/' ∉ s) :
    segments (joinSegments l) = l := by
  induction l with
  | nil => exact absurd rfl hne
  | cons s l ih =>
    have hs : '/' ∉ s := h s List.mem_cons_self
    cases l with
    | nil =>
      rw [joinSegments, List.intercalate_singleton]
      exact segments_eq_singleton hs
    | cons next rest =>
      rw [joinSegments_cons_cons, segments_append_slash, segments_eq_singleton hs,
        ih nofun fun t ht => h t (List.mem_cons_of_mem _ ht)]
      rfl

/-- What is put behind a path gets behind its last segment. -/
theorem segments_append_of_not_mem (t : Text) {ext : Text} (h : '/' ∉ ext) :
    ∃ front last, segments t = front ++ [last] ∧ segments (t ++ ext) = front ++ [last ++ ext] := by
  induction t with
  | nil => exact ⟨[], [], rfl, segments_eq_singleton h⟩
  | cons c t ih =>
    obtain ⟨front, last, hfront, hext⟩ := ih
    rw [List.cons_append, segments, segments, hext, hfront]
    split
    · exact ⟨[] :: front, last, rfl, rfl⟩
    · cases front with
      | nil => exact ⟨[], c :: last, rfl, rfl⟩
      | cons s front => exact ⟨(c :: s) :: front, last, rfl, rfl⟩

theorem joinSegments_segments (t : Text) : joinSegments (segments t) = t := by
  induction t with
  | nil => rfl
  | cons c t ih =>
    rw [segments]
    cases hsegments : segments t with
    | nil => exact absurd hsegments (segments_ne_nil t)
    | cons s rest =>
      rw [hsegments] at ih
      split
      · next hc => rw [joinSegments_cons_cons, ih, hc, List.nil_append]
      · rw [← ih]
        cases rest with
        | nil => simp [joinSegments, List.intercalate_singleton]
        | cons next rest => rw [joinSegments_cons_cons, joinSegments_cons_cons, List.cons_append]

/-! ## Components -/

/-- **A name of a file or a directory**: it has no slash, and says where it leads. -/
structure IsName (name : Text) : Prop where
  slash : '/' ∉ name
  silent : isSilent name = false
  up : name ≠ ['.', '.']

instance (name : Text) : Decidable (IsName name) :=
  decidable_of_iff ('/' ∉ name ∧ isSilent name = false ∧ name ≠ ['.', '.'])
    ⟨fun h => ⟨h.1, h.2.1, h.2.2⟩, fun h => ⟨h.slash, h.silent, h.up⟩⟩

theorem IsName.component {name : Text} (h : IsName name) : component name = .name name :=
  if_neg h.up

theorem bodyComponents_append (a b : List Text) :
    bodyComponents (a ++ b) = bodyComponents a ++ bodyComponents b := by
  simp [bodyComponents]

theorem bodyComponents_silent {s : Text} (h : isSilent s = true) (rest : List Text) :
    bodyComponents (s :: rest) = bodyComponents rest := by
  simp [bodyComponents, h]

theorem bodyComponents_cons {s : Text} (h : isSilent s = false) (rest : List Text) :
    bodyComponents (s :: rest) = component s :: bodyComponents rest := by
  simp [bodyComponents, h]

/-- The components of names are these names. -/
theorem bodyComponents_names {l : List Text} (h : ∀ s ∈ l, IsName s) :
    bodyComponents l = l.map .name := by
  induction l with
  | nil => rfl
  | cons s l ih =>
    have hs : IsName s := h s List.mem_cons_self
    rw [bodyComponents_cons hs.silent, hs.component, ih fun t ht => h t (List.mem_cons_of_mem _ ht)]
    rfl

/-- **A step behind the start of a path**: up, or a name. -/
def Component.IsStep : Component → Prop
  | up => True
  | name text => IsName text
  | _ => False

theorem isStep_of_mem_bodyComponents {l : List Text} (hslash : ∀ s ∈ l, '/' ∉ s) {c : Component}
    (h : c ∈ bodyComponents l) : c.IsStep := by
  obtain ⟨s, hmem, rfl⟩ := List.mem_map.1 h
  obtain ⟨hmem, hsilent⟩ := List.mem_filter.1 hmem
  unfold component
  split
  · trivial
  · next hup => exact ⟨hslash s hmem, by simpa using hsilent, hup⟩

/-- The text of a step is one segment, which says the step. -/
theorem Component.IsStep.segments_text {c : Component} (h : c.IsStep) :
    isAbsolute c.text = false ∧ bodyComponents (segments c.text) = [c] := by
  cases c with
  | root => cases h
  | here => cases h
  | up => exact ⟨rfl, rfl⟩
  | name text =>
    have hname : IsName text := h
    refine ⟨?_, ?_⟩
    · refine Bool.eq_false_iff.2 fun habs => ?_
      obtain ⟨rest, rfl⟩ := List.head?_eq_some_iff.1 (beq_iff_eq.1 habs)
      exact hname.slash List.mem_cons_self
    · change bodyComponents (segments text) = [.name text]
      rw [segments_eq_singleton hname.slash, bodyComponents_cons hname.silent, hname.component]
      rfl

theorem lead_snd_subset (p : Text) : (lead p).2 ⊆ segments p := by
  unfold lead
  split
  · rw [segments, if_pos rfl]
    exact List.subset_cons_self _ _
  · split
    · next hdot =>
      rw [hdot]
      exact List.subset_cons_self _ _
    · exact List.Subset.refl _

/-- **A path is steps**, behind the root, a dot or nothing. -/
theorem components_cases (p : Text) :
    ∃ steps, (∀ c ∈ steps, c.IsStep) ∧
      (components p = steps ∨ components p = .root :: steps ∨ components p = .here :: steps) := by
  refine ⟨bodyComponents (lead p).2, fun c hc => isStep_of_mem_bodyComponents
    (fun s hs => not_mem_of_mem_segments (lead_snd_subset p hs)) hc, ?_⟩
  unfold components lead
  split
  · exact .inr (.inl rfl)
  · split
    · exact .inr (.inr rfl)
    · exact .inl rfl

theorem isName_of_mem_components {p n : Text} (h : .name n ∈ components p) : IsName n := by
  obtain ⟨steps, hsteps, hp | hp | hp⟩ := components_cases p <;> rw [hp] at h
  · exact hsteps _ h
  · exact hsteps _ ((List.mem_cons.1 h).resolve_left nofun)
  · exact hsteps _ ((List.mem_cons.1 h).resolve_left nofun)

/-! ## Joining -/

theorem components_absolute (p : Text) :
    components ('/' :: p) = .root :: bodyComponents (segments p) := rfl

/-- A relative path says what its segments say, and a dot in front. -/
theorem components_relative {p : Text} (h : isAbsolute p = false) :
    components p =
      (if (segments p).head? = some ['.'] then [.here] else []) ++ bodyComponents (segments p) := by
  unfold components lead
  split
  · cases h
  · split
    · next hdot =>
      rw [hdot, if_pos List.head?_cons, bodyComponents_silent rfl]
      rfl
    · next hdot =>
      rw [if_neg]
      · rfl
      · intro hhead
        obtain ⟨rest, hrest⟩ := List.head?_eq_some_iff.1 hhead
        exact hdot rest hrest

theorem bodyComponents_segments_join {p : Text} (h : isAbsolute p = false) (dir : Text) :
    bodyComponents (segments (join dir p)) =
      bodyComponents (segments dir) ++ bodyComponents (segments p) := by
  unfold join
  rw [if_neg (by simp [h])]
  split
  · next hend =>
    rcases hend with hempty | hlast
    · rw [List.isEmpty_iff.1 hempty]
      rfl
    · obtain ⟨front, rfl⟩ := List.getLast?_eq_some_iff.1 hlast
      rw [List.append_assoc, List.singleton_append, segments_append_slash, segments_append_slash,
        bodyComponents_append, bodyComponents_append]
      simp [segments, bodyComponents, isSilent]
  · rw [segments_append_slash, bodyComponents_append]

theorem join_absolute_dir {p : Text} (h : isAbsolute p = false) (dir : Text) :
    join ('/' :: dir) p = '/' :: join dir p := by
  simp only [join, h, Bool.false_eq_true, if_false]
  cases dir with
  | nil => rfl
  | cons c dir =>
    simp only [List.isEmpty_cons, List.getLast?_cons_cons, List.cons_append, Bool.false_eq_true,
      false_or]
    split <;> rfl

theorem isAbsolute_join {dir p : Text} (h : isAbsolute p = false) (hd : isAbsolute dir = false) :
    isAbsolute (join dir p) = false := by
  unfold join
  rw [if_neg (by simp [h])]
  cases dir with
  | nil => simpa using h
  | cons c dir => split <;> exact hd

/-- **Joining a relative path adds its components**; what it starts with is up to the directory. -/
theorem components_join {dir p : Text} (hne : dir ≠ []) (h : isAbsolute p = false) :
    components (join dir p) = components dir ++ bodyComponents (segments p) := by
  cases hd : isAbsolute dir with
  | true =>
    obtain ⟨rest, rfl⟩ := List.head?_eq_some_iff.1 (beq_iff_eq.1 hd)
    rw [join_absolute_dir h, components_absolute, components_absolute,
      bodyComponents_segments_join h, List.cons_append]
  | false =>
    have hhead : (segments (join dir p)).head? = (segments dir).head? := by
      have hslash : ∀ a b, (segments (a ++ '/' :: b)).head? = (segments a).head? := by
        intro a b
        rw [segments_append_slash, List.head?_append]
        cases hsegments : segments a with
        | nil => exact absurd hsegments (segments_ne_nil a)
        | cons => rfl
      unfold join
      rw [if_neg (by simp [h])]
      split
      · next hend =>
        rcases hend with hempty | hlast
        · exact absurd (List.isEmpty_iff.1 hempty) hne
        · obtain ⟨front, rfl⟩ := List.getLast?_eq_some_iff.1 hlast
          rw [List.append_assoc, List.singleton_append, hslash, hslash]
      · exact hslash dir p
    rw [components_relative (isAbsolute_join h hd), components_relative hd, hhead,
      bodyComponents_segments_join h, List.append_assoc]

/-! ## Taking a leading path off -/

theorem bodyComponents_dropWhile (segments : List Text) :
    bodyComponents (segments.dropWhile isSilent) = bodyComponents segments := by
  induction segments with
  | nil => rfl
  | cons s rest ih =>
    cases hs : isSilent s with
    | true => rw [List.dropWhile_cons_of_pos hs, ih, bodyComponents_silent hs]
    | false => rw [List.dropWhile_cons_of_neg (by simp [hs])]

theorem bodyComponents_trimSegmentsEnd (segments : List Text) :
    bodyComponents (trimSegmentsEnd segments) = bodyComponents segments := by
  have hreverse : ∀ l : List Text, bodyComponents l.reverse = (bodyComponents l).reverse := by
    intro l
    simp [bodyComponents]
  rw [trimSegmentsEnd, hreverse, bodyComponents_dropWhile, ← hreverse, List.reverse_reverse]

theorem isSilent_getLast?_trimSegmentsEnd {l : List Text} {s : Text}
    (h : (trimSegmentsEnd l).getLast? = some s) : isSilent s = false := by
  unfold trimSegmentsEnd at h
  rw [List.getLast?_reverse] at h
  have := List.head?_dropWhile_not isSilent l.reverse
  rw [h] at this
  exact this

/-- The last segment that is left says the last component. -/
theorem bodyComponents_dropLast_trimSegmentsEnd (segments : List Text) :
    bodyComponents (trimSegmentsEnd segments).dropLast = (bodyComponents segments).dropLast := by
  rw [← bodyComponents_trimSegmentsEnd segments]
  cases hlast : (trimSegmentsEnd segments).getLast? with
  | none => rw [List.getLast?_eq_none_iff.1 hlast]; rfl
  | some s =>
    obtain ⟨front, hfront⟩ := List.getLast?_eq_some_iff.1 hlast
    rw [hfront, List.dropLast_concat, bodyComponents_append,
      bodyComponents_cons (isSilent_getLast?_trimSegmentsEnd hlast)]
    exact List.dropLast_concat.symm

theorem bodyComponents_of_dropComponents {cs : List Component} {segments rest : List Text}
    (h : dropComponents cs segments = some rest) :
    bodyComponents segments = cs ++ bodyComponents rest := by
  induction cs generalizing segments with
  | nil => rw [Option.some.inj h, List.nil_append]
  | cons c cs ih =>
    rw [dropComponents] at h
    split at h
    · cases h
    next s others hdrop =>
    split at h
    · next hc =>
      have hs : isSilent s = false := by
        have := List.head?_dropWhile_not isSilent segments
        rw [hdrop] at this
        simpa using this
      rw [← bodyComponents_dropWhile, hdrop, bodyComponents_cons hs, hc, ih h, List.cons_append]
    · cases h

theorem dropComponents_suffix {cs : List Component} {segments rest : List Text}
    (h : dropComponents cs segments = some rest) : rest <:+ segments := by
  induction cs generalizing segments with
  | nil =>
    obtain rfl : segments = rest := Option.some.inj h
    exact List.suffix_refl _
  | cons c cs ih =>
    rw [dropComponents] at h
    split at h
    · cases h
    next s others hdrop =>
    split at h
    · refine (ih h).trans (List.IsSuffix.trans ?_ (List.dropWhile_suffix isSilent))
      rw [hdrop]
      exact List.suffix_cons _ _
    · cases h

/-- The components of segments that say something from the start on. -/
theorem components_joinSegments {l : List Text} (hslash : ∀ s ∈ l, '/' ∉ s)
    (hfirst : ∀ s, l.head? = some s → isSilent s = false) :
    components (joinSegments l) = bodyComponents l := by
  cases l with
  | nil => rfl
  | cons s l =>
    have hs := hfirst s rfl
    have hsegments := segments_joinSegments (l := s :: l) nofun hslash
    have hhead : ∀ rest, joinSegments (s :: l) ≠ '/' :: rest := by
      intro rest hrest
      rw [hrest, segments, if_pos rfl] at hsegments
      rw [← (List.cons.inj hsegments).1] at hs
      cases hs
    unfold components lead
    split
    · next rest hrest => exact absurd hrest (hhead rest)
    · rw [hsegments]
      split
      · next hdot =>
        rw [(List.cons.inj hdot).1] at hs
        cases hs
      · rfl

/-- A path that is not empty says something. -/
theorem components_ne_nil {p : Text} (h : p ≠ []) : components p ≠ [] := by
  intro hnil
  unfold components lead at hnil
  split at hnil
  · cases hnil
  · next hroot =>
    split at hnil
    · cases hnil
    · next hdot =>
      -- The first segment holds the first character, and is no single dot.
      obtain ⟨c, t, rfl⟩ := List.exists_cons_of_ne_nil h
      have hc : c ≠ '/' := fun hc => hroot t (by rw [hc])
      obtain ⟨s, rest, hsegments⟩ : ∃ s rest, segments (c :: t) = (c :: s) :: rest := by
        rw [segments, if_neg hc]
        split
        · exact ⟨[], [], rfl⟩
        · next s rest _ => exact ⟨s, rest, rfl⟩
      have hs : isSilent (c :: s) = false := by
        refine Bool.eq_false_iff.2 fun hsilent => ?_
        obtain ⟨rfl, rfl⟩ : c = '.' ∧ s = [] := by simpa [isSilent] using hsilent
        exact hdot rest hsegments
      rw [hsegments, bodyComponents_cons hs] at hnil
      cases hnil

/-- **What is left behind a leading path**: the other components, which are steps. -/
theorem components_of_relativeTo? {base p rest : Text} (hb : base ≠ [])
    (h : relativeTo? base p = some rest) :
    components p = components base ++ components rest ∧
      ∀ c ∈ components rest, c.IsStep := by
  unfold relativeTo? at h
  rw [if_neg (by simpa using components_ne_nil hb)] at h
  split at h
  · next hlead =>
    obtain ⟨left, hdrop, rfl⟩ := Option.map_eq_some_iff.1 h
    have htrimmed : trimSegmentsEnd (left.dropWhile isSilent) <+: left.dropWhile isSilent := by
      unfold trimSegmentsEnd
      rw [← List.reverse_suffix, List.reverse_reverse]
      exact List.dropWhile_suffix _
    have hslash : ∀ s ∈ trimSegmentsEnd (left.dropWhile isSilent), '/' ∉ s := fun s hs =>
      not_mem_of_mem_segments (lead_snd_subset p ((dropComponents_suffix hdrop).subset
        ((List.dropWhile_suffix _).subset (htrimmed.subset hs))))
    have hfirst : ∀ s, (trimSegmentsEnd (left.dropWhile isSilent)).head? = some s →
        isSilent s = false := by
      intro s hs
      obtain ⟨back, hback⟩ := List.head?_eq_some_iff.1 hs
      obtain ⟨more, hmore⟩ := htrimmed
      have := List.head?_dropWhile_not isSilent left
      rw [← hmore, hback] at this
      simpa using this
    have hcomponents := components_joinSegments hslash hfirst
    refine ⟨?_, ?_⟩
    · rw [hcomponents, bodyComponents_trimSegmentsEnd, bodyComponents_dropWhile, components,
        components, hlead, bodyComponents_of_dropComponents hdrop, List.append_assoc]
    · intro c hc
      rw [hcomponents] at hc
      exact isStep_of_mem_bodyComponents hslash hc
  · cases h

/-- What a path starts with on its own is the first thing that it says. -/
theorem lead_fst_eq (p : Text) :
    (lead p).1 = (components p).head?.filter fun c => c == .root || c == .here := by
  have hbody : ∀ l : List Text,
      (bodyComponents l).head?.filter (fun c => c == .root || c == .here) = none := by
    intro l
    refine Option.filter_eq_none_iff.2 fun c hc => ?_
    obtain ⟨s, -, rfl⟩ := List.mem_map.1 (List.mem_of_mem_head? hc)
    unfold component
    split <;> simp
  unfold components
  cases hlead : (lead p).1 with
  | none => exact (hbody _).symm
  | some c =>
    have hc : c = .root ∨ c = .here := by
      unfold lead at hlead
      split at hlead
      · exact .inl (Option.some.inj hlead).symm
      · split at hlead
        · exact .inr (Option.some.inj hlead).symm
        · cases hlead
    rcases hc with rfl | rfl <;> rfl

theorem dropComponents_of_bodyComponents {cs more : List Component} {segments : List Text}
    (h : bodyComponents segments = cs ++ more) : ∃ rest, dropComponents cs segments = some rest := by
  induction cs generalizing segments with
  | nil => exact ⟨segments, rfl⟩
  | cons c cs ih =>
    rw [← bodyComponents_dropWhile] at h
    rw [dropComponents]
    split
    · next hdrop =>
      rw [hdrop] at h
      cases h
    · next s others hdrop =>
      have hs : isSilent s = false := by
        have := List.head?_dropWhile_not isSilent segments
        rw [hdrop] at this
        simpa using this
      rw [hdrop, bodyComponents_cons hs, List.cons_append] at h
      rw [if_pos (List.cons.inj h).1]
      exact ih (List.cons.inj h).2

/-- **A path behind a directory is one without it.** -/
theorem relativeTo?_join {dir p : Text} (hne : dir ≠ []) (h : isAbsolute p = false) :
    ∃ rest, relativeTo? dir (join dir p) = some rest := by
  have hcomponents := components_join hne h
  have hlead : (lead dir).1 = (lead (join dir p)).1 := by
    obtain ⟨c, cs, hcs⟩ := List.exists_cons_of_ne_nil (components_ne_nil hne)
    rw [lead_fst_eq, lead_fst_eq, hcomponents, hcs]
    rfl
  have hbody : bodyComponents (lead (join dir p)).2 =
      bodyComponents (lead dir).2 ++ bodyComponents (segments p) := by
    rw [components, components, ← hlead, List.append_assoc] at hcomponents
    exact List.append_cancel_left hcomponents
  obtain ⟨rest, hrest⟩ := dropComponents_of_bodyComponents hbody
  unfold relativeTo?
  rw [if_neg (by simpa using components_ne_nil hne), if_pos hlead, hrest]
  exact ⟨_, rfl⟩

/-! ## Plain paths -/

/-- **A plain path**: names with slashes between them. -/
structure Plain where
  text : Text
  names : ∀ s ∈ segments text, IsName s

namespace Plain

theorem isAbsolute (p : Plain) : isAbsolute p.text = false := by
  refine Bool.eq_false_iff.2 fun habs => ?_
  obtain ⟨rest, hrest⟩ := List.head?_eq_some_iff.1 (beq_iff_eq.1 habs)
  have hempty := p.names [] (by rw [hrest, segments, if_pos rfl]; exact List.mem_cons_self)
  cases hempty.silent

theorem bodyComponents (p : Plain) :
    bodyComponents (segments p.text) = (segments p.text).map .name :=
  bodyComponents_names p.names

end Plain

end Path

end Stencil
