import Stencil.Engine
import Stencil.Proofs.Disk.Discovery

/-!
# Proofs/Path/Relative — templates by their paths

    template ──relative──▸ path below the root ──templatePath──▸ the same components

A template may be given with the template root in front or without it.  A root that is there comes
off by components, what is left is joined to the root as a text, and the result says what was given
(`templatePath_relative`).  So a path below the root is taken for one that starts with the root if
its own names do: a template that is found under such a path is not the one that the path stands for
(`relative_template_iff`).
-/

namespace Stencil

namespace Path

/-! ## Ends of a path -/

/-- Joined segments say what the segments say. -/
theorem bodyComponents_segments_joinSegments {l : List Text} (h : ∀ s ∈ l, '/' ∉ s) :
    bodyComponents (segments (joinSegments l)) = bodyComponents l := by
  cases l with
  | nil => rfl
  | cons s l => rw [segments_joinSegments (List.cons_ne_nil s l) h]

theorem prefix_trimSegmentsEnd (l : List Text) : trimSegmentsEnd l <+: l := by
  unfold trimSegmentsEnd
  rw [← List.reverse_suffix, List.reverse_reverse]
  exact List.dropWhile_suffix _

/-- The first segment of a path that starts with neither a slash nor a dot of its own says
something. -/
theorem isSilent_head?_segments {p : Text} (habs : isAbsolute p = false) (hne : p ≠ [])
    (hdot : (segments p).head? ≠ some ['.']) {s : Text} (h : (segments p).head? = some s) :
    isSilent s = false := by
  obtain ⟨c, t, rfl⟩ := List.exists_cons_of_ne_nil hne
  have hc : c ≠ '/' := by
    rintro rfl
    cases habs
  have hempty : s ≠ [] := by
    rintro rfl
    rw [segments, if_neg hc] at h
    split at h <;> cases h
  have hother : s ≠ ['.'] := by
    rintro rfl
    exact hdot h
  simpa [isSilent] using ⟨hempty, hother⟩

/-- What a path says that starts at the root or with a dot. -/
theorem components_of_lead {p : Text} {c : Component} (h : (lead p).1 = some c) :
    (c = .root ∨ c = .here) ∧ components p = c :: bodyComponents (lead p).2 := by
  refine ⟨?_, by rw [components, h]; rfl⟩
  rw [lead_fst_eq] at h
  simpa using (Option.filter_eq_some_iff.1 h).2

/-- What a path consists of that starts neither at the root nor with a dot. -/
theorem segments_of_lead {p : Text} (h : (lead p).1 = none) :
    isAbsolute p = false ∧ (segments p).head? ≠ some ['.'] ∧ (lead p).2 = segments p := by
  have habs : isAbsolute p = false := by
    refine Bool.eq_false_iff.2 fun habs => ?_
    obtain ⟨rest, rfl⟩ := List.head?_eq_some_iff.1 (beq_iff_eq.1 habs)
    cases h
  have hdot : (segments p).head? ≠ some ['.'] := by
    intro hhead
    rw [lead_fst_eq, components_relative habs, if_pos hhead] at h
    cases h
  refine ⟨habs, hdot, ?_⟩
  unfold lead
  split
  · cases habs
  · split
    · next hhead => exact absurd (by rw [hhead]; rfl) hdot
    · rfl

/-- **Silent segments at the end of a path say nothing.** -/
theorem components_trimEnd (p : Text) : components (trimEnd p) = components p := by
  have hslash : ∀ s ∈ trimSegmentsEnd (lead p).2, '/' ∉ s := fun s hs =>
    not_mem_of_mem_segments (lead_snd_subset p ((prefix_trimSegmentsEnd _).subset hs))
  unfold trimEnd
  cases hlead : (lead p).1 with
  | none =>
    obtain ⟨habs, hdot, hsnd⟩ := segments_of_lead hlead
    rw [hsnd] at hslash ⊢
    have hfirst : ∀ s, (trimSegmentsEnd (segments p)).head? = some s → isSilent s = false := by
      intro s hs
      obtain ⟨back, hback⟩ := List.head?_eq_some_iff.1 hs
      obtain ⟨more, hmore⟩ := prefix_trimSegmentsEnd (segments p)
      refine isSilent_head?_segments habs ?_ hdot (by rw [← hmore, hback]; rfl)
      rintro rfl
      cases hs
    rw [components_joinSegments hslash hfirst, bodyComponents_trimSegmentsEnd,
      components_relative habs, if_neg hdot, List.nil_append]
  | some c =>
    obtain ⟨hc, hcomponents⟩ := components_of_lead hlead
    rw [hcomponents, ← bodyComponents_trimSegmentsEnd]
    rcases hc with rfl | rfl
    · change components ('/' :: joinSegments _) = _
      rw [components_absolute, bodyComponents_segments_joinSegments hslash]
    · dsimp only
      split
      · next hempty => rw [List.isEmpty_iff.1 hempty]; rfl
      · have hsegments : segments ('.' :: '/' :: joinSegments (trimSegmentsEnd (lead p).2)) =
            ['.'] :: segments (joinSegments (trimSegmentsEnd (lead p).2)) :=
          segments_append_slash ['.'] _
        rw [components_relative rfl, hsegments, if_pos List.head?_cons,
          bodyComponents_silent rfl, bodyComponents_segments_joinSegments hslash]
        rfl

/-! ## Leading paths -/

/-- **A path comes off another one** exactly if its components lead. -/
theorem isSome_relativeTo?_iff (base p : Text) :
    (relativeTo? base p).isSome = true ↔ components base <+: components p := by
  by_cases hbase : base = []
  · subst hbase
    exact iff_of_true rfl List.nil_prefix
  constructor
  · intro h
    obtain ⟨rest, hrest⟩ := Option.isSome_iff_exists.1 h
    exact ⟨components rest, (components_of_relativeTo? hbase hrest).1.symm⟩
  · rintro ⟨more, hmore⟩
    have hlead : (lead base).1 = (lead p).1 := by
      obtain ⟨c, cs, hcs⟩ := List.exists_cons_of_ne_nil (components_ne_nil hbase)
      rw [lead_fst_eq, lead_fst_eq, ← hmore, hcs]
      rfl
    have hbody : bodyComponents (lead p).2 = bodyComponents (lead base).2 ++ more := by
      rw [components, components, ← hlead, List.append_assoc] at hmore
      exact (List.append_cancel_left hmore).symm
    obtain ⟨rest, hrest⟩ := dropComponents_of_bodyComponents hbody
    unfold relativeTo?
    rw [if_neg (by simpa using components_ne_nil hbase), if_pos hlead, hrest]
    rfl

theorem relativeTo?_eq_none_iff (base p : Text) :
    relativeTo? base p = none ↔ ¬ components base <+: components p := by
  rw [← isSome_relativeTo?_iff, Bool.not_eq_true, Option.isSome_eq_false_iff, Option.isNone_iff_eq_none]

/-- A path of steps does not start at the root, and its segments say all of it. -/
theorem relative_of_isStep {p : Text} (h : ∀ c ∈ components p, c.IsStep) :
    isAbsolute p = false ∧ bodyComponents (segments p) = components p := by
  have habs : isAbsolute p = false := by
    refine Bool.eq_false_iff.2 fun habs => ?_
    obtain ⟨rest, rfl⟩ := List.head?_eq_some_iff.1 (beq_iff_eq.1 habs)
    exact h .root (by rw [components_absolute]; exact List.mem_cons_self)
  refine ⟨habs, ?_⟩
  have hcomponents := components_relative habs
  split at hcomponents
  · exact (h .here (by rw [hcomponents]; exact List.mem_cons_self)).elim
  · exact hcomponents.symm

/-- **What came off joins again**: the components are those of the whole path. -/
theorem components_join_relativeTo? {base p rest : Text} (h : relativeTo? base p = some rest) :
    components (join base rest) = components p := by
  by_cases hbase : base = []
  · subst hbase
    obtain rfl : trimEnd p = rest := Option.some.inj h
    have hjoin : join [] (trimEnd p) = trimEnd p := by
      unfold join
      split
      · rfl
      · exact if_pos (.inl rfl)
    rw [hjoin, components_trimEnd]
  · obtain ⟨hcomponents, hsteps⟩ := components_of_relativeTo? hbase h
    obtain ⟨habs, hbody⟩ := relative_of_isStep hsteps
    rw [components_join hbase habs, hbody, hcomponents]

/-- Relative paths stay apart behind a directory. -/
theorem join_inj {dir p q : Text} (hp : isAbsolute p = false) (hq : isAbsolute q = false)
    (h : join dir p = join dir q) : p = q := by
  simp only [join, hp, hq, Bool.false_eq_true, if_false] at h
  split at h
  · exact List.append_cancel_left h
  · exact (List.cons.inj (List.append_cancel_left h)).2

end Path

open Stencil.Path

namespace Engine

/-! ## Templates given by a path -/

/-- **A template is the same with and without the root**: a path whose components start with those
of the template root loses them and gets them back, and any other path is taken as it is. -/
theorem templatePath_relative (e : Engine) (template : Text) :
    (components e.config.templateRoot <+: components template →
      components (e.templatePath (e.relative template)) = components template) ∧
    (¬ components e.config.templateRoot <+: components template →
      e.relative template = template) := by
  constructor
  · intro hleads
    obtain ⟨rest, hrest⟩ := Option.isSome_iff_exists.1 ((isSome_relativeTo?_iff _ _).2 hleads)
    have hrelative : e.relative template = rest := by rw [relative, hrest]; rfl
    rw [templatePath, hrelative]
    exact components_join_relativeTo? hrest
  · intro hother
    rw [relative, (relativeTo?_eq_none_iff _ _).2 hother]
    rfl

/-- An engine whose template root is not spelled in the shortest way. -/
def dotted : Engine := ⟨{ Config.standard with templateRoot := "/srv//views/./" }⟩

theorem templatePath_relative_dotted :
    (components "/srv//views/./" <+: components "//srv/views/../views//shop/./x/" →
      components (dotted.templatePath (dotted.relative "//srv/views/../views//shop/./x/")) =
        components "//srv/views/../views//shop/./x/") ∧
    components "/srv//views/./" <+: components "//srv/views/../views//shop/./x/" ∧
    dotted.relative "srv/views/x" = "srv/views/x" :=
  ⟨(templatePath_relative dotted "//srv/views/../views//shop/./x/").1, by decide,
    (templatePath_relative dotted "srv/views/x").2 (by decide)⟩

/-! ## Templates that are found -/

/-- **The names of a template start with those of the root**, so that it seems to be given with the
root in front. -/
def Repeats (e : Engine) (template : Text) : Prop :=
  components e.config.templateRoot <+: components template

instance (e : Engine) (template : Text) : Decidable (e.Repeats template) :=
  inferInstanceAs (Decidable (_ <+: _))

section Found

variable {e : Engine} {d : Disk} {template : Text}

/-- What is found lies below a root that is there, and is names only. -/
theorem names_of_mem_templates (hnamed : d.Named) (h : template ∈ e.templates d) :
    e.config.templateRoot ≠ [] ∧ isAbsolute template = false ∧
      ∃ names : List Text, components template = names.map .name := by
  obtain ⟨names, hnames, rfl⟩ := List.mem_map.1 h
  refine ⟨?_, ?_, names, Disk.components_of_mem_filesBelow hnamed hnames⟩
  · obtain ⟨_, _, -, hmeets, -⟩ := Disk.mem_filesBelow.1 hnames
    exact Disk.ne_nil_of_isDir hmeets.walked.root_isDir
  · obtain ⟨plain, hplain⟩ := plain_of_mem_templates hnamed h
    exact hplain ▸ plain.isAbsolute

/-- **A template is taken for another one** if its names repeat those of the root. -/
theorem relative_ne_of_repeats (hroot : e.config.templateRoot ≠ []) (h : e.Repeats template) :
    e.relative template ≠ template := by
  obtain ⟨rest, hrest⟩ := Option.isSome_iff_exists.1 ((isSome_relativeTo?_iff _ _).2 h)
  intro heq
  rw [relative, hrest] at heq
  obtain rfl : rest = template := heq
  have hcomponents := (components_of_relativeTo? hroot hrest).1
  exact components_ne_nil hroot (List.self_eq_append_left.1 hcomponents)

/-- What is left of a template is relative, as the template is. -/
theorem isAbsolute_relative (hroot : e.config.templateRoot ≠ []) (h : isAbsolute template = false) :
    isAbsolute (e.relative template) = false := by
  rw [relative]
  cases hrest : relativeTo? e.config.templateRoot template with
  | none => exact h
  | some rest => exact (relative_of_isStep (components_of_relativeTo? hroot hrest).2).1

/-- What is put behind a name does not make a path absolute. -/
theorem isAbsolute_append_extension {p : Text} (h : isAbsolute p = false) :
    isAbsolute (p ++ Store.extension) = false := by
  cases p with
  | nil => rfl
  | cons c t => exact h

end Found

/-- **A template that is found is named by its path** exactly if its names do not repeat those of the
root: then it is the same relative to the root, and so are the paths of the template and of the
artifact that the commands `compile` and `check` go to.  Otherwise the path is taken for the whole
path of a template; this happens under roots only that are names themselves. -/
theorem relative_template_iff {e : Engine} {d : Disk} {template : Text} (hnamed : d.Named)
    (h : template ∈ e.templates d) :
    (e.relative template = template ↔ ¬ e.Repeats template) ∧
    (e.templatePath (e.relative template) = e.templatePath template ↔ ¬ e.Repeats template) ∧
    (e.artifactPath (e.relative template) = e.artifactPath template ↔ ¬ e.Repeats template) ∧
    (e.Repeats template →
      components (e.templatePath (e.relative template)) = components template ∧
        ∃ names : List Text, components e.config.templateRoot = names.map .name) := by
  obtain ⟨hroot, habs, names, hnames⟩ := names_of_mem_templates hnamed h
  have hrelative : e.relative template = template ↔ ¬ e.Repeats template :=
    ⟨fun heq hrepeats => relative_ne_of_repeats hroot hrepeats heq,
      (templatePath_relative e template).2⟩
  have hrelabs := isAbsolute_relative hroot habs
  refine ⟨hrelative, ?_, ?_, fun hrepeats => ?_⟩
  · rw [← hrelative]
    exact ⟨join_inj hrelabs habs, congrArg e.templatePath⟩
  · rw [← hrelative]
    refine ⟨fun hartifact => ?_, congrArg e.artifactPath⟩
    have hextension := join_inj (isAbsolute_append_extension hrelabs)
      (isAbsolute_append_extension habs) hartifact
    exact List.append_cancel_right hextension
  · refine ⟨(templatePath_relative e template).1 hrepeats, ?_⟩
    obtain ⟨more, hmore⟩ := hrepeats
    rw [hnames] at hmore
    obtain ⟨front, back, -, hfront, -⟩ := List.append_eq_map_iff.1 hmore
    exact ⟨front, hfront.symm⟩

end Engine

/-- Templates in a directory that has the name of the template root, and in the root itself. -/
def Disk.echoing : Disk where
  entries := [([], .dir 0 0o755), (["templates"], .dir 0 0o755),
    (["templates", "a"], .file [] 0 0o644), (["templates", "templates"], .dir 0 0o755),
    (["templates", "templates", "x"], .file [] 0 0o644)]
  here := []
  now := 0

namespace Engine

theorem templates_echoing : (Engine.mk .standard).templates .echoing =
    (["a", "templates/x"] : List Text) :=
  templates_of_sorted ["templates"] [["a"], ["templates", "x"]]
    (by with_unfolding_all rfl) (by decide +kernel) (by decide +kernel)

theorem relative_template_iff_echoing :
    Disk.echoing.Named ∧
      "a".toList ∈ (Engine.mk .standard).templates .echoing ∧
      (Engine.mk .standard).relative "a" = "a" ∧
      "templates/x".toList ∈ (Engine.mk .standard).templates .echoing ∧
      components ((Engine.mk .standard).templatePath ((Engine.mk .standard).relative "templates/x")) =
        components "templates/x" := by
  have hnamed : Disk.echoing.Named := by decide +kernel
  have hplain : "a".toList ∈ (Engine.mk .standard).templates .echoing :=
    templates_echoing ▸ by decide
  have hrepeats : "templates/x".toList ∈ (Engine.mk .standard).templates .echoing :=
    templates_echoing ▸ by decide
  exact ⟨hnamed, hplain, (relative_template_iff hnamed hplain).1.2 (by decide), hrepeats,
    ((relative_template_iff hnamed hrepeats).2.2.2 (by decide)).1⟩

/-- **A template below a directory that has the name of the root** is not the one that its path is
taken for. -/
theorem relative_template_repeats :
    ¬ ∀ (e : Engine) (d : Disk), d.Named → ∀ template ∈ e.templates d,
      e.relative template = template := by
  intro hsame
  have hmem : "templates/x".toList ∈ (Engine.mk .standard).templates .echoing :=
    templates_echoing ▸ by decide
  have hrelative : (Engine.mk .standard).relative "templates/x" = "x" := by decide
  have hx := hsame (Engine.mk .standard) .echoing (by decide +kernel) _ hmem
  rw [hrelative] at hx
  exact absurd hx (by decide)

end Engine

end Stencil
