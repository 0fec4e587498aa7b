import Mathlib.Data.List.Nodup
import Stencil.Proofs.Artifact.Later

/-!
# Proofs/Artifact/Clash — templates whose artifacts are in each other's way

    a      ──▸ a.php
    a.php/b ──▸ a.php/b.php      a file and a directory of one name

The templates of a project are found once each (`nodup_templates`), and each has an artifact of
its own.  Still two artifacts may clash: one lies below the place of the other (`Nests`), or one
needs a directory in which the name of the other is too long (`Crowds`).  Whatever hinders a
template on a disk that has grown is a clash with a template that was taken (`hindered_by`).
-/

namespace Stencil

open Stencil.Path

/-! ## Every template once -/

/-- **A proper disk**: its places are made of names, and each has one entry. -/
structure Disk.Proper (d : Disk) : Prop where
  named : d.Named
  single : (d.entries.map Prod.fst).Nodup

theorem Disk.proper_iff {d : Disk} :
    d.Proper ↔ d.Named ∧ (d.entries.map Prod.fst).Nodup :=
  ⟨fun h => ⟨h.named, h.single⟩, fun h => ⟨h.1, h.2⟩⟩

instance (d : Disk) : Decidable d.Proper := decidable_of_iff _ Disk.proper_iff.symm

/-- What lies below a place has names of its own. -/
theorem Disk.Proper.nodup_namesBelow {d : Disk} (h : d.Proper) (root : Place) :
    (d.namesBelow root).Nodup := by
  have hview : d.namesBelow root = (d.entries.map Prod.fst).filterMap fun place =>
      (below? root place).filter fun names => !names.isEmpty := by
    rw [List.filterMap_map]
    rfl
  rw [hview]
  refine h.single.filterMap fun place other names hplace hother => ?_
  rw [Option.mem_def, Option.filter_eq_some_iff, below?_eq_some_iff] at hplace hother
  exact hplace.1.trans hother.1.symm

theorem Disk.Proper.nodup_filesBelow {d : Disk} (h : d.Proper) (p : Text) :
    (d.filesBelow p).Nodup := by
  unfold Disk.filesBelow
  split
  · exact List.nodup_nil
  · exact (List.mergeSort_perm _ _).nodup_iff.2 ((h.nodup_namesBelow _).filter _)

namespace Engine

/-- **Every template is found once.** -/
theorem nodup_templates {d : Disk} (e : Engine) (h : d.Proper) : (e.templates d).Nodup := by
  have hsegments : ∀ names ∈ d.filesBelow e.config.templateRoot,
      segments (joinSegments names) = names := by
    intro names hnames
    obtain ⟨hne, hall⟩ := isName_of_mem_filesBelow h.named hnames
    exact segments_joinSegments hne fun s hs => (hall s hs).slash
  refine (h.nodup_filesBelow _).map_on fun names hnames other hother hjoin => ?_
  rw [← hsegments names hnames, hjoin, hsegments other hother]

/-- Files that come in order are the templates in order. -/
theorem templates_of_sorted {e : Engine} {d : Disk} (root : Place) (files : List (List Text))
    (hroot : d.locate e.config.templateRoot = .ok root)
    (hfiles : (d.namesBelow root).filter (d.isFound e.config.templateRoot) = files)
    (hsorted : files.Pairwise fun a b => (!decide (b < a)) = true) :
    e.templates d = files.map joinSegments := by
  unfold templates Disk.filesBelow
  rw [hroot]
  dsimp only
  rw [hfiles, List.mergeSort_of_pairwise hsorted]

end Engine

/-! ## Clashes -/

/-- What is new below a missing place has names of a size that a disk can hold. -/
theorem Store.Grows.size_le {s : Store} {artifacts : Place → Prop} {d d' : Disk}
    {place inner : Place} {n : Text} (h : s.Grows artifacts d d') (hrooted : d.Rooted) (hnone : d.at? place = none)
    (hstarts : place ++ [n] <+: inner) (hsome : (d'.at? inner).isSome) : n.size ≤ Disk.maxName := by
  have hnew : d'.at? (place ++ [n]) ≠ d.at? (place ++ [n]) := by
    rw [hrooted.missing hnone (List.prefix_append _ _)]
    intro hmissing
    rw [(h.rooted hrooted).missing hmissing hstarts] at hsome
    cases hsome
  obtain ⟨_, _, -, hopens, -⟩ := h.changed hnew
  obtain ⟨m, hm, hsize⟩ := hopens.name
  rw [List.dropLast_concat, List.append_cancel_left_eq] at hm
  cases hm
  exact hsize

/-- **A directory in which a name is too long has been made** on the way of names. -/
def Disk.Cramps (d d' : Disk) (start : Place) (names : List Text) : Prop :=
  ∃ front n rest, names = front ++ n :: rest ∧ maxName < n.size ∧
    d.at? (start ++ front) = none ∧ ∃ time mode, d'.at? (start ++ front) = some (.dir time mode)

namespace Engine

/-- **The artifact of a template lies below the place of that of another**, where nothing is yet. -/
def Nests (e : Engine) (d : Disk) (template other : Text) : Prop :=
  d.at? (d.goal (e.artifactPath template)) = none ∧
    Below (d.goal (e.artifactPath template)) (d.goal (e.artifactPath other))

instance (e : Engine) (d : Disk) (template other : Text) : Decidable (e.Nests d template other) :=
  inferInstanceAs (Decidable (_ ∧ _))

/-- **The artifact of a template needs a directory in which a name is too long** that leads to the
artifact of another, where nothing is yet. -/
def Crowds (e : Engine) (d : Disk) (template other : Text) : Prop :=
  ∃ dir n rest, d.at? dir = none ∧ Below dir (d.goal (e.artifactPath template)) ∧
    d.goal (e.artifactPath other) = dir ++ n :: rest ∧ Disk.maxName < n.size

/-- Artifacts with names of a size that a disk can hold are not crowded. -/
theorem not_crowds {e : Engine} {d : Disk} {other : Text}
    (h : ∀ n ∈ d.goal (e.artifactPath other), n.size ≤ Disk.maxName) (template : Text) :
    ¬ e.Crowds d template other := by
  rintro ⟨dir, n, rest, -, -, hartifact, hsize⟩
  have := h n (by rw [hartifact]; simp)
  omega

/-- The places of the artifacts of templates that the compiler takes. -/
def Artifacts (e : Engine) (d : Disk) (templates : List Text) (place : Place) : Prop :=
  ∃ t ∈ templates, ¬ e.Refuses d t ∧ place = d.goal (e.artifactPath t)

theorem Artifacts.cons {e : Engine} {d : Disk} {templates : List Text} {place : Place} (t : Text)
    (h : e.Artifacts d templates place) : e.Artifacts d (t :: templates) place := by
  obtain ⟨other, hmem, hplace⟩ := h
  exact ⟨other, List.mem_cons_of_mem t hmem, hplace⟩

section Clash

variable {e : Engine} {artifacts : Place → Prop} {templates : List Text} {d x x' y : Disk}
  {p : Plain}

/-- The compiler takes the same templates as the disk grows. -/
theorem Ready.refuses_iff (h : e.Ready d) (hgrows : e.store.Grows artifacts d y) :
    e.Refuses y p.text ↔ e.Refuses d p.text := by
  unfold Refuses
  rw [h.readText_eq hgrows]

/-- **Ensuring a template adds its artifact only if the compiler takes it.** -/
theorem Ready.ensure_grows_taken {result : Except Diagnostic Outcome} (h : e.Ready d)
    (hgrows : e.store.Grows artifacts d x) (hmem : p.text ∈ templates)
    (hensure : e.ensure x p.text = (result, x')) :
    e.store.Grows (e.Artifacts d templates) x x' := by
  by_cases hrefuses : e.Refuses x p.text
  · obtain ⟨text, problem, htext, hproblem⟩ := hrefuses
    rw [(ensure_atomic hensure).refused text problem htext hproblem]
    exact .refl
  · rw [h.refuses_iff hgrows] at hrefuses
    exact (h.grows hgrows).ensure_grows
      ⟨p.text, hmem, hrefuses, Disk.goal_congr hgrows.here _⟩ hensure

/-- No artifact has come to the place of one that belongs to no template ensured since. -/
theorem noNewFile_of_new (hplain : ∀ t ∈ templates, ∃ q : Plain, q.text = t)
    (hgrows : e.store.Grows (e.Artifacts d templates) x y) (hp : p.text ∉ templates) :
    Disk.NoNewFile x y (d.goal (e.artifactPath p.text)) := by
  intro content time mode hfile
  refine Decidable.of_not_not fun hchange => ?_
  obtain ⟨_, _, -, -, -, hentry, hadds⟩ := hgrows.changed hchange
  cases hadds with
  | dir =>
    rw [hfile] at hentry
    cases hentry
  | file _ hplace =>
    obtain ⟨t, ht, -, hplace⟩ := hplace
    obtain ⟨q, rfl⟩ := hplain t ht
    obtain rfl := artifactPath_inj hplace
    exact hp ht

/-- **What hinders a template on a disk that has grown is a clash** with a template that the
compiler takes. -/
theorem hindered_by (hext : d.Extends x) (hgrows : e.store.Grows (e.Artifacts d templates) x y)
    (h : Disk.Hinders x y (x.goal e.config.artifactRoot) (segments p.artifact.text)) :
    ∃ t ∈ templates, ¬ e.Refuses d t ∧ (e.Nests d t p.text ∨ e.Nests d p.text t ∨
      e.Crowds d t p.text ∧
        Disk.Cramps x y (x.goal e.config.artifactRoot) (segments p.artifact.text)) := by
  obtain ⟨front, back, hnames, hnone, hkinds⟩ := h
  have hartifact : d.goal (e.artifactPath p.text) =
      x.goal e.config.artifactRoot ++ front ++ back := by
    rw [List.append_assoc, ← hnames, Disk.goal_congr hext.here]
    exact d.goal_join_plain _ p.artifact
  have hbefore : d.at? (x.goal e.config.artifactRoot ++ front) = none := hext.missing hnone
  rcases hkinds with ⟨hback, content, time, mode, hfile⟩ | ⟨rfl, time, mode, hdir⟩ |
    ⟨⟨n, rest, rfl, hsize⟩, time, mode, hdir⟩
  · obtain ⟨_, _, -, -, -, hentry, hadds⟩ := hgrows.changed (by rw [hnone, hfile]; nofun)
    cases hadds with
    | dir =>
      rw [hfile] at hentry
      cases hentry
    | file _ hplace =>
      obtain ⟨t, ht, htaken, hplace⟩ := hplace
      refine ⟨t, ht, htaken, .inl ⟨hplace ▸ hbefore, ?_⟩⟩
      rw [← hplace, hartifact]
      exact below_append _ hback
  · obtain ⟨-, -, -, _, ⟨t, ht, htaken, rfl⟩, hleads⟩ := hgrows.made hnone hdir
    rw [List.append_nil] at hartifact
    refine ⟨t, ht, htaken, .inr (.inl ⟨hartifact ▸ hbefore, hartifact ▸ hleads⟩)⟩
  · obtain ⟨-, -, -, _, ⟨t, ht, htaken, rfl⟩, hleads⟩ := hgrows.made hnone hdir
    exact ⟨t, ht, htaken, .inr (.inr ⟨⟨_, n, rest, hbefore, hleads, hartifact, hsize⟩,
      front, n, rest, hnames, hsize, hnone, time, mode, hdir⟩)⟩

/-- An artifact that is stored has names of a size that a disk can hold. -/
theorem Ready.size_le_of_compiled {result : Except Diagnostic Outcome} (h : e.Ready x)
    (hx : e.ensure x p.text = (result, x')) (hresult : verdict result = .ok .compiled) :
    ∀ n ∈ segments p.artifact.text, n.size ≤ Disk.maxName := by
  have hgrows : e.store.Grows (· = x.goal (e.artifactPath p.text)) x x' := h.ensure_grows rfl hx
  obtain ⟨_, _, _, _, -, -, -, -, -, -, -, ⟨_, _, -, hentry⟩, -⟩ :=
    (ensure_atomic hx).stored (ok_of_verdict hresult)
  have hjoin : x'.entry (e.artifactPath p.text) = _ :=
    Disk.entry_join (hgrows.extends.isDir h.artifacts) p.artifact
  rw [hentry] at hjoin
  cases hcheck : Disk.checkPath (join e.config.artifactRoot p.artifact.text) with
  | error cause =>
    rw [hcheck] at hjoin
    cases hjoin
  | ok _ =>
    rw [hcheck] at hjoin
    exact Disk.size_le_of_seek hjoin.symm

/-- **What a template makes on the way to a name that is too long is there** once another has made
the directory for the name. -/
theorem Ready.patched_of_cramps {result : Except Diagnostic Outcome} (h : e.Ready x)
    (hgrows : e.store.Grows artifacts x y)
    (hcramps : Disk.Cramps x y (x.goal e.config.artifactRoot) (segments p.artifact.text))
    (hx : e.ensure x p.text = (result, x')) : Disk.Patched x x' y y := by
  obtain ⟨front, n, rest, hnames, hsize, hnone, time, mode, hdir⟩ := hcramps
  have hself : e.store.Grows (· = x.goal (e.artifactPath p.text)) x x' := h.ensure_grows rfl hx
  have hartifact : x.goal (e.artifactPath p.text) =
      x.goal e.config.artifactRoot ++ front ++ [n] ++ rest := by
    rw [List.append_assoc, List.append_assoc, List.singleton_append, ← hnames]
    exact x.goal_join_plain _ p.artifact
  refine ⟨rfl, rfl, rfl, fun place hchange => ?_, fun _ _ => rfl⟩
  obtain ⟨bits, _, hserves, -, -, hentry, hadds⟩ := hself.changed hchange
  have hstop : ¬ x.goal e.config.artifactRoot ++ front ++ [n] <+: place := by
    intro hstarts
    have := hself.size_le h.rooted hnone hstarts (by rw [hentry]; rfl)
    omega
  cases hadds with
  | file _ hplace =>
    refine absurd ?_ hstop
    rw [hplace, hartifact]
    exact List.prefix_append _ _
  | dir hmissing hleads =>
    obtain ⟨_, rfl, hleads⟩ := hleads
    rw [hartifact] at hleads
    have hup : place <+: x.goal e.config.artifactRoot ++ front := by
      rcases List.prefix_or_prefix_of_prefix hleads.1 (List.prefix_append _ rest) with hup | hdown
      · rcases List.prefix_concat_iff.1 hup with heq | hup
        · exact absurd (heq ▸ List.prefix_refl _) hstop
        · exact hup
      · exact absurd hdown hstop
    have hthere : ∃ time mode, y.at? place = some (.dir time mode) := by
      by_cases heq : x.goal e.config.artifactRoot ++ front = place
      · exact ⟨time, mode, heq ▸ hdir⟩
      · exact (h.grows hgrows).rooted.above ⟨hup, heq⟩ (by rw [hdir]; rfl)
    obtain ⟨time', mode', hthere⟩ := hthere
    obtain ⟨hserves', -, rfl, -⟩ := hgrows.made hmissing hthere
    obtain rfl : bits = mode' := (hserves.before h.artifacts hself.extends).mode_eq
      (hserves'.before h.artifacts hgrows.extends)
    rw [hentry, hthere]

/-- **A template whose artifact has a name that is too long fails in the same way** once another has
made the directory for the name. -/
theorem Ready.verdict_of_cramps {result : Except Diagnostic Outcome} (h : e.Ready x)
    (hgrows : e.store.Grows artifacts x y)
    (hcramps : Disk.Cramps x y (x.goal e.config.artifactRoot) (segments p.artifact.text))
    (hstale : Store.isFresh x (e.templatePath p.text) (e.artifactPath p.text) = .ok false)
    (hrefuses : ¬ e.Refuses x p.text) (hx : e.ensure x p.text = (result, x')) :
    verdict result = .error .fileAccess := by
  obtain ⟨front, n, rest, hnames, hsize, hnone, time, mode, hdir⟩ := hcramps
  have hserves : e.store.Serves x mode :=
    (hgrows.made hnone hdir).1.before h.artifacts hgrows.extends
  refine (h.verdict_of_failed hserves.root hstale hrefuses hx).resolve_left fun hcompiled => ?_
  have := h.size_le_of_compiled hx hcompiled n (by rw [hnames]; simp)
  omega

end Clash

end Engine

end Stencil
