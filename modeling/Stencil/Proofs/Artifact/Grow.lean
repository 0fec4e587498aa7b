import Stencil.Proofs.Artifact.Coherent
import Stencil.Proofs.Disk.Join

/-!
# Proofs/Artifact/Grow — a disk on which artifacts are stored

    d ──make · store · make · ⋯──▸ d'

All that a store ever does to a disk is to make directories that lead to artifacts, and to store
artifacts (`Grows`).  So directories stay as they are, nothing goes, and whatever is new lies below
the root, in a directory that allows it, with the permission bits of the root (`Grows.changed`).  A
project sees the same templates before and after (`Ready.ofTemplate_eq`, `Ready.templates_eq`), and
whoever ensures a template lets the disk grow (`Ready.ensure_grows`).
-/

namespace Stencil

open Stencil.Path

/-- A key that a view leaves out can be inserted unseen. -/
theorem Table.filterMap_insert {κ α β : Type} [DecidableEq κ] [LT κ] [DecidableLT κ]
    {view : κ × α → Option β} {key : κ} (h : ∀ value, view (key, value) = none) (t : Table κ α)
    (value : α) : (t.insert key value).filterMap view = t.filterMap view := by
  induction t with
  | nil => simp [insert, h]
  | cons e t ih =>
    obtain ⟨k, v⟩ := e
    unfold insert
    split
    · next hk => simp [hk, h]
    split
    · simp [h]
    · rw [List.filterMap_cons, List.filterMap_cons, ih]

theorem Disk.namesBelow_put {d : Disk} {root place : Place} {entry : Entry}
    (h : ¬ root <+: place) : (d.put place entry).namesBelow root = d.namesBelow root := by
  refine Table.filterMap_insert (fun value => ?_) _ _
  have hnone : below? root place = none := by
    refine Option.eq_none_iff_forall_ne_some.2 fun names hnames => h ?_
    rw [below?_eq_some_iff.1 hnames]
    exact List.prefix_append _ _
  dsimp only
  rw [hnone]
  rfl

namespace Store

/-! ## Growing -/

/-- **A root that serves a store**: artifacts can be stored there, with its permission bits, and
names looked up. -/
structure Serves (s : Store) (d : Disk) (mode : Nat) : Prop where
  root : s.rootMode d = .ok mode
  search : ∀ time, (Entry.dir time mode).allows .search = true

/-- **What a store adds to a disk at a place**: a directory that leads to an artifact, where nothing
is, or an artifact, where no directory is. -/
inductive Adds (artifacts : Place → Prop) (d : Disk) (place : Place) (mode : Nat) : Entry → Prop
  | dir (hnone : d.at? place = none)
      (hleads : ∃ artifact, artifacts artifact ∧ Below place artifact) :
      Adds artifacts d place mode (.dir d.now mode)
  | file (hnoDir : (d.at? place).any Entry.isDir = false) (hartifact : artifacts place)
      (content : Bytes) : Adds artifacts d place mode (.file content d.now mode)

/-- **A disk grows** as a store adds directories and artifacts below its root, one after the
other. -/
inductive Grows (s : Store) (artifacts : Place → Prop) (d : Disk) : Disk → Prop
  | refl : Grows s artifacts d d
  | put {d' : Disk} {place : Place} {mode : Nat} {entry : Entry} (h : Grows s artifacts d d')
      (hserves : s.Serves d' mode) (hopens : d'.Opens place)
      (hbelow : Below (d'.goal s.root) place) (hadds : Adds artifacts d' place mode entry) :
      Grows s artifacts d (d'.put place entry)

section Grows

variable {s : Store} {artifacts : Place → Prop} {d d' d'' : Disk}

theorem Adds.noDir {place : Place} {mode : Nat} {entry : Entry}
    (h : Adds artifacts d place mode entry) : (d.at? place).any Entry.isDir = false := by
  cases h with
  | dir hnone => rw [hnone]; rfl
  | file hnoDir => exact hnoDir

/-- What can be added later could have been added before. -/
theorem Adds.before {place : Place} {mode : Nat} {entry : Entry}
    (h : Adds artifacts d' place mode entry) (hext : d.Extends d') (hnow : d'.now = d.now) :
    Adds artifacts d place mode entry := by
  cases h with
  | dir hnone hleads =>
    rw [hnow]
    exact .dir (hext.missing hnone) hleads
  | file hnoDir hartifact content =>
    rw [hnow]
    refine .file ?_ hartifact content
    cases hat : d.at? place with
    | none => rfl
    | some entry =>
      cases entry with
      | file => rfl
      | dir time mode =>
        rw [hext.dirs place time mode hat, hat] at hnoDir
        exact hnoDir

theorem Grows.trans (h : s.Grows artifacts d d') (h' : s.Grows artifacts d' d'') :
    s.Grows artifacts d d'' := by
  induction h' with
  | refl => exact h
  | put _ hserves hopens hbelow hadds ih => exact ih.put hserves hopens hbelow hadds

theorem Grows.mono {more : Place → Prop} (hmore : ∀ place, artifacts place → more place)
    (h : s.Grows artifacts d d') : s.Grows more d d' := by
  induction h with
  | refl => exact .refl
  | put _ hserves hopens hbelow hadds ih =>
    refine ih.put hserves hopens hbelow ?_
    cases hadds with
    | dir hnone hleads =>
      obtain ⟨artifact, hartifact, hleads⟩ := hleads
      exact .dir hnone ⟨artifact, hmore _ hartifact, hleads⟩
    | file hnoDir hartifact content => exact .file hnoDir (hmore _ hartifact) content

/-- **Growing closes no way.** -/
theorem Grows.extends (h : s.Grows artifacts d d') : d.Extends d' := by
  induction h with
  | refl => exact .refl d
  | put _ _ _ _ hadds ih => exact ih.trans (Disk.extends_put _ hadds.noDir)

theorem Grows.here (h : s.Grows artifacts d d') : d'.here = d.here := h.extends.here

theorem Grows.now (h : s.Grows artifacts d d') : d'.now = d.now := by
  induction h with
  | refl => rfl
  | put _ _ _ _ _ ih => exact ih

/-- The permission bits of a root stay the same. -/
theorem rootMode_extends (hroot : d.isDir s.root = true) (h : d.Extends d') :
    s.rootMode d' = s.rootMode d := by
  unfold rootMode
  rw [Disk.entry_congr h.here (h.alike hroot)]

theorem Serves.isDir {mode : Nat} (h : s.Serves d mode) : d.isDir s.root = true := by
  obtain ⟨time, hentry, -⟩ := rootMode_ok h.root
  unfold Disk.isDir
  rw [hentry]

theorem Serves.ne_nil {mode : Nat} (h : s.Serves d mode) : s.root ≠ [] :=
  Disk.ne_nil_of_isDir h.isDir

theorem Serves.extends {mode : Nat} (hserves : s.Serves d mode) (h : d.Extends d') :
    s.Serves d' mode :=
  ⟨by rw [rootMode_extends hserves.isDir h, hserves.root], hserves.search⟩

/-- A store that serves now has served before, if its root was a directory then. -/
theorem Serves.before {mode : Nat} (hserves : s.Serves d' mode) (hroot : d.isDir s.root = true)
    (h : d.Extends d') : s.Serves d mode :=
  ⟨(rootMode_extends hroot h).symm.trans hserves.root, hserves.search⟩

theorem Serves.mode_eq {mode bits : Nat} (h : s.Serves d mode) (h' : s.Serves d bits) :
    mode = bits :=
  Except.ok.inj (h.root.symm.trans h'.root)

/-- **What is new where a disk has grown** could have been added in the first place. -/
theorem Grows.changed (h : s.Grows artifacts d d') {place : Place}
    (hchange : d'.at? place ≠ d.at? place) :
    ∃ mode entry, s.Serves d' mode ∧ d'.Opens place ∧ Below (d.goal s.root) place ∧
      d'.at? place = some entry ∧ Adds artifacts d place mode entry := by
  induction h with
  | refl => exact absurd rfl hchange
  | @put d' target mode entry h hserves hopens hbelow hadds ih =>
    have hext : d'.Extends (d'.put target entry) := Disk.extends_put _ hadds.noDir
    have hput := Disk.at?_put d' target place entry
    by_cases htarget : target = place
    · subst htarget
      rw [if_pos rfl] at hput
      rw [Disk.goal_congr h.here] at hbelow
      exact ⟨mode, entry, hserves.extends hext, hopens.extends hext, hbelow, hput,
        hadds.before h.extends h.now⟩
    · rw [if_neg htarget] at hput
      rw [hput] at hchange ⊢
      obtain ⟨mode', entry', hserves', hopens', hbelow', hentry, hadds'⟩ := ih hchange
      exact ⟨mode', entry', hserves'.extends hext, hopens'.extends hext, hbelow', hentry, hadds'⟩

/-- What is not below the root stays as it is. -/
theorem Grows.kept (h : s.Grows artifacts d d') {place : Place}
    (hplace : ¬ Below (d.goal s.root) place) : d'.at? place = d.at? place := by
  refine Decidable.of_not_not fun hchange => ?_
  obtain ⟨_, _, _, _, hbelow, _⟩ := h.changed hchange
  exact hplace hbelow

/-- **Places hang together as the disk grows.** -/
theorem Grows.rooted (h : s.Grows artifacts d d') (hrooted : d.Rooted) : d'.Rooted := by
  intro place n hsome
  by_cases hchange : d'.at? (place ++ [n]) = d.at? (place ++ [n])
  · rw [hchange] at hsome
    obtain ⟨time, mode, hdir⟩ := hrooted place n hsome
    exact ⟨time, mode, by rw [h.extends.dirs _ _ _ hdir, hdir]⟩
  · obtain ⟨_, _, _, hopens, _⟩ := h.changed hchange
    obtain ⟨time, mode, hdir, -⟩ := hopens.dir
    rw [List.dropLast_concat] at hdir
    exact ⟨time, mode, hdir⟩

/-- What lies below another place is found as before. -/
theorem Grows.namesBelow (h : s.Grows artifacts d d') {root : Place}
    (hroot : ∀ place, root <+: place → ¬ Below (d.goal s.root) place) :
    d'.namesBelow root = d.namesBelow root := by
  induction h with
  | refl => rfl
  | put h _ _ hbelow _ ih =>
    rw [Disk.goal_congr h.here] at hbelow
    rw [Disk.namesBelow_put fun hstarts => hroot _ hstarts hbelow, ih]

end Grows

/-- **An artifact that is not read is not fresh**, nor stale. -/
theorem isFresh_unread {d : Disk} {source artifact : Text} {cause : FileError}
    (hcause : cause ≠ .notFound) (h : d.readBytes artifact = .error cause) :
    isFresh d source artifact =
      (Header.ofTemplate d source).bind fun _ => .error (.notRead artifact cause) := by
  unfold isFresh
  rw [h]
  cases Header.ofTemplate d source with
  | error f => rfl
  | ok header => cases cause <;> first | rfl | exact absurd rfl hcause

/-! ## Writing -/

/-- A plain path ends below its own directory. -/
theorem below_dropLast (d : Disk) (root : Text) (p : Plain) :
    Below (d.goal root ++ (segments p.text).dropLast) (d.goal (join root p.text)) := by
  rw [d.goal_join_plain]
  conv => rhs; rw [← List.dropLast_concat_getLast (segments_ne_nil p.text), ← List.append_assoc]
  exact below_append _ nofun

/-- The steps to the artifact of a plain path are its names up to the last. -/
theorem outerSteps_plain {s : Store} (hne : s.root ≠ []) (p : Plain) :
    s.outerSteps (join s.root p.text) = .ok ((segments p.text).dropLast.map .name) := by
  obtain ⟨rest, hrest⟩ := relativeTo?_join hne p.isAbsolute
  have hnames : components rest = (segments p.text).map .name := by
    have hcomponents := (components_of_relativeTo? hne hrest).1
    rw [components_join hne p.isAbsolute, p.bodyComponents] at hcomponents
    exact (List.append_cancel_left hcomponents).symm
  unfold outerSteps
  rw [hrest]
  dsimp only
  rw [hnames, List.map_dropLast]

section Write

variable {s : Store} {artifacts : Place → Prop} {d d' : Disk} {mode : Nat}

/-- **The directories on the way to an artifact let the disk grow.** -/
theorem makeDirs_grows {dir : Text} {names : List Text} {artifact : Place}
    {result : Except Failure Text} (hserves : s.Serves d mode)
    (hnames : ∀ n ∈ names, IsName n) (hroot : d.goal s.root <+: d.goal dir)
    (hartifact : artifacts artifact) (hbelow : Below (d.goal dir ++ names) artifact)
    (h : makeDirs mode d dir (names.map .name) = (result, d')) : s.Grows artifacts d d' := by
  induction names generalizing d dir with
  | nil =>
    cases h
    exact .refl
  | cons n names ih =>
    have hn : IsName n := hnames n List.mem_cons_self
    have hrest : ∀ m ∈ names, IsName m := fun m hm => hnames m (List.mem_cons_of_mem _ hm)
    have hgoal : d.goal (join dir n) = d.goal dir ++ [n] := d.goal_join_name dir hn
    have hinner : Below (d.goal s.root) (d.goal (join dir n)) := by
      rw [hgoal]
      exact Below.of_prefix hroot (below_append _ nofun)
    have hbelow' : Below (d.goal (join dir n) ++ names) artifact := by
      rw [hgoal, List.append_assoc]
      exact hbelow
    rw [List.map_cons] at h
    unfold makeDirs at h
    dsimp only [Component.text] at h
    split at h
    · exact ih hserves hrest hinner.1 hbelow' h
    split at h
    · next made hmade =>
      obtain ⟨hnone, ⟨outer, rfl⟩, -⟩ := Disk.makeDir_ok hmade
      have hadds : Adds artifacts d (d.goal (join dir n)) mode (.dir d.now mode) :=
        .dir hnone ⟨artifact, hartifact, Below.of_prefix (List.prefix_append _ _) hbelow'⟩
      have hgrows : s.Grows artifacts d _ :=
        Grows.refl.put hserves (Disk.makeDir_opens hmade) hinner hadds
      exact hgrows.trans (ih (hserves.extends hgrows.extends) hrest hinner.1 hbelow' h)
    · exact ih hserves hrest hinner.1 hbelow' h
    · cases h
      exact .refl

/-- **Writing an artifact lets the disk grow.** -/
theorem write_grows {p : Plain} {header : Header} {body : Text} {result : Except Failure Unit}
    (hserves : s.Serves d mode) (hartifact : artifacts (d.goal (join s.root p.text)))
    (h : s.write d (join s.root p.text) header body = (result, d')) :
    s.Grows artifacts d d' := by
  rcases write_split h with
    ⟨-, rfl⟩ | ⟨mode', steps, last, made, hmode, hsteps, hmade, hend⟩
  · exact .refl
  obtain rfl : mode = mode' := Except.ok.inj (hserves.root.symm.trans hmode)
  have hne : s.root ≠ [] := hserves.ne_nil
  rw [outerSteps_plain hne] at hsteps
  cases hsteps
  have hgrows : s.Grows artifacts d made :=
    makeDirs_grows hserves (fun n hn => p.names n (List.dropLast_subset _ hn))
      (List.prefix_refl _) hartifact (below_dropLast d s.root p) hmade
  rcases hend with ⟨-, rfl⟩ | ⟨dir, text, -, -, hplace, -⟩
  · exact hgrows
  obtain ⟨aside, -, htarget, rfl⟩ := place_ok hplace
  have hsame : made.goal (join s.root p.text) = d.goal (join s.root p.text) :=
    Disk.goal_congr hgrows.here _
  refine hgrows.put (hserves.extends hgrows.extends) (Disk.moveTarget_opens htarget)
    (made.below_join_plain s.root p) (.file (Disk.moveTarget_ok htarget).2.1 ?_ _)
  rw [hsame]
  exact hartifact

end Write

end Store

/-! ## Projects -/

namespace Engine

/-- **A project that is ready to be built**: it checks its scripts, and its roots are directories, of
which none lies in the other. -/
structure Ready (e : Engine) (d : Disk) : Prop where
  checks : e.config.checkScripts = true
  here : ∀ n ∈ d.here, IsName n
  rooted : d.Rooted
  templates : d.isDir e.config.templateRoot = true
  artifacts : d.isDir e.config.artifactRoot = true
  apart : ¬ d.goal e.config.templateRoot <+: d.goal e.config.artifactRoot ∧
    ¬ d.goal e.config.artifactRoot <+: d.goal e.config.templateRoot

theorem ready_iff {e : Engine} {d : Disk} : e.Ready d ↔
    e.config.checkScripts = true ∧ (∀ n ∈ d.here, IsName n) ∧ d.Rooted ∧
      d.isDir e.config.templateRoot = true ∧ d.isDir e.config.artifactRoot = true ∧
      ¬ d.goal e.config.templateRoot <+: d.goal e.config.artifactRoot ∧
      ¬ d.goal e.config.artifactRoot <+: d.goal e.config.templateRoot :=
  ⟨fun h => ⟨h.checks, h.here, h.rooted, h.templates, h.artifacts, h.apart⟩,
    fun ⟨hchecks, hhere, hrooted, htemplates, hartifacts, hapart⟩ =>
      ⟨hchecks, hhere, hrooted, htemplates, hartifacts, hapart⟩⟩

instance (e : Engine) (d : Disk) : Decidable (e.Ready d) := decidable_of_iff _ ready_iff.symm

section Ready

variable {e : Engine} {artifacts : Place → Prop} {d d' : Disk}

/-- **A project stays ready as its disk grows.** -/
theorem Ready.grows (h : e.Ready d) (hgrows : e.store.Grows artifacts d d') : e.Ready d' := by
  refine ⟨h.checks, by rw [hgrows.here]; exact h.here, hgrows.rooted h.rooted,
    hgrows.extends.isDir h.templates, hgrows.extends.isDir h.artifacts, ?_⟩
  rw [Disk.goal_congr hgrows.here, Disk.goal_congr hgrows.here]
  exact h.apart

/-- What lies at or below the template root is not below the artifact root. -/
theorem Ready.not_below (h : e.Ready d) {place : Place}
    (hplace : d.goal e.config.templateRoot <+: place) :
    ¬ Below (d.goal e.config.artifactRoot) place := by
  intro hbelow
  rcases List.prefix_or_prefix_of_prefix hplace hbelow.1 with hstarts | hstarts
  · exact h.apart.1 hstarts
  · exact h.apart.2 hstarts

/-- **A path behind the template root comes by the same places as the disk grows**: up to the root
there are directories, and from there on the way does not lead below the artifact root. -/
theorem Ready.alikeAbove (h : e.Ready d) (hgrows : e.store.Grows artifacts d d') {p : Text}
    {names : List Text} (hstart : (d.origin p).1 = (d.origin e.config.templateRoot).1)
    (hbody : Path.bodyComponents (d.origin p).2 =
      Path.bodyComponents (d.origin e.config.templateRoot).2 ++ names.map .name) :
    Disk.AlikeAbove d d' (d.origin p).1 (Path.bodyComponents (d.origin p).2) := by
  -- What leads to a directory is kept, as it consists of directories.
  have hdirs : ∀ dir place, (∃ time mode, d.at? dir = some (.dir time mode)) → place <+: dir →
      d'.at? place = d.at? place := by
    rintro dir place ⟨time, mode, hdir⟩ hplace
    by_cases heq : dir = place
    · rw [← heq]
      exact hgrows.extends.dirs dir time mode hdir
    · obtain ⟨time, mode, hdir⟩ := h.rooted.above ⟨hplace, heq⟩ (by rw [hdir]; rfl)
      exact hgrows.extends.dirs place time mode hdir
  intro front hfront place hplace
  rw [hstart] at hplace
  rw [hbody] at hfront
  rcases List.prefix_or_prefix_of_prefix hfront (List.prefix_append _ _) with hroot | hroot
  · exact hdirs _ place (Disk.dirs_of_isDir h.templates hroot) hplace
  · obtain ⟨more, rfl⟩ := hroot
    rw [List.prefix_append_right_inj] at hfront
    obtain ⟨inner, -, rfl⟩ := List.prefix_map_iff.1 hfront
    rw [walk_append, ← (d.steps_origin _).1, walk_names] at hplace
    rcases List.prefix_or_prefix_of_prefix hplace (List.prefix_append _ inner) with hup | hup
    · exact hdirs _ place (Disk.isDir_ok h.templates).1 hup
    · exact hgrows.kept (h.not_below hup)

theorem Ready.alike_template (h : e.Ready d) (hgrows : e.store.Grows artifacts d d') (p : Plain) :
    Disk.AlikeAbove d d' (d.origin (e.templatePath p.text)).1
      (Path.bodyComponents (d.origin (e.templatePath p.text)).2) := by
  obtain ⟨hstart, hbody⟩ := d.origin_join p.isAbsolute e.config.templateRoot
  rw [p.bodyComponents] at hbody
  exact h.alikeAbove hgrows hstart hbody

/-- **A template has the same header as the disk grows.** -/
theorem Ready.ofTemplate_eq (h : e.Ready d) (hgrows : e.store.Grows artifacts d d') (p : Plain) :
    Header.ofTemplate d' (e.templatePath p.text) = Header.ofTemplate d (e.templatePath p.text) := by
  have halike := h.alike_template hgrows p
  unfold Header.ofTemplate
  rw [Disk.canonical_congr hgrows.here h.here halike]
  split
  · rfl
  next path hpath =>
  have hgoal : d.goal (e.templatePath p.text) = walk (d.origin (e.templatePath p.text)).1
      (Path.bodyComponents (d.origin (e.templatePath p.text)).2) := (d.steps_origin _).1
  rw [Disk.canonical_ok h.here hpath, Disk.entry_placeText_congr
    (Disk.isName_of_mem_goal h.here _) fun outer houter =>
      halike _ (List.prefix_refl _) outer (hgoal ▸ houter), hgrows.extends.zone]

/-- **A template has the same text as the disk grows.** -/
theorem Ready.readText_eq (h : e.Ready d) (hgrows : e.store.Grows artifacts d d') (p : Plain) :
    d'.readText (e.templatePath p.text) = d.readText (e.templatePath p.text) :=
  Disk.readText_congr hgrows.here (h.alike_template hgrows p).alike

/-- **The same templates are found as the disk grows.** -/
theorem Ready.templates_eq (h : e.Ready d) (hnamed : d.Named)
    (hgrows : e.store.Grows artifacts d d') : e.templates d' = e.templates d := by
  have hlocate : d'.locate e.config.templateRoot = d.locate e.config.templateRoot :=
    Disk.locate_congr hgrows.here (hgrows.extends.alike h.templates)
  have halike : ∀ names, (∀ n ∈ names, IsName n) →
      Disk.Alike d d' (d.origin (Disk.pathBelow e.config.templateRoot names)).1
        (Path.bodyComponents (d.origin (Disk.pathBelow e.config.templateRoot names)).2) := by
    intro names hnames
    obtain ⟨hstart, hbody⟩ := Disk.origin_pathBelow (d := d) hnames e.config.templateRoot
    exact (h.alikeAbove hgrows hstart hbody).alike
  have hfound : ∀ names, (∀ n ∈ names, IsName n) →
      d'.isFound e.config.templateRoot names = d.isFound e.config.templateRoot names := by
    intro names hnames
    have hreached : d'.isReached e.config.templateRoot names =
        d.isReached e.config.templateRoot names := by
      unfold Disk.isReached
      congr 1
      funext n
      exact Disk.isListed_congr hgrows.here
        (halike _ fun m hm => hnames m (List.take_subset n names hm))
    unfold Disk.isFound
    rw [hreached, Disk.isDir_congr hgrows.here (halike names hnames)]
  unfold Engine.templates Disk.filesBelow
  rw [hlocate]
  split
  · rfl
  next root hroot =>
  obtain rfl := (Disk.locate_ok hroot).1
  rw [hgrows.namesBelow fun place hplace => h.not_below hplace]
  congr 2
  refine List.filter_congr fun names hmem => hfound names fun n hn => ?_
  obtain ⟨⟨place, entry⟩, hentry, hbelow⟩ := List.mem_filterMap.1 hmem
  have hplace := hnamed.places place (Table.isSome_get?_of_mem hentry)
  rw [Disk.below?_eq_some_iff.1 (Option.filter_eq_some_iff.1 hbelow).1] at hplace
  exact hplace n (List.mem_append_right _ hn)

/-! ## Ensuring -/

/-- **An artifact that is stale has a clear way**: names lead to it, or are missed. -/
theorem Ready.clear_of_stale (h : e.Ready d) {p : Plain}
    (hfresh : Store.isFresh d (e.templatePath p.text) (e.artifactPath p.text) = .ok false) :
    d.seek (d.goal e.config.artifactRoot) (segments p.artifact.text) = .error .notFound ∨
      ∃ entry, d.seek (d.goal e.config.artifactRoot) (segments p.artifact.text) = .ok entry := by
  cases hseek : d.seek (d.goal e.config.artifactRoot) (segments p.artifact.text) with
  | ok entry => exact .inr ⟨entry, rfl⟩
  | error cause =>
    refine .inl (congrArg _ (Decidable.of_not_not fun hcause => ?_))
    obtain ⟨other, hother, (hread : d.readBytes (e.artifactPath p.text) = _)⟩ :=
      Disk.readBytes_hindered h.artifacts (.inl ⟨cause, hcause, hseek⟩)
    rw [Store.isFresh_unread hother hread] at hfresh
    cases hheader : Header.ofTemplate d (e.templatePath p.text) <;>
      · rw [hheader] at hfresh
        cases hfresh

/-- **A store serves where an artifact is stale**, if artifacts can be stored at all. -/
theorem Ready.serves_of_stale (h : e.Ready d) {p : Plain} {mode : Nat}
    (hmode : e.store.rootMode d = .ok mode)
    (hfresh : Store.isFresh d (e.templatePath p.text) (e.artifactPath p.text) = .ok false) :
    e.store.Serves d mode := by
  obtain ⟨time, hroot, -⟩ := Store.rootMode_ok hmode
  cases hsearch : (Entry.dir time mode).allows .search with
  | true => exact ⟨hmode, fun _ => hsearch⟩
  | false =>
    obtain ⟨n, names, hnames⟩ := List.exists_cons_of_ne_nil (segments_ne_nil p.artifact.text)
    have hseek : d.seek (d.goal e.config.artifactRoot) (segments p.artifact.text) =
        .error .denied := by
      rw [hnames]
      exact (Disk.seek_dir_cons (Disk.entry_ok hroot) n names).trans (if_pos hsearch)
    have hclear := h.clear_of_stale hfresh
    rw [hseek] at hclear
    rcases hclear with hclear | ⟨entry, hclear⟩ <;> cases hclear

/-- **Ensuring a template lets the disk grow.** -/
theorem Ready.ensure_grows (h : e.Ready d) {p : Plain} {result : Except Diagnostic Outcome}
    (hartifact : artifacts (d.goal (e.artifactPath p.text)))
    (hensure : e.ensure d p.text = (result, d')) : e.store.Grows artifacts d d' := by
  obtain ⟨refreshed, hrefresh, -⟩ := refresh_of_ensure h.checks hensure
  have hcases := Store.refresh_cases hrefresh
  rw [Store.refresh] at hrefresh
  split at hrefresh
  · cases hrefresh
    exact .refl
  · cases hrefresh
    exact .refl
  · cases hrefresh
    exact .refl
  next hfresh _ =>
  rcases hcases with
    ⟨-, rfl⟩ | ⟨-, -, rfl⟩ | ⟨header, text, body, stored, -, -, -, hwrite, -⟩
  · exact .refl
  · exact .refl
  cases hmode : e.store.rootMode d with
  | error f =>
    rw [Store.write, hmode] at hwrite
    cases hwrite
    exact .refl
  | ok mode =>
    exact Store.write_grows (p := p.artifact) (h.serves_of_stale hmode hfresh) hartifact hwrite

end Ready

end Engine

end Stencil
