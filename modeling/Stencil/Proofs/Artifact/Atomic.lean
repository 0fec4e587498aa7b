import Stencil.Proofs.Artifact.Draft

/-!
# Proofs/Artifact/Atomic — all of an artifact or nothing

    failed ──▸ directories at most          stored ──▸ directories and the whole artifact
    fresh  ──▸ nothing                      refused by the compiler ──▸ nothing

A call that ends in an error may come back from any step of the way.  Whichever it is, the files are
those that were there before, and what is new are directories between the root and the artifact,
with the permission bits of the root (`OnlyMakes`).  A call that stores an artifact has changed that
one file besides, and it holds the whole text (`Stores`).  Where the steps of a write are told one
by one, with a draft under a name of its own, every moment shows one of the two, also where the
system refuses a step (`writeVia_eq`).
-/

namespace Stencil

open Stencil.Path

namespace Store

/-! ## What is new -/

/-- **Directories get the permission bits that they are made with.** -/
theorem makeDirs_entry {mode : Nat} {d d' : Disk} {dir : Text} {steps : List Component}
    {result : Except Failure Text} (h : makeDirs mode d dir steps = (result, d')) {place : Place}
    (hchange : d'.at? place ≠ d.at? place) : d'.at? place = some (.dir d.now mode) := by
  induction steps generalizing d dir with
  | nil =>
    rw [makeDirs] at h
    cases h
    exact absurd rfl hchange
  | cons c steps ih =>
    unfold makeDirs at h
    simp only at h
    split at h
    · exact ih h hchange
    split at h
    · next made hmade =>
      obtain ⟨-, ⟨outer, rfl⟩, -⟩ := Disk.makeDir_ok hmade
      by_cases hlater : d'.at? place = (d.put (d.goal (join dir c.text)) (.dir d.now mode)).at? place
      · rw [hlater, Disk.at?_put] at hchange ⊢
        split
        · rfl
        · next hother => exact absurd (if_neg hother) hchange
      · have hlast := ih h hlater
        exact hlast
    · exact ih h hchange
    · cases h
      exact absurd rfl hchange

/-- **A directory that is new**: it lies between the root and the artifact, where nothing was, and
has the permission bits of the root. -/
def IsNewDir (s : Store) (d d' : Disk) (artifact : Text) (place : Place) : Prop :=
  d.at? place = none ∧
    ∃ rest time mode, relativeTo? s.root artifact = some rest ∧
      place ∈ way (d.goal s.root) (components rest).dropLast ∧
      d.at? (d.goal s.root) = some (.dir time mode) ∧ d'.at? place = some (.dir d.now mode)

/-- **Nothing but directories is new**, and nothing else has changed. -/
def OnlyMakes (s : Store) (d d' : Disk) (artifact : Text) : Prop :=
  d'.here = d.here ∧ d'.now = d.now ∧ d'.zone = d.zone ∧
    ∀ place, d'.at? place = d.at? place ∨ s.IsNewDir d d' artifact place

/-- **The artifact holds a text**, with the permission bits of the root, and nothing but directories
is new besides. -/
def Stores (s : Store) (d d' : Disk) (artifact text : Text) : Prop :=
  d'.here = d.here ∧ d'.now = d.now ∧ d'.zone = d.zone ∧
    (∃ time mode, d.at? (d.goal s.root) = some (.dir time mode) ∧
      d'.entry artifact = .ok (.file (Text.utf8 text) d.now mode)) ∧
    (d.at? (d.goal artifact)).any Entry.isDir = false ∧
    ∀ place, place ≠ d.goal artifact →
      d'.at? place = d.at? place ∨ s.IsNewDir d d' artifact place

theorem onlyMakes_refl (s : Store) (d : Disk) (artifact : Text) : s.OnlyMakes d d artifact :=
  ⟨rfl, rfl, rfl, fun _ => .inl rfl⟩

/-- Making the directories on the way of an artifact makes nothing else. -/
theorem onlyMakes_of_makeDirs {s : Store} {d made : Disk} {artifact : Text} {mode : Nat}
    {steps : List Component} {last : Except Failure Text} (hmode : s.rootMode d = .ok mode)
    (hsteps : s.outerSteps artifact = .ok steps)
    (h : makeDirs mode d s.root steps = (last, made)) : s.OnlyMakes d made artifact := by
  obtain ⟨rest, time, rfl, hrest, -, houter, hroot, -⟩ := outerSteps_ok hmode hsteps
  have hpaves := makeDirs_paves houter h
  refine ⟨hpaves.here, hpaves.now, hpaves.zone, fun place => ?_⟩
  by_cases hchange : made.at? place = d.at? place
  · exact .inl hchange
  · obtain ⟨hmem, hnone, -⟩ := hpaves.made place hchange
    exact .inr ⟨hnone, rest, time, mode, hrest, hmem, hroot, makeDirs_entry h hchange⟩

/-! ## Writing -/

/-- **A write leaves all of an artifact or nothing but directories.** -/
theorem write_atomic {s : Store} {d d' : Disk} {artifact body : Text} {header : Header}
    {result : Except Failure Unit} (h : s.write d artifact header body = (result, d')) :
    ((∃ f, result = .error f) ∧ s.OnlyMakes d d' artifact) ∨
      (result = .ok () ∧ ∃ text, header.stamp body = .ok text ∧ s.Stores d d' artifact text) := by
  rcases write_split h with
    ⟨hfailed, rfl⟩ | ⟨mode, steps, last, made, hmode, hsteps, hmade, hend⟩
  · exact .inl ⟨hfailed, onlyMakes_refl s _ artifact⟩
  have hmakes := onlyMakes_of_makeDirs hmode hsteps hmade
  rcases hend with ⟨hfailed, rfl⟩ | ⟨dir, text, rfl, htext, hplace, rfl⟩
  · exact .inl ⟨hfailed, hmakes⟩
  refine .inr ⟨rfl, text, htext, ?_⟩
  obtain ⟨hhere, hnow, hzone, hothers⟩ := hmakes
  obtain ⟨rest, time, -, -, -, -, hroot, -⟩ := outerSteps_ok hmode hsteps
  obtain ⟨aside, -, htarget, rfl⟩ := place_ok hplace
  obtain ⟨-, hnoDir, -, hlocate⟩ := Disk.moveTarget_ok htarget
  rw [Disk.goal_congr hhere] at hnoDir hlocate ⊢
  rw [hnow]
  refine ⟨hhere, hnow, hzone, ⟨time, mode, hroot, ?_⟩, ?_, fun place hother => ?_⟩
  · unfold Disk.entry
    rw [hlocate]
    simp only [Disk.at?_put, if_true]
  · rcases hothers (d.goal artifact) with hsame | ⟨hnone, -⟩
    · rwa [hsame] at hnoDir
    · rw [hnone]
      rfl
  · have hput : ∀ entry, (made.put (d.goal artifact) entry).at? place = made.at? place := by
      intro entry
      rw [Disk.at?_put, if_neg hother.symm]
    unfold IsNewDir
    rw [hput]
    exact hothers place

/-! ## Writing by way of a draft -/

/-- The result of storing a body by way of a draft, and the disks on the way to it. -/
def writeVia (name : Text) (sys : System) (s : Store) (d : Disk) (artifact : Text)
    (header : Header) (body : Text) : Except Failure Unit × List Disk :=
  match s.rootMode d, s.outerSteps artifact with
  | .error f, _ => (.error f, [d])
  | _, .error f => (.error f, [d])
  | .ok mode, .ok steps =>
    match makeDirsVia sys mode d s.root steps with
    | (.error f, made) => (.error f, [d, made])
    | (.ok dir, made) =>
      match header.stamp body with
      | .error f => (.error f, [d, made])
      | .ok text =>
        let (result, disks) := placeVia name sys.draft made dir artifact text mode
        (result, d :: disks)

/-- The places of the directories between the root and an artifact. -/
def outerWay (s : Store) (d : Disk) (artifact : Text) : List Place :=
  ((s.outerSteps artifact).toOption.map (way (d.goal s.root))).getD []

/-- The place of the draft of an artifact: in the directory to which the steps lead. -/
def draftAt (s : Store) (d : Disk) (artifact name : Text) : Option Place :=
  (s.outerSteps artifact).toOption.map fun steps => walk (d.goal s.root) steps ++ [name]

/-- **A name that is free for a draft**: nothing stands at its place, and the path of the artifact
does not come by there. -/
def IsFreeName (s : Store) (d : Disk) (artifact name : Text) : Prop :=
  ∀ draft, s.draftAt d artifact name = some draft →
    d.at? draft = none ∧ ∀ front, front <+: components artifact → walk d.here front ≠ draft

theorem makeDirs_goal {mode : Nat} {d d' : Disk} {dir last : Text} {steps : List Component}
    (hsteps : ∀ c ∈ steps, c.IsStep) (h : makeDirs mode d dir steps = (.ok last, d')) :
    d.goal last = walk (d.goal dir) steps := by
  induction steps generalizing d dir with
  | nil =>
    rw [makeDirs] at h
    cases h
    rfl
  | cons c steps ih =>
    have hc : c.IsStep := hsteps c List.mem_cons_self
    have hrest : ∀ other ∈ steps, other.IsStep := fun _ h => hsteps _ (List.mem_cons_of_mem _ h)
    rw [walk_cons, ← d.goal_join_step dir hc]
    unfold makeDirs at h
    simp only at h
    split at h
    · exact ih hrest h
    split at h
    · next hmade =>
      have hhere := (Disk.makeDir_paves hc hmade).here
      rw [← Disk.goal_congr hhere, ← Disk.goal_congr hhere]
      exact ih hrest h
    · exact ih hrest h
    · cases h

/-- Directories are made only where the path of the artifact comes by. -/
theorem at?_of_not_visited {s : Store} {d made : Disk} {artifact rest : Text} {place : Place}
    (hcomponents : components artifact = components s.root ++ components rest)
    (hpaves : d.Paves made (way (d.goal s.root) (components rest).dropLast))
    (h : ∀ front, front <+: components artifact → walk d.here front ≠ place) :
    made.at? place = d.at? place := by
  refine hpaves.at?_of_not_mem fun hmem => ?_
  obtain ⟨front, hfront, hwalk⟩ := exists_prefix_of_mem_way hmem
  refine h (components s.root ++ front) ?_ (by rw [walk_append, hwalk, Disk.goal])
  rw [hcomponents, List.prefix_append_right_inj]
  exact hfront.trans (List.dropLast_prefix _)

/-- **Storing by way of a draft comes to the same**, whatever free name the draft has, unless the
system refuses a step: then the call fails, and at most directories are new.  Up to the end the disk
holds new directories at most and the draft, so no moment shows a part of an artifact, and a step
that fails leaves nothing behind once the draft is taken away. -/
theorem writeVia_eq {name : Text} {s : Store} {d d' : Disk} {artifact body : Text}
    {header : Header} {result : Except Failure Unit} (sys : System) (hhere : ∀ n ∈ d.here, IsName n)
    (hfree : s.IsFreeName d artifact name) (h : s.write d artifact header body = (result, d')) :
    ∃ ended disks last, s.writeVia name sys d artifact header body = (ended, disks) ∧
      disks.getLast? = some last ∧
      ((ended = result ∧ last = d') ∨
        sys ≠ .willing ∧ (∃ f, ended = .error f) ∧ d.Paves last (s.outerWay d artifact)) ∧
      ∀ disk ∈ disks, disk = last ∨
        ∃ draft, s.draftAt d artifact name = some draft ∧
          s.OnlyMakes d (disk.erase draft) artifact := by
  unfold writeVia
  cases hmode : s.rootMode d with
  | error f =>
    rw [write, hmode] at h
    cases h
    exact ⟨_, [d], d, rfl, rfl, .inl ⟨rfl, rfl⟩, fun _ hdisk => .inl (List.mem_singleton.1 hdisk)⟩
  | ok mode =>
  cases hsteps : s.outerSteps artifact with
  | error f =>
    rw [write, hmode, hsteps] at h
    cases h
    exact ⟨_, [d], d, rfl, rfl, .inl ⟨rfl, rfl⟩, fun _ hdisk => .inl (List.mem_singleton.1 hdisk)⟩
  | ok steps =>
  obtain ⟨rest, time, rfl, -, hcomponents, houter, -, -⟩ := outerSteps_ok hmode hsteps
  have hway : s.outerWay d artifact = way (d.goal s.root) (components rest).dropLast := by
    rw [outerWay, hsteps]
    rfl
  have hdraft : s.draftAt d artifact name =
      some (walk (d.goal s.root) (components rest).dropLast ++ [name]) := by
    rw [draftAt, hsteps]
    rfl
  obtain ⟨hnone, hvisits⟩ := hfree _ hdraft
  have hbefore : ∃ draft, s.draftAt d artifact name = some draft ∧
      s.OnlyMakes d (d.erase draft) artifact :=
    ⟨_, hdraft, by rw [Disk.erase_of_at?_none hnone]; exact onlyMakes_refl s d artifact⟩
  have hfailed : ∀ made, ∀ disk ∈ [d, made], disk = made ∨
      ∃ draft, s.draftAt d artifact name = some draft ∧
        s.OnlyMakes d (disk.erase draft) artifact := by
    intro made
    simp only [List.mem_cons, List.not_mem_nil, or_false]
    rintro disk (rfl | rfl)
    · exact .inr hbefore
    · exact .inl rfl
  rw [write, hmode, hsteps] at h
  dsimp only at h ⊢
  rw [hway]
  rcases (makeDirsVia_cases mode sys d houter).symm with
    ⟨hsys, f, made, hrefused, hpaves⟩ | hsame
  · rw [hrefused]
    exact ⟨_, [d, made], made, rfl, rfl, .inr ⟨hsys, ⟨f, rfl⟩, hpaves⟩, hfailed made⟩
  rw [hsame]
  rcases hmade : makeDirs mode d s.root (components rest).dropLast with ⟨last, made⟩
  rw [hmade] at h
  have hpaves := makeDirs_paves houter hmade
  cases last with
  | error f =>
    cases h
    exact ⟨_, [d, d'], d', rfl, rfl, .inl ⟨rfl, rfl⟩, hfailed d'⟩
  | ok dir =>
  dsimp only at h ⊢
  cases htext : header.stamp body with
  | error f =>
    rw [htext] at h
    cases h
    exact ⟨_, [d, d'], d', rfl, rfl, .inl ⟨rfl, rfl⟩, hfailed d'⟩
  | ok text =>
  rw [htext] at h
  dsimp only at h ⊢
  have hgoal : made.goal dir = walk (d.goal s.root) (components rest).dropLast := by
    rw [Disk.goal_congr hpaves.here, makeDirs_goal houter hmade]
  have hempty := (at?_of_not_visited hcomponents hpaves hvisits).trans hnone
  rw [← hgoal] at hdraft hvisits hempty
  obtain ⟨ended, disks, last, hvia, hlast, hend, hdisks⟩ :=
    placeVia_cases sys.draft text mode (by rwa [hpaves.here]) hempty (by rwa [hpaves.here])
  have hplaced : result = (place made dir artifact text mode).map (fun _ => ()) ∧
      d' = (place made dir artifact text mode).toOption.getD made := by
    split at h <;> next hplace =>
      cases h
      rw [hplace]
      exact ⟨rfl, rfl⟩
  rw [hvia]
  refine ⟨ended, d :: disks, last, rfl, by rw [List.getLast?_cons, hlast]; rfl, ?_,
    fun disk hdisk => ?_⟩
  · rcases hend with ⟨rfl, rfl⟩ | ⟨hrefused, hfault, rfl⟩
    · exact .inl ⟨hplaced.1.symm, hplaced.2.symm⟩
    · exact .inr ⟨fun hsys => hrefused (hsys ▸ rfl), hfault, hpaves⟩
  · rcases List.mem_cons.1 hdisk with rfl | hdisk
    · exact .inr hbefore
    rcases hdisks disk hdisk with rfl | herase
    · exact .inl rfl
    · refine .inr ⟨_, hdraft, ?_⟩
      rw [herase]
      exact onlyMakes_of_makeDirs hmode hsteps hmade

/-! ## Refreshing -/

/-- **What a call that refreshes an artifact leaves**, by how it ends: in an error, of the compiler
or of any other step; with the artifact as it was; or with an artifact that it has stored. -/
structure Refreshes (s : Store) (d d' : Disk) (compile : Text → Except Diagnostic Text)
    (source artifact : Text) (failed fresh stored : Prop) : Prop where
  ends : failed ∨ fresh ∨ stored
  failed : failed → s.OnlyMakes d d' artifact
  refused : ∀ text problem, d.readText source = .ok text → compile text = .error problem → d' = d
  fresh : fresh → d' = d
  stored : stored → ∃ header text body whole, Header.ofTemplate d source = .ok header ∧
    d.readText source = .ok text ∧ compile text = .ok body ∧ header.stamp body = .ok whole ∧
    s.Stores d d' artifact whole

/-- **A refresh leaves all of an artifact or nothing but directories.** -/
theorem refresh_atomic {s : Store} {d d' : Disk} {compile : Text → Except Diagnostic Text}
    {source artifact : Text} {result : Except Diagnostic Bool}
    (h : s.refresh d compile source artifact = (result, d')) :
    s.Refreshes d d' compile source artifact (∃ problem, result = .error problem)
      (result = .ok false) (result = .ok true) := by
  have hends : (∃ problem, result = .error problem) ∨ result = .ok false ∨ result = .ok true := by
    match result with
    | .error problem => exact .inl ⟨problem, rfl⟩
    | .ok false => exact .inr (.inl rfl)
    | .ok true => exact .inr (.inr rfl)
  rcases refresh_cases h with
    ⟨⟨problem, rfl⟩, rfl⟩ | ⟨rfl, -, rfl⟩ |
      ⟨header, text, body, stored, hheader, htext, hbody, hwrite, hfresh, hstored⟩
  · exact ⟨hends, fun _ => onlyMakes_refl s _ artifact, fun _ _ _ _ => rfl, nofun, nofun⟩
  · exact ⟨hends, nofun, fun _ _ _ _ => rfl, fun _ => rfl, nofun⟩
  · refine ⟨hends, ?_, ?_, fun h => absurd h hfresh, ?_⟩
    · rintro ⟨problem, rfl⟩
      rcases write_atomic hwrite with ⟨-, hmakes⟩ | ⟨rfl, -⟩
      · exact hmakes
      · cases hstored.2 rfl
    · -- The compiler has taken the text, so it does not refuse it.
      intro text' problem htext' hproblem
      rw [Except.ok.inj (htext'.symm.trans htext), hbody] at hproblem
      cases hproblem
    · intro hresult
      rcases write_atomic hwrite with ⟨⟨f, rfl⟩, -⟩ | ⟨-, whole, hwhole, hstores⟩
      · cases hstored.1 hresult
      · exact ⟨header, text, body, whole, hheader, htext, hbody, hwhole, hstores⟩

end Store

/-- **Ensuring a template leaves all of its artifact or nothing but directories.** -/
theorem Engine.ensure_atomic {e : Engine} {d d' : Disk} {template : Text}
    {result : Except Diagnostic Outcome} (h : e.ensure d template = (result, d')) :
    e.store.Refreshes d d' e.compiler.compile (e.templatePath template) (e.artifactPath template)
      (∃ problem, result = .error problem) (result = .ok .fresh) (result = .ok .compiled) := by
  have hends : (∃ problem, result = .error problem) ∨ result = .ok .fresh ∨
      result = .ok .compiled := by
    match result with
    | .error problem => exact .inl ⟨problem, rfl⟩
    | .ok .fresh => exact .inr (.inl rfl)
    | .ok .compiled => exact .inr (.inr rfl)
  by_cases hcheck : e.config.checkScripts = true
  · obtain ⟨refreshed, hrefresh, hcompiled, hfresh⟩ := refresh_of_ensure hcheck h
    have hatomic := Store.refresh_atomic hrefresh
    refine ⟨hends, fun hfailed => hatomic.failed ?_, hatomic.refused,
      fun hend => hatomic.fresh (hfresh.1 hend), fun hend => hatomic.stored (hcompiled.1 hend)⟩
    obtain ⟨problem, rfl⟩ := hfailed
    rcases hatomic.ends with hfailed | hend | hend
    · exact hfailed
    · cases hfresh.2 hend
    · cases hcompiled.2 hend
  · -- Without checks nothing is stored.
    have hsame : d' = d ∧ result ≠ .ok .compiled := by
      unfold ensure at h
      simp only [hcheck, Bool.false_eq_true, if_false] at h
      split at h <;> cases h <;> exact ⟨rfl, nofun⟩
    obtain ⟨rfl, hresult⟩ := hsame
    exact ⟨hends, fun _ => Store.onlyMakes_refl _ _ _, fun _ _ _ _ => rfl, fun _ => rfl,
      fun hend => absurd hend hresult⟩

/-- **Storing is atomic**, for every disk: a call that writes or refreshes an artifact, or ensures a
template, leaves the files as they were and at most new directories on the way to the artifact if
it fails; nothing has changed if the compiler refuses the template or the artifact is fresh; and a
call that stores an artifact has changed that file alone, which holds the whole text.  A write whose
draft has a free name of its own passes through no other contents, and leaves no draft; and if the
system refuses a step of it, to set the permission bits of a directory or to fill, sync, grant or
move the draft, then the write fails and leaves new directories at most. -/
theorem storing_atomic (d : Disk) :
    (∀ (s : Store) artifact header body result d',
      s.write d artifact header body = (result, d') →
        (∀ f, result = .error f → s.OnlyMakes d d' artifact) ∧
        (result = .ok () → ∃ text, header.stamp body = .ok text ∧ s.Stores d d' artifact text) ∧
        ∀ name, (∀ n ∈ d.here, IsName n) → s.IsFreeName d artifact name →
          (∃ disks, s.writeVia name .willing d artifact header body = (result, disks) ∧
            disks.getLast? = some d' ∧
            ∀ disk ∈ disks, disk = d' ∨
              ∃ draft, s.draftAt d artifact name = some draft ∧
                s.OnlyMakes d (disk.erase draft) artifact) ∧
          ∀ sys, ∃ ended disks last, s.writeVia name sys d artifact header body = (ended, disks) ∧
            disks.getLast? = some last ∧
            ((ended = result ∧ last = d') ∨
              (∃ f, ended = .error f) ∧ d.Paves last (s.outerWay d artifact)) ∧
            ∀ disk ∈ disks, disk = last ∨
              ∃ draft, s.draftAt d artifact name = some draft ∧
                s.OnlyMakes d (disk.erase draft) artifact) ∧
    (∀ (s : Store) compile source artifact result d',
      s.refresh d compile source artifact = (result, d') →
        s.Refreshes d d' compile source artifact (∃ problem, result = .error problem)
          (result = .ok false) (result = .ok true)) ∧
    ∀ (e : Engine) template result d', e.ensure d template = (result, d') →
      e.store.Refreshes d d' e.compiler.compile (e.templatePath template) (e.artifactPath template)
        (∃ problem, result = .error problem) (result = .ok .fresh) (result = .ok .compiled) := by
  refine ⟨?_, ?_, ?_⟩
  · intro s artifact header body result d' h
    refine ⟨?_, ?_, fun name hhere hfree => ⟨?_, fun sys => ?_⟩⟩
    · rintro f rfl
      rcases Store.write_atomic h with ⟨-, hmakes⟩ | ⟨hok, -⟩
      · exact hmakes
      · cases hok
    · rintro rfl
      rcases Store.write_atomic h with ⟨⟨f, hf⟩, -⟩ | ⟨-, hstores⟩
      · cases hf
      · exact hstores
    · obtain ⟨ended, disks, last, hvia, hlast, ⟨rfl, rfl⟩ | ⟨hsys, -⟩, hdisks⟩ :=
        Store.writeVia_eq .willing hhere hfree h
      · exact ⟨disks, hvia, hlast, hdisks⟩
      · exact absurd rfl hsys
    · obtain ⟨ended, disks, last, hvia, hlast, hend, hdisks⟩ :=
        Store.writeVia_eq sys hhere hfree h
      exact ⟨ended, disks, last, hvia, hlast, hend.imp_right And.right, hdisks⟩
  · intro s compile source artifact result d' h
    exact Store.refresh_atomic h
  · intro e template result d' h
    exact Engine.ensure_atomic h

/-- One call that stores an artifact, one that fails with a directory made, one whose draft fills
the disk, and one that ensures a template. -/
theorem storing_atomic_sample :
    ∃ stored failed ensured f,
      Store.write ⟨"artifacts"⟩ .sample "artifacts/a/x.php" ⟨"h"⟩ "x" = (.ok (), stored) ∧
      (∃ text, Header.stamp ⟨"h"⟩ "x" = .ok text ∧
        Store.Stores ⟨"artifacts"⟩ .sample stored "artifacts/a/x.php" text) ∧
      (∃ disks, Store.writeVia ".tmpA" .willing ⟨"artifacts"⟩ .sample "artifacts/a/x.php" ⟨"h"⟩
          "x" = (.ok (), disks) ∧
        disks.getLast? = some stored) ∧
      (∃ disks last, Store.writeVia ".tmpA" ⟨fun _ => none, some (.filling 3, .noSpace)⟩
          ⟨"artifacts"⟩ .sample "artifacts/a/x.php" ⟨"h"⟩ "x" =
            (.error (.notWritten "/artifacts/a/.tmpA" .noSpace), disks) ∧
        disks.getLast? = some last ∧
        Disk.sample.Paves last (Store.outerWay ⟨"artifacts"⟩ .sample "artifacts/a/x.php")) ∧
      Store.write ⟨"artifacts"⟩ .sample "artifacts/a/x.php/" ⟨"h"⟩ "x" = (.error f, failed) ∧
      failed ≠ .sample ∧ Store.OnlyMakes ⟨"artifacts"⟩ .sample failed "artifacts/a/x.php/" ∧
      (Engine.mk .standard).ensure .sample "t" = (.ok .compiled, ensured) ∧
      ∃ whole, Store.Stores ⟨"artifacts"⟩ .sample ensured "artifacts/t.php" whole := by
  have hstored : (Store.write ⟨"artifacts"⟩ .sample "artifacts/a/x.php" ⟨"h"⟩ "x").1 = .ok () := by
    with_unfolding_all rfl
  have hfull : (Store.writeVia ".tmpA" ⟨fun _ => none, some (.filling 3, .noSpace)⟩ ⟨"artifacts"⟩
      .sample "artifacts/a/x.php" ⟨"h"⟩ "x").1 =
        .error (.notWritten "/artifacts/a/.tmpA" .noSpace) := by
    with_unfolding_all rfl
  have hfailed : (Store.write ⟨"artifacts"⟩ .sample "artifacts/a/x.php/" ⟨"h"⟩ "x").1 =
      .error (.notWritten "artifacts/a/x.php/" .notDirectory) := by
    with_unfolding_all rfl
  have hmade : (Store.write ⟨"artifacts"⟩ .sample "artifacts/a/x.php/" ⟨"h"⟩ "x").2 ≠ .sample :=
    fun h => absurd (congrArg Disk.entries h) (by decide +kernel)
  have hensured : ((Engine.mk .standard).ensure .sample "t").1 = .ok .compiled := by
    with_unfolding_all rfl
  have hfree : Store.IsFreeName ⟨"artifacts"⟩ .sample "artifacts/a/x.php" ".tmpA" := by
    have hplace : Store.draftAt ⟨"artifacts"⟩ .sample "artifacts/a/x.php" ".tmpA" =
        some (["artifacts", "a", ".tmpA"] : List Text) := by
      with_unfolding_all rfl
    have hcomponents : components "artifacts/a/x.php" =
        [.name "artifacts", .name "a", .name "x.php"] := by
      decide +kernel
    intro draft hdraft
    obtain rfl := Option.some.inj (hplace.symm.trans hdraft)
    refine ⟨by decide +kernel, fun front hfront => ?_⟩
    rw [hcomponents] at hfront
    simp only [List.prefix_cons_iff, List.prefix_nil] at hfront
    rcases hfront with rfl | ⟨_, rfl, rfl | ⟨_, rfl, rfl | ⟨_, rfl, rfl⟩⟩⟩ <;> decide +kernel
  obtain ⟨hwrite, -, hensure⟩ := storing_atomic .sample
  have hstores := hwrite _ _ _ _ _ _ (Prod.ext hstored rfl)
  have hmakes := hwrite _ _ _ _ _ _ (Prod.ext hfailed rfl)
  obtain ⟨-, -, -, whole, -, -, -, -, hwhole⟩ :=
    (hensure _ _ _ _ (Prod.ext hensured rfl)).stored rfl
  obtain ⟨⟨disks, hvia, hlast, -⟩, hsystem⟩ := hstores.2.2 ".tmpA" nofun hfree
  obtain ⟨ended, disks', last', hvia', hlast', hend, -⟩ :=
    hsystem ⟨fun _ => none, some (.filling 3, .noSpace)⟩
  rw [hvia'] at hfull
  obtain rfl : ended = _ := hfull
  rcases hend with ⟨hok, -⟩ | ⟨-, hpaves⟩
  · cases hok
  exact ⟨_, _, _, _, Prod.ext hstored rfl, hstores.2.1 rfl, ⟨disks, hvia, hlast⟩,
    ⟨disks', last', hvia', hlast', hpaves⟩, Prod.ext hfailed rfl, hmade, hmakes.1 _ rfl,
    Prod.ext hensured rfl, whole, hwhole⟩

end Stencil
