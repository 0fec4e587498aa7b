import Stencil.Proofs.Artifact.Confined
import Stencil.Proofs.Disk.Alike

/-!
# Proofs/Artifact/Draft — an artifact is written aside and then moved

    made ──begin──▸ · ──fill──▸ · ──set bits──▸ · ──move──▸ placed
                    └─────┬─────┴───────────────┴──take away──▸ made

`Store.place` puts an artifact on the disk in one go.  Here is the same in the steps that a system
takes, with the draft on the disk under a name of its own (`placeVia`).  Whatever free name the draft
has, the steps come to the same disk, and on the way there nothing but the draft is new
(`placeVia_eq`): a path is followed past places that it does not visit (`Alike`), so the draft is in
nobody's way.

Beyond what paths and permission bits forbid, a system may refuse any step, as a disk that is full
does.  Then the draft is taken away, and the disk is as it was (`placeVia_refused`); a directory
whose permission bits are not set stays (`makeDirsVia_cases`).
-/

namespace Stencil

namespace Table

variable {κ α : Type} [DecidableEq κ]

theorem erase_of_get?_none {t : Table κ α} {key : κ} (h : t.get? key = none) :
    t.erase key = t := by
  induction t with
  | nil => rfl
  | cons e t ih =>
    obtain ⟨k, v⟩ := e
    rw [get?_cons] at h
    split at h
    · cases h
    · next hne => rw [erase, if_neg hne, ih h]

variable [LT κ] [DecidableLT κ]

/-- **What was inserted can be erased again.** -/
theorem erase_insert {t : Table κ α} {key : κ} (h : t.get? key = none) (value : α) :
    (t.insert key value).erase key = t := by
  induction t with
  | nil => simp [insert, erase]
  | cons e t ih =>
    obtain ⟨k, v⟩ := e
    have htail := h
    rw [get?_cons] at htail
    split at htail
    · cases htail
    next hne =>
    rw [insert, if_neg hne]
    split
    · rw [erase, if_pos rfl, erase_of_get?_none h]
    · rw [erase, if_neg hne, ih htail]

theorem insert_insert (t : Table κ α) (key : κ) (first second : α) :
    (t.insert key first).insert key second = t.insert key second := by
  induction t with
  | nil => simp [insert]
  | cons e t ih =>
    obtain ⟨k, v⟩ := e
    by_cases hk : k = key
    · simp [insert, hk]
    by_cases hlt : key < k
    · simp [insert, hk, hlt]
    · rw [insert, if_neg hk, if_neg hlt, insert, if_neg hk, if_neg hlt, ih, insert, if_neg hk,
        if_neg hlt]

end Table

namespace Disk

open Stencil.Path

/-- The disk without what stands at a place. -/
def erase (d : Disk) (place : Place) : Disk := { d with entries := d.entries.erase place }

/-- The disk after a file is moved. -/
def move (d : Disk) (source target : Place) : Disk :=
  match d.at? source with
  | some entry => (d.erase source).put target entry
  | none => d

theorem erase_of_at?_none {d : Disk} {place : Place} (h : d.at? place = none) :
    d.erase place = d := by
  unfold erase
  rw [Table.erase_of_get?_none h]

theorem erase_put {d : Disk} {place : Place} (h : d.at? place = none) (entry : Entry) :
    (d.put place entry).erase place = d := by
  unfold erase put
  dsimp only
  rw [Table.erase_insert h]

/-- **A draft is all that is new**, whatever it holds. -/
theorem erase_of_mem_drafts {d disk : Disk} {place : Place} (h : d.at? place = none)
    {entries : List Entry} (hdisk : disk ∈ d :: entries.map (d.put place)) :
    disk.erase place = d := by
  rcases List.mem_cons.1 hdisk with rfl | hdisk
  · exact erase_of_at?_none h
  · obtain ⟨entry, -, rfl⟩ := List.mem_map.1 hdisk
    exact erase_put h entry

theorem put_put (d : Disk) (place : Place) (first second : Entry) :
    (d.put place first).put place second = d.put place second := by
  unfold put
  dsimp only
  rw [Table.insert_insert]

theorem move_put {d : Disk} {source : Place} (h : d.at? source = none) (target : Place)
    (entry : Entry) : (d.put source entry).move source target = d.put target entry := by
  have hat : (d.put source entry).at? source = some entry := by rw [at?_put, if_pos rfl]
  unfold move
  rw [hat]
  dsimp only
  rw [erase_put h]

end Disk

namespace Store

open Stencil.Path

/-! ## Storing by way of a draft -/

/-- The permission bits of a draft: nobody but its owner may touch it. -/
def draftMode : Nat := 0o600

/-- **A step with a draft that the system refuses.** -/
inductive Refusal
  /-- The draft does not take more than so many bytes. -/
  | filling (count : Nat)
  /-- The draft is not brought to the disk. -/
  | syncing
  /-- The draft does not get its permission bits. -/
  | granting
  | moving
  deriving DecidableEq, Repr

/-- **What a system refuses** that takes the steps, each time with the cause. -/
structure System where
  /-- The new directories whose permission bits are not set, and those that they have instead. -/
  dirs : Text → Option (Nat × FileError)
  draft : Option (Refusal × FileError)

/-- The system that refuses nothing. -/
def System.willing : System := ⟨fun _ => none, none⟩

/-- The result of placing an artifact whose draft has a name, and the disks on the way to it: the
draft is begun, filled and given its permission bits; then it is moved to the artifact, or taken
away if a step is refused or it cannot be moved. -/
def placeVia (name : Text) (refused : Option (Refusal × FileError)) (d : Disk)
    (dir artifact text : Text) (mode : Nat) : Except Failure Unit × List Disk :=
  match draftPlace d dir with
  | .error f => (.error f, [d])
  | .ok aside =>
    let path := Path.join (Path.join (Disk.placeText d.here) dir) name
    let draft := aside ++ [name]
    let begun := d.put draft (.file [] d.now draftMode)
    let filled := begun.put draft (.file (Text.utf8 text) d.now draftMode)
    let ready := filled.put draft (.file (Text.utf8 text) d.now mode)
    match refused with
    | some (.filling count, cause) =>
      let part := begun.put draft (.file ((Text.utf8 text).take count) d.now draftMode)
      (.error (.notWritten path cause), [d, begun, part, part.erase draft])
    | some (.syncing, cause) =>
      (.error (.notWritten path cause), [d, begun, filled, filled.erase draft])
    | some (.granting, cause) =>
      (.error (.notGranted path cause), [d, begun, filled, filled.erase draft])
    | some (.moving, cause) =>
      (.error (.notWritten artifact cause), [d, begun, filled, ready, ready.erase draft])
    | none =>
      match ready.moveTarget aside artifact with
      | .error cause =>
        (.error (.notWritten artifact cause), [d, begun, filled, ready, ready.erase draft])
      | .ok target => (.ok (), [d, begun, filled, ready, ready.move draft target])

/-- A draft lies in the directory that it is made for. -/
theorem draftPlace_ok {d : Disk} {dir : Text} {aside : Place} (hhere : ∀ n ∈ d.here, IsName n)
    (h : draftPlace d dir = .ok aside) : aside = d.goal dir := by
  unfold draftPlace at h
  split at h
  · cases h
  next outer houter =>
  cases h
  cases hplace : d.locateNew (draftPath d dir 6) with
  | error cause =>
    rw [hplace] at houter
    cases houter
  | ok place =>
  rw [hplace] at houter
  change d.openOuter place = _ at houter
  have hroot : d.goal (Disk.placeText d.here) = d.here := by
    have hslash := d.goal_placeText hhere false
    rwa [if_neg nofun, List.append_nil] at hslash
  have hname : components (".tmp" ++ List.replicate 6 '*') =
      [.name (".tmp" ++ List.replicate 6 '*')] := by decide
  unfold Disk.openOuter at houter
  split at houter
  · cases houter
  split at houter
  · cases houter
    rw [(Disk.locateNew_ok hplace).1, draftPath, Disk.goal_join, Disk.goal_join, hroot, hname]
    exact List.dropLast_concat
  · cases houter

/-- **Placing by way of a draft comes to the same**, and until then nothing but the draft is new. -/
theorem placeVia_eq {name : Text} {d : Disk} {dir artifact text : Text} {mode : Nat}
    {found : Except Failure Disk} (hhere : ∀ n ∈ d.here, IsName n)
    (hnone : d.at? (d.goal dir ++ [name]) = none)
    (hvisits : ∀ front, front <+: components artifact → walk d.here front ≠ d.goal dir ++ [name])
    (h : place d dir artifact text mode = found) :
    ∃ disks, placeVia name none d dir artifact text mode = (found.map fun _ => (), disks) ∧
      disks.getLast? = some (found.toOption.getD d) ∧
      ∀ disk ∈ disks, disk = found.toOption.getD d ∨ disk.erase (d.goal dir ++ [name]) = d := by
  have hmove : (d.put (d.goal dir ++ [name]) (.file (Text.utf8 text) d.now mode)).moveTarget
      (d.goal dir) artifact = d.moveTarget (d.goal dir) artifact := by
    refine Disk.moveTarget_congr rfl fun front hfront => ?_
    rw [Disk.at?_put, if_neg (hvisits front hfront).symm]
  -- The disks on the way, whatever the last one is.
  have hway : ∀ (entries : List Entry) (last : Disk),
      ∀ disk ∈ (d :: entries.map (d.put (d.goal dir ++ [name]))) ++ [last],
        disk = last ∨ disk.erase (d.goal dir ++ [name]) = d := by
    intro entries last disk hdisk
    rcases List.mem_append.1 hdisk with hdisk | hdisk
    · exact .inr (Disk.erase_of_mem_drafts hnone hdisk)
    · exact .inl (List.mem_singleton.1 hdisk)
  unfold placeVia
  unfold place at h
  cases haside : draftPlace d dir with
  | error f =>
    rw [haside] at h
    dsimp only at h ⊢
    subst h
    exact ⟨[d], rfl, rfl, fun disk hdisk => .inl (List.mem_singleton.1 hdisk)⟩
  | ok aside =>
    obtain rfl := draftPlace_ok hhere haside
    rw [haside] at h
    dsimp only at h ⊢
    rw [Disk.put_put, Disk.put_put, hmove]
    cases htarget : d.moveTarget (d.goal dir) artifact with
    | error cause =>
      rw [htarget] at h
      dsimp only at h ⊢
      subst h
      refine ⟨_, rfl, congrArg some (Disk.erase_put hnone _), ?_⟩
      rw [Disk.erase_put hnone, Disk.put_put]
      exact hway [_, _, _] d
    | ok target =>
      rw [htarget] at h
      dsimp only at h ⊢
      subst h
      refine ⟨_, rfl, congrArg some (Disk.move_put hnone _ _), ?_⟩
      rw [Disk.move_put hnone, Disk.put_put]
      exact hway [_, _, _] _

/-- **A draft that is refused is taken away**: the disk is as it was, and until then nothing but the
draft is new. -/
theorem placeVia_refused {name : Text} {refused : Refusal × FileError} {d : Disk}
    {dir artifact text : Text} {mode : Nat} (hhere : ∀ n ∈ d.here, IsName n)
    (hnone : d.at? (d.goal dir ++ [name]) = none) :
    ∃ f disks, placeVia name (some refused) d dir artifact text mode = (.error f, disks) ∧
      disks.getLast? = some d ∧ ∀ disk ∈ disks, disk.erase (d.goal dir ++ [name]) = d := by
  have hsame : d.erase (d.goal dir ++ [name]) = d := Disk.erase_of_at?_none hnone
  have hdraft : ∀ entry, (d.put (d.goal dir ++ [name]) entry).erase (d.goal dir ++ [name]) = d :=
    Disk.erase_put hnone
  unfold placeVia
  cases haside : draftPlace d dir with
  | error f =>
    refine ⟨f, [d], rfl, rfl, fun disk hdisk => ?_⟩
    rw [List.mem_singleton.1 hdisk, hsame]
  | ok aside =>
    obtain rfl := draftPlace_ok hhere haside
    obtain ⟨step, cause⟩ := refused
    cases step with
    | filling count | syncing | granting | moving =>
      refine ⟨_, _, rfl, ?_, ?_⟩ <;>
        simp [Disk.put_put, hdraft, hsame]

/-- **Placing by way of a draft comes to the same**, or to nothing if a step is refused; until then
nothing but the draft is new. -/
theorem placeVia_cases {name : Text} {d : Disk} {dir artifact : Text}
    (refused : Option (Refusal × FileError)) (text : Text) (mode : Nat)
    (hhere : ∀ n ∈ d.here, IsName n) (hnone : d.at? (d.goal dir ++ [name]) = none)
    (hvisits : ∀ front, front <+: components artifact → walk d.here front ≠ d.goal dir ++ [name]) :
    ∃ ended disks last, placeVia name refused d dir artifact text mode = (ended, disks) ∧
      disks.getLast? = some last ∧
      ((ended = (place d dir artifact text mode).map (fun _ => ()) ∧
          last = (place d dir artifact text mode).toOption.getD d) ∨
        refused ≠ none ∧ (∃ f, ended = .error f) ∧ last = d) ∧
      ∀ disk ∈ disks, disk = last ∨ disk.erase (d.goal dir ++ [name]) = d := by
  cases refused with
  | none =>
    obtain ⟨disks, hvia, hlast, hdisks⟩ := placeVia_eq hhere hnone hvisits rfl
    exact ⟨_, disks, _, hvia, hlast, .inl ⟨rfl, rfl⟩, hdisks⟩
  | some refusal =>
    obtain ⟨f, disks, hvia, hlast, hdisks⟩ := placeVia_refused hhere hnone
    exact ⟨_, disks, d, hvia, hlast, .inr ⟨nofun, ⟨f, rfl⟩, rfl⟩,
      fun disk hdisk => .inr (hdisks disk hdisk)⟩

/-! ## Making directories -/

/-- The directories on the way from `dir`, made by a system that may refuse to set their permission
bits. -/
def makeDirsVia (sys : System) (mode : Nat) (d : Disk) (dir : Text) :
    List Component → Except Failure Text × Disk
  | [] => (.ok dir, d)
  | step :: steps =>
    let dir := Path.join dir step.text
    if d.isDir dir then makeDirsVia sys mode d dir steps
    else
      let bits := ((sys.dirs dir).map Prod.fst).getD mode
      match d.makeDir dir fun _ => bits with
      | .ok d =>
        match sys.dirs dir with
        | some (_, cause) => (.error (.notGranted dir cause), d)
        | none => makeDirsVia sys mode d dir steps
      | .error .alreadyExists => makeDirsVia sys mode d dir steps
      | .error cause => (.error (.notMade dir cause), d)

/-- Whether a directory can be made is not up to its permission bits. -/
theorem makeDir_error {d : Disk} {p : Text} {mode mode' : Nat → Nat} {cause : FileError}
    (h : d.makeDir p mode = .error cause) : d.makeDir p mode' = .error cause := by
  unfold Disk.makeDir at h ⊢
  split at h
  · exact h
  split at h
  · next hsome =>
    rw [if_pos hsome]
    exact h
  next hnone =>
  rw [if_neg hnone]
  split at h
  · exact h
  · cases h

/-- **A system makes the directories**, or refuses the permission bits of one that it has made. -/
theorem makeDirsVia_cases {dir : Text} {steps : List Component} (mode : Nat) (sys : System)
    (d : Disk) (hsteps : ∀ c ∈ steps, c.IsStep) :
    makeDirsVia sys mode d dir steps = makeDirs mode d dir steps ∨
      sys ≠ .willing ∧ ∃ f made, makeDirsVia sys mode d dir steps = (.error f, made) ∧
        d.Paves made (way (d.goal dir) steps) := by
  induction steps generalizing d dir with
  | nil => exact .inl rfl
  | cons c steps ih =>
    have hc : c.IsStep := hsteps c List.mem_cons_self
    have hrest : ∀ other ∈ steps, other.IsStep := fun _ h => hsteps _ (List.mem_cons_of_mem _ h)
    have hnext : ∀ d', d.Paves d' (way (d.goal dir) [c]) →
        makeDirsVia sys mode d' (join dir c.text) steps = makeDirs mode d' (join dir c.text) steps ∨
          sys ≠ .willing ∧ ∃ f made,
            makeDirsVia sys mode d' (join dir c.text) steps = (.error f, made) ∧
            d.Paves made (way (d.goal dir) [c] ++ way (d.goal (join dir c.text)) steps) := by
      intro d' hstep
      refine (ih d' hrest).imp_right fun h => ⟨h.1, ?_⟩
      obtain ⟨-, f, made, hmade, hpaves⟩ := h
      rw [Disk.goal_congr hstep.here] at hpaves
      exact ⟨f, made, hmade, hstep.trans hpaves⟩
    rw [d.way_cons_step dir hc, makeDirsVia, makeDirs]
    dsimp only
    by_cases hdir : d.isDir (join dir c.text) = true
    · rw [if_pos hdir, if_pos hdir]
      exact hnext d (.refl _ _)
    rw [if_neg hdir, if_neg hdir]
    cases hrefused : sys.dirs (join dir c.text) with
    | none =>
      simp only [Option.map_none, Option.getD_none]
      cases hmake : d.makeDir (join dir c.text) fun _ => mode with
      | ok d' => exact hnext d' (Disk.makeDir_paves hc hmake)
      | error cause =>
        cases cause with
        | alreadyExists => exact hnext d (.refl _ _)
        | _ => exact .inl rfl
    | some refused =>
      have hsys : sys ≠ .willing := by
        rintro rfl
        cases hrefused
      simp only [Option.map_some, Option.getD_some]
      cases hmake : d.makeDir (join dir c.text) fun _ => refused.1 with
      | ok made =>
        exact .inr ⟨hsys, _, made, rfl, (Disk.makeDir_paves hc hmake).trans (.refl _ _)⟩
      | error cause =>
        rw [makeDir_error hmake]
        cases cause with
        | alreadyExists => exact hnext d (.refl _ _)
        | _ => exact .inl rfl

end Store

end Stencil
