import Stencil.Disk.Edit
import Stencil.Expr.Reader
import Stencil.Proofs.Disk.Follow

/-!
# Proofs/Disk/Within — changes below a place

    d ──edit below root──▸ d'

Whoever edits what lies strictly below a directory leaves everything else as it is: the directory
itself, what lies beside it, and the names of all places.  `Disk.Within` says so, and each edit of
`Disk/Edit` is within the directory that its path leads below.  An edit that makes directories is,
if nothing else is missing on the way.
-/

namespace Stencil

namespace Table

variable {κ α : Type} [DecidableEq κ]

/-- **Filtering by key keeps the other keys.** -/
theorem get?_filter (t : Table κ α) (keep : κ → Bool) (key : κ) :
    get? (t.filter fun e => keep e.1) key = if keep key then t.get? key else none := by
  induction t with
  | nil => simp
  | cons e t ih =>
    obtain ⟨k, v⟩ := e
    rw [List.filter_cons]
    by_cases hkey : k = key
    · subst hkey
      cases hkeep : keep k with
      | true => rw [if_pos rfl, get?_cons, if_pos rfl, get?_cons, if_pos rfl, if_pos rfl]
      | false =>
        rw [if_neg Bool.false_ne_true, ih, hkeep, if_neg Bool.false_ne_true,
          if_neg Bool.false_ne_true]
    · rw [get?_cons, if_neg hkey, ← ih]
      split
      · rw [get?_cons, if_neg hkey]
      · rfl

theorem mem_of_get?_eq_some {t : Table κ α} {key : κ} {value : α}
    (h : t.get? key = some value) : (key, value) ∈ t := by
  induction t with
  | nil => cases h
  | cons e t ih =>
    obtain ⟨k, v⟩ := e
    rw [get?_cons] at h
    split at h
    · next hkey =>
      cases h
      exact hkey ▸ List.mem_cons_self
    · exact List.mem_cons_of_mem _ (ih h)

theorem isSome_get?_of_mem {t : Table κ α} {key : κ} {value : α} (h : (key, value) ∈ t) :
    (t.get? key).isSome := by
  induction t with
  | nil => cases h
  | cons e t ih =>
    obtain ⟨k, v⟩ := e
    rw [get?_cons]
    split
    · rfl
    · next hne =>
      rcases List.mem_cons.1 h with heq | hmem
      · cases heq
        exact absurd rfl hne
      · exact ih hmem

end Table

namespace Disk

open Stencil.Path

/-! ## Names -/

/-- **A disk whose places are made of names.** -/
structure Named (d : Disk) : Prop where
  here : ∀ n ∈ d.here, IsName n
  places : ∀ place, (d.at? place).isSome → ∀ n ∈ place, IsName n

theorem named_iff {d : Disk} : d.Named ↔
    (∀ n ∈ d.here, IsName n) ∧ ∀ e ∈ d.entries, ∀ n ∈ e.1, IsName n := by
  refine ⟨fun h => ⟨h.here, fun e he => h.places e.1 (Table.isSome_get?_of_mem he)⟩, fun h => ?_⟩
  refine ⟨h.1, fun place hsome => ?_⟩
  obtain ⟨entry, hentry⟩ := Option.isSome_iff_exists.1 hsome
  exact h.2 _ (Table.mem_of_get?_eq_some hentry)

instance (d : Disk) : Decidable d.Named := decidable_of_iff _ named_iff.symm

theorem Named.goal {d : Disk} (h : d.Named) (p : Text) : ∀ n ∈ d.goal p, IsName n :=
  isName_of_mem_goal h.here p

theorem Named.way {d : Disk} (h : d.Named) {cs : List Component}
    (hcs : ∀ n, .name n ∈ cs → IsName n) {place : Place} (hplace : place ∈ way d.here cs) :
    ∀ n ∈ place, IsName n := by
  obtain ⟨front, hfront, rfl⟩ := exists_prefix_of_mem_way hplace
  exact isName_of_mem_walk h.here fun n hn => hcs n (hfront.subset hn)

/-! ## Changes below a place -/

/-- **A change below a place**: all else stays as it is, and places stay made of names. -/
structure Within (root : Place) (d d' : Disk) : Prop where
  here : d'.here = d.here
  zone : d'.zone = d.zone
  kept : ∀ place, ¬ Below root place → d'.at? place = d.at? place
  named : d.Named → d'.Named

theorem Within.refl (root : Place) (d : Disk) : Within root d d :=
  ⟨rfl, rfl, fun _ _ => rfl, id⟩

theorem Within.trans {root : Place} {d d' d'' : Disk} (h : Within root d d')
    (h' : Within root d' d'') : Within root d d'' :=
  ⟨h'.here.trans h.here, h'.zone.trans h.zone,
    fun place hplace => (h'.kept place hplace).trans (h.kept place hplace),
    fun hnamed => h'.named (h.named hnamed)⟩

theorem within_put {root : Place} {d : Disk} {place : Place} {entry : Entry}
    (hplace : Below root place) (hnames : d.Named → ∀ n ∈ place, IsName n) :
    Within root d (d.put place entry) := by
  refine ⟨rfl, rfl, fun other hother => ?_, fun hnamed => ⟨hnamed.here, fun other hother => ?_⟩⟩
  · rw [at?_put, if_neg]
    rintro rfl
    exact hother hplace
  · rw [at?_put] at hother
    split at hother
    · next heq => exact heq ▸ hnames hnamed
    · exact hnamed.places other hother

theorem within_put_goal {root : Place} {d : Disk} {p : Text} {entry : Entry}
    (h : Below root (d.goal p)) : Within root d (d.put (d.goal p) entry) :=
  within_put h fun hnamed => hnamed.goal p

/-- Directories that are made are within the root if nothing else is missing on the way. -/
theorem within_of_paves {root : Place} {d d' : Disk} {places : List Place}
    (h : Paves d d' places) (hnames : d.Named → ∀ place ∈ places, ∀ n ∈ place, IsName n)
    (hmissing : ∀ place ∈ places, d.at? place = none → Below root place) :
    Within root d d' := by
  refine ⟨h.here, h.zone, fun place hplace => ?_, fun hnamed => ⟨h.here ▸ hnamed.here, ?_⟩⟩
  · refine Decidable.of_not_not fun hchange => ?_
    obtain ⟨hmem, hnone, -⟩ := h.made place hchange
    exact hplace (hmissing place hmem hnone)
  · intro place hsome
    by_cases hchange : d'.at? place = d.at? place
    · exact hnamed.places place (hchange ▸ hsome)
    · exact hnames hnamed place (h.made place hchange).1

/-! ## Making directories -/

theorem makeWay_paves {d d' : Disk} {dir : Text} {steps : List Component}
    (hsteps : ∀ c ∈ steps, c.IsStep) (h : d.makeWay dir steps = .ok d') :
    Paves d d' (way (d.goal dir) steps) := by
  induction steps generalizing d dir with
  | nil =>
    cases h
    exact .refl _ _
  | cons c steps ih =>
    have hc : c.IsStep := hsteps c List.mem_cons_self
    have hrest : ∀ other ∈ steps, other.IsStep := fun _ h => hsteps _ (List.mem_cons_of_mem _ h)
    rw [d.way_cons_step dir hc]
    unfold makeWay at h
    simp only at h
    split at h
    · exact (Paves.refl d _).trans (ih hrest h)
    split at h
    · next hmade =>
      have hstep := makeDir_paves hc hmade
      rw [← goal_congr hstep.here (join dir c.text)]
      exact hstep.trans (ih hrest h)
    · cases h

/-- **The way of a path is made along its places.**  The root and the working directory are never
made. -/
theorem makeWay_components_paves {d d' : Disk} {p : Text} {cs : List Component}
    (hcs : cs <+: components p) (h : d.makeWay [] cs = .ok d') :
    Paves d d' (way d.here cs) := by
  have hlead : ∀ (c : Component) (steps : List Component), (∀ c ∈ steps, c.IsStep) →
      d.locateNew (join [] c.text) = .error .alreadyExists →
      d.makeWay [] (c :: steps) = .ok d' →
      Paves d d' (way (d.goal (join [] c.text)) steps) := by
    intro c steps hsteps hnew hmade
    rw [makeWay] at hmade
    split at hmade
    · exact makeWay_paves hsteps hmade
    · rw [makeDir, hnew] at hmade
      cases hmade
  obtain ⟨steps, hsteps, hp⟩ := components_cases p
  cases cs with
  | nil =>
    cases h
    exact .refl _ _
  | cons c cs =>
    rcases hp with hp | hp | hp <;> rw [hp] at hcs
    · exact makeWay_paves (fun _ hc => hsteps _ (hcs.subset hc)) h
    · obtain ⟨rfl, hrest⟩ := List.cons_prefix_cons.1 hcs
      exact hlead .root cs (fun _ hc => hsteps _ (hrest.subset hc)) rfl h
    · obtain ⟨rfl, hrest⟩ := List.cons_prefix_cons.1 hcs
      exact hlead .here cs (fun _ hc => hsteps _ (hrest.subset hc)) rfl h

/-! ## Edits -/

section Edits

variable {root : Place} {d d' : Disk} {p : Text}

theorem makeWay_within {cs : List Component} (hcs : cs <+: components p)
    (hway : ∀ place ∈ way d.here (components p), d.at? place = none → Below root place)
    (h : d.makeWay [] cs = .ok d') : Within root d d' := by
  refine within_of_paves (makeWay_components_paves hcs h) (fun hnamed place hplace =>
    hnamed.way (fun n hn => isName_of_mem_components (hcs.subset hn)) hplace)
    fun place hplace => hway place ?_
  obtain ⟨back, hback⟩ := hcs
  rw [← hback, way_append]
  exact List.mem_append_left _ hplace

theorem makeTree_within
    (hway : ∀ place ∈ way d.here (components p), d.at? place = none → Below root place)
    (h : d.makeTree p = .ok d') : Within root d d' :=
  makeWay_within (List.prefix_refl _) hway h

theorem write_within {content : Bytes} {time : Instant} (hp : Below root (d.goal p))
    (hway : ∀ place ∈ way d.here (components p), d.at? place = none → Below root place)
    (h : d.write p content time = .ok d') : Within root d d' := by
  obtain ⟨made, hmade, h⟩ := bind_eq_ok_iff.1 h
  obtain ⟨place, hplace, h⟩ := bind_eq_ok_iff.1 h
  have hwithin : Within root d made := makeWay_within (List.dropLast_prefix _) hway hmade
  have hput : ∀ entry, Within root d (made.put place entry) := by
    intro entry
    rw [(locateNew_ok hplace).1]
    exact hwithin.trans (within_put_goal (goal_congr hwithin.here p ▸ hp))
  split at h
  · cases h
    exact hput _
  · cases h
    exact hput _
  · cases h

theorem modify_within {change : Entry → Except FileError Entry} (hp : Below root (d.goal p))
    (h : d.modify p change = .ok d') : Within root d d' := by
  obtain ⟨place, hplace, h⟩ := bind_eq_ok_iff.1 h
  obtain ⟨entry, -, h⟩ := bind_eq_ok_iff.1 h
  obtain ⟨changed, -, h⟩ := bind_eq_ok_iff.1 h
  cases h
  rw [(locate_ok hplace).1]
  exact within_put_goal hp

theorem copy_within {goal : Text} (hgoal : Below root (d.goal goal))
    (h : d.copy p goal = .ok d') : Within root d d' := by
  obtain ⟨entry, -, h⟩ := bind_eq_ok_iff.1 h
  cases entry with
  | dir => cases h
  | file content time mode =>
    obtain ⟨place, hplace, h⟩ := bind_eq_ok_iff.1 h
    cases h
    rw [(locateNew_ok hplace).1]
    exact within_put_goal hgoal

theorem below?_eq_some_iff {place other : Place} {names : List Text} :
    below? place other = some names ↔ other = place ++ names := by
  induction place generalizing other with
  | nil => simp [below?, eq_comm]
  | cons n place ih =>
    cases other with
    | nil => simp [below?]
    | cons m other =>
      rw [below?]
      split
      · next hn => simp [ih, hn]
      · next hn => simp [Ne.symm hn]

theorem at?_removeAt_other {place other : Place} (h : ¬ place <+: other) :
    (d.removeAt place).at? other = d.at? other := by
  have hnone : below? place other = none := by
    refine Option.eq_none_iff_forall_ne_some.2 fun names hnames => h ?_
    rw [below?_eq_some_iff.1 hnames]
    exact List.prefix_append _ _
  unfold removeAt at?
  simp only
  rw [Table.get?_filter d.entries (fun k => (below? place k).isNone), hnone]
  rfl

theorem removeAt_within {place : Place} (h : Below root place) :
    Within root d (d.removeAt place) := by
  refine ⟨rfl, rfl, fun other hother => ?_, fun hnamed => ⟨hnamed.here, fun other hsome => ?_⟩⟩
  · exact at?_removeAt_other fun hprefix => hother (h.mono hprefix)
  · refine hnamed.places other ?_
    unfold removeAt at? at hsome
    simp only at hsome
    rw [Table.get?_filter d.entries (fun k => (below? place k).isNone)] at hsome
    split at hsome
    · exact hsome
    · cases hsome

theorem removeTree_within (hp : Below root (d.goal p)) (h : d.removeTree p = .ok d') :
    Within root d d' := by
  obtain ⟨place, hplace, h⟩ := bind_eq_ok_iff.1 h
  cases h
  rw [(locate_ok hplace).1]
  exact removeAt_within hp

/-- **A file is removed at the place of its path.** -/
theorem removeTarget_ok {place : Place} (h : d.removeTarget p = .ok place) :
    place = d.goal p ∧ ∃ content time mode, d.at? place = some (.file content time mode) := by
  unfold removeTarget at h
  split at h
  · cases h
  extract_lets segments named at h
  split at h
  · cases h
  next name hlast =>
  split at h
  · cases h
  next found hfound =>
  split at h
  · cases h
  next hdots =>
  split at h
  · cases h
  next entry hentry =>
  split at h
  · cases h
  next hlength =>
  split at h
  · cases h
  split at h
  · cases h
  next hfile =>
  cases h
  obtain ⟨-, -, -, -, -, -, -, -, -, -, -, -, hgoal⟩ :=
    placeIn_last rfl hlast hfound (not_or.1 hdots) (Nat.le_of_not_lt hlength)
  cases entry with
  | dir => exact absurd rfl hfile
  | file content time mode => exact ⟨hgoal, content, time, mode, hentry⟩

theorem remove_within (hp : Below root (d.goal p)) (h : d.remove p = .ok d') :
    Within root d d' := by
  obtain ⟨place, hplace, h⟩ := bind_eq_ok_iff.1 h
  cases h
  rw [(removeTarget_ok hplace).1]
  exact removeAt_within hp

/-- Putting entries one after the other is within the root if each of them is. -/
theorem foldl_put_within {l : List (Place × Entry)}
    (h : ∀ e ∈ l, Below root e.1 ∧ ∀ n ∈ e.1, IsName n) :
    Within root d (l.foldl (fun d (place, entry) => d.put place entry) d) := by
  induction l generalizing d with
  | nil => exact .refl _ _
  | cons e l ih =>
    obtain ⟨hbelow, hnames⟩ := h e List.mem_cons_self
    exact (within_put hbelow fun _ => hnames).trans
      (ih fun other hother => h other (List.mem_cons_of_mem _ hother))

theorem rename_within {goal : Text} (hnamed : d.Named) (hp : Below root (d.goal p))
    (hgoal : Below root (d.goal goal)) (h : d.rename p goal = .ok d') : Within root d d' := by
  obtain ⟨source, hsource, h⟩ := bind_eq_ok_iff.1 h
  obtain ⟨target, htarget, h⟩ := bind_eq_ok_iff.1 h
  cases h
  rw [(locate_ok hsource).1, (locateNew_ok htarget).1]
  refine ((removeAt_within hp).trans (removeAt_within hgoal)).trans (foldl_put_within ?_)
  intro e he
  obtain ⟨⟨place, entry⟩, hmem, hmoved⟩ := List.mem_filterMap.1 he
  obtain ⟨names, hnames, rfl⟩ := Option.map_eq_some_iff.1 hmoved
  have hplace := hnamed.places place (Table.isSome_get?_of_mem hmem)
  rw [below?_eq_some_iff.1 hnames] at hplace
  refine ⟨hgoal.mono (List.prefix_append _ _), fun n hn => ?_⟩
  rcases List.mem_append.1 hn with hn | hn
  · exact hnamed.goal goal n hn
  · exact hplace n (List.mem_append_right _ hn)

end Edits

end Disk

end Stencil
