import Stencil.Proofs.Disk.Follow

/-!
# Proofs/Disk/Alike — disks that a path cannot tell apart

    d   · ──▸ · ──▸ ·          the places that a path visits
    d'  · ──▸ · ──▸ ·          hold the same on both disks

An operation on a path looks at the places that the path visits, and at no others.  So two disks
that are `Alike` along a path give the same answers for it, whatever else differs.  A path that leads
to a directory visits directories only, and a disk that keeps these is alike (`Extends.alike`).
-/

namespace Stencil

namespace Disk

open Stencil.Path

/-! ## Places that a path does not visit -/

/-- Two disks look the same along components. -/
def Alike (d d' : Disk) (start : Place) (cs : List Component) : Prop :=
  ∀ front, front <+: cs → d'.at? (walk start front) = d.at? (walk start front)

section Alike

variable {d d' : Disk} {start : Place}

theorem Alike.first {cs : List Component} (h : Alike d d' start cs) : d'.at? start = d.at? start :=
  h [] List.nil_prefix

theorem Alike.last {cs : List Component} (h : Alike d d' start cs) :
    d'.at? (walk start cs) = d.at? (walk start cs) :=
  h cs (List.prefix_refl cs)

theorem Alike.tail {c : Component} {cs : List Component} (h : Alike d d' start (c :: cs)) :
    Alike d d' (c.after start) cs :=
  fun front hfront => h (c :: front) ((List.prefix_cons_inj c).2 hfront)

theorem Alike.mono {a cs : List Component} (h : Alike d d' start cs) (ha : a <+: cs) :
    Alike d d' start a :=
  fun front hfront => h front (hfront.trans ha)

/-- **Following looks at visited places only.** -/
theorem follow_congr {l : List Text} (h : Alike d d' start (bodyComponents l)) :
    d'.follow start l = d.follow start l := by
  induction l generalizing start with
  | nil => rfl
  | cons s l ih =>
    unfold follow
    rw [h.first]
    split
    · rfl
    · rfl
    split
    · next hempty =>
      rw [bodyComponents_silent (by simp [isSilent, hempty])] at h
      exact ih h
    next hempty =>
    split
    · rfl
    split
    · next hdot =>
      rw [hdot, bodyComponents_silent rfl] at h
      exact ih h
    next hdot =>
    rw [bodyComponents_cons (by simp [isSilent, hempty, hdot])] at h
    split
    · next hup =>
      rw [component, if_pos hup] at h
      exact ih h.tail
    next hup =>
    rw [component, if_neg hup] at h
    split
    · rfl
    have hnext : d'.at? (start ++ [s]) = d.at? (start ++ [s]) := h.tail.first
    have hfollow : d'.follow (start ++ [s]) l = d.follow (start ++ [s]) l := ih h.tail
    rw [hnext, hfollow]

theorem placeIn_congr {outer : List Text} {name : Text}
    (h : Alike d d' start (bodyComponents outer)) :
    d'.placeIn start outer name = d.placeIn start outer name := by
  unfold placeIn
  rw [follow_congr h]
  split
  · rfl
  next place hplace =>
  rw [(follow_ok hplace).1, h.last]

theorem Alike.origin {p : Text} (h : Alike d d' d.here (components p)) :
    Alike d d' (d.origin p).1 (bodyComponents (d.origin p).2) := by
  cases hp : isAbsolute p with
  | true =>
    obtain ⟨rest, rfl⟩ := List.head?_eq_some_iff.1 (beq_iff_eq.1 hp)
    exact h.tail
  | false =>
    rw [components_relative hp] at h
    rw [origin_relative d hp]
    split at h
    · exact h.tail
    · exact h

/-- **Moving looks at visited places only.** -/
theorem moveTarget_congr_origin {source : Place} {p : Text} (hhere : d'.here = d.here)
    (h : Alike d d' (d.origin p).1 (bodyComponents (d.origin p).2)) :
    d'.moveTarget source p = d.moveTarget source p := by
  unfold moveTarget
  rw [origin_congr hhere]
  split
  · rfl
  dsimp only
  split
  · rfl
  next name hlast =>
  -- The segments up to the last one that is not empty say all there is to say.
  have hnamed : Alike d d' (d.origin p).1
      (bodyComponents ((d.origin p).2.reverse.dropWhile List.isEmpty).reverse) := by
    refine h.mono ?_
    obtain ⟨back, hback⟩ : ((d.origin p).2.reverse.dropWhile List.isEmpty).reverse <+:
        (d.origin p).2 := by
      rw [← List.reverse_suffix, List.reverse_reverse]
      exact List.dropWhile_suffix _
    conv => rhs; rw [← hback, bodyComponents_append]
    exact List.prefix_append _ _
  have hne : name.isEmpty = false := by
    have := List.head?_dropWhile_not List.isEmpty (d.origin p).2.reverse
    rw [List.getLast?_reverse] at hlast
    rw [hlast] at this
    exact this
  obtain ⟨outer, houter⟩ := List.getLast?_eq_some_iff.1 hlast
  rw [houter] at hnamed ⊢
  rw [List.dropLast_concat]
  rw [bodyComponents_append] at hnamed
  rw [placeIn_congr (hnamed.mono (List.prefix_append _ _))]
  split
  · rfl
  next target htarget =>
  split
  · rfl
  next hdots =>
  split
  · rfl
  split
  · rfl
  rw [not_or] at hdots
  have hsilent : isSilent name = false := by simp [isSilent, hne, hdots.1]
  rw [bodyComponents_cons hsilent, component, if_neg hdots.2] at hnamed
  obtain ⟨dir, time, mode, hdir, -, -, -, rfl⟩ := placeIn_ok htarget
  obtain rfl := (follow_ok hdir).1
  have hat : d'.at? (walk (d.origin p).1 (bodyComponents outer) ++ [name]) =
      d.at? (walk (d.origin p).1 (bodyComponents outer) ++ [name]) := by
    have hlast := hnamed.last
    rw [walk_append] at hlast
    exact hlast
  have hopen : d'.openOuter (walk (d.origin p).1 (bodyComponents outer) ++ [name]) =
      d.openOuter (walk (d.origin p).1 (bodyComponents outer) ++ [name]) := by
    unfold openOuter
    rw [List.dropLast_concat, (hnamed.mono (List.prefix_append _ _)).last]
  rw [hopen, hat]

theorem moveTarget_congr {source : Place} {p : Text} (hhere : d'.here = d.here)
    (h : Alike d d' d.here (components p)) : d'.moveTarget source p = d.moveTarget source p :=
  moveTarget_congr_origin hhere h.origin

/-! ## Looking up -/

section Lookup

variable {p : Text} (hhere : d'.here = d.here)
  (h : Alike d d' (d.origin p).1 (bodyComponents (d.origin p).2))

include hhere h

theorem locate_congr : d'.locate p = d.locate p := by
  unfold locate
  rw [origin_congr hhere]
  split
  · rfl
  · exact follow_congr h

theorem entry_congr : d'.entry p = d.entry p := by
  unfold Disk.entry
  rw [locate_congr hhere h]
  split
  · rfl
  next place hplace =>
  rw [(locate_ok hplace).1, (d.steps_origin p).1, h.last]

theorem isDir_congr : d'.isDir p = d.isDir p := by
  unfold isDir
  rw [entry_congr hhere h]

theorem isListed_congr : d'.isListed p = d.isListed p := by
  unfold isListed
  rw [entry_congr hhere h]

theorem readBytes_congr : d'.readBytes p = d.readBytes p := by
  unfold readBytes
  rw [entry_congr hhere h]

theorem readText_congr : d'.readText p = d.readText p := by
  unfold readText
  rw [readBytes_congr hhere h]

end Lookup

/-- **Making something new looks at the places up to its directory.** -/
theorem locateNew_congr {p : Text} (hhere : d'.here = d.here)
    (h : Alike d d' (d.origin p).1 (bodyComponents (d.origin p).2).dropLast) :
    d'.locateNew p = d.locateNew p := by
  rw [← bodyComponents_dropLast_trimSegmentsEnd] at h
  unfold locateNew
  rw [origin_congr hhere]
  split
  · rfl
  dsimp only
  split
  · rfl
  · rw [placeIn_congr h]

/-! ## Taking detours out -/

/-- Two disks hold the same at the places that components lead to, and above them. -/
def AlikeAbove (d d' : Disk) (start : Place) (cs : List Component) : Prop :=
  ∀ front, front <+: cs → ∀ place, place <+: walk start front → d'.at? place = d.at? place

theorem AlikeAbove.alike {cs : List Component} (h : AlikeAbove d d' start cs) :
    Alike d d' start cs :=
  fun front hfront => h front hfront _ (List.prefix_refl _)

theorem AlikeAbove.tail {c : Component} {cs : List Component}
    (h : AlikeAbove d d' start (c :: cs)) : AlikeAbove d d' (c.after start) cs :=
  fun front hfront => h (c :: front) ((List.prefix_cons_inj c).2 hfront)

/-- The text of a place leads through the places above it. -/
theorem locate_placeText_congr {place : Place} (hnames : ∀ n ∈ place, IsName n) (slash : Bool)
    (h : ∀ outer, outer <+: place → d'.at? outer = d.at? outer) :
    d'.locate (placeText place ++ if slash then ['/'] else []) =
      d.locate (placeText place ++ if slash then ['/'] else []) := by
  have hbody : bodyComponents (segments (joinSegments place ++ if slash then ['/'] else [])) =
      place.map .name := bodyComponents_joinSegments_slash hnames slash
  have halike : Alike d d' []
      (bodyComponents (segments (joinSegments place ++ if slash then ['/'] else []))) := by
    rw [hbody]
    intro front hfront
    obtain ⟨names, hstarts, rfl⟩ := List.prefix_map_iff.1 hfront
    rw [walk_names]
    exact h _ hstarts
  unfold locate
  split
  · rfl
  · exact follow_congr halike

theorem entry_placeText_congr {place : Place} (hnames : ∀ n ∈ place, IsName n)
    (h : ∀ outer, outer <+: place → d'.at? outer = d.at? outer) :
    d'.entry (placeText place) = d.entry (placeText place) := by
  have hlocate := locate_placeText_congr hnames false h
  have hgoal := d.goal_placeText hnames false
  rw [if_neg nofun, List.append_nil] at hlocate hgoal
  unfold Disk.entry
  rw [hlocate]
  split
  · rfl
  next found hfound =>
  rw [(locate_ok hfound).1, hgoal, h place (List.prefix_refl place)]

theorem resolve_congr {l : List Text} (hslash : ∀ s ∈ l, '/' ∉ s)
    (hstart : ∀ n ∈ start, IsName n) (h : AlikeAbove d d' start (bodyComponents l)) :
    d'.resolve start l = d.resolve start l := by
  induction l generalizing start with
  | nil => rfl
  | cons s l ih =>
    have hrest : ∀ t ∈ l, '/' ∉ t := fun t ht => hslash t (List.mem_cons_of_mem _ ht)
    unfold resolve
    split
    · next hsilent =>
      rw [bodyComponents_silent hsilent] at h
      exact ih hrest hstart h
    next hsilent =>
    rw [bodyComponents_cons (by simpa using hsilent)] at h
    split
    · next hup =>
      rw [component, if_pos hup] at h
      exact ih hrest (isName_of_mem_dropLast hstart) h.tail
    next hup =>
    rw [component, if_neg hup] at h
    have hnames : ∀ n ∈ start ++ [s], IsName n := by
      intro n hn
      rcases List.mem_append.1 hn with hn | hn
      · exact hstart n hn
      · rw [List.mem_singleton.1 hn]
        exact ⟨hslash s List.mem_cons_self, by simpa using hsilent, hup⟩
    rw [locate_placeText_congr hnames _ (h.tail [] List.nil_prefix)]
    split
    · rfl
    next place hplace =>
    rw [(locate_ok hplace).1, goal_placeText d hnames]
    exact ih hrest hnames h.tail

/-- **A path without detours** comes from the places that the path visits, and those above. -/
theorem canonical_congr {p : Text} (hhere : d'.here = d.here) (hnames : ∀ n ∈ d.here, IsName n)
    (h : AlikeAbove d d' (d.origin p).1 (bodyComponents (d.origin p).2)) :
    d'.canonical p = d.canonical p := by
  unfold canonical
  rw [origin_congr hhere]
  split
  · rfl
  have horigin : (∀ n ∈ (d.origin p).1, IsName n) ∧ ∀ s ∈ (d.origin p).2, '/' ∉ s := by
    unfold origin
    split
    · exact ⟨nofun, fun s hs => not_mem_of_mem_segments hs⟩
    · exact ⟨hnames, fun s hs => not_mem_of_mem_segments hs⟩
  rw [resolve_congr horigin.2 horigin.1 h]

end Alike

/-! ## Directories -/

/-- **A path to a directory visits directories.** -/
theorem dirs_of_follow {d : Disk} {start place : Place} {l : List Text}
    (h : d.follow start l = .ok place) (hplace : ∃ time mode, d.at? place = some (.dir time mode))
    {front : List Component} (hfront : front <+: bodyComponents l) :
    ∃ time mode, d.at? (walk start front) = some (.dir time mode) := by
  induction l generalizing start front with
  | nil =>
    cases h
    rw [List.prefix_nil.1 hfront]
    exact hplace
  | cons s l ih =>
    unfold follow at h
    split at h
    · cases h
    · cases h
    next dir hfile hdir =>
    have hstart : ∃ time mode, d.at? start = some (.dir time mode) := by
      cases dir with
      | file content time mode => exact absurd rfl (hfile content time mode)
      | dir time mode => exact ⟨time, mode, hdir⟩
    have hcons : ∀ c : Component, d.follow (c.after start) l = .ok place →
        front <+: c :: bodyComponents l →
        ∃ time mode, d.at? (walk start front) = some (.dir time mode) := by
      intro c hfollow hstarts
      cases front with
      | nil => exact hstart
      | cons first front =>
        obtain ⟨rfl, hlater⟩ := List.cons_prefix_cons.1 hstarts
        exact ih hfollow hlater
    split at h
    · next hempty =>
      rw [bodyComponents_silent (by simp [isSilent, hempty])] at hfront
      exact ih h hfront
    next hempty =>
    split at h
    · cases h
    split at h
    · next hdot =>
      rw [hdot, bodyComponents_silent rfl] at hfront
      exact ih h hfront
    next hdot =>
    rw [bodyComponents_cons (by simp [isSilent, hempty, hdot])] at hfront
    split at h
    · next hup =>
      rw [component, if_pos hup] at hfront
      exact hcons .up h hfront
    next hup =>
    rw [component, if_neg hup] at hfront
    split at h
    · cases h
    split at h
    · cases h
    · exact hcons (.name s) h hfront

theorem dirs_of_isDir {d : Disk} {p : Text} (h : d.isDir p = true) {front : List Component}
    (hfront : front <+: bodyComponents (d.origin p).2) :
    ∃ time mode, d.at? (walk (d.origin p).1 front) = some (.dir time mode) := by
  obtain ⟨hdir, -⟩ := isDir_ok h
  unfold isDir Disk.entry locate at h
  split at h
  · next hentry =>
    split at hentry
    · cases hentry
    next place hplace =>
    split at hplace
    · cases hplace
    refine dirs_of_follow hplace ?_ hfront
    rw [(follow_ok hplace).1, ← (d.steps_origin p).1]
    exact hdir
  · cases h

/-- **A disk that keeps the directories is alike along a path to one.** -/
theorem Extends.alike {d d' : Disk} (hext : d.Extends d') {p : Text} (h : d.isDir p = true) :
    Alike d d' (d.origin p).1 (bodyComponents (d.origin p).2) := by
  intro front hfront
  obtain ⟨time, mode, hdir⟩ := dirs_of_isDir h hfront
  exact hext.dirs _ time mode hdir

theorem Extends.refl (d : Disk) : d.Extends d := ⟨rfl, rfl, fun _ _ _ _ => rfl, fun _ h => h⟩

theorem Extends.missing {d d' : Disk} (hext : d.Extends d') {place : Place}
    (h : d'.at? place = none) : d.at? place = none := by
  refine Option.not_isSome_iff_eq_none.1 fun hsome => ?_
  have hlater := hext.isSome place hsome
  rw [h] at hlater
  cases hlater

theorem Extends.isDir {d d' : Disk} (hext : d.Extends d') {p : Text} (h : d.isDir p = true) :
    d'.isDir p = true := by
  rw [isDir_congr hext.here (hext.alike h), h]

end Disk

end Stencil
