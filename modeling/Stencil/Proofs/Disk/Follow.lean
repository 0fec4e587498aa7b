import Stencil.Disk.Change
import Stencil.Proofs.Disk.Walk

/-!
# Proofs/Disk/Follow — a path that can be followed gets where it leads

    d.locate p = .ok place   ⟹   place = d.goal p

Whether a path can be followed depends on the disk; where it gets does not.  Each operation on paths
is told here by the place of its path: what it looks up and what it changes is at `d.goal p`.
-/

namespace Stencil

namespace Disk

open Stencil.Path

/-! ## Following -/

/-- **Following segments gets where they lead**, over names that are all there. -/
theorem follow_ok {d : Disk} {start place : Place} {l : List Text}
    (h : d.follow start l = .ok place) :
    place = walk start (bodyComponents l) ∧
      ∀ other ∈ way start (bodyComponents l), (d.at? other).isSome := by
  induction l generalizing start with
  | nil =>
    cases h
    exact ⟨rfl, nofun⟩
  | cons s l ih =>
    unfold follow at h
    split at h
    · cases h
    · cases h
    split at h
    · next hempty =>
      rw [bodyComponents_silent (by simp [isSilent, hempty])]
      exact ih h
    next hempty =>
    split at h
    · cases h
    split at h
    · next hdot =>
      rw [hdot, bodyComponents_silent rfl]
      exact ih h
    next hdot =>
    have hsilent : isSilent s = false := by simp [isSilent, hempty, hdot]
    rw [bodyComponents_cons hsilent]
    split at h
    · next hup =>
      rw [component, if_pos hup]
      exact ih h
    next hup =>
    rw [component, if_neg hup]
    split at h
    · cases h
    split at h
    · cases h
    · next entry hentry =>
      obtain ⟨hplace, hway⟩ := ih h
      refine ⟨hplace, fun other hother => ?_⟩
      rcases List.mem_cons.1 hother with rfl | hother
      · rw [hentry]
        rfl
      · exact hway other hother

theorem follow_append (d : Disk) (start : Place) (a b : List Text) :
    d.follow start (a ++ b) = (d.follow start a).bind fun place => d.follow place b := by
  induction a generalizing start with
  | nil => rfl
  | cons s a ih =>
    rw [List.cons_append]
    unfold follow
    simp only [ih]
    repeat' (split <;> try rfl)

/-- **A disk on which every way stays open**: directories stay as they are, and nothing goes. -/
structure Extends (d d' : Disk) : Prop where
  here : d'.here = d.here
  zone : d'.zone = d.zone
  dirs : ∀ dir time mode, d.at? dir = some (.dir time mode) → d'.at? dir = d.at? dir
  isSome : ∀ place, (d.at? place).isSome → (d'.at? place).isSome

theorem Extends.trans {d d' d'' : Disk} (h : Extends d d') (h' : Extends d' d'') :
    Extends d d'' := by
  refine ⟨h'.here.trans h.here, h'.zone.trans h.zone, fun dir time mode hdir => ?_,
    fun place hsome => h'.isSome place (h.isSome place hsome)⟩
  rw [h'.dirs dir time mode (by rw [h.dirs dir time mode hdir, hdir]), h.dirs dir time mode hdir]

/-- A file that is put where no directory is closes no way. -/
theorem extends_put {d : Disk} {target : Place} (file : Entry)
    (htarget : (d.at? target).any Entry.isDir = false) : Extends d (d.put target file) := by
  refine ⟨rfl, rfl, fun dir time mode hdir => ?_, fun place hsome => ?_⟩
  · rw [at?_put, if_neg]
    rintro rfl
    rw [hdir] at htarget
    cases htarget
  · rw [at?_put]
    split
    · rfl
    · exact hsome

theorem follow_mono {d d' : Disk} {start place : Place} {l : List Text} (hext : Extends d d')
    (h : d.follow start l = .ok place) : d'.follow start l = .ok place := by
  induction l generalizing start with
  | nil => exact h
  | cons s l ih =>
    unfold follow at h ⊢
    split at h
    · cases h
    · cases h
    next dir hfile hstart =>
    cases dir with
    | file content time mode => exact absurd rfl (hfile content time mode)
    | dir time mode =>
      rw [hext.dirs _ _ _ hstart, hstart]
      simp only
      split at h
      · next hempty => rw [if_pos hempty, ih h]
      next hempty =>
      rw [if_neg hempty]
      split at h
      · cases h
      next hsearch =>
      rw [if_neg hsearch]
      split at h
      · next hdot => rw [if_pos hdot, ih h]
      next hdot =>
      rw [if_neg hdot]
      split at h
      · next hup => rw [if_pos hup, ih h]
      next hup =>
      rw [if_neg hup]
      split at h
      · cases h
      next hsize =>
      rw [if_neg hsize]
      split at h
      · cases h
      next hnext =>
      obtain ⟨entry, hentry⟩ := Option.isSome_iff_exists.1 (hext.isSome _ (by rw [hnext]; rfl))
      rw [hentry]
      exact ih h

/-! ## Looking up -/

theorem locate_ok {d : Disk} {p : Text} {place : Place} (h : d.locate p = .ok place) :
    place = d.goal p ∧ ∀ other ∈ way d.here (components p), (d.at? other).isSome := by
  unfold locate at h
  split at h
  · cases h
  · rw [(d.steps_origin p).1, (d.steps_origin p).2]
    exact follow_ok h

theorem origin_congr {d d' : Disk} (h : d'.here = d.here) (p : Text) :
    d'.origin p = d.origin p := by
  unfold origin
  rw [h]

theorem goal_congr {d d' : Disk} (h : d'.here = d.here) (p : Text) : d'.goal p = d.goal p := by
  rw [goal, goal, h]

theorem locate_mono {d d' : Disk} {p : Text} {place : Place} (hext : Extends d d')
    (h : d.locate p = .ok place) : d'.locate p = .ok place := by
  unfold locate at h ⊢
  split at h
  · cases h
  · rw [origin_congr hext.here]
    exact follow_mono hext h

theorem entry_ok {d : Disk} {p : Text} {entry : Entry} (h : d.entry p = .ok entry) :
    d.at? (d.goal p) = some entry := by
  unfold Disk.entry at h
  split at h
  · cases h
  next place hplace =>
  rw [← (locate_ok hplace).1]
  split at h
  · next hentry => rw [hentry, Except.ok.inj h]
  · cases h

theorem entry_mono {d d' : Disk} {p : Text} {entry : Entry} (hext : Extends d d')
    (hat : d'.at? (d.goal p) = d.at? (d.goal p)) (h : d.entry p = .ok entry) :
    d'.entry p = .ok entry := by
  unfold Disk.entry at h ⊢
  split at h
  · cases h
  next place hplace =>
  rw [locate_mono hext hplace]
  rw [← (locate_ok hplace).1] at hat
  simp only
  rw [hat]
  exact h

/-- A directory is there, and so is what its path goes through. -/
theorem isDir_ok {d : Disk} {p : Text} (h : d.isDir p = true) :
    (∃ time mode, d.at? (d.goal p) = some (.dir time mode)) ∧
      ∀ other ∈ way d.here (components p), (d.at? other).isSome := by
  unfold isDir at h
  split at h
  · next time mode hentry =>
    refine ⟨⟨time, mode, entry_ok hentry⟩, ?_⟩
    unfold Disk.entry at hentry
    split at hentry
    · cases hentry
    · next hplace => exact (locate_ok hplace).2
  · cases h

/-- A directory has a path that says something. -/
theorem ne_nil_of_isDir {d : Disk} {p : Text} (h : d.isDir p = true) : p ≠ [] := by
  rintro rfl
  cases h

theorem readBytes_ok {d : Disk} {p : Text} {content : Bytes} (h : d.readBytes p = .ok content) :
    ∃ time mode, d.at? (d.goal p) = some (.file content time mode) := by
  unfold readBytes at h
  split at h
  · cases h
  next entry hentry =>
  split at h
  · cases h
  split at h
  · cases h
  · rw [← Except.ok.inj h]
    exact ⟨_, _, entry_ok hentry⟩

theorem readText_ok {d : Disk} {p text : Text} (h : d.readText p = .ok text) :
    ∃ content time mode, d.at? (d.goal p) = some (.file content time mode) ∧
      Text.ofUtf8? content = some text := by
  unfold readText at h
  split at h
  · cases h
  next content hcontent =>
  obtain ⟨time, mode, hat⟩ := readBytes_ok hcontent
  split at h
  · next hutf8 => exact ⟨content, time, mode, hat, by rw [hutf8, Except.ok.inj h]⟩
  · cases h

/-! ## Taking detours out -/

theorem isName_of_mem_dropLast {place : Place} (h : ∀ n ∈ place, IsName n) :
    ∀ n ∈ place.dropLast, IsName n :=
  fun n hn => h n (List.dropLast_subset _ hn)

/-- Looking every name up from the root gets to the same place. -/
theorem resolve_ok {d : Disk} {start place : Place} {l : List Text} (hslash : ∀ s ∈ l, '/' ∉ s)
    (hstart : ∀ n ∈ start, IsName n) (h : d.resolve start l = .ok place) :
    place = walk start (bodyComponents l) := by
  induction l generalizing start with
  | nil => exact (Except.ok.inj h).symm
  | cons s l ih =>
    have hrest : ∀ t ∈ l, '/' ∉ t := fun t ht => hslash t (List.mem_cons_of_mem _ ht)
    unfold resolve at h
    split at h
    · next hsilent =>
      rw [bodyComponents_silent hsilent]
      exact ih hrest hstart h
    next hsilent =>
    rw [bodyComponents_cons (by simpa using hsilent)]
    split at h
    · next hup =>
      rw [component, if_pos hup]
      exact ih hrest (isName_of_mem_dropLast hstart) h
    next hup =>
    have hname : IsName s := ⟨hslash s List.mem_cons_self, by simpa using hsilent, hup⟩
    have hnames : ∀ n ∈ start ++ [s], IsName n := by
      intro n hn
      rcases List.mem_append.1 hn with hn | hn
      · exact hstart n hn
      · rw [List.mem_singleton.1 hn]
        exact hname
    rw [component, if_neg hup]
    split at h
    · cases h
    · next hplace =>
      rw [(locate_ok hplace).1, goal_placeText d hnames] at h
      exact ih hrest hnames h

/-- **The path without detours is the text of the place.** -/
theorem canonical_ok {d : Disk} {p path : Text} (hhere : ∀ n ∈ d.here, IsName n)
    (h : d.canonical p = .ok path) : path = placeText (d.goal p) := by
  unfold canonical at h
  split at h
  · cases h
  cases hplace : d.resolve (d.origin p).1 (d.origin p).2 with
  | error e =>
    rw [hplace] at h
    cases h
  | ok place =>
    rw [hplace] at h
    have horigin : (∀ n ∈ (d.origin p).1, IsName n) ∧ ∀ s ∈ (d.origin p).2, '/' ∉ s := by
      unfold origin
      split
      · exact ⟨nofun, fun s hs => not_mem_of_mem_segments hs⟩
      · exact ⟨hhere, fun s hs => not_mem_of_mem_segments hs⟩
    rw [← Except.ok.inj h, resolve_ok horigin.2 horigin.1 hplace, (d.steps_origin p).1]

/-- The path without detours leads to the same place. -/
theorem goal_canonical {d : Disk} {p path : Text} (hhere : ∀ n ∈ d.here, IsName n)
    (h : d.canonical p = .ok path) : d.goal path = d.goal p := by
  have hgoal := d.goal_placeText (isName_of_mem_goal hhere p) false
  rw [if_neg nofun, List.append_nil] at hgoal
  rw [canonical_ok hhere h, hgoal]

theorem placeIn_ok {d : Disk} {start place : Place} {outer : List Text} {name : Text}
    (h : d.placeIn start outer name = .ok place) :
    ∃ dir time mode, d.follow start outer = .ok dir ∧ d.at? dir = some (.dir time mode) ∧
      (Entry.dir time mode).allows .search = true ∧ name.size ≤ maxName ∧
      place = dir ++ [name] := by
  unfold placeIn at h
  split at h
  · cases h
  next dir hdir =>
  split at h
  · cases h
  · cases h
  next entry hfile hentry =>
  split at h
  · cases h
  next hsearch =>
  split at h
  · cases h
  next hsize =>
  cases entry with
  | file content time mode => exact absurd rfl (hfile content time mode)
  | dir time mode =>
    exact ⟨dir, time, mode, hdir, hentry, by simpa using hsearch, by omega,
      (Except.ok.inj h).symm⟩

/-- **Something new is made where its path leads**, and the path ends in a name. -/
theorem locateNew_ok {d : Disk} {p : Text} {place : Place} (h : d.locateNew p = .ok place) :
    place = d.goal p ∧ ∃ outer name, bodyComponents (d.origin p).2 = outer ++ [.name name] := by
  unfold locateNew at h
  split at h
  · cases h
  simp only at h
  split at h
  · cases h
  next name hlast =>
  split at h
  · cases h
  next found hfound =>
  split at h
  · cases h
  next hup =>
  obtain ⟨dir, time, mode, hdir, -, -, -, rfl⟩ := placeIn_ok hfound
  obtain ⟨outer, houter⟩ := List.getLast?_eq_some_iff.1 hlast
  rw [houter, List.dropLast_concat] at hdir
  have hbody : bodyComponents (d.origin p).2 = bodyComponents outer ++ [.name name] := by
    rw [← bodyComponents_trimSegmentsEnd, houter, bodyComponents_append,
      bodyComponents_cons (isSilent_getLast?_trimSegmentsEnd hlast), component, if_neg hup]
    rfl
  refine ⟨?_, _, _, hbody⟩
  rw [← Except.ok.inj h, (d.steps_origin p).1, hbody, walk_append, (follow_ok hdir).1]
  rfl

/-- **A directory is made at the place of its path**, where nothing was. -/
theorem makeDir_ok {d d' : Disk} {p : Text} {mode : Nat → Nat} (h : d.makeDir p mode = .ok d') :
    d.at? (d.goal p) = none ∧ (∃ outer, d' = d.put (d.goal p) (.dir d.now (mode outer))) ∧
      ∃ outer name, bodyComponents (d.origin p).2 = outer ++ [.name name] := by
  unfold makeDir at h
  split at h
  · cases h
  next place hplace =>
  obtain ⟨rfl, hname⟩ := locateNew_ok hplace
  split at h
  · cases h
  next hnone =>
  split at h
  · cases h
  · exact ⟨by simpa using hnone, ⟨_, (Except.ok.inj h).symm⟩, hname⟩

/-- **A path that names a file**: its last segment is a name, looked up in the directory that the
others lead to. -/
theorem placeIn_last {d : Disk} {p name : Text} {named : List Text} {found : Place}
    (hnamed : ((d.origin p).2.reverse.dropWhile List.isEmpty).reverse = named)
    (hlast : named.getLast? = some name)
    (hfound : d.placeIn (d.origin p).1 named.dropLast name = .ok found)
    (hdots : name ≠ ['.'] ∧ name ≠ ['.', '.']) (hlength : (d.origin p).2.length ≤ named.length) :
    ∃ outer dir time mode, (d.origin p).2 = outer ++ [name] ∧ name.isEmpty = false ∧
      bodyComponents (d.origin p).2 = bodyComponents outer ++ [.name name] ∧
      d.follow (d.origin p).1 outer = .ok dir ∧ d.at? dir = some (.dir time mode) ∧
      (Entry.dir time mode).allows .search = true ∧ name.size ≤ maxName ∧ found = dir ++ [name] ∧
      found = d.goal p := by
  -- No empty segment stands at the end, so the last one is the name of the file.
  have hwhole : named = (d.origin p).2 := by
    have hprefix : named <+: (d.origin p).2 := by
      rw [← hnamed, ← List.reverse_suffix, List.reverse_reverse]
      exact List.dropWhile_suffix _
    exact hprefix.eq_of_length_le hlength
  have hne : name.isEmpty = false := by
    have hstop := List.head?_dropWhile_not List.isEmpty (d.origin p).2.reverse
    rw [← hnamed, List.getLast?_reverse] at hlast
    rw [hlast] at hstop
    exact hstop
  rw [hwhole] at hlast hfound
  obtain ⟨outer, houter⟩ := List.getLast?_eq_some_iff.1 hlast
  obtain ⟨dir, time, mode, hfollow, hat, hsearch, hsize, hplace⟩ := placeIn_ok hfound
  rw [houter, List.dropLast_concat] at hfollow
  have hsilent : isSilent name = false := by simp [isSilent, hne, hdots.1]
  have hbody : bodyComponents (d.origin p).2 = bodyComponents outer ++ [.name name] := by
    rw [houter, bodyComponents_append, bodyComponents_cons hsilent, component, if_neg hdots.2]
    rfl
  refine ⟨outer, dir, time, mode, houter, hne, hbody, hfollow, hat, hsearch, hsize, hplace, ?_⟩
  rw [hplace, (d.steps_origin p).1, hbody, walk_append, ← (follow_ok hfollow).1]
  rfl

/-- **A file is moved to the place of its path**, over names that are all there.  The path can be
followed once the file is there. -/
theorem moveTarget_ok {d : Disk} {source target : Place} {p : Text}
    (h : d.moveTarget source p = .ok target) :
    target = d.goal p ∧ (d.at? target).any Entry.isDir = false ∧
      (∀ other ∈ way d.here (components p), other = target ∨ (d.at? other).isSome) ∧
      ∀ content time mode, (d.put target (.file content time mode)).locate p = .ok target := by
  unfold moveTarget at h
  split at h
  · cases h
  next hpath =>
  simp only at h
  split at h
  · cases h
  next name hlast =>
  split at h
  · cases h
  next found hfound =>
  split at h
  · cases h
  next hdots =>
  split at h
  · cases h
  next hlength =>
  split at h
  · cases h
  split at h
  · cases h
  split at h
  · cases h
  next hdir =>
  cases h
  rw [not_or] at hdots
  obtain ⟨outer, dir, time, mode, houter, hne, hbody, hfollow, hat, hsearch, hsize, rfl, hgoal⟩ :=
    placeIn_last rfl hlast hfound hdots (Nat.le_of_not_lt hlength)
  obtain ⟨hwalk, hway⟩ := follow_ok hfollow
  have hnotDir : (d.at? (dir ++ [name])).any Entry.isDir = false := by simpa using hdir
  refine ⟨hgoal, hnotDir, ?_, ?_⟩
  · rw [(d.steps_origin p).2, hbody, way_append]
    intro other hother
    rcases List.mem_append.1 hother with hother | hother
    · exact .inr (hway other hother)
    · rw [← hwalk] at hother
      exact .inl (List.mem_singleton.1 hother)
  · intro content time mode
    have horigin : (d.put (dir ++ [name]) (.file content time mode)).origin p = d.origin p := rfl
    have hself : dir ++ [name] ≠ dir := by simp
    unfold locate
    rw [hpath, horigin, houter]
    simp only
    rw [follow_append, follow_mono (extends_put _ hnotDir) hfollow]
    change follow _ dir [name] = _
    simp only [follow, at?_put, if_neg hself, hat, hne, hsearch, hdots.1, hdots.2,
      Nat.not_lt.2 hsize, Bool.not_true, Bool.false_eq_true, if_false, if_true]

/-! ## Making directories on a way -/

/-- A step behind a path leads one step on. -/
theorem goal_join_step (d : Disk) (dir : Text) {c : Component} (h : c.IsStep) :
    d.goal (join dir c.text) = c.after (d.goal dir) := by
  obtain ⟨habs, hbody⟩ := h.segments_text
  rw [goal_join, components_relative habs, hbody]
  split <;> rfl

theorem way_cons_step (d : Disk) (dir : Text) {c : Component} (h : c.IsStep)
    (steps : List Component) : way (d.goal dir) (c :: steps) =
      way (d.goal dir) [c] ++ way (d.goal (join dir c.text)) steps := by
  rw [d.goal_join_step dir h]
  exact way_append _ [c] steps

/-- **What making directories changes**: at some of the places, where nothing was, there are
directories. -/
structure Paves (d d' : Disk) (places : List Place) : Prop where
  here : d'.here = d.here
  now : d'.now = d.now
  zone : d'.zone = d.zone
  made : ∀ place, d'.at? place ≠ d.at? place →
    place ∈ places ∧ d.at? place = none ∧ ∃ time mode, d'.at? place = some (.dir time mode)

theorem Paves.refl (d : Disk) (places : List Place) : Paves d d places :=
  ⟨rfl, rfl, rfl, fun _ h => absurd rfl h⟩

theorem Paves.trans {d d' d'' : Disk} {a b : List Place} (h : Paves d d' a) (h' : Paves d' d'' b) :
    Paves d d'' (a ++ b) := by
  refine ⟨h'.here.trans h.here, h'.now.trans h.now, h'.zone.trans h.zone, fun place hchange => ?_⟩
  by_cases hfirst : d'.at? place = d.at? place
  · rw [← hfirst] at hchange ⊢
    obtain ⟨hmem, hnone, hdir⟩ := h'.made place hchange
    exact ⟨List.mem_append_right _ hmem, hnone, hdir⟩
  · obtain ⟨hmem, hnone, time, mode, hdir⟩ := h.made place hfirst
    refine ⟨List.mem_append_left _ hmem, hnone, time, mode, ?_⟩
    by_cases hsecond : d''.at? place = d'.at? place
    · rw [hsecond, hdir]
    · rw [(h'.made place hsecond).2.1] at hdir
      cases hdir

theorem Paves.at?_of_not_mem {d d' : Disk} {places : List Place} (h : Paves d d' places)
    {place : Place} (hplace : place ∉ places) : d'.at? place = d.at? place :=
  Decidable.of_not_not fun hchange => hplace (h.made place hchange).1

theorem Paves.extends {d d' : Disk} {places : List Place} (h : Paves d d' places) :
    Extends d d' := by
  have hkept : ∀ place, (d.at? place).isSome → d'.at? place = d.at? place := by
    intro place hsome
    refine Decidable.of_not_not fun hchange => ?_
    rw [(h.made place hchange).2.1] at hsome
    cases hsome
  refine ⟨h.here, h.zone, fun dir time mode hdir => hkept dir (by rw [hdir]; rfl),
    fun place hsome => ?_⟩
  rw [hkept place hsome]
  exact hsome

/-- **One step makes one directory at most**, under the name that the step is. -/
theorem makeDir_paves {d d' : Disk} {dir : Text} {c : Component} {mode : Nat → Nat}
    (hc : c.IsStep) (h : d.makeDir (join dir c.text) mode = .ok d') :
    Paves d d' (way (d.goal dir) [c]) := by
  obtain ⟨hnone, ⟨m, rfl⟩, outer, name, hbody⟩ := makeDir_ok h
  obtain ⟨habs, htext⟩ := hc.segments_text
  rw [(d.origin_join habs dir).2, htext] at hbody
  obtain rfl : c = .name name := List.singleton_inj.1 (List.append_inj' hbody rfl).2
  rw [goal_join_step d dir hc] at hnone ⊢
  refine ⟨rfl, rfl, rfl, fun place hchange => ?_⟩
  rw [at?_put] at hchange ⊢
  split at hchange
  · next hplace =>
    rw [if_pos hplace, ← hplace]
    exact ⟨List.mem_singleton_self _, hnone, _, _, rfl⟩
  · exact absurd rfl hchange

end Disk

end Stencil
