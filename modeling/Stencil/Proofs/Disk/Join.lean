import Stencil.Proofs.Disk.Alike
import Stencil.Proofs.Disk.Within

/-!
# Proofs/Disk/Join — names behind a directory

    dir ──follow──▸ place ──name──▸ place/name

A path behind a directory is followed to the directory first and then on from there (`follow_join`).
So where the directory is known, names are looked up place by place (`seek`), and what happens to one
more name is decided by three things: whether the directory may be searched and written, the size of
the name, and what stands at its place (`makeDir_join_name`).  On a disk whose places hang together
(`Rooted`) nothing stands below what is missing.
-/

namespace Stencil

/-- A name is a plain path. -/
def Path.IsName.plain {n : Text} (h : IsName n) : Plain where
  text := n
  names := by
    rw [segments_eq_singleton h.slash]
    rintro s (_ | ⟨_, _ | _⟩)
    exact h

/-- The bytes of an entry, if they may be read. -/
def Entry.bytes (entry : Entry) : Except FileError Bytes :=
  if !entry.allows .read then .error .denied
  else
    match entry with
    | .dir .. => .error .isDirectory
    | .file content .. => .ok content

namespace Disk

open Stencil.Path

/-! ## Following on -/

/-- An empty segment stays at a directory, so it says nothing in front of another one. -/
theorem follow_empty_bind (d : Disk) (start : Place) (s : Text) (l : List Text) :
    ((d.follow start [[]]).bind fun place => d.follow place (s :: l)) = d.follow start (s :: l) := by
  cases hat : d.at? start with
  | none => simp only [follow, hat, Except.bind]
  | some entry =>
    cases entry with
    | file content time mode => simp only [follow, hat, Except.bind]
    | dir time mode => simp only [follow, hat, List.isEmpty_nil, if_true, Except.bind]

theorem follow_segments_join (d : Disk) (start : Place) {p : Text} (h : isAbsolute p = false)
    (dir : Text) : d.follow start (segments (join dir p)) =
      (d.follow start (segments dir)).bind fun place => d.follow place (segments p) := by
  obtain ⟨s, l, hp⟩ := List.exists_cons_of_ne_nil (segments_ne_nil p)
  unfold join
  rw [if_neg (by simp [h])]
  split
  · next hslash =>
    rcases hslash with hempty | hlast
    · rw [List.isEmpty_iff.1 hempty, List.nil_append, hp]
      exact (d.follow_empty_bind start s l).symm
    · obtain ⟨front, rfl⟩ := List.getLast?_eq_some_iff.1 hlast
      rw [List.append_assoc, List.singleton_append, segments_append_slash, segments_append_slash,
        follow_append, follow_append, hp]
      cases d.follow start (segments front) with
      | error e => rfl
      | ok place => exact (d.follow_empty_bind place s l).symm
  · rw [segments_append_slash, follow_append]

/-- **A path behind another is followed on from there.** -/
theorem follow_join (d : Disk) {p : Text} (h : isAbsolute p = false) (dir : Text) :
    d.follow (d.origin (join dir p)).1 (d.origin (join dir p)).2 =
      (d.follow (d.origin dir).1 (d.origin dir).2).bind fun place =>
        d.follow place (segments p) := by
  cases hd : isAbsolute dir with
  | true =>
    obtain ⟨rest, rfl⟩ := List.head?_eq_some_iff.1 (beq_iff_eq.1 hd)
    rw [join_absolute_dir h]
    exact d.follow_segments_join [] h rest
  | false =>
    rw [origin_relative d (isAbsolute_join h hd), origin_relative d hd]
    exact d.follow_segments_join d.here h dir

theorem follow_of_isDir {d : Disk} {dir : Text} (h : d.isDir dir = true) :
    d.follow (d.origin dir).1 (d.origin dir).2 = .ok (d.goal dir) := by
  unfold isDir Disk.entry locate at h
  split at h
  · next hentry =>
    split at hentry
    · cases hentry
    next place hplace =>
    split at hplace
    · cases hplace
    rw [hplace, (follow_ok hplace).1, ← (d.steps_origin dir).1]
  · cases h

/-- **The place of a path behind a directory.** -/
theorem locate_join {d : Disk} {dir p : Text} (hdir : d.isDir dir = true)
    (h : isAbsolute p = false) : d.locate (join dir p) =
      (checkPath (join dir p)).bind fun _ => d.follow (d.goal dir) (segments p) := by
  unfold locate
  rw [d.follow_join h, follow_of_isDir hdir]
  cases checkPath (join dir p) <;> rfl

/-! ## Names behind a directory -/

/-- **What names lead to from a place**, looked up one after the other. -/
def seek (d : Disk) (start : Place) : List Text → Except FileError Entry
  | [] =>
    match d.at? start with
    | none => .error .notFound
    | some entry => .ok entry
  | n :: names =>
    match d.at? start with
    | none => .error .notFound
    | some (.file ..) => .error .notDirectory
    | some (.dir time mode) =>
      if (Entry.dir time mode).allows .search = false then .error .denied
      else if maxName < n.size then .error .nameTooLong
      else d.seek (start ++ [n]) names

section Seek

variable {d : Disk} {start : Place} {time : Instant} {mode : Nat}

theorem seek_missing (h : d.at? start = none) (names : List Text) :
    d.seek start names = .error .notFound := by
  cases names <;> simp only [seek, h]

theorem seek_nil {entry : Entry} (h : d.at? start = some entry) : d.seek start [] = .ok entry := by
  simp only [seek, h]

theorem seek_file_cons {content : Bytes} (h : d.at? start = some (.file content time mode))
    (n : Text) (names : List Text) : d.seek start (n :: names) = .error .notDirectory := by
  simp only [seek, h]

theorem seek_dir_cons (h : d.at? start = some (.dir time mode)) (n : Text) (names : List Text) :
    d.seek start (n :: names) =
      if (Entry.dir time mode).allows .search = false then .error .denied
      else if maxName < n.size then .error .nameTooLong
      else d.seek (start ++ [n]) names := by
  simp only [seek, h]

/-- Names are looked up by following them. -/
theorem seek_eq_follow {names : List Text} (hnames : ∀ n ∈ names, IsName n) :
    d.seek start names = (d.follow start names).bind fun place => d.seek place [] := by
  induction names generalizing start with
  | nil => rfl
  | cons n names ih =>
    have hn : IsName n := hnames n List.mem_cons_self
    have hsilent := hn.silent
    rw [isSilent, Bool.or_eq_false_iff] at hsilent
    have hdot : n ≠ ['.'] := by simpa using hsilent.2
    have hrest : d.seek (start ++ [n]) names =
        (d.follow (start ++ [n]) names).bind fun place => d.seek place [] :=
      ih fun m hm => hnames m (List.mem_cons_of_mem _ hm)
    cases hat : d.at? start with
    | none => simp only [seek, follow, hat, Except.bind]
    | some entry =>
      cases entry with
      | file content time mode => simp only [seek, follow, hat, Except.bind]
      | dir time mode =>
        simp only [seek_dir_cons hat, follow, hat, hsilent.1, hdot, hn.up, Bool.false_eq_true,
          if_false, Bool.not_eq_eq_eq_not, Bool.not_true]
        split
        · rfl
        split
        · rfl
        cases hnext : d.at? (start ++ [n]) with
        | none =>
          rw [seek_missing hnext]
          rfl
        | some next => exact hrest

/-- What is found has names of a size that a disk can hold. -/
theorem size_le_of_seek {names : List Text} {entry : Entry} (h : d.seek start names = .ok entry) :
    ∀ n ∈ names, n.size ≤ maxName := by
  induction names generalizing start with
  | nil => exact nofun
  | cons n names ih =>
    unfold seek at h
    split at h
    · cases h
    · cases h
    split at h
    · cases h
    split at h
    · cases h
    next hsize =>
    rintro m (_ | ⟨_, hm⟩)
    · omega
    · exact ih h m hm

end Seek

/-- **The entry of a plain path behind a directory.** -/
theorem entry_join {d : Disk} {dir : Text} (hdir : d.isDir dir = true) (p : Plain) :
    d.entry (join dir p.text) =
      (checkPath (join dir p.text)).bind fun _ => d.seek (d.goal dir) (segments p.text) := by
  unfold Disk.entry
  rw [locate_join hdir p.isAbsolute, seek_eq_follow p.names]
  cases checkPath (join dir p.text) with
  | error e => rfl
  | ok _ =>
    dsimp only [Except.bind]
    cases d.follow (d.goal dir) (segments p.text) with
    | error e => rfl
    | ok place =>
      dsimp only
      cases hat : d.at? place with
      | none => exact (seek_missing hat []).symm
      | some entry => exact (seek_nil hat).symm

/-- **What is read from a plain path behind a directory.** -/
theorem readBytes_join {d : Disk} {dir : Text} (hdir : d.isDir dir = true) (p : Plain) :
    d.readBytes (join dir p.text) = (checkPath (join dir p.text)).bind fun _ =>
      (d.seek (d.goal dir) (segments p.text)).bind Entry.bytes := by
  unfold readBytes
  rw [entry_join hdir p]
  cases checkPath (join dir p.text) with
  | error e => rfl
  | ok _ =>
    dsimp only [Except.bind]
    cases d.seek (d.goal dir) (segments p.text) <;> rfl

/-- A path that says something is not refused for want of a file. -/
theorem checkPath_join {dir : Text} (hne : dir ≠ []) (p : Text) :
    checkPath (join dir p) ≠ .error .notFound := by
  have hjoin : join dir p ≠ [] := by
    unfold join
    split
    · next habs =>
      rintro rfl
      cases habs
    split
    · exact List.append_ne_nil_of_left_ne_nil hne p
    · exact List.append_ne_nil_of_left_ne_nil hne _
  have hempty : (join dir p).isEmpty = false := by simpa using hjoin
  unfold checkPath checkForm
  rw [hempty]
  cases (join dir p).contains '\x00' with
  | true => nofun
  | false =>
    simp only [Bool.false_eq_true, if_false]
    split <;> nofun

/-- **What leads to no file is not read**, and not for want of one. -/
theorem readBytes_hindered {d : Disk} {dir : Text} {p : Plain} (hdir : d.isDir dir = true)
    (h : (∃ cause, cause ≠ .notFound ∧ d.seek (d.goal dir) (segments p.text) = .error cause) ∨
      ∃ time mode, d.seek (d.goal dir) (segments p.text) = .ok (.dir time mode)) :
    ∃ cause, cause ≠ .notFound ∧ d.readBytes (join dir p.text) = .error cause := by
  rw [readBytes_join hdir]
  cases hpath : checkPath (join dir p.text) with
  | error cause =>
    refine ⟨cause, ?_, rfl⟩
    rintro rfl
    exact checkPath_join (ne_nil_of_isDir hdir) p.text hpath
  | ok _ =>
    rcases h with ⟨cause, hcause, hseek⟩ | ⟨time, mode, hseek⟩
    · rw [hseek]
      exact ⟨cause, hcause, rfl⟩
    · rw [hseek]
      cases hread : (Entry.dir time mode).allows .read with
      | true => exact ⟨.isDirectory, nofun, by simp [Except.bind, Entry.bytes, hread]⟩
      | false => exact ⟨.denied, nofun, by simp [Except.bind, Entry.bytes, hread]⟩

/-- Names lead on from a directory by their own components. -/
theorem origin_pathBelow {d : Disk} {names : List Text} (hnames : ∀ n ∈ names, IsName n)
    (dir : Text) : (d.origin (pathBelow dir names)).1 = (d.origin dir).1 ∧
      bodyComponents (d.origin (pathBelow dir names)).2 =
        bodyComponents (d.origin dir).2 ++ names.map .name := by
  induction names generalizing dir with
  | nil => exact ⟨rfl, (List.append_nil _).symm⟩
  | cons n names ih =>
    have hn : IsName n := hnames n List.mem_cons_self
    obtain ⟨hstart, hbody⟩ := ih (fun m hm => hnames m (List.mem_cons_of_mem _ hm)) (join dir n)
    obtain ⟨hstart', hbody'⟩ := d.origin_join hn.plain.isAbsolute dir
    have hname : bodyComponents (segments n) = [.name n] := by
      rw [segments_eq_singleton hn.slash, bodyComponents_names (by simpa using hn)]
      rfl
    refine ⟨hstart.trans hstart', hbody.trans ?_⟩
    rw [show hn.plain.text = n from rfl, hname] at hbody'
    rw [hbody', List.append_assoc, List.map_cons, List.singleton_append]

/-! ## One name -/

theorem goal_join_name (d : Disk) (dir : Text) {n : Text} (hn : IsName n) :
    d.goal (join dir n) = d.goal dir ++ [n] :=
  d.goal_join_step dir (c := .name n) hn

section Name

variable {d : Disk} {dir n : Text}

/-- The segments in front of the last name lead to the directory. -/
theorem origin_join_name (hdir : d.isDir dir = true) (hn : IsName n) :
    ∃ outer, (d.origin (join dir n)).2 = outer ++ [n] ∧
      d.follow (d.origin (join dir n)).1 outer = .ok (d.goal dir) := by
  have habs : isAbsolute n = false := hn.plain.isAbsolute
  have hend : ∀ (start place : Place), d.follow start [[]] = .ok place → start = place := by
    intro start place h
    unfold follow at h
    split at h
    · cases h
    · cases h
    · exact Except.ok.inj h
  -- An empty segment that ends the path of the directory is left out.
  have hinner : ∀ (start place : Place) (p : Text), d.follow start (segments p) = .ok place →
      ∃ outer, segments (join p n) = outer ++ [n] ∧ d.follow start outer = .ok place := by
    intro start place p hp
    unfold join
    rw [if_neg (by simp [habs])]
    split
    · next hslash =>
      rcases hslash with hempty | hlast
      · rw [List.isEmpty_iff.1 hempty] at hp ⊢
        refine ⟨[], by rw [List.nil_append, segments_eq_singleton hn.slash]; rfl, ?_⟩
        rw [hend start place hp]
        rfl
      · obtain ⟨front, rfl⟩ := List.getLast?_eq_some_iff.1 hlast
        refine ⟨segments front, ?_, ?_⟩
        · rw [List.append_assoc, List.singleton_append, segments_append_slash,
            segments_eq_singleton hn.slash]
        · rw [segments_append_slash, follow_append] at hp
          cases hfront : d.follow start (segments front) with
          | error e =>
            rw [hfront] at hp
            cases hp
          | ok inner =>
            rw [hfront] at hp
            rw [hend inner place hp]
    · exact ⟨segments p, by rw [segments_append_slash, segments_eq_singleton hn.slash], hp⟩
  have hfollow := follow_of_isDir hdir
  cases hd : isAbsolute dir with
  | true =>
    obtain ⟨rest, rfl⟩ := List.head?_eq_some_iff.1 (beq_iff_eq.1 hd)
    rw [join_absolute_dir habs]
    exact hinner [] _ rest hfollow
  | false =>
    rw [origin_relative d hd] at hfollow
    rw [origin_relative d (isAbsolute_join habs hd)]
    exact hinner d.here _ dir hfollow

/-- Refuses a name that cannot be looked up in a directory, by the path that ends in it. -/
def checkName (dir : Entry) (p n : Text) : Except FileError Unit :=
  (checkPath p).bind fun _ =>
    if dir.allows .search = false then .error .denied
    else if maxName < n.size then .error .nameTooLong
    else .ok ()

theorem checkName_ne_alreadyExists (dir : Entry) (p n : Text) :
    checkName dir p n ≠ .error .alreadyExists := by
  unfold checkName checkPath checkForm
  cases p.contains '\x00' with
  | true => nofun
  | false =>
    cases p.isEmpty with
    | true => nofun
    | false =>
      simp only [Bool.false_eq_true, if_false]
      split
      · nofun
      · simp only [Except.bind]
        split
        · nofun
        · split <;> nofun

/-- **Making a directory under a name**: the name is looked up, nothing may be there, and the
directory around it has to allow the change. -/
theorem makeDir_join_name {time : Instant} {outer : Nat} (hdir : d.isDir dir = true)
    (hn : IsName n) (hat : d.at? (d.goal dir) = some (.dir time outer)) (mode : Nat → Nat) :
    d.makeDir (join dir n) mode = (checkName (.dir time outer) (join dir n) n).bind fun _ =>
      if (d.at? (d.goal dir ++ [n])).isSome then .error .alreadyExists
      else if (Entry.dir time outer).allows .write then
        .ok (d.put (d.goal dir ++ [n]) (.dir d.now (mode outer)))
      else .error .denied := by
  obtain ⟨front, hsegments, hfollow⟩ := origin_join_name hdir hn
  have htrim : trimSegmentsEnd (front ++ [n]) = front ++ [n] := by
    rw [trimSegmentsEnd, List.reverse_append, List.reverse_singleton, List.singleton_append,
      List.dropWhile_cons_of_neg (by rw [hn.silent]; exact Bool.false_ne_true), List.reverse_cons,
      List.reverse_reverse]
  unfold makeDir locateNew checkName
  cases hpath : checkPath (join dir n) with
  | error e => rfl
  | ok _ =>
    have hup : n ≠ ['.', '.'] := hn.up
    simp only [hsegments, htrim, List.getLast?_concat, List.dropLast_concat, placeIn, hfollow, hat,
      Except.bind, Bool.not_eq_eq_eq_not, Bool.not_true]
    cases (Entry.dir time outer).allows .search with
    | false => rfl
    | true =>
      by_cases hsize : maxName < n.size
      · simp only [hsize, if_true, Bool.true_eq_false, if_false]
      · simp only [hsize, hup, if_false, Bool.true_eq_false, openOuter, List.dropLast_concat, hat]
        cases (Entry.dir time outer).allows .write <;> rfl

/-- **A name leads to a directory** if it can be looked up and one is there. -/
theorem isDir_join_name {time : Instant} {outer : Nat} (hdir : d.isDir dir = true)
    (hn : IsName n) (hat : d.at? (d.goal dir) = some (.dir time outer)) :
    d.isDir (join dir n) = true ↔ checkName (.dir time outer) (join dir n) n = .ok () ∧
      (d.at? (d.goal dir ++ [n])).any Entry.isDir = true := by
  have hentry := entry_join hdir hn.plain
  rw [show hn.plain.text = n from rfl, segments_eq_singleton hn.slash] at hentry
  unfold isDir checkName
  rw [hentry]
  cases checkPath (join dir n) with
  | error e => simp [Except.bind]
  | ok _ =>
    simp only [Except.bind, seek_dir_cons hat]
    by_cases hsearch : (Entry.dir time outer).allows .search = false
    · simp [hsearch]
    by_cases hsize : maxName < n.size
    · simp [hsearch, hsize]
    rw [if_neg hsearch, if_neg hsize]
    cases hnext : d.at? (d.goal dir ++ [n]) with
    | none => simp [seek_missing hnext]
    | some entry => cases entry <;> simp [seek_nil hnext, Entry.isDir, hsearch, hsize]

end Name

/-! ## The directory of a change -/

/-- **A place in a directory that allows to be changed**, under a name of a size that a disk can
hold. -/
structure Opens (d : Disk) (place : Place) : Prop where
  dir : ∃ time mode, d.at? place.dropLast = some (.dir time mode) ∧
    (Entry.dir time mode).allows .write = true
  name : ∃ n, place = place.dropLast ++ [n] ∧ n.size ≤ maxName

theorem Opens.extends {d d' : Disk} {place : Place} (hopens : d.Opens place) (h : d.Extends d') :
    d'.Opens place := by
  obtain ⟨time, mode, hdir, hwrite⟩ := hopens.dir
  exact ⟨⟨time, mode, by rw [h.dirs _ _ _ hdir, hdir], hwrite⟩, hopens.name⟩

theorem opens_of_placeIn {d : Disk} {start place : Place} {outer : List Text} {name : Text}
    {found : Place × Nat} (hplace : d.placeIn start outer name = .ok place)
    (hopen : d.openOuter place = .ok found) : d.Opens place := by
  obtain ⟨dir, time, mode, -, hdir, -, hsize, rfl⟩ := placeIn_ok hplace
  unfold openOuter at hopen
  rw [List.dropLast_concat, hdir] at hopen
  dsimp only at hopen
  split at hopen
  · next hwrite =>
    refine ⟨⟨time, mode, ?_, hwrite⟩, name, ?_, hsize⟩
    · rw [List.dropLast_concat, hdir]
    · rw [List.dropLast_concat]
  · cases hopen

/-- A directory is made where the one around it allows it. -/
theorem makeDir_opens {d d' : Disk} {p : Text} {mode : Nat → Nat} (h : d.makeDir p mode = .ok d') :
    d.Opens (d.goal p) := by
  unfold makeDir at h
  split at h
  · cases h
  next place hplace =>
  obtain rfl := (locateNew_ok hplace).1
  split at h
  · cases h
  split at h
  · cases h
  next hopen =>
  unfold locateNew at hplace
  split at hplace
  · cases hplace
  dsimp only at hplace
  split at hplace
  · cases hplace
  split at hplace
  · cases hplace
  next found hfound =>
  split at hplace
  · cases hplace
  · cases hplace
    exact opens_of_placeIn hfound hopen

/-- A file is moved to where the directory around it allows it. -/
theorem moveTarget_opens {d : Disk} {source target : Place} {p : Text}
    (h : d.moveTarget source p = .ok target) : d.Opens target := by
  unfold moveTarget at h
  split at h
  · cases h
  dsimp only at h
  split at h
  · cases h
  split at h
  · cases h
  next found hfound =>
  split at h
  · cases h
  split at h
  · cases h
  split at h
  · cases h
  split at h
  · cases h
  next hopen =>
  split at h
  · cases h
  · cases h
    exact opens_of_placeIn hfound hopen

/-! ## Places that hang together -/

/-- **A disk whose places hang together**: what is there stands in a directory. -/
def Rooted (d : Disk) : Prop :=
  ∀ place n, (d.at? (place ++ [n])).isSome → ∃ time mode, d.at? place = some (.dir time mode)

theorem rooted_iff {d : Disk} : d.Rooted ↔
    ∀ e ∈ d.entries, e.1 ≠ [] → (d.at? e.1.dropLast).any Entry.isDir = true := by
  have hany : ∀ place, (d.at? place).any Entry.isDir = true ↔
      ∃ time mode, d.at? place = some (.dir time mode) := by
    intro place
    cases d.at? place with
    | none => simp
    | some entry => cases entry <;> simp [Entry.isDir]
  refine ⟨fun h e he hne => ?_, fun h place n hsome => ?_⟩
  · have hsome : (d.at? e.1).isSome := Table.isSome_get?_of_mem he
    rw [← List.dropLast_concat_getLast hne] at hsome
    exact (hany _).2 (h _ _ hsome)
  · obtain ⟨entry, hentry⟩ := Option.isSome_iff_exists.1 hsome
    have hdir := h _ (Table.mem_of_get?_eq_some hentry) (by simp)
    rw [List.dropLast_concat] at hdir
    exact (hany place).1 hdir

instance (d : Disk) : Decidable d.Rooted := decidable_of_iff _ rooted_iff.symm

section Rooted

variable {d : Disk} {place inner : Place}

/-- **Whatever is there has directories above it.** -/
theorem Rooted.above (h : d.Rooted) (hbelow : Below place inner) (hsome : (d.at? inner).isSome) :
    ∃ time mode, d.at? place = some (.dir time mode) := by
  obtain ⟨⟨names, rfl⟩, hne⟩ := hbelow
  induction names generalizing place with
  | nil => exact absurd (List.append_nil place) hne
  | cons n names ih =>
    rw [List.append_cons] at hsome
    refine h place n ?_
    cases names with
    | nil => rwa [List.append_nil] at hsome
    | cons m names =>
      obtain ⟨time, mode, hdir⟩ := ih hsome (by simp)
      rw [hdir]
      rfl

/-- **Nothing is below what is missing.** -/
theorem Rooted.missing (h : d.Rooted) (hnone : d.at? place = none) (hstarts : place <+: inner) :
    d.at? inner = none := by
  by_cases heq : inner = place
  · rw [heq, hnone]
  · refine Option.not_isSome_iff_eq_none.1 fun hsome => ?_
    obtain ⟨time, mode, hdir⟩ := h.above ⟨hstarts, heq⟩ hsome
    rw [hnone] at hdir
    cases hdir

end Rooted

end Disk

end Stencil
