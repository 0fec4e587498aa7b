import Mathlib.Data.Char
import Mathlib.Data.List.Induction
import Mathlib.Data.List.Lex
import Stencil.Proofs.Artifact.Clash

/-!
# Proofs/Disk/Discovery — which files are found

    root ──name──▸ directory ──name──▸ directory ──name──▸ file
    └──────────── walked: listed, not hidden ───┘

The directories are walked from the root, each by the names that can be read in it (`Walked`), and
what is not seen to be a directory is found.  So every file is found that has its name in a walked
directory and is not hidden, once and in order (`pairwise_filesBelow`).  A directory is seen if its
name can be looked up; one that can be read of but not looked up is found like a file
(`mem_filesBelow_iff`).
-/

namespace Stencil

namespace Disk

open Stencil.Path

/-! ## Walked directories -/

/-- **The directories that are walked**, by the names that lead to them: the root, and in a walked
directory what is not hidden and leads to a directory whose names may be read. -/
inductive Walked (d : Disk) (p : Text) : List Text → Prop
  | root (h : d.isListed p = true) : Walked d p []
  | step {outer : List Text} {name : Text} (h : Walked d p outer) (shown : isHidden name = false)
      (listed : d.isListed (pathBelow p (outer ++ [name])) = true) : Walked d p (outer ++ [name])

section Walked

variable {d : Disk} {p : Text} {outer : List Text} {name : Text}

theorem pathBelow_concat (p : Text) (outer : List Text) (name : Text) :
    pathBelow p (outer ++ [name]) = join (pathBelow p outer) name := by
  simp [pathBelow]

theorem isReached_concat : d.isReached p (outer ++ [name]) =
    (d.isReached p outer && d.isListed (pathBelow p outer)) := by
  have hfronts : ∀ n ∈ List.range outer.length, (outer ++ [name]).take n = outer.take n :=
    fun n hn => List.take_append_of_le_length (List.mem_range.1 hn).le
  unfold isReached
  rw [List.length_append, List.length_singleton, List.range_succ, List.all_append, List.all_cons,
    List.all_nil, Bool.and_true, List.take_left]
  congr 1
  rw [Bool.eq_iff_iff, List.all_eq_true, List.all_eq_true]
  exact forall₂_congr fun n hn => by rw [hfronts n hn]

/-- **Names are walked if each of them is**: none is hidden, and every front can be listed. -/
theorem walked_iff {names : List Text} : d.Walked p names ↔
    names.any isHidden = false ∧ d.isReached p names = true ∧
      d.isListed (pathBelow p names) = true := by
  constructor
  · intro h
    induction h with
    | root h => exact ⟨rfl, rfl, h⟩
    | step _ shown listed ih =>
      obtain ⟨hshown, hreached, hlisted⟩ := ih
      refine ⟨by simp [hshown, shown], ?_, listed⟩
      rw [isReached_concat, hreached, hlisted]
      rfl
  · induction names using List.reverseRecOn with
    | nil => exact fun h => .root h.2.2
    | append_singleton outer name ih =>
      rintro ⟨hshown, hreached, hlisted⟩
      rw [isReached_concat, Bool.and_eq_true] at hreached
      rw [List.any_append, Bool.or_eq_false_iff] at hshown
      exact .step (ih ⟨hshown.1, hreached⟩) (by simpa using hshown.2) hlisted

theorem isDir_of_isListed {p : Text} (h : d.isListed p = true) : d.isDir p = true := by
  unfold isListed at h
  unfold isDir
  split at h
  · next entry hentry =>
    rw [hentry]
    cases entry with
    | file content time mode => cases h
    | dir time mode => rfl
  · cases h

theorem Walked.isDir {names : List Text} (h : d.Walked p names) :
    d.isDir (pathBelow p names) = true :=
  isDir_of_isListed (walked_iff.1 h).2.2

/-- A walk starts at the root. -/
theorem Walked.root_isDir {names : List Text} (h : d.Walked p names) : d.isDir p = true := by
  induction h with
  | root h => exact isDir_of_isListed h
  | step _ _ _ ih => exact ih

end Walked

theorem goal_pathBelow (d : Disk) (p : Text) {names : List Text} (h : ∀ n ∈ names, IsName n) :
    d.goal (pathBelow p names) = d.goal p ++ names := by
  obtain ⟨hstart, hbody⟩ := origin_pathBelow (d := d) h p
  rw [(d.steps_origin _).1, hstart, hbody, walk_append, walk_names, ← (d.steps_origin p).1]

/-! ## What is found -/

theorem mem_namesBelow {d : Disk} {root : Place} {names : List Text} :
    names ∈ d.namesBelow root ↔ names ≠ [] ∧ (d.at? (root ++ names)).isSome := by
  unfold namesBelow
  rw [List.mem_filterMap]
  constructor
  · rintro ⟨⟨place, entry⟩, hmem, hnames⟩
    obtain ⟨hbelow, hne⟩ := Option.filter_eq_some_iff.1 hnames
    rw [← below?_eq_some_iff.1 hbelow]
    exact ⟨by simpa using hne, Table.isSome_get?_of_mem hmem⟩
  · rintro ⟨hne, hsome⟩
    obtain ⟨entry, hentry⟩ := Option.isSome_iff_exists.1 hsome
    refine ⟨_, Table.mem_of_get?_eq_some hentry, Option.filter_eq_some_iff.2 ⟨?_, ?_⟩⟩
    · exact below?_eq_some_iff.2 rfl
    · simpa using hne

/-- **The names in a walked directory that are not hidden.** -/
structure Meets (d : Disk) (p : Text) (outer : List Text) (name : Text) : Prop where
  walked : d.Walked p outer
  shown : isHidden name = false

/-- **A template**: a file under a name that is met. -/
def IsTemplate (d : Disk) (p : Text) (names : List Text) : Prop :=
  ∃ outer name, names = outer ++ [name] ∧ d.Meets p outer name ∧
    ∃ content time mode, d.at? (d.goal p ++ names) = some (.file content time mode)

/-- **A directory that is not seen to be one**: its name is met, but cannot be looked up. -/
def IsUnseen (d : Disk) (p : Text) (names : List Text) : Prop :=
  ∃ outer name, names = outer ++ [name] ∧ d.Meets p outer name ∧
    (∃ time mode, d.at? (d.goal p ++ names) = some (.dir time mode)) ∧
    ∀ entry, d.at? (d.goal p ++ outer) = some entry →
      checkName entry (pathBelow p names) name ≠ .ok ()

section Found

variable {d : Disk} {p : Text} {names : List Text}

theorem isFound_concat {outer : List Text} {name : Text} :
    d.isFound p (outer ++ [name]) = true ↔
      d.Meets p outer name ∧ d.isDir (pathBelow p (outer ++ [name])) = false := by
  unfold isFound
  rw [isReached_concat]
  simp only [List.any_append, List.any_cons, List.any_nil, Bool.or_false, Bool.not_or,
    Bool.and_eq_true, Bool.not_eq_true']
  constructor
  · rintro ⟨⟨⟨houter, hname⟩, hreached, hlisted⟩, hdir⟩
    exact ⟨⟨walked_iff.2 ⟨houter, hreached, hlisted⟩, hname⟩, hdir⟩
  · rintro ⟨⟨hwalked, hname⟩, hdir⟩
    obtain ⟨houter, hreached, hlisted⟩ := walked_iff.1 hwalked
    exact ⟨⟨⟨houter, hname⟩, hreached, hlisted⟩, hdir⟩

theorem locate_of_isDir (h : d.isDir p = true) : d.locate p = .ok (d.goal p) := by
  unfold isDir Disk.entry at h
  split at h
  · next hentry =>
    split at hentry
    · cases hentry
    · next hplace => rw [hplace, (locate_ok hplace).1]
  · cases h

/-- **What is found**: under a name that is met, whatever is not seen to be a directory. -/
theorem mem_filesBelow : names ∈ d.filesBelow p ↔
    ∃ outer name, names = outer ++ [name] ∧ d.Meets p outer name ∧
      (d.at? (d.goal p ++ names)).isSome ∧ d.isDir (pathBelow p names) = false := by
  unfold filesBelow
  constructor
  · intro h
    split at h
    · cases h
    next root hroot =>
    obtain rfl := (locate_ok hroot).1
    rw [List.mem_mergeSort, List.mem_filter, mem_namesBelow] at h
    obtain ⟨⟨hne, hsome⟩, hfound⟩ := h
    obtain ⟨outer, name, rfl⟩ := (List.eq_nil_or_concat' names).resolve_left hne
    obtain ⟨hmeets, hdir⟩ := isFound_concat.1 hfound
    exact ⟨outer, name, rfl, hmeets, hsome, hdir⟩
  · rintro ⟨outer, name, rfl, hmeets, hsome, hdir⟩
    rw [locate_of_isDir hmeets.walked.root_isDir]
    dsimp only
    rw [List.mem_mergeSort, List.mem_filter, mem_namesBelow]
    exact ⟨⟨by simp, hsome⟩, isFound_concat.2 ⟨hmeets, hdir⟩⟩

/-- **A directory under a name that is met is seen** exactly if its name can be looked up. -/
theorem Meets.isDir_iff {outer : List Text} {name : Text} (hmeets : d.Meets p outer name)
    (hnames : ∀ n ∈ outer ++ [name], IsName n) :
    d.isDir (pathBelow p (outer ++ [name])) = true ↔
      (∃ entry, d.at? (d.goal p ++ outer) = some entry ∧
        checkName entry (pathBelow p (outer ++ [name])) name = .ok ()) ∧
      ∃ time mode, d.at? (d.goal p ++ (outer ++ [name])) = some (.dir time mode) := by
  have houter : ∀ n ∈ outer, IsName n := fun n hn => hnames n (List.mem_append_left _ hn)
  have hdir := hmeets.walked.isDir
  obtain ⟨⟨time, mode, hat⟩, -⟩ := isDir_ok hdir
  rw [pathBelow_concat, isDir_join_name hdir (hnames name (by simp)) hat,
    goal_pathBelow d p houter, List.append_assoc]
  rw [goal_pathBelow d p houter] at hat
  refine and_congr ⟨fun h => ⟨_, hat, h⟩, ?_⟩ ?_
  · rintro ⟨entry, hentry, h⟩
    obtain rfl := Option.some.inj (hat.symm.trans hentry)
    exact h
  · cases d.at? (d.goal p ++ (outer ++ [name])) with
    | none => simp
    | some entry => cases entry <;> simp [Entry.isDir]

/-- **What is found is a template or a directory that is not seen to be one.** -/
theorem mem_filesBelow_iff (h : d.Named) :
    names ∈ d.filesBelow p ↔ d.IsTemplate p names ∨ d.IsUnseen p names := by
  have hnames : (d.at? (d.goal p ++ names)).isSome → ∀ n ∈ names, IsName n :=
    fun hsome n hn => h.places _ hsome n (List.mem_append_right _ hn)
  rw [mem_filesBelow]
  constructor
  · rintro ⟨outer, name, rfl, hmeets, hsome, hdir⟩
    obtain ⟨entry, hentry⟩ := Option.isSome_iff_exists.1 hsome
    cases entry with
    | file content time mode => exact .inl ⟨outer, name, rfl, hmeets, content, time, mode, hentry⟩
    | dir time mode =>
      refine .inr ⟨outer, name, rfl, hmeets, ⟨time, mode, hentry⟩, fun around haround hcheck => ?_⟩
      rw [(hmeets.isDir_iff (hnames hsome)).2 ⟨⟨around, haround, hcheck⟩, time, mode, hentry⟩]
        at hdir
      cases hdir
  · rintro (⟨outer, name, rfl, hmeets, content, time, mode, hentry⟩ |
      ⟨outer, name, rfl, hmeets, ⟨time, mode, hentry⟩, hunseen⟩)
    · have hsome := Option.isSome_iff_exists.2 ⟨_, hentry⟩
      refine ⟨outer, name, rfl, hmeets, hsome, Bool.eq_false_iff.2 fun hdir => ?_⟩
      obtain ⟨-, time', mode', hdirectory⟩ := (hmeets.isDir_iff (hnames hsome)).1 hdir
      rw [hentry] at hdirectory
      cases hdirectory
    · have hsome := Option.isSome_iff_exists.2 ⟨_, hentry⟩
      refine ⟨outer, name, rfl, hmeets, hsome, Bool.eq_false_iff.2 fun hdir => ?_⟩
      obtain ⟨⟨around, haround, hcheck⟩, -⟩ := (hmeets.isDir_iff (hnames hsome)).1 hdir
      exact hunseen around haround hcheck

theorem IsTemplate.not_isUnseen (h : d.IsTemplate p names) : ¬ d.IsUnseen p names := by
  obtain ⟨_, _, -, -, content, time, mode, hfile⟩ := h
  rintro ⟨_, _, -, -, ⟨time', mode', hdir⟩, -⟩
  rw [hfile] at hdir
  cases hdir

/-- **What is found comes once and in order**, name by name. -/
theorem pairwise_filesBelow (h : d.Proper) (p : Text) : (d.filesBelow p).Pairwise (· < ·) := by
  have htrans : ∀ a b c : List Text, (!decide (b < a)) = true → (!decide (c < b)) = true →
      (!decide (c < a)) = true := by
    simp only [Bool.not_eq_true', decide_eq_false_iff_not]
    exact fun a b c hab hbc hca => hbc (hca.trans_le (not_lt.1 hab))
  have htotal : ∀ a b : List Text, (!decide (b < a) || !decide (a < b)) = true := by
    intro a b
    rw [← Bool.not_and, Bool.not_eq_true', Bool.and_eq_false_iff, decide_eq_false_iff_not,
      decide_eq_false_iff_not, ← not_and_or]
    exact fun hboth => hboth.1.asymm hboth.2
  have hsorted : (d.filesBelow p).Pairwise fun a b => (!decide (b < a)) = true := by
    unfold filesBelow
    split
    · exact .nil
    · exact List.pairwise_mergeSort htrans htotal _
  refine hsorted.imp₂ (fun a b hle hne => ?_) (h.nodup_filesBelow p)
  rw [Bool.not_eq_true', decide_eq_false_iff_not] at hle
  exact lt_of_le_of_ne (not_lt.1 hle) hne

/-- What is found has a relative path whose components are its names. -/
theorem components_of_mem_filesBelow (hnamed : d.Named) (h : names ∈ d.filesBelow p) :
    components (joinSegments names) = names.map .name := by
  obtain ⟨hne, hall⟩ := Engine.isName_of_mem_filesBelow hnamed h
  have hsegments : segments (joinSegments names) = names :=
    segments_joinSegments hne fun s hs => (hall s hs).slash
  have habs : isAbsolute (joinSegments names) = false := Plain.isAbsolute ⟨_, hsegments.symm ▸ hall⟩
  have hdot : names.head? ≠ some ['.'] := fun hhead =>
    absurd (hall _ (List.mem_of_head? hhead)).silent (by decide)
  rw [components_relative habs, hsegments, if_neg hdot, bodyComponents_names hall]
  rfl

theorem filesBelow_of_not_isDir (h : d.isDir p = false) : d.filesBelow p = [] := by
  refine List.eq_nil_iff_forall_not_mem.2 fun names hnames => ?_
  obtain ⟨_, _, -, hmeets, -⟩ := mem_filesBelow.1 hnames
  rw [hmeets.walked.root_isDir] at h
  cases h

end Found

/-- **Discovery is exact up to directories that are not seen.**  On a proper disk what is found
below a directory comes in strictly increasing order of its components, and nothing is found below
what is no directory.  It is the templates and the directories that are not seen to be any, so it is
the templates alone exactly if every directory that is met can be looked up. -/
theorem filesBelow_exact {d : Disk} (h : d.Proper) (p : Text) :
    (d.filesBelow p).Pairwise (· < ·) ∧
      (∀ names ∈ d.filesBelow p, components (joinSegments names) = names.map .name) ∧
      (d.isDir p = false → d.filesBelow p = []) ∧
      (∀ names, names ∈ d.filesBelow p ↔ d.IsTemplate p names ∨ d.IsUnseen p names) ∧
      ((∀ names, names ∈ d.filesBelow p ↔ d.IsTemplate p names) ↔
        ∀ names, ¬ d.IsUnseen p names) := by
  refine ⟨pairwise_filesBelow h p, fun names => components_of_mem_filesBelow h.named,
    filesBelow_of_not_isDir, fun names => mem_filesBelow_iff h.named, ?_, fun hseen names => ?_⟩
  · intro hexact names hunseen
    have hfound := (mem_filesBelow_iff h.named).2 (.inr hunseen)
    exact ((hexact names).1 hfound).not_isUnseen hunseen
  · rw [mem_filesBelow_iff h.named, or_iff_left (hseen names)]

/-- Templates whose order by components is not that of their texts, and a hidden one. -/
def tree : Disk where
  entries := [([], .dir 0 0o755), (["t"], .dir 0 0o755), (["t", ".h"], .file [] 0 0o644),
    (["t", "a"], .dir 0 0o755), (["t", "a", "b"], .file [] 0 0o644),
    (["t", "a-b"], .file [] 0 0o644), (["t", "a.b"], .file [] 0 0o644)]
  here := []
  now := 0

theorem filesBelow_exact_tree :
    tree.Proper ∧ (tree.filesBelow "t").Pairwise (· < ·) ∧
      ∀ names, names ∈ tree.filesBelow "t" ↔
        tree.IsTemplate "t" names ∨ tree.IsUnseen "t" names := by
  have hproper : tree.Proper := by decide +kernel
  obtain ⟨hsorted, -, -, hfound, -⟩ := filesBelow_exact hproper "t"
  exact ⟨hproper, hsorted, hfound⟩

example : (["a", "b"] : List Text) < ["a-b"] ∧ joinSegments ["a-b"] < joinSegments ["a", "b"] := by
  decide

/-- A directory in which names may be read but not looked up, with a directory in it. -/
def locked : Disk where
  entries := [([], .dir 0 0o755), (["t"], .dir 0 0o400), (["t", "d"], .dir 0 0o755)]
  here := []
  now := 0

/-- A directory whose name can be read but not looked up is found. -/
theorem filesBelow_locked :
    ¬ ∀ (d : Disk) (p : Text), d.Proper → d.Rooted →
      ∀ names, names ∈ d.filesBelow p ↔ d.IsTemplate p names := by
  intro hexact
  have hunseen : locked.IsUnseen "t" ["d"] := by
    refine ⟨[], "d", rfl, ⟨.root (by decide +kernel), rfl⟩, ⟨0, 0o755, rfl⟩, ?_⟩
    intro entry hentry
    obtain rfl := Option.some.inj hentry
    decide +kernel
  have hfound := (mem_filesBelow_iff (by decide +kernel)).2 (.inr hunseen)
  have htemplate := (hexact locked "t" (by decide +kernel) (by decide +kernel) _).1 hfound
  exact htemplate.not_isUnseen hunseen

end Disk

end Stencil
