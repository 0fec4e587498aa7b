import Stencil.Proofs.Artifact.Atomic
import Stencil.Proofs.Artifact.Grow

/-!
# Proofs/Artifact/Lockstep — the same call on a disk that has grown

    x ──call──▸ x'
    │ grows
    y ──call──▸ y'        the same result, and the same changes

An artifact that is stored on a disk is stored on one that has grown since.  If the way to it fits
(`Fits`), the two calls go in lockstep: directories that the first one makes are made by the second
one, or are there already (`makeDirs_lockstep`), and the artifact is placed by both or by none
(`write_lockstep`).  What changes is the same on both disks (`Patched`).
-/

namespace Stencil

open Stencil.Path

/-! ## Changes -/

namespace Disk

/-- **The same changes on two disks**: what a call leaves on the first it leaves on the second as
well, and nothing else changes there. -/
structure Patched (x x' y y' : Disk) : Prop where
  here : y'.here = y.here
  now : y'.now = y.now
  zone : y'.zone = y.zone
  same : ∀ place, x'.at? place ≠ x.at? place → y'.at? place = x'.at? place
  other : ∀ place, x'.at? place = x.at? place → y'.at? place = y.at? place

theorem Patched.refl (x y : Disk) : Patched x x y y :=
  ⟨rfl, rfl, rfl, fun _ h => absurd rfl h, fun _ _ => rfl⟩

/-- Changes go together if the later ones keep what the earlier ones have left. -/
theorem Patched.trans {x x' x'' y y' y'' : Disk} (h : Patched x x' y y')
    (h' : Patched x' x'' y' y'')
    (hkeep : ∀ place, x'.at? place ≠ x.at? place → x''.at? place = x'.at? place) :
    Patched x x'' y y'' := by
  refine ⟨h'.here.trans h.here, h'.now.trans h.now, h'.zone.trans h.zone,
    fun place hchange => ?_, fun place hsame => ?_⟩ <;> by_cases hfirst : x'.at? place = x.at? place
  · exact h'.same place (hfirst ▸ hchange)
  · have hlast := hkeep place hfirst
    rw [h'.other place hlast, h.same place hfirst, hlast]
  · rw [h'.other place (hsame.trans hfirst.symm), h.other place hfirst]
  · exact absurd ((hkeep place hfirst).symm.trans hsame) hfirst

theorem Patched.extends {x x' y y' : Disk} (h : Patched x x' y y') (hext : x.Extends y)
    (hhere : x'.here = x.here) (hzone : x'.zone = x.zone) : x'.Extends y' := by
  refine ⟨h.here.trans (hext.here.trans hhere.symm),
    h.zone.trans (hext.zone.trans hzone.symm), fun dir time mode hdir => ?_,
    fun place hsome => ?_⟩
  · by_cases hchange : x'.at? dir = x.at? dir
    · rw [h.other dir hchange, hext.dirs dir time mode (hchange ▸ hdir), hchange]
    · exact h.same dir hchange
  · by_cases hchange : x'.at? place = x.at? place
    · rw [h.other place hchange]
      exact hext.isSome place (hchange ▸ hsome)
    · rwa [h.same place hchange]

/-- The same entry is put in a place that is the same on both disks. -/
theorem patched_put {x y : Disk} {place : Place} (h : y.at? place = x.at? place) (entry : Entry) :
    Patched x (x.put place entry) y (y.put place entry) := by
  refine ⟨rfl, rfl, rfl, fun other hchange => ?_, fun other hsame => ?_⟩ <;>
    rw [at?_put] at * <;> by_cases hother : place = other
  · rw [at?_put, if_pos hother, if_pos hother]
  · exact absurd (if_neg hother) hchange
  · rw [if_pos hother] at hsame ⊢
    rw [hsame, ← hother, h]
  · rw [if_neg hother]

/-- **A place that a way leads through on both disks**: there is the same, and no file; or nothing
before, and now the directory that would be made. -/
def Fits (mode : Nat) (x y : Disk) (place : Place) : Prop :=
  (y.at? place = x.at? place ∧
      ∀ content time bits, x.at? place ≠ some (.file content time bits)) ∨
    (x.at? place = none ∧ y.at? place = some (.dir x.now mode) ∧ y.Opens place)

/-- **One place at most has changed**, and no directory has gone. -/
structure Advances (d d' : Disk) (place : Place) : Prop extends Extends d d' where
  now : d'.now = d.now
  other : ∀ other, other ≠ place → d'.at? other = d.at? other

theorem Advances.refl (d : Disk) (place : Place) : Advances d d place :=
  ⟨.refl d, rfl, fun _ _ => rfl⟩

theorem advances_put {d : Disk} {place : Place} (h : d.at? place = none) (entry : Entry) :
    Advances d (d.put place entry) place := by
  refine ⟨extends_put _ (by rw [h]; rfl), rfl, fun other hother => ?_⟩
  rw [at?_put, if_neg hother.symm]

/-- A change of one place that comes to the same on both disks. -/
theorem patched_of_advances {x x' y y' : Disk} {place : Place} {entry : Entry}
    (hx : Advances x x' place) (hy : Advances y y' place) (hnone : x.at? place = none)
    (hleft : x'.at? place = some entry) (hright : y'.at? place = some entry) :
    Patched x x' y y' := by
  refine ⟨hy.here, hy.now, hy.zone, fun other hchange => ?_, fun other hsame => ?_⟩
  · have hother : other = place :=
      Decidable.of_not_not fun hne => hchange (hx.other other hne)
    rw [hother, hleft, hright]
  · refine hy.other other ?_
    rintro rfl
    rw [hleft, hnone] at hsame
    cases hsame

/-- A place fits as long as another one changes. -/
theorem Fits.advance {mode : Nat} {x x' y y' : Disk} {place target : Place}
    (h : Fits mode x y place) (hne : place ≠ target) (hx : Advances x x' target)
    (hy : Advances y y' target) : Fits mode x' y' place := by
  unfold Fits
  rw [hx.other place hne, hy.other place hne, hx.now]
  exact h.imp id fun h => ⟨h.1, h.2.1, h.2.2.extends hy.toExtends⟩

/-- **Two disks abreast at a directory**: it is the same one on both. -/
structure Abreast (x y : Disk) (dir : Text) : Prop where
  here : y.here = x.here
  now : y.now = x.now
  left : x.isDir dir = true
  right : y.isDir dir = true
  same : y.at? (x.goal dir) = x.at? (x.goal dir)

/-- Disks that are abreast at a directory are so at a name in it, if it leads to the same directory
on both. -/
theorem Abreast.next {x x' y y' : Disk} {dir n : Text} {time time' : Instant} {outer mode : Nat}
    (h : Abreast x y dir) (hn : IsName n) (hat : x.at? (x.goal dir) = some (.dir time outer))
    (hcheck : checkName (.dir time outer) (join dir n) n = .ok ())
    (hx : Advances x x' (x.goal dir ++ [n])) (hy : Advances y y' (x.goal dir ++ [n]))
    (hleft : x'.at? (x.goal dir ++ [n]) = some (.dir time' mode))
    (hright : y'.at? (x.goal dir ++ [n]) = some (.dir time' mode)) :
    Abreast x' y' (join dir n) := by
  have hisDir : ∀ {d d' : Disk}, d.isDir dir = true → d.here = x.here →
      d.at? (x.goal dir) = some (.dir time outer) → Advances d d' (x.goal dir ++ [n]) →
      d'.at? (x.goal dir ++ [n]) = some (.dir time' mode) → d'.isDir (join dir n) = true := by
    intro d d' hd hhere hat hadvances hdir
    have hgoal : d'.goal dir = x.goal dir := goal_congr (hadvances.here.trans hhere) dir
    refine (isDir_join_name (hadvances.isDir hd) hn ?_).2 ⟨hcheck, ?_⟩
    · rw [hgoal, hadvances.dirs _ _ _ hat, hat]
    · rw [hgoal, hdir]
      rfl
  refine ⟨?_, by rw [hy.now, h.now, hx.now], hisDir h.left rfl hat hx hleft,
    hisDir h.right h.here (h.same.trans hat) hy hright, ?_⟩
  · rw [hy.here, h.here, hx.here]
  · rw [goal_congr hx.here, x.goal_join_name dir hn]
    exact hright.trans hleft.symm

end Disk

namespace Store

/-! ## Making directories -/

section Name

variable {mode : Nat} {d : Disk} {dir n : Text} {time : Instant} {outer : Nat}

/-- **A name that cannot be looked up ends the way to an artifact.** -/
theorem makeDirs_refused {cause : FileError} (hdir : d.isDir dir = true) (hn : IsName n)
    (hat : d.at? (d.goal dir) = some (.dir time outer))
    (hcheck : Disk.checkName (.dir time outer) (join dir n) n = .error cause)
    (steps : List Component) :
    makeDirs mode d dir (.name n :: steps) = (.error (.notMade (join dir n) cause), d) := by
  have hisDir : d.isDir (join dir n) ≠ true := by
    rw [Ne, Disk.isDir_join_name hdir hn hat, hcheck]
    rintro ⟨⟨⟩, -⟩
  rw [makeDirs, show (Component.name n).text = n from rfl, if_neg hisDir,
    Disk.makeDir_join_name hdir hn hat, hcheck]
  have hcause : cause ≠ .alreadyExists := by
    rintro rfl
    exact Disk.checkName_ne_alreadyExists _ _ _ hcheck
  cases cause with
  | alreadyExists => exact absurd rfl hcause
  | _ => rfl

/-- **A name that can be looked up leads on**: what is there is passed, and a directory is made where
nothing is, if the one around it allows it. -/
theorem makeDirs_passed (hdir : d.isDir dir = true) (hn : IsName n)
    (hat : d.at? (d.goal dir) = some (.dir time outer))
    (hcheck : Disk.checkName (.dir time outer) (join dir n) n = .ok ()) (steps : List Component) :
    makeDirs mode d dir (.name n :: steps) =
      if (d.at? (d.goal dir ++ [n])).isSome then makeDirs mode d (join dir n) steps
      else if (Entry.dir time outer).allows .write then
        makeDirs mode (d.put (d.goal dir ++ [n]) (.dir d.now mode)) (join dir n) steps
      else (.error (.notMade (join dir n) .denied), d) := by
  have hisDir := Disk.isDir_join_name hdir hn hat
  rw [hcheck] at hisDir
  rw [makeDirs, show (Component.name n).text = n from rfl]
  by_cases h : d.isDir (join dir n) = true
  · rw [if_pos h]
    have hnext := (hisDir.1 h).2
    cases hthere : d.at? (d.goal dir ++ [n]) with
    | none =>
      rw [hthere] at hnext
      cases hnext
    | some => rfl
  · rw [if_neg h, Disk.makeDir_join_name hdir hn hat, hcheck]
    dsimp only [Except.bind]
    cases (d.at? (d.goal dir ++ [n])).isSome with
    | true => rfl
    | false => cases (Entry.dir time outer).allows .write <;> rfl

end Name

/-- **One step in lockstep**: where the next place fits, both calls stop in the same way, or both go
on from the next directory, with the same change. -/
theorem makeDirs_abreast {mode : Nat} {x y : Disk} {dir n : Text} (h : Disk.Abreast x y dir)
    (hn : IsName n) (hfits : Disk.Fits mode x y (x.goal dir ++ [n])) (steps : List Component) :
    (∃ f, makeDirs mode x dir (.name n :: steps) = (.error f, x) ∧
        makeDirs mode y dir (.name n :: steps) = (.error f, y)) ∨
      ∃ x' y', makeDirs mode x dir (.name n :: steps) = makeDirs mode x' (join dir n) steps ∧
        makeDirs mode y dir (.name n :: steps) = makeDirs mode y' (join dir n) steps ∧
        Disk.Abreast x' y' (join dir n) ∧ Disk.Patched x x' y y' ∧
        Disk.Advances x x' (x.goal dir ++ [n]) ∧ Disk.Advances y y' (x.goal dir ++ [n]) := by
  obtain ⟨⟨time, outer, hdir⟩, -⟩ := Disk.isDir_ok h.left
  have hdir' : y.at? (y.goal dir) = some (.dir time outer) := by
    rw [Disk.goal_congr h.here, h.same, hdir]
  cases hcheck : Disk.checkName (.dir time outer) (join dir n) n with
  | error cause =>
    exact .inl ⟨_, makeDirs_refused h.left hn hdir hcheck steps,
      makeDirs_refused h.right hn hdir' hcheck steps⟩
  | ok _ =>
  rw [makeDirs_passed h.left hn hdir hcheck, makeDirs_passed h.right hn hdir' hcheck,
    Disk.goal_congr h.here]
  have hput : ∀ d : Disk, (d.put (x.goal dir ++ [n]) (.dir d.now mode)).at? (x.goal dir ++ [n]) =
      some (.dir d.now mode) := by
    intro d
    rw [Disk.at?_put, if_pos rfl]
  rcases hfits with ⟨hsame, hfile⟩ | ⟨hnone, hmade, hopens⟩
  · rw [hsame]
    cases hat : x.at? (x.goal dir ++ [n]) with
    | some entry =>
      cases entry with
      | file => exact absurd hat (hfile _ _ _)
      | dir time' bits =>
        refine .inr ⟨x, y, rfl, rfl, ?_, .refl _ _, .refl _ _, .refl _ _⟩
        exact h.next hn hdir hcheck (.refl _ _) (.refl _ _) hat (hsame.trans hat)
    | none =>
      cases hwrite : (Entry.dir time outer).allows .write with
      | false => exact .inl ⟨_, rfl, rfl⟩
      | true =>
        have hx := Disk.advances_put hat (.dir x.now mode)
        have hy := Disk.advances_put (hsame.trans hat) (.dir y.now mode)
        have hleft := hput x
        have hright : (y.put (x.goal dir ++ [n]) (.dir y.now mode)).at? (x.goal dir ++ [n]) =
            some (.dir x.now mode) := by rw [hput, h.now]
        exact .inr ⟨_, _, rfl, rfl, h.next hn hdir hcheck hx hy hleft hright,
          Disk.patched_of_advances hx hy hat hleft hright, hx, hy⟩
  · -- The directory that the first call makes is there for the second one.
    obtain ⟨time', bits, houter, hwrite⟩ := hopens.dir
    rw [List.dropLast_concat, h.same, hdir] at houter
    cases houter
    have hx := Disk.advances_put hnone (.dir x.now mode)
    refine .inr ⟨_, y, ?_, ?_, h.next hn hdir hcheck hx (.refl _ _) (hput x) hmade,
      Disk.patched_of_advances hx (.refl _ _) hnone (hput x) hmade, hx, .refl _ _⟩
    · rw [hnone, hwrite]
      rfl
    · rw [hmade]
      rfl

/-- Names are steps. -/
theorem isStep_of_mem_names {names : List Text} (h : ∀ n ∈ names, IsName n) {c : Component}
    (hc : c ∈ names.map .name) : c.IsStep := by
  obtain ⟨n, hn, rfl⟩ := List.mem_map.1 hc
  exact h n hn

/-- **Making directories in lockstep**: where the way fits, both calls end in the same way, with the
same changes.  If they succeed, the last directory is there. -/
theorem makeDirs_lockstep {mode : Nat} {x x' y : Disk} {dir : Text} {names : List Text}
    {result : Except Failure Text} (h : Disk.Abreast x y dir) (hnames : ∀ n ∈ names, IsName n)
    (hfits : ∀ front, front <+: names → front ≠ [] → Disk.Fits mode x y (x.goal dir ++ front))
    (hmake : makeDirs mode x dir (names.map .name) = (result, x')) :
    ∃ y', makeDirs mode y dir (names.map .name) = (result, y') ∧ Disk.Patched x x' y y' ∧
      ∀ last, result = .ok last → x'.isDir last = true := by
  induction names generalizing x y dir with
  | nil =>
    cases hmake
    refine ⟨y, rfl, .refl _ _, ?_⟩
    rintro last ⟨⟩
    exact h.left
  | cons n names ih =>
    have hn : IsName n := hnames n List.mem_cons_self
    have hrest : ∀ m ∈ names, IsName m := fun m hm => hnames m (List.mem_cons_of_mem _ hm)
    rw [List.map_cons] at hmake ⊢
    rcases makeDirs_abreast h hn (hfits [n] (List.prefix_append [n] names) nofun)
      (names.map .name) with ⟨f, hx, hy⟩ | ⟨x₁, y₁, hx, hy, habreast, hpatched, hleft, hright⟩
    · rw [hx] at hmake
      cases hmake
      exact ⟨y, hy, .refl _ _, nofun⟩
    · rw [hx] at hmake
      have hgoal : x₁.goal (join dir n) = x.goal dir ++ [n] := by
        rw [Disk.goal_congr hleft.here, x.goal_join_name dir hn]
      have hlater : ∀ front, front <+: names → front ≠ [] →
          Disk.Fits mode x₁ y₁ (x₁.goal (join dir n) ++ front) := by
        intro front hfront hne
        rw [hgoal, ← List.append_cons]
        refine (hfits (n :: front) ((List.prefix_cons_inj n).2 hfront) nofun).advance ?_ hleft
          hright
        simpa using hne
      obtain ⟨y', hy', hpatched', hlast⟩ := ih habreast hrest hlater hmake
      refine ⟨y', hy.trans hy', hpatched.trans hpatched' fun place hchange => ?_, hlast⟩
      have hplace : place = x.goal dir ++ [n] :=
        Decidable.of_not_not fun hne => hchange (hleft.other place hne)
      obtain ⟨⟨time, mode', hdir⟩, -⟩ := Disk.isDir_ok habreast.left
      rw [hgoal, ← hplace] at hdir
      exact (makeDirs_paves (fun _ => isStep_of_mem_names hrest) hmake).extends.dirs _ _ _ hdir

/-! ## Storing -/

section Place

variable {d d' : Disk}

/-- **The path of a draft comes by directories**, if its directory is one. -/
theorem dirs_of_draft {dir : Text} (hhere : ∀ n ∈ d.here, IsName n) (hrooted : d.Rooted)
    (hdir : d.isDir dir = true) {front : List Component}
    (hfront : front <+: bodyComponents (d.origin (join (Disk.placeText d.here) dir)).2) :
    ∃ time mode, d.at? (walk (d.origin (join (Disk.placeText d.here) dir)).1 front) =
      some (.dir time mode) := by
  cases habs : isAbsolute dir with
  | true =>
    have hjoin : join (Disk.placeText d.here) dir = dir := by rw [join, if_pos habs]
    rw [hjoin] at hfront ⊢
    exact Disk.dirs_of_isDir hdir hfront
  | false =>
    obtain ⟨hstart, hbody⟩ := d.origin_join habs (Disk.placeText d.here)
    have hplace : bodyComponents (d.origin (Disk.placeText d.here)).2 = d.here.map .name := by
      have := Disk.bodyComponents_joinSegments_slash hhere false
      rwa [if_neg Bool.false_ne_true, List.append_nil] at this
    have hdirs : ∀ {front : List Component}, front <+: bodyComponents (segments dir) →
        ∃ time mode, d.at? (walk d.here front) = some (.dir time mode) := by
      intro front hfront
      have horigin := d.origin_relative habs
      have hinner : front <+: bodyComponents (d.origin dir).2 := by
        rw [horigin]
        exact hfront
      have hvisited := Disk.dirs_of_isDir hdir hinner
      rwa [horigin] at hvisited
    rw [hbody, hplace] at hfront
    rw [hstart]
    change ∃ time mode, d.at? (walk [] front) = some (.dir time mode)
    rcases List.prefix_or_prefix_of_prefix hfront (List.prefix_append _ _) with hup | hup
    · obtain ⟨outer, houter, rfl⟩ := List.prefix_map_iff.1 hup
      rw [walk_names, List.nil_append]
      obtain ⟨time, mode, hat⟩ := hdirs List.nil_prefix
      by_cases heq : d.here = outer
      · exact ⟨time, mode, heq ▸ hat⟩
      · exact hrooted.above ⟨houter, heq⟩ (by rw [show d.at? d.here = _ from hat]; rfl)
    · obtain ⟨more, rfl⟩ := hup
      rw [List.prefix_append_right_inj] at hfront
      rw [walk_append, walk_names, List.nil_append]
      exact hdirs hfront

/-- **A draft is begun in the same place**, as long as directories stay. -/
theorem draftPlace_extends {dir : Text} (hhere : ∀ n ∈ d.here, IsName n) (hrooted : d.Rooted)
    (hext : d.Extends d') (hdir : d.isDir dir = true) : draftPlace d' dir = draftPlace d dir := by
  have hpath : ∀ stars, draftPath d' dir stars = draftPath d dir stars := by
    intro stars
    rw [draftPath, draftPath, hext.here]
  have habs : isAbsolute (".tmp" ++ List.replicate 6 '*') = false := by decide
  have hname : bodyComponents (segments (".tmp" ++ List.replicate 6 '*')) =
      [.name (".tmp" ++ List.replicate 6 '*')] := by decide
  obtain ⟨hstart, hbody⟩ := d.origin_join habs (join (Disk.placeText d.here) dir)
  rw [hname] at hbody
  have hkept : ∀ {front}, front <+: bodyComponents (d.origin (join (Disk.placeText d.here) dir)).2 →
      d'.at? (walk (d.origin (join (Disk.placeText d.here) dir)).1 front) =
        d.at? (walk (d.origin (join (Disk.placeText d.here) dir)).1 front) := by
    intro front hfront
    obtain ⟨time, mode, hat⟩ := dirs_of_draft hhere hrooted hdir hfront
    exact hext.dirs _ time mode hat
  have hnew : d'.locateNew (draftPath d dir 6) = d.locateNew (draftPath d dir 6) := by
    refine Disk.locateNew_congr hext.here fun front hfront => ?_
    rw [draftPath, hbody, List.dropLast_concat] at hfront
    rw [draftPath, hstart]
    exact hkept hfront
  have hopen : (d.locateNew (draftPath d dir 6)).bind d'.openOuter =
      (d.locateNew (draftPath d dir 6)).bind d.openOuter := by
    cases hplace : d.locateNew (draftPath d dir 6) with
    | error cause => rfl
    | ok place =>
      change d'.openOuter place = d.openOuter place
      obtain rfl := (Disk.locateNew_ok hplace).1
      unfold Disk.openOuter
      have houter : (d.goal (draftPath d dir 6)).dropLast =
          walk (d.origin (join (Disk.placeText d.here) dir)).1
            (bodyComponents (d.origin (join (Disk.placeText d.here) dir)).2) := by
        rw [(d.steps_origin _).1, draftPath, hbody, hstart, walk_append]
        exact List.dropLast_concat
      rw [houter, hkept (List.prefix_refl _)]
  unfold draftPlace
  rw [hpath, hpath, hnew, hopen]

/-- The path of an artifact comes by the same places, as long as directories stay and its own place
does. -/
theorem alike_artifact {root : Text} {p : Plain} (hrooted : d.Rooted) (hext : d.Extends d')
    (hroot : d.isDir root = true)
    (hdir : ∃ time mode, d.at? (d.goal root ++ (segments p.text).dropLast) =
      some (.dir time mode))
    (hat : d'.at? (d.goal (join root p.text)) = d.at? (d.goal (join root p.text))) :
    Disk.Alike d d' (d.origin (join root p.text)).1
      (bodyComponents (d.origin (join root p.text)).2) := by
  have hdirs : ∀ place, (∃ time mode, d.at? place = some (.dir time mode)) →
      d'.at? place = d.at? place := by
    rintro place ⟨time, mode, hplace⟩
    exact hext.dirs place time mode hplace
  obtain ⟨hstart, hbody⟩ := d.origin_join p.isAbsolute root
  rw [p.bodyComponents] at hbody
  rw [hstart, hbody]
  intro front hfront
  rcases List.prefix_or_prefix_of_prefix hfront (List.prefix_append _ _) with hup | hup
  · exact hdirs _ (Disk.dirs_of_isDir hroot hup)
  obtain ⟨more, rfl⟩ := hup
  rw [List.prefix_append_right_inj] at hfront
  obtain ⟨inner, hinner, rfl⟩ := List.prefix_map_iff.1 hfront
  rw [walk_append, ← (d.steps_origin _).1, walk_names]
  have hnames := List.dropLast_concat_getLast (segments_ne_nil p.text)
  rw [← hnames, List.prefix_concat_iff] at hinner
  rcases hinner with rfl | hinner
  · rw [hnames, ← d.goal_join_plain]
    exact hat
  · refine hdirs _ ?_
    by_cases heq : d.goal root ++ (segments p.text).dropLast = d.goal root ++ inner
    · exact heq ▸ hdir
    · obtain ⟨time, mode, hdir⟩ := hdir
      exact hrooted.above ⟨List.prefix_append_right_inj _ |>.2 hinner, heq⟩ (by rw [hdir]; rfl)

/-- **An artifact is placed on both disks or on none.** -/
theorem place_lockstep {dir artifact : Text} (hhere : ∀ n ∈ d.here, IsName n)
    (hrooted : d.Rooted) (hext : d.Extends d') (hnow : d'.now = d.now) (hdir : d.isDir dir = true)
    (halike : Disk.Alike d d' (d.origin artifact).1 (bodyComponents (d.origin artifact).2))
    (text : Text) (mode : Nat) :
    (∃ f, place d dir artifact text mode = .error f ∧ place d' dir artifact text mode = .error f) ∨
      ∃ file, place d dir artifact text mode = .ok (d.put (d.goal artifact) file) ∧
        place d' dir artifact text mode = .ok (d'.put (d.goal artifact) file) := by
  unfold place
  rw [draftPlace_extends hhere hrooted hext hdir]
  cases draftPlace d dir with
  | error f => exact .inl ⟨f, rfl, rfl⟩
  | ok aside =>
    dsimp only
    rw [Disk.moveTarget_congr_origin hext.here halike]
    cases htarget : d.moveTarget aside artifact with
    | error cause => exact .inl ⟨_, rfl, rfl⟩
    | ok target =>
      obtain rfl := (Disk.moveTarget_ok htarget).1
      dsimp only
      rw [hnow]
      exact .inr ⟨_, rfl, rfl⟩

end Place

section Write

variable {s : Store} {x x' y : Disk} {mode : Nat} {p : Plain} {header : Header} {body : Text}
  {result : Except Failure Unit}

/-- **Writing in lockstep**: where the way to an artifact fits, and its place is the same, both
calls end in the same way, with the same changes. -/
theorem write_lockstep (hserves : s.Serves x mode) (hhere : ∀ n ∈ x.here, IsName n)
    (hrooted : x.Rooted) (hext : x.Extends y) (hnow : y.now = x.now)
    (hfits : ∀ front, front <+: (segments p.text).dropLast → front ≠ [] →
      Disk.Fits mode x y (x.goal s.root ++ front))
    (hat : y.at? (x.goal (join s.root p.text)) = x.at? (x.goal (join s.root p.text)))
    (h : s.write x (join s.root p.text) header body = (result, x')) :
    ∃ y', s.write y (join s.root p.text) header body = (result, y') ∧ Disk.Patched x x' y y' := by
  have hroot := hserves.isDir
  have hnames : ∀ n ∈ (segments p.text).dropLast, IsName n := fun n hn =>
    p.names n (List.dropLast_subset _ hn)
  have habreast : Disk.Abreast x y s.root :=
    ⟨hext.here, hnow, hroot, hext.isDir hroot, by
      obtain ⟨⟨time, bits, hdir⟩, -⟩ := Disk.isDir_ok hroot
      exact hext.dirs _ time bits hdir⟩
  unfold write at h ⊢
  rw [hserves.root, outerSteps_plain hserves.ne_nil] at h
  rw [(hserves.extends hext).root, outerSteps_plain hserves.ne_nil]
  dsimp only at h ⊢
  rcases hmade : makeDirs mode x s.root ((segments p.text).dropLast.map .name) with ⟨last, made⟩
  obtain ⟨made', hmade', hpatched, hlast⟩ := makeDirs_lockstep habreast hnames hfits hmade
  rw [hmade] at h
  rw [hmade']
  cases last with
  | error f =>
    cases h
    exact ⟨made', rfl, hpatched⟩
  | ok dir =>
  dsimp only at h ⊢
  cases htext : header.stamp body with
  | error f =>
    rw [htext] at h
    cases h
    exact ⟨made', rfl, hpatched⟩
  | ok text =>
  rw [htext] at h
  dsimp only at h ⊢
  have hpaves := makeDirs_paves (fun _ => isStep_of_mem_names hnames) hmade
  have hgoal : ∀ p, made.goal p = x.goal p := Disk.goal_congr hpaves.here
  have hbelow := below_dropLast x s.root p
  have hgrows : s.Grows (· = x.goal (join s.root p.text)) x made :=
    makeDirs_grows hserves hnames (List.prefix_refl _) rfl hbelow hmade
  have hrooted' : made.Rooted := hgrows.rooted hrooted
  have hdir : made.goal dir = made.goal s.root ++ (segments p.text).dropLast := by
    rw [hgoal, hgoal, makeDirs_goal (fun _ => isStep_of_mem_names hnames) hmade, walk_names]
  -- Directories are made on the way to the artifact, so none in its place.
  have hartifact : made.at? (x.goal (join s.root p.text)) =
      x.at? (x.goal (join s.root p.text)) := by
    refine hpaves.at?_of_not_mem fun hmem => hbelow.2 ?_
    obtain ⟨front, hfront, hwalk⟩ := exists_prefix_of_mem_way hmem
    obtain ⟨inner, hinner, rfl⟩ := List.prefix_map_iff.1 hfront
    rw [walk_names] at hwalk
    refine (hbelow.1.eq_of_length_le ?_).symm
    rw [hwalk]
    exact ((List.prefix_append_right_inj _).2 hinner).length_le
  have halike := alike_artifact (p := p) hrooted' (hpatched.extends hext hpaves.here hpaves.zone)
    (hpaves.extends.isDir hroot) (hdir ▸ (Disk.isDir_ok (hlast dir rfl)).1)
    (by rw [hgoal, hpatched.other _ hartifact, hartifact, hat])
  rcases place_lockstep (by rw [hpaves.here]; exact hhere) hrooted'
    (hpatched.extends hext hpaves.here hpaves.zone) (by rw [hpatched.now, hpaves.now, hnow])
    (hlast dir rfl) halike text mode with
    ⟨f, hplace, hplace'⟩ | ⟨file, hplace, hplace'⟩
  · rw [hplace] at h
    cases h
    rw [hplace']
    exact ⟨made', rfl, hpatched⟩
  · rw [hplace] at h
    cases h
    rw [hplace']
    have hput : Disk.Patched made (made.put (made.goal (join s.root p.text)) file) made'
        (made'.put (made.goal (join s.root p.text)) file) :=
      Disk.patched_put (by rw [hgoal, hpatched.other _ hartifact, hartifact, hat]) file
    refine ⟨_, rfl, hpatched.trans hput fun place hchange => ?_⟩
    rw [Disk.at?_put, hgoal, if_neg]
    rintro rfl
    exact hchange hartifact

end Write

end Store

end Stencil
