import Stencil.Proofs.Artifact.Confined
import Stencil.Proofs.Disk.Within

/-!
# Proofs/Artifact/Run — a project at work

    edit · wait · ensure · check · build   ──▸   a run of disks

Templates are edited below the template root, and artifacts are written below the artifact root.
Where neither root lies below the other, whatever is below none of them stays as it was when the run
began (`Stands`): so nothing else is missing on the way to the template root, an edit never touches
an artifact (`edit_within`), and no artifact is written over a template (`Store.write_within`).
-/

namespace Stencil

open Stencil.Path

/-! ## The path of an artifact -/

namespace Path

theorem IsName.append_extension {name : Text} (h : IsName name) :
    IsName (name ++ Store.extension) := by
  have hlength : (name ++ Store.extension).length = name.length + 4 := List.length_append
  refine ⟨?_, ?_, ?_⟩
  · rw [List.mem_append, not_or]
    exact ⟨h.slash, by decide⟩
  · refine Bool.eq_false_iff.2 fun hsilent => ?_
    rw [isSilent, Bool.or_eq_true, List.isEmpty_iff, beq_iff_eq] at hsilent
    rcases hsilent with hsilent | hsilent <;> rw [hsilent] at hlength <;> simp at hlength
  · intro hup
    rw [hup] at hlength
    simp at hlength

/-- **The artifact of a template below the artifact root.** -/
def Plain.artifact (p : Plain) : Plain where
  text := p.text ++ Store.extension
  names := by
    have hslash : '/' ∉ Store.extension := by decide
    obtain ⟨front, last, hfront, hext⟩ := segments_append_of_not_mem p.text hslash
    intro s hs
    rw [hext] at hs
    rcases List.mem_append.1 hs with hs | hs
    · exact p.names s (by rw [hfront]; exact List.mem_append_left _ hs)
    · rw [List.mem_singleton.1 hs]
      exact (p.names last (by rw [hfront]; simp)).append_extension

end Path

/-! ## Edits of templates -/

/-- **What people do to the templates of a project.** -/
inductive Edit
  | write (template : Plain) (content : Bytes) (time : Instant)
  | change (template : Plain) (alter : Bytes → Bytes)
  | touch (template : Plain) (time : Instant)
  | setMode (template : Plain) (mode : Nat)
  | makeDir (dir : Plain)
  | copy (template goal : Plain)
  | move (template goal : Plain)
  | remove (template : Plain)
  | removeTree (dir : Plain)

/-- The disk after an edit below the template root. -/
def Edit.apply (root : Text) (d : Disk) : Edit → Except FileError Disk
  | write template content time => d.write (join root template.text) content time
  | change template alter => d.edit (join root template.text) alter
  | touch template time => d.touch (join root template.text) time
  | setMode template mode => d.setMode (join root template.text) mode
  | makeDir dir => d.makeTree (join root dir.text)
  | copy template goal => d.copy (join root template.text) (join root goal.text)
  | move template goal => d.rename (join root template.text) (join root goal.text)
  | remove template => d.remove (join root template.text)
  | removeTree dir => d.removeTree (join root dir.text)

/-- **An edit is within the template root**, if nothing outside of it is missing on the way. -/
theorem Edit.apply_within {root : Text} {d d' : Disk} {edit : Edit} (hnamed : d.Named)
    (hroot : root ≠ [])
    (hway : ∀ place ∈ way d.here (components root), d.at? place = none → Below (d.goal root) place)
    (h : edit.apply root d = .ok d') : d.Within (d.goal root) d' := by
  have hbelow := d.below_join_plain root
  have hmissing : ∀ (p : Plain), ∀ place ∈ way d.here (components (join root p.text)),
      d.at? place = none → Below (d.goal root) place := by
    intro p place hplace hnone
    rw [components_join hroot p.isAbsolute, p.bodyComponents, way_append] at hplace
    rcases List.mem_append.1 hplace with hplace | hplace
    · exact hway place hplace hnone
    · exact below_of_mem_way_names hplace
  cases edit with
  | write template => exact Disk.write_within (hbelow template) (hmissing template) h
  | change template => exact Disk.modify_within (hbelow template) h
  | touch template => exact Disk.modify_within (hbelow template) h
  | setMode template => exact Disk.modify_within (hbelow template) h
  | makeDir dir => exact Disk.makeTree_within (hmissing dir) h
  | copy template goal => exact Disk.copy_within (hbelow goal) h
  | move template goal => exact Disk.rename_within hnamed (hbelow template) (hbelow goal) h
  | remove template => exact Disk.remove_within (hbelow template) h
  | removeTree dir => exact Disk.removeTree_within (hbelow dir) h

/-! ## Runs -/

/-- **One thing that happens to a project.** -/
inductive Action
  | edit (edit : Edit)
  /-- Time passes. -/
  | wait (now : Instant)
  | ensure (template : Plain)
  | check (template : Plain)
  | build

namespace Engine

/-- The disk after an action.  An edit that fails changes nothing, and a check stores nothing. -/
def act (e : Engine) (d : Disk) : Action → Disk
  | .edit edit => (edit.apply e.config.templateRoot d).toOption.getD d
  | .wait now => { d with now }
  | .ensure template => (e.ensure d template.text).2
  | .check _ => d
  | .build => (e.buildAll d).2

/-- **The disks of a run**, the first and the last included. -/
def states (e : Engine) (d : Disk) : List Action → List Disk
  | [] => [d]
  | action :: actions => d :: e.states (e.act d action) actions

/-- The disk after a run. -/
def run (e : Engine) (d : Disk) (actions : List Action) : Disk := actions.foldl e.act d

/-- **A project before its first artifact**: it checks its scripts, its roots are directories, of
which none lies in the other, and nothing is below the artifact root. -/
structure Begins (e : Engine) (d : Disk) : Prop where
  checks : e.config.checkScripts = true
  named : d.Named
  templates : d.isDir e.config.templateRoot = true
  artifacts : d.isDir e.config.artifactRoot = true
  apart : ¬ d.goal e.config.templateRoot <+: d.goal e.config.artifactRoot ∧
    ¬ d.goal e.config.artifactRoot <+: d.goal e.config.templateRoot
  empty : ∀ place, Below (d.goal e.config.artifactRoot) place → d.at? place = none

theorem begins_iff {e : Engine} {d : Disk} : e.Begins d ↔
    e.config.checkScripts = true ∧ d.Named ∧ d.isDir e.config.templateRoot = true ∧
      d.isDir e.config.artifactRoot = true ∧
      (¬ d.goal e.config.templateRoot <+: d.goal e.config.artifactRoot ∧
        ¬ d.goal e.config.artifactRoot <+: d.goal e.config.templateRoot) ∧
      ∀ x ∈ d.entries, ¬ Below (d.goal e.config.artifactRoot) x.1 := by
  refine ⟨fun h => ⟨h.checks, h.named, h.templates, h.artifacts, h.apart, fun x hx hbelow => ?_⟩,
    fun ⟨hchecks, hnamed, htemplates, hartifacts, hapart, hentries⟩ =>
      ⟨hchecks, hnamed, htemplates, hartifacts, hapart, fun place hbelow => ?_⟩⟩
  · have hsome : (d.at? x.1).isSome := Table.isSome_get?_of_mem hx
    rw [h.empty x.1 hbelow] at hsome
    cases hsome
  · refine Option.eq_none_iff_forall_ne_some.2 fun entry hentry => ?_
    exact hentries _ (Table.mem_of_get?_eq_some hentry) hbelow

instance (e : Engine) (d : Disk) : Decidable (e.Begins d) := decidable_of_iff _ begins_iff.symm

/-- Nothing lies below both roots. -/
theorem Begins.not_below {e : Engine} {d : Disk} (h : e.Begins d) {place : Place}
    (htemplate : Below (d.goal e.config.templateRoot) place) :
    ¬ Below (d.goal e.config.artifactRoot) place := by
  intro hartifact
  rcases List.prefix_or_prefix_of_prefix htemplate.1 hartifact.1 with hprefix | hprefix
  · exact h.apart.1 hprefix
  · exact h.apart.2 hprefix

/-- **What a run leaves alone**: what is below none of the roots is as it was. -/
structure Stands (e : Engine) (start d : Disk) : Prop where
  here : d.here = start.here
  zone : d.zone = start.zone
  named : d.Named
  kept : ∀ place, ¬ Below (start.goal e.config.templateRoot) place →
    ¬ Below (start.goal e.config.artifactRoot) place → d.at? place = start.at? place

theorem Stands.goal {e : Engine} {start d : Disk} (h : e.Stands start d) (p : Text) :
    d.goal p = start.goal p := Disk.goal_congr h.here p

/-- A change below one of the roots leaves the same alone. -/
theorem Stands.within {e : Engine} {start d d' : Disk} {root : Text} (h : e.Stands start d)
    (hroot : root = e.config.templateRoot ∨ root = e.config.artifactRoot)
    (hwithin : d.Within (d.goal root) d') : e.Stands start d' := by
  refine ⟨hwithin.here.trans h.here, hwithin.zone.trans h.zone, hwithin.named h.named,
    fun place htemplate hartifact => ?_⟩
  rw [← h.kept place htemplate hartifact]
  refine hwithin.kept place ?_
  rw [h.goal]
  rcases hroot with rfl | rfl
  · exact htemplate
  · exact hartifact

/-- **On the way to the template root nothing is missing**, apart from what is below it. -/
theorem Stands.below_of_missing {e : Engine} {start d : Disk} (hstart : e.Begins start)
    (h : e.Stands start d) {place : Place}
    (hplace : place ∈ way d.here (components e.config.templateRoot)) (hnone : d.at? place = none) :
    Below (d.goal e.config.templateRoot) place := by
  rw [h.here] at hplace
  rw [h.goal]
  have hsome := (Disk.isDir_ok hstart.templates).2 place hplace
  -- It was there, so not below the empty artifact root; below none of them it would be there still.
  have hartifact : ¬ Below (start.goal e.config.artifactRoot) place := by
    intro hbelow
    rw [hstart.empty place hbelow] at hsome
    cases hsome
  refine Decidable.byContradiction fun htemplate => ?_
  rw [← h.kept place htemplate hartifact, hnone] at hsome
  cases hsome

theorem edit_within {e : Engine} {start d : Disk} (hstart : e.Begins start)
    (h : e.Stands start d) (edit : Edit) :
    d.Within (d.goal e.config.templateRoot) (e.act d (.edit edit)) := by
  rw [act]
  cases hedit : edit.apply e.config.templateRoot d with
  | error cause => exact .refl _ _
  | ok d' =>
    exact Edit.apply_within h.named (Disk.ne_nil_of_isDir hstart.templates)
      (fun place hplace hnone => h.below_of_missing hstart hplace hnone) hedit

end Engine

/-! ## Artifacts of plain templates -/

namespace Store

/-- **The artifact of a plain template is written within the root.** -/
theorem write_within {s : Store} {d d' : Disk} {p : Plain} {header : Header} {body : Text}
    {result : Except Failure Unit} (hne : s.root ≠ [])
    (h : s.write d (join s.root p.text) header body = (result, d')) :
    d.Within (d.goal s.root) d' := by
  rcases write_cases h with ⟨-, rfl⟩ | ⟨rest, made, time, mode, -, hcomponents, -, hpaves, hend⟩
  · exact .refl _ _
  have hrest : components rest = (segments p.text).map .name := by
    rw [components_join hne p.isAbsolute, p.bodyComponents] at hcomponents
    exact (List.append_cancel_left hcomponents).symm
  rw [hrest, ← List.map_dropLast] at hpaves
  have hmade : d.Within (d.goal s.root) made := by
    refine Disk.within_of_paves hpaves (fun hnamed place hplace => ?_)
      fun place hplace _ => below_of_mem_way_names hplace
    obtain ⟨front, hfront, rfl⟩ := exists_prefix_of_mem_way hplace
    refine isName_of_mem_walk (hnamed.goal s.root) fun n hn => ?_
    obtain ⟨name, hname, heq⟩ := List.mem_map.1 (hfront.subset hn)
    cases heq
    exact p.names n (List.dropLast_subset _ hname)
  rcases hend with ⟨-, rfl⟩ | ⟨aside, text, -, -, -, -, rfl⟩
  · exact hmade
  · rw [← Disk.goal_congr hmade.here (join s.root p.text)]
    refine hmade.trans (Disk.within_put_goal ?_)
    rw [← Disk.goal_congr hmade.here s.root]
    exact made.below_join_plain s.root p

end Store

end Stencil
