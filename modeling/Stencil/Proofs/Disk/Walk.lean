import Stencil.Disk.Basic
import Stencil.Proofs.Path.Components

/-!
# Proofs/Disk/Walk — where a path leads by its words

    components ──walk──▸ place

Without looking at a disk, every component says where it leads from a place: to the root, nowhere,
one name back, or one name on.  `Disk.goal` walks a whole path like this.  Joining a path walks on
(`goal_join`), and the text of a place leads to the place (`goal_placeText`).
-/

namespace Stencil

namespace Path

/-! ## Walking -/

/-- The place that a component leads to. -/
def Component.after (place : Place) : Component → Place
  | root => []
  | here => place
  | up => place.dropLast
  | name text => place ++ [text]

/-- **The place that components lead to**, one after the other. -/
def walk (start : Place) (components : List Component) : Place :=
  components.foldl Component.after start

@[simp] theorem walk_cons (start : Place) (c : Component) (rest : List Component) :
    walk start (c :: rest) = walk (c.after start) rest := rfl

theorem walk_append (start : Place) (a b : List Component) :
    walk start (a ++ b) = walk (walk start a) b := List.foldl_append

theorem walk_names (start : Place) (names : List Text) :
    walk start (names.map .name) = start ++ names := by
  induction names generalizing start with
  | nil => exact (List.append_nil start).symm
  | cons n names ih =>
    rw [List.map_cons, walk_cons, ih]
    simp [Component.after]

/-- **The places that names lead to on the way**, in order. -/
def way (start : Place) : List Component → List Place
  | [] => []
  | .name text :: rest => (start ++ [text]) :: way (start ++ [text]) rest
  | c :: rest => way (c.after start) rest

theorem way_append (start : Place) (a b : List Component) :
    way start (a ++ b) = way start a ++ way (walk start a) b := by
  induction a generalizing start with
  | nil => rfl
  | cons c a ih =>
    cases c with
    | name text =>
      rw [List.cons_append, way, way, ih]
      rfl
    | root => exact ih _
    | here => exact ih _
    | up => exact ih _

/-- **A place strictly below another.** -/
def Below (outer place : Place) : Prop := outer <+: place ∧ place ≠ outer

instance (outer place : Place) : Decidable (Below outer place) :=
  inferInstanceAs (Decidable (_ ∧ _))

theorem below_append (outer : Place) {names : List Text} (h : names ≠ []) :
    Below outer (outer ++ names) :=
  ⟨List.prefix_append _ _, fun heq => h (List.append_right_eq_self.1 heq)⟩

theorem Below.trans {outer place inner : Place} (h : Below outer place) (h' : Below place inner) :
    Below outer inner := by
  refine ⟨h.1.trans h'.1, ?_⟩
  rintro rfl
  exact h.2 (h.1.eq_of_length_le h'.1.length_le).symm

/-- What is below a place below another is below that one. -/
theorem Below.mono {outer place inner : Place} (h : Below outer place) (h' : place <+: inner) :
    Below outer inner := by
  by_cases heq : inner = place
  · exact heq ▸ h
  · exact h.trans ⟨h', heq⟩

/-- What is below a place is below what leads to the place. -/
theorem Below.of_prefix {outer place inner : Place} (h : outer <+: place) (h' : Below place inner) :
    Below outer inner := by
  refine ⟨h.trans h'.1, ?_⟩
  rintro rfl
  exact h'.2 (h.eq_of_length_le h'.1.length_le)

/-- What lies on the way of names is below their start. -/
theorem below_of_mem_way_names {start place : Place} {names : List Text}
    (h : place ∈ way start (names.map .name)) : Below start place := by
  induction names generalizing start with
  | nil => cases h
  | cons n names ih =>
    have hstep : Below start (start ++ [n]) := below_append start nofun
    rcases List.mem_cons.1 h with rfl | h
    · exact hstep
    · exact hstep.trans (ih h)

/-- Walking over names only leads to names. -/
theorem isName_of_mem_walk {start : Place} {cs : List Component} (hstart : ∀ n ∈ start, IsName n)
    (hcs : ∀ n, .name n ∈ cs → IsName n) : ∀ n ∈ walk start cs, IsName n := by
  induction cs generalizing start with
  | nil => exact hstart
  | cons c cs ih =>
    refine ih ?_ fun n hn => hcs n (List.mem_cons_of_mem _ hn)
    cases c with
    | root => exact nofun
    | here => exact hstart
    | up => exact fun n hn => hstart n (List.dropLast_subset _ hn)
    | name text =>
      intro n hn
      rcases List.mem_append.1 hn with hn | hn
      · exact hstart n hn
      · rw [List.mem_singleton.1 hn]
        exact hcs text List.mem_cons_self

/-- What lies on a way is where a part of it leads. -/
theorem exists_prefix_of_mem_way {start place : Place} {cs : List Component}
    (h : place ∈ way start cs) : ∃ front, front <+: cs ∧ place = walk start front := by
  induction cs generalizing start with
  | nil => cases h
  | cons c cs ih =>
    have hlater : place ∈ way (c.after start) cs →
        ∃ front, front <+: c :: cs ∧ place = walk start front := by
      intro hmem
      obtain ⟨front, hfront, rfl⟩ := ih hmem
      exact ⟨c :: front, (List.prefix_cons_inj c).2 hfront, rfl⟩
    cases c with
    | name text =>
      rcases List.mem_cons.1 h with rfl | h
      · exact ⟨[.name text], List.prefix_append [_] cs, rfl⟩
      · exact hlater h
    | root => exact hlater h
    | here => exact hlater h
    | up => exact hlater h

end Path

/-! ## The place of a path -/

/-- **The place that a path names**: its components walked from the working directory. -/
def Disk.goal (d : Disk) (p : Text) : Place := Path.walk d.here (Path.components p)

namespace Disk

open Stencil.Path

theorem isName_of_mem_goal {d : Disk} (h : ∀ n ∈ d.here, IsName n) (p : Text) :
    ∀ n ∈ d.goal p, IsName n :=
  isName_of_mem_walk h fun _ hn => isName_of_mem_components hn

theorem origin_relative (d : Disk) {p : Text} (h : isAbsolute p = false) :
    d.origin p = (d.here, segments p) := by
  unfold origin
  split
  · cases h
  · rfl

/-- A path walks from its origin, along the same way. -/
theorem steps_origin (d : Disk) (p : Text) :
    d.goal p = walk (d.origin p).1 (bodyComponents (d.origin p).2) ∧
      way d.here (components p) = way (d.origin p).1 (bodyComponents (d.origin p).2) := by
  cases h : isAbsolute p with
  | true =>
    obtain ⟨rest, rfl⟩ := List.head?_eq_some_iff.1 (beq_iff_eq.1 h)
    exact ⟨rfl, rfl⟩
  | false =>
    rw [origin_relative d h, goal, components_relative h]
    split <;> exact ⟨rfl, rfl⟩

/-- Joining a relative path adds its components to those of the directory. -/
theorem origin_join (d : Disk) {p : Text} (h : isAbsolute p = false) (dir : Text) :
    (d.origin (join dir p)).1 = (d.origin dir).1 ∧
      bodyComponents (d.origin (join dir p)).2 =
        bodyComponents (d.origin dir).2 ++ bodyComponents (segments p) := by
  cases hd : isAbsolute dir with
  | true =>
    obtain ⟨rest, rfl⟩ := List.head?_eq_some_iff.1 (beq_iff_eq.1 hd)
    rw [join_absolute_dir h]
    exact ⟨rfl, bodyComponents_segments_join h rest⟩
  | false =>
    rw [origin_relative d (isAbsolute_join h hd), origin_relative d hd]
    exact ⟨rfl, bodyComponents_segments_join h dir⟩

/-- **Joining a path walks on from its directory.** -/
theorem goal_join (d : Disk) (dir p : Text) :
    d.goal (join dir p) = walk (d.goal dir) (components p) := by
  cases h : isAbsolute p with
  | true =>
    obtain ⟨rest, rfl⟩ := List.head?_eq_some_iff.1 (beq_iff_eq.1 h)
    rfl
  | false =>
    obtain ⟨hstart, hbody⟩ := d.origin_join h dir
    rw [(d.steps_origin _).1, hstart, hbody, walk_append, ← (d.steps_origin dir).1,
      components_relative h]
    split <;> rfl

/-- The text of a place says its names, also with a slash behind it. -/
theorem bodyComponents_joinSegments_slash {place : Place} (h : ∀ n ∈ place, IsName n)
    (slash : Bool) :
    bodyComponents (segments (joinSegments place ++ if slash then ['/'] else [])) =
      place.map .name := by
  have hbody : bodyComponents (segments (joinSegments place)) = place.map .name := by
    cases place with
    | nil => rfl
    | cons n place =>
      rw [segments_joinSegments (l := n :: place) nofun fun s hs => (h s hs).slash,
        bodyComponents_names h]
  cases slash with
  | false => rw [if_neg nofun, List.append_nil, hbody]
  | true =>
    rw [if_pos rfl, segments_append_slash, bodyComponents_append, hbody]
    exact List.append_nil _

/-- **The text of a place leads to the place**, also with a slash behind it. -/
theorem goal_placeText (d : Disk) {place : Place} (h : ∀ n ∈ place, IsName n) (slash : Bool) :
    d.goal (placeText place ++ if slash then ['/'] else []) = place := by
  rw [goal, placeText, List.cons_append, components_absolute,
    bodyComponents_joinSegments_slash h, walk_cons, walk_names]
  rfl

/-- A plain path leads below its directory, by its names. -/
theorem goal_join_plain (d : Disk) (root : Text) (p : Plain) :
    d.goal (join root p.text) = d.goal root ++ segments p.text := by
  obtain ⟨hstart, hbody⟩ := d.origin_join p.isAbsolute root
  rw [(d.steps_origin _).1, hstart, hbody, p.bodyComponents, walk_append, walk_names,
    ← (d.steps_origin root).1]

theorem below_join_plain (d : Disk) (root : Text) (p : Plain) :
    Below (d.goal root) (d.goal (join root p.text)) := by
  rw [goal_join_plain]
  exact below_append _ (segments_ne_nil _)

end Disk

end Stencil
