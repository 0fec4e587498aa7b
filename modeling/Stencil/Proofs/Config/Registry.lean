import Stencil.Config.Basic

/-!
# Proofs/Config/Registry — which configured symbols can be looked up

    builtin ──functions──▸ ──constants──▸ ──classes, by increasing name──▸ registry

Names are folded before they are entered, so several settings can meet on one key, and on that of a
builtin.  A set of names loses nothing by that: a look-up succeeds exactly for the names that fold
as an entered one does (`hasFunction_registry`, `hasConstant_registry`).  A class is a name with
members, and of two classes that fold to one name the later takes the place of the earlier
(`findClass?_registry`).  So a configured member is found exactly if the last class of its name
lists it (`configured_symbols_found`).
-/

namespace Stencil

/-! ## Members under their folded names -/

@[simp] theorem Adapter.contains_ofMethods (owner : Text) (methods : List Text) (m : Text) :
    (Adapter.ofMethods owner methods).contains m = true ↔
      ∃ m' ∈ methods, Text.lower m' = Text.lower m := by
  simp [Adapter.contains, Adapter.ofMethods]

namespace HostClass

variable (methods constants : List Text)

@[simp] theorem hasMethod_ofMembers (m : Text) :
    (ofMembers methods constants).hasMethod m = true ↔
      ∃ m' ∈ methods, Text.lower m' = Text.lower m := by
  simp [hasMethod, ofMembers]

@[simp] theorem hasConstant_ofMembers (k : Text) :
    (ofMembers methods constants).hasConstant k = true ↔ k ∈ constants := by
  simp [hasConstant, ofMembers]

end HostClass

/-! ## Many symbols more

Each kind of symbol has a table of its own, and entering symbols of one kind leaves the others as
they are. -/

namespace Symbols

variable (s : Symbols) (l : List Text)

theorem foldl_defineFunction :
    l.foldl defineFunction s = { s with functions := (l.map foldName).reverse ++ s.functions } := by
  induction l generalizing s with
  | nil => rfl
  | cons f l ih => simp [ih, defineFunction]

theorem foldl_defineConstant :
    l.foldl defineConstant s =
      { s with constants := (l.map stripRoot).reverse ++ s.constants } := by
  induction l generalizing s with
  | nil => rfl
  | cons k l ih => simp [ih, defineConstant]

theorem functions_builtin : builtin.functions = (builtinFunctions.map foldName).reverse := by
  unfold builtin
  dsimp only
  rw [foldl_defineConstant, foldl_defineFunction]
  exact List.append_nil _

theorem constants_builtin : builtin.constants = (builtinConstants.map stripRoot).reverse := by
  unfold builtin
  dsimp only
  rw [foldl_defineConstant, foldl_defineFunction]
  exact List.append_nil _

/-- **A class hides the older ones of its name.** -/
theorem findClass?_defineClass (path name : Text) (c : HostClass) :
    (s.defineClass path c).findClass? name =
      if foldName path = foldName name then some c else s.findClass? name := by
  unfold findClass? defineClass
  rw [List.lookup_cons]
  by_cases h : foldName path = foldName name
  · simp [h]
  · rw [if_neg h, beq_false_of_ne (Ne.symm h)]

end Symbols

/-! ## Configured classes -/

namespace ClassConfig

/-- The class of the host that a configured class stands for. -/
def host (c : ClassConfig) : HostClass := .ofMembers c.methods c.constants

/-- Every member that one configured class lists, another lists as well. -/
structure Within (listed other : ClassConfig) : Prop where
  methods : ∀ m ∈ listed.methods, ∃ m' ∈ other.methods, Text.lower m' = Text.lower m
  constants : listed.constants ⊆ other.constants

theorem Within.refl (c : ClassConfig) : c.Within c :=
  ⟨fun m hm => ⟨m, hm, rfl⟩, List.Subset.refl _⟩

end ClassConfig

/-- A class of the host has every member that a configured class lists. -/
structure HostClass.HasAll (c : HostClass) (listed : ClassConfig) : Prop where
  methods : ∀ m ∈ listed.methods, c.hasMethod m = true
  constants : ∀ k ∈ listed.constants, c.hasConstant k = true

theorem ClassConfig.hasAll_host_iff (listed other : ClassConfig) :
    other.host.HasAll listed ↔ listed.Within other := by
  constructor
  · rintro ⟨hm, hk⟩
    exact ⟨fun m h => (HostClass.hasMethod_ofMembers _ _ m).1 (hm m h),
      fun k h => (HostClass.hasConstant_ofMembers _ _ k).1 (hk k h)⟩
  · rintro ⟨hm, hk⟩
    exact ⟨fun m h => (HostClass.hasMethod_ofMembers _ _ m).2 (hm m h),
      fun k h => (HostClass.hasConstant_ofMembers _ _ k).2 (hk h)⟩

/-- The last class of a table with a name that folds as a given one does. -/
def LastClass (t : Table Text ClassConfig) (name : Text) (last : ClassConfig) : Prop :=
  ∃ front other back, t = front ++ (other, last) :: back ∧ foldName other = foldName name ∧
    ∀ e ∈ back, foldName e.1 ≠ foldName name

section Classes

variable {t : Table Text ClassConfig} {name : Text}

theorem exists_lastClass (h : ∃ e ∈ t, foldName e.1 = foldName name) :
    ∃ last, LastClass t name last := by
  induction t with
  | nil => obtain ⟨_, he, _⟩ := h; cases he
  | cons e t ih =>
    by_cases hlater : ∃ e ∈ t, foldName e.1 = foldName name
    · obtain ⟨last, front, other, back, rfl, hother, hback⟩ := ih hlater
      exact ⟨last, e :: front, other, back, rfl, hother, hback⟩
    · obtain ⟨e', he', hname⟩ := h
      rcases List.mem_cons.1 he' with rfl | he'
      · exact ⟨e'.2, [], e'.1, t, rfl, hname, fun e he heq => hlater ⟨e, he, heq⟩⟩
      · exact absurd ⟨e', he', hname⟩ hlater

/-- The symbols with the classes of a table, entered one after another. -/
def Symbols.defineClasses (s : Symbols) (t : Table Text ClassConfig) : Symbols :=
  t.foldl (fun s e => s.defineClass e.1 e.2.host) s

namespace Symbols

variable (s : Symbols)

theorem findClass?_defineClasses_of_ne (h : ∀ e ∈ t, foldName e.1 ≠ foldName name) :
    (s.defineClasses t).findClass? name = s.findClass? name := by
  induction t generalizing s with
  | nil => rfl
  | cons e t ih =>
    refine (ih _ fun e' he' => h e' (List.mem_cons_of_mem _ he')).trans ?_
    rw [findClass?_defineClass, if_neg (h e List.mem_cons_self)]

/-- **Of the classes of one name the last is found.** -/
theorem findClass?_defineClasses {last : ClassConfig} (h : LastClass t name last) :
    (s.defineClasses t).findClass? name = some last.host := by
  obtain ⟨front, other, back, rfl, hother, hback⟩ := h
  unfold defineClasses
  rw [List.foldl_append, List.foldl_cons]
  refine (findClass?_defineClasses_of_ne _ hback).trans ?_
  rw [findClass?_defineClass, if_pos hother]

theorem defineClasses_eq (t : Table Text ClassConfig) :
    s.defineClasses t =
      { s with classes := (t.map fun e => (foldName e.1, e.2.host)).reverse ++ s.classes } := by
  induction t generalizing s with
  | nil => rfl
  | cons e t ih =>
    refine (ih _).trans ?_
    simp [defineClass]

end Symbols

end Classes

/-! ## The registry of a configuration -/

namespace Config

variable (c : Config)

/-- The functions and constants of a configuration, without its classes. -/
def names : Symbols :=
  c.constants.foldl Symbols.defineConstant (c.functions.foldl Symbols.defineFunction .builtin)

theorem names_eq :
    c.names = ⟨(c.functions.map foldName).reverse ++ Symbols.builtin.functions,
      Symbols.builtin.classes,
      (c.constants.map stripRoot).reverse ++ Symbols.builtin.constants⟩ := by
  rw [names, Symbols.foldl_defineConstant, Symbols.foldl_defineFunction]

theorem symbols_registry : c.registry.symbols = c.names.defineClasses c.classes := rfl

/-- **The functions that can be looked up**: the builtin and the configured ones, as they fold. -/
theorem hasFunction_registry (name : Text) :
    c.registry.symbols.hasFunction name = true ↔
      ∃ f ∈ Symbols.builtinFunctions ++ c.functions, foldName f = foldName name := by
  unfold Symbols.hasFunction
  rw [symbols_registry, Symbols.defineClasses_eq, names_eq, Symbols.functions_builtin,
    ← List.reverse_append, ← List.map_append, List.contains_reverse, List.contains_iff_mem,
    List.mem_map]

/-- **The constants that can be looked up**: the builtin and the configured ones. -/
theorem hasConstant_registry (name : Text) :
    c.registry.symbols.hasConstant name = true ↔
      ∃ k ∈ Symbols.builtinConstants ++ c.constants, stripRoot k = stripRoot name := by
  unfold Symbols.hasConstant
  rw [symbols_registry, Symbols.defineClasses_eq, names_eq, Symbols.constants_builtin,
    ← List.reverse_append, ← List.map_append, List.contains_reverse, List.contains_iff_mem,
    List.mem_map]

theorem contains_wrapper_registry (m : Text) :
    c.registry.wrapper.contains m = true ↔
      ∃ m' ∈ c.wrapperMethods, Text.lower m' = Text.lower m :=
  Adapter.contains_ofMethods c.wrapperClass c.wrapperMethods m

theorem contains_helper_registry (m : Text) :
    c.registry.helper.contains m = true ↔
      ∃ m' ∈ c.helperMethods, Text.lower m' = Text.lower m :=
  Adapter.contains_ofMethods c.helperClass c.helperMethods m

/-- **The class that is found** is the last of its name, with the members that it lists. -/
theorem findClass?_registry {name : Text} {last : ClassConfig}
    (h : LastClass c.classes name last) :
    c.registry.symbols.findClass? name = some last.host :=
  c.names.findClass?_defineClasses h

/-- **What is configured is found, up to classes of one name.**  Functions, constants and the
methods of both adapters are found, the builtin ones among them.  Each configured class is found as
well: what is found is the last class of its name, which has all the members that are listed exactly
if it lists them too. -/
theorem configured_symbols_found (c : Config) :
    (∀ f ∈ Symbols.builtinFunctions ++ c.functions, c.registry.symbols.hasFunction f = true) ∧
      (∀ k ∈ Symbols.builtinConstants ++ c.constants, c.registry.symbols.hasConstant k = true) ∧
      (∀ m ∈ c.wrapperMethods, c.registry.wrapper.contains m = true) ∧
      (∀ m ∈ c.helperMethods, c.registry.helper.contains m = true) ∧
      ∀ name listed, (name, listed) ∈ c.classes →
        ∃ last found, LastClass c.classes name last ∧
          c.registry.symbols.findClass? name = some found ∧
          (found.HasAll listed ↔ listed.Within last) := by
  refine ⟨fun f hf => (c.hasFunction_registry f).2 ⟨f, hf, rfl⟩,
    fun k hk => (c.hasConstant_registry k).2 ⟨k, hk, rfl⟩,
    fun m hm => (c.contains_wrapper_registry m).2 ⟨m, hm, rfl⟩,
    fun m hm => (c.contains_helper_registry m).2 ⟨m, hm, rfl⟩, fun name listed hmem => ?_⟩
  obtain ⟨last, hlast⟩ := exists_lastClass ⟨_, hmem, rfl⟩
  exact ⟨last, last.host, hlast, c.findClass?_registry hlast, listed.hasAll_host_iff last⟩

/-- Two classes whose names differ in the case of their letters, by increasing name. -/
def twoCases : Config :=
  { standard with classes := [("App", ⟨[], ["ZERO"]⟩), ("app", ⟨[], ["ONE"]⟩)] }

/-- Of two classes of one name the earlier loses its constant. -/
theorem configured_constant_lost :
    ¬ ∀ (c : Config) name listed, (name, listed) ∈ c.classes →
      ∃ found, c.registry.symbols.findClass? name = some found ∧ found.HasAll listed := by
  intro h
  obtain ⟨found, hfound, hall⟩ := h twoCases "App" ⟨[], ["ZERO"]⟩ List.mem_cons_self
  have hlast : twoCases.registry.symbols.findClass? "App" = some ⟨[], ["ONE"]⟩ := by decide +kernel
  obtain rfl := Option.some.inj (hlast.symm.trans hfound)
  exact absurd (hall.constants "ZERO" List.mem_cons_self) (by decide)

end Config

end Stencil
