import Stencil.Proofs.Expr.Grammar

/-!
# Proofs/Expr/Resolve — what the texts of a reference are

Whatever a chain stands for, every text in it is a name of the chain, or a path of such names
(`Denotes.madeOf`).  What holds of names, and survives being put together, therefore holds of the
code of a reference.  Resolution is taken apart here once, rule by rule.
-/

namespace Stencil

/-! ## References made of names -/

/-- A path of names. -/
def IsPath (names : List Text) (path : Text) : Prop :=
  ∃ parts, parts ⊆ names ∧ path = joinPath parts

/-- The texts of a root are names, or paths of names. -/
def Root.MadeOf (names : List Text) : Root → Prop
  | data => True
  | superglobal name => name ∈ names
  | frame _ _ => True
  | constant path => IsPath names path
  | classConstant owner name => IsPath names owner ∧ name ∈ names

/-- **The texts of a reference are names**, or paths of names. -/
def Reference.MadeOf (names : List Text) : Reference → Prop
  | word text => text ∈ names
  | self => True
  | selfMethod method => method ∈ names
  | value root keys => root.MadeOf names ∧ keys ⊆ names
  | wrapped root keys method => root.MadeOf names ∧ keys ⊆ names ∧ method ∈ names
  | objectMethod root keys method => root.MadeOf names ∧ keys ⊆ names ∧ method ∈ names
  | helper _ method => method ∈ names
  | construct name => name ∈ names
  | function path => IsPath names path
  | staticMethod owner method => IsPath names owner ∧ method ∈ names

theorem IsPath.mono {names more : List Text} {path : Text} (h : IsPath names path)
    (hm : names ⊆ more) : IsPath more path := by
  obtain ⟨parts, hparts, rfl⟩ := h
  exact ⟨parts, fun name hn => hm (hparts hn), rfl⟩

theorem Root.MadeOf.mono {names more : List Text} {root : Root} (h : root.MadeOf names)
    (hm : names ⊆ more) : root.MadeOf more := by
  cases root with
  | data => trivial
  | superglobal name => exact hm h
  | frame depth var => trivial
  | constant path => exact IsPath.mono h hm
  | classConstant owner name => exact ⟨h.1.mono hm, hm h.2⟩

theorem isPath_of_mem {names : List Text} {name : Text} (h : name ∈ names) : IsPath names name := by
  refine ⟨[name], List.cons_subset.2 ⟨h, List.nil_subset _⟩, ?_⟩
  unfold joinPath
  rw [List.intercalate_singleton]

theorem isPath_concat {names owner : List Text} {name : Text} (ho : owner ⊆ names)
    (h : name ∈ names) : IsPath names (joinPath (owner ++ [name])) :=
  ⟨_, List.append_subset.2 ⟨ho, List.cons_subset.2 ⟨h, List.nil_subset _⟩⟩, rfl⟩

/-! ## The rules -/

namespace Chain

variable {s : Scope} {c : Chain} {called : Bool} {target : Reference}

theorem eq_wrapped_of_wrapperCall {root : Root} {keys : List Text} {method : Text}
    (h : c.wrapperCall s root keys method = .ok target) : target = .wrapped root keys method := by
  unfold wrapperCall at h
  split at h
  · exact (Except.ok.inj h).symm
  · cases h

/-- **What a chain with leading dots stands for**: something in the frame that its dots count, of
which there are as many loops around it. -/
theorem resolveLoop_cases (h : c.resolveLoop s called = .ok target) :
    c.depth ≤ s.loops ∧
      ((∃ var keys, keys ⊆ c.names ∧ target = .value (.frame c.depth var) keys) ∨
       (∃ var keys method, keys ⊆ c.names ∧ method ∈ c.names ∧
          target = .wrapped (.frame c.depth var) keys method) ∨
       (∃ var keys method, keys ⊆ c.names ∧ method ∈ c.names ∧
          target = .objectMethod (.frame c.depth var) keys method) ∨
       ∃ method, method ∈ c.names ∧ target = .helper c.depth method) := by
  unfold resolveLoop at h
  split at h
  · cases h
  next hdepth =>
  refine ⟨Nat.le_of_not_lt hdepth, ?_⟩
  split at h
  · cases h
  next first rest hnames =>
  rw [hnames]
  split at h
  · next var _ =>
    split at h
    · exact .inl ⟨var, [], List.nil_subset _, (Except.ok.inj h).symm⟩
    · next method =>
      exact .inr (.inl ⟨var, [], method, List.nil_subset _, by simp, eq_wrapped_of_wrapperCall h⟩)
    · cases h
  split at h
  · split at h
    · next method =>
      split at h
      · exact .inr (.inr (.inr ⟨method, by simp, (Except.ok.inj h).symm⟩))
      · cases h
    · cases h
  extract_lets keys at h
  have hkeys : keys ⊆ first :: rest := by
    unfold keys
    split
    · exact List.subset_cons_self _ _
    · exact List.Subset.refl _
  split at h
  · split at h
    · cases h
    next method hlast =>
    have hmethod : method ∈ first :: rest := hkeys (List.mem_of_getLast? hlast)
    have hfront : keys.dropLast ⊆ first :: rest := fun key hk =>
      hkeys ((List.dropLast_sublist _).subset hk)
    split at h
    · exact .inr (.inl ⟨.value, _, method, hfront, hmethod, (Except.ok.inj h).symm⟩)
    · exact .inr (.inr (.inl ⟨.value, _, method, hfront, hmethod, (Except.ok.inj h).symm⟩))
  · exact .inl ⟨.value, keys, hkeys, (Except.ok.inj h).symm⟩

theorem madeOf_of_resolveLoop (h : c.resolveLoop s called = .ok target) :
    target.MadeOf c.names := by
  obtain ⟨-, ⟨var, keys, hk, rfl⟩ | ⟨var, keys, method, hk, hm, rfl⟩ |
    ⟨var, keys, method, hk, hm, rfl⟩ | ⟨method, hm, rfl⟩⟩ := resolveLoop_cases h
  · exact ⟨trivial, hk⟩
  · exact ⟨trivial, hk, hm⟩
  · exact ⟨trivial, hk, hm⟩
  · exact hm

theorem madeOf_of_resolveSelf (h : c.resolveSelf called = .ok target) : target.MadeOf c.names := by
  unfold resolveSelf at h
  split at h
  · rw [← Except.ok.inj h]
    trivial
  · next first method hnames =>
    rw [← Except.ok.inj h]
    change method ∈ c.names
    rw [hnames]
    simp
  · cases h

theorem madeOf_of_resolveGlobal {name : Text} {rest : List Text} (hnames : c.names = name :: rest)
    (h : c.resolveGlobal s name rest called = .ok target) : target.MadeOf c.names := by
  unfold resolveGlobal at h
  extract_lets keys fits at h
  have hname : name ∈ c.names := by
    rw [hnames]
    exact List.mem_cons_self
  have hrest : rest ⊆ c.names := by
    rw [hnames]
    exact List.subset_cons_self _ _
  have hkeys : keys ⊆ c.names := by
    unfold keys
    split
    · exact fun key hk => hrest ((List.dropLast_sublist _).subset hk)
    · exact hrest
  split at h
  · cases h
  split at h
  · split at h
    · next method hlast =>
      rw [eq_wrapped_of_wrapperCall h]
      exact ⟨hname, hkeys, hrest (List.mem_of_getLast? hlast)⟩
    · cases h
  · rw [← Except.ok.inj h]
    exact ⟨hname, hkeys⟩

/-- A constant is addressed by names, and the keys behind it are names. -/
theorem madeOf_of_findConstant {symbols : Symbols} {names keys : List Text} {root : Root}
    (h : c.findConstant symbols names = .ok (some (root, keys))) :
    root.MadeOf names ∧ keys ⊆ names := by
  unfold findConstant at h
  extract_lets owner at h
  have howner : owner ⊆ names := (List.takeWhile_prefix _).subset
  split at h
  · cases h
  next name keys' hdrop =>
  have hback : name :: keys' ⊆ names := by
    rw [← hdrop]
    exact (List.dropWhile_suffix _).subset
  obtain ⟨hname, hkeys⟩ := List.cons_subset.1 hback
  split at h
  · cases h
  split at h
  · split at h
    · cases h
      exact ⟨isPath_of_mem hname, hkeys⟩
    · cases h
  split at h
  · cases h
    exact ⟨isPath_concat howner hname, hkeys⟩
  split at h
  · cases h
    exact ⟨⟨⟨owner, howner, rfl⟩, hname⟩, hkeys⟩
  · cases h

theorem madeOf_of_resolveMethod {owner : List Text} {method : Text} (ho : owner ⊆ c.names)
    (hm : method ∈ c.names) (h : c.resolveMethod s owner method = .ok target) :
    target.MadeOf c.names := by
  unfold resolveMethod at h
  split at h
  · cases h
  · next root keys hconstant =>
    obtain ⟨hroot, hkeys⟩ := madeOf_of_findConstant hconstant
    rw [eq_wrapped_of_wrapperCall h]
    exact ⟨hroot.mono ho, fun key hk => ho (hkeys hk), hm⟩
  extract_lets path at h
  split at h
  · split at h
    · rw [← Except.ok.inj h]
      exact ⟨⟨owner, ho, rfl⟩, hm⟩
    · cases h
  split at h
  · rw [← Except.ok.inj h]
    exact isPath_concat ho hm
  split at h
  · cases h
  · rw [eq_wrapped_of_wrapperCall h]
    exact ⟨trivial, ho, hm⟩

theorem madeOf_of_resolveStatic (h : c.resolveStatic s called = .ok target) :
    target.MadeOf c.names := by
  unfold resolveStatic at h
  split at h
  · split at h
    · next name hnames =>
      have hname : name ∈ c.names := by
        rw [hnames]
        exact List.mem_cons_self
      unfold resolveFunction at h
      split at h
      · rw [← Except.ok.inj h]
        exact hname
      split at h
      · rw [← Except.ok.inj h]
        exact isPath_of_mem hname
      · cases h
    · split at h
      · next method hlast =>
        exact madeOf_of_resolveMethod (List.dropLast_sublist _).subset (List.mem_of_getLast? hlast) h
      · cases h
  split at h
  · cases h
  · next root keys hconstant =>
    rw [← Except.ok.inj h]
    exact madeOf_of_findConstant hconstant
  · rw [← Except.ok.inj h]
    exact ⟨trivial, List.Subset.refl _⟩

/-- **What a chain stands for is made of its names.** -/
theorem Denotes.madeOf (h : c.Denotes s called target) : target.MadeOf c.names := by
  rcases h with ⟨word, -, -, rfl, -, rfl⟩ | ⟨-, -, h⟩
  · exact List.mem_cons_self
  unfold resolve at h
  split at h
  · exact madeOf_of_resolveLoop h
  split at h
  · cases h
  next first rest hnames =>
  split at h
  · exact madeOf_of_resolveSelf h
  split at h
  · exact madeOf_of_resolveGlobal hnames h
  · exact madeOf_of_resolveStatic h

end Chain

end Stencil
