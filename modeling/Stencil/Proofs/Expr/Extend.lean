import Stencil.Proofs.Expr.Complete

/-!
# Proofs/Expr/Extend — an expression under more symbols

    registry ──more members──▸ registry
    chain    ──first rule───▸ reference        chain ──first rule, perhaps an earlier one──▸ reference

A chain is resolved by the first rule that applies, so a new symbol can take it away from the rule
that applied before.  It never takes it to a refusal: a rule that needs a symbol comes before the
refusal, and no class is new (`Chain.resolve_extends`).  The tree of an expression is then the same
up to what its chains stand for (`Expr.bare`), and since its tokens and its depth do not depend on
that, the reader of tags finds it (`readTag_extends`).
-/

namespace Stencil

/-! ## More symbols -/

/-- The same class of adapters with more methods. -/
structure Adapter.Extends (a a' : Adapter) : Prop where
  owner : a'.owner = a.owner
  methods : a.methods ⊆ a'.methods

/-- A class with more members. -/
structure HostClass.Extends (c c' : HostClass) : Prop where
  methods : c.methods ⊆ c'.methods
  constants : c.constants ⊆ c'.constants

/-- More functions and constants, and the same classes with more members. -/
structure Symbols.Extends (s s' : Symbols) : Prop where
  functions : s.functions ⊆ s'.functions
  constants : s.constants ⊆ s'.constants
  classes : ∀ path, Option.Rel HostClass.Extends (s.findClass? path) (s'.findClass? path)

/-- **A registry with more symbols**, whose adapters and classes are the same. -/
structure Registry.Extends (r r' : Registry) : Prop where
  wrapper : r.wrapper.Extends r'.wrapper
  helper : r.helper.Extends r'.helper
  symbols : r.symbols.Extends r'.symbols

theorem contains_of_subset {names more : List Text} (hsub : names ⊆ more) {name : Text}
    (h : names.contains name = true) : more.contains name = true :=
  List.contains_iff_mem.2 (hsub (List.contains_iff_mem.1 h))

theorem Adapter.Extends.contains {a a' : Adapter} (h : a.Extends a') {method : Text}
    (hm : a.contains method = true) : a'.contains method = true :=
  contains_of_subset h.methods hm

namespace Symbols.Extends

variable {s s' : Symbols} (h : s.Extends s')

include h

theorem hasFunction {path : Text} (hp : s.hasFunction path = true) : s'.hasFunction path = true :=
  contains_of_subset h.functions hp

theorem hasConstant {path : Text} (hp : s.hasConstant path = true) : s'.hasConstant path = true :=
  contains_of_subset h.constants hp

theorem findClass?_none {path : Text} (hp : s.findClass? path = none) :
    s'.findClass? path = none := by
  have hrel := h.classes path
  rw [hp] at hrel
  cases hfound : s'.findClass? path with
  | none => rfl
  | some found => rw [hfound] at hrel; cases hrel

theorem findClass?_some {path : Text} {found : HostClass} (hp : s.findClass? path = some found) :
    ∃ found', s'.findClass? path = some found' ∧ found.Extends found' := by
  have hrel := h.classes path
  rw [hp] at hrel
  cases hfound : s'.findClass? path with
  | none => rw [hfound] at hrel; cases hrel
  | some found' =>
    rw [hfound] at hrel
    cases hrel with
    | some hrel => exact ⟨found', rfl, hrel⟩

end Symbols.Extends

namespace Symbols

/-- The same classes with the same members. -/
theorem rel_findClass? (s : Symbols) (path : Text) :
    Option.Rel HostClass.Extends (s.findClass? path) (s.findClass? path) := by
  cases s.findClass? path with
  | none => exact .none
  | some found => exact .some ⟨List.Subset.refl _, List.Subset.refl _⟩

theorem extends_defineFunction (s : Symbols) (path : Text) : s.Extends (s.defineFunction path) :=
  ⟨List.subset_cons_self _ _, List.Subset.refl _, s.rel_findClass?⟩

end Symbols

/-! ## Chains -/

namespace Chain

variable {r r' : Registry} {n : Nat} {c : Chain} {called : Bool} {target : Reference}

theorem wrapperCall_extends (hr : r.Extends r') {root : Root} {keys : List Text} {method : Text}
    (h : c.wrapperCall ⟨r, n⟩ root keys method = .ok target) (root' : Root) (keys' : List Text) :
    ∃ target', c.wrapperCall ⟨r', n⟩ root' keys' method = .ok target' := by
  unfold wrapperCall at h
  split at h
  · next hmethod => exact ⟨_, if_pos (hr.wrapper.contains hmethod)⟩
  · cases h

theorem resolveLoop_extends (hr : r.Extends r') (h : c.resolveLoop ⟨r, n⟩ called = .ok target) :
    ∃ target', c.resolveLoop ⟨r', n⟩ called = .ok target' := by
  unfold resolveLoop at h ⊢
  dsimp only at h ⊢
  split at h
  · cases h
  next hdepth =>
  rw [if_neg hdepth]
  split at h
  · cases h
  split at h
  · split at h
    · exact ⟨_, rfl⟩
    · exact wrapperCall_extends hr h _ _
    · cases h
  split at h
  · next hhelper =>
    rw [if_pos hhelper]
    split at h
    · split at h
      · next hmethod => exact ⟨_, if_pos (hr.helper.contains hmethod)⟩
      · cases h
    · cases h
  next hhelper =>
  rw [if_neg hhelper]
  split at h
  · next hcalled =>
    rw [if_pos hcalled]
    split at h
    · cases h
    -- A method that was one of the object in the loop may now be one of the wrapper.
    split
    · exact ⟨_, rfl⟩
    · exact ⟨_, rfl⟩
  · next hcalled =>
    rw [if_neg hcalled]
    exact ⟨_, rfl⟩

theorem resolveGlobal_extends (hr : r.Extends r') {name : Text} {rest : List Text}
    (h : c.resolveGlobal ⟨r, n⟩ name rest called = .ok target) :
    ∃ target', c.resolveGlobal ⟨r', n⟩ name rest called = .ok target' := by
  unfold resolveGlobal at h ⊢
  extract_lets at h ⊢
  split at h
  · cases h
  next hfits =>
  rw [if_neg hfits]
  split at h
  · next hcalled =>
    rw [if_pos hcalled]
    split at h
    · exact wrapperCall_extends hr h _ _
    · cases h
  · next hcalled =>
    rw [if_neg hcalled]
    exact ⟨_, rfl⟩

/-- Names address a constant or none, whatever the symbols; a new constant may come before that of
a class. -/
theorem findConstant_extends {s s' : Symbols} (hs : s.Extends s') {names : List Text}
    {found : Option (Root × List Text)} (h : c.findConstant s names = .ok found) :
    ∃ found', c.findConstant s' names = .ok found' ∧ found'.isSome = found.isSome := by
  unfold findConstant at h ⊢
  dsimp only at h ⊢
  split at h
  · exact ⟨none, rfl, by rw [← Except.ok.inj h]⟩
  split at h
  · cases h
  next hkeys =>
  rw [if_neg hkeys]
  split at h
  · next howner =>
    rw [if_pos howner]
    split at h
    · next hconstant =>
      rw [if_pos (hs.hasConstant hconstant)]
      exact ⟨_, rfl, by rw [← Except.ok.inj h]⟩
    · cases h
  next howner =>
  rw [if_neg howner]
  have hsome : found.isSome = true := by
    split at h
    · rw [← Except.ok.inj h]; rfl
    split at h
    · rw [← Except.ok.inj h]; rfl
    · cases h
  rw [hsome]
  split
  · exact ⟨_, rfl, rfl⟩
  next hnot =>
  split at h
  · next hconstant => exact absurd (hs.hasConstant hconstant) hnot
  split at h
  · next hclass =>
    obtain ⟨owner', hfound, hmember⟩ := Option.any_eq_true _ _ |>.1 hclass
    obtain ⟨more, hmore, hextends⟩ := hs.findClass?_some hfound
    rw [if_pos (by rw [hmore]; exact contains_of_subset hextends.constants hmember)]
    exact ⟨_, rfl, rfl⟩
  · cases h

theorem resolveFunction_extends (hr : r.Extends r') {name : Text}
    (h : resolveFunction ⟨r, n⟩ name = .ok target) :
    ∃ target', resolveFunction ⟨r', n⟩ name = .ok target' := by
  unfold resolveFunction at h ⊢
  split at h
  · next hconstruct => exact ⟨_, if_pos hconstruct⟩
  next hconstruct =>
  rw [if_neg hconstruct]
  split at h
  · next hfunction => exact ⟨_, if_pos (hr.symbols.hasFunction hfunction)⟩
  · cases h

theorem resolveMethod_extends (hr : r.Extends r') {owner : List Text} {method : Text}
    (h : c.resolveMethod ⟨r, n⟩ owner method = .ok target) :
    ∃ target', c.resolveMethod ⟨r', n⟩ owner method = .ok target' := by
  unfold resolveMethod at h ⊢
  dsimp only at h ⊢
  split at h
  · cases h
  · next root keys hconstant =>
    obtain ⟨found, hfound, hsome⟩ := findConstant_extends hr.symbols hconstant
    obtain ⟨⟨root', keys'⟩, rfl⟩ := Option.isSome_iff_exists.1 hsome
    rw [hfound]
    exact wrapperCall_extends hr h _ _
  next hconstant =>
  obtain ⟨found, hfound, hnone⟩ := findConstant_extends hr.symbols hconstant
  obtain rfl : found = none := Option.not_isSome_iff_eq_none.1 (by simp [hnone])
  rw [hfound]
  dsimp only
  split at h
  · next found hclass =>
    obtain ⟨more, hmore, hextends⟩ := hr.symbols.findClass?_some hclass
    rw [hmore]
    dsimp only
    split at h
    · next hmethod => exact ⟨_, if_pos (contains_of_subset hextends.methods hmethod)⟩
    · cases h
  next hclass =>
  rw [hr.symbols.findClass?_none hclass]
  dsimp only
  -- A method of the wrapper may now be a function of a namespace.
  split
  · exact ⟨_, rfl⟩
  next hnot =>
  split at h
  · next hfunction => exact absurd (hr.symbols.hasFunction hfunction) hnot
  split at h
  · cases h
  next howner =>
  rw [if_neg howner]
  exact wrapperCall_extends hr h _ _

theorem resolveStatic_extends (hr : r.Extends r') (h : c.resolveStatic ⟨r, n⟩ called = .ok target) :
    ∃ target', c.resolveStatic ⟨r', n⟩ called = .ok target' := by
  unfold resolveStatic at h ⊢
  split at h
  · next hcalled =>
    rw [if_pos hcalled]
    split at h
    · exact resolveFunction_extends hr h
    · split at h
      · exact resolveMethod_extends hr h
      · cases h
  next hcalled =>
  rw [if_neg hcalled]
  split at h
  · cases h
  all_goals
    next hconstant =>
    obtain ⟨found, hfound, -⟩ := findConstant_extends hr.symbols hconstant
    rw [hfound]
    cases found <;> exact ⟨_, rfl⟩

/-- **A chain that stands for something still does under more symbols**, perhaps for something
else. -/
theorem resolve_extends (hr : r.Extends r') (h : c.resolve ⟨r, n⟩ called = .ok target) :
    ∃ target', c.resolve ⟨r', n⟩ called = .ok target' := by
  unfold resolve at h ⊢
  split at h
  · next hdepth =>
    rw [if_pos hdepth]
    exact resolveLoop_extends hr h
  next hdepth =>
  rw [if_neg hdepth]
  split at h
  · cases h
  split at h
  · next hself =>
    rw [if_pos hself]
    exact ⟨_, h⟩
  next hself =>
  rw [if_neg hself]
  split at h
  · next hglobal =>
    rw [if_pos hglobal]
    exact resolveGlobal_extends hr h
  · next hglobal =>
    rw [if_neg hglobal]
    exact resolveStatic_extends hr h

theorem Denotes.extends (hr : r.Extends r') (h : c.Denotes ⟨r, n⟩ called target) :
    ∃ target', c.Denotes ⟨r', n⟩ called target' := by
  rcases h with hword | ⟨hnames, havoids, hresolve⟩
  · exact ⟨target, .inl hword⟩
  · obtain ⟨target', htarget⟩ := resolve_extends hr hresolve
    exact ⟨target', .inr ⟨hnames, havoids, htarget⟩⟩

end Chain

/-! ## Trees -/

mutual

/-- A value without what its chains stand for. -/
def Value.bare : Value → Value
  | .number text => .number text
  | .quoted text => .quoted text
  | .name chain _ => .name chain .self
  | .call chain _ args => .call chain .self args.bare
  | .paren inner => .paren inner.bare
  | .literal bracket items => .literal bracket items.bare
  | .index value bracket key => .index value.bare bracket key.bare
  | .method value name args => .method value.bare name args.bare

/-- Terms without what their chains stand for. -/
def Terms.bare : Terms → Terms
  | .one sign value => .one sign value.bare
  | .more left op sign value => .more left.bare op sign value.bare

/-- **An expression without what its chains stand for.** -/
def Expr.bare : Expr → Expr
  | .plain terms => .plain terms.bare
  | .ternary test yes no => .ternary test.bare yes.bare no.bare

/-- The parts of a group without what their chains stand for. -/
def Items.bare : Items → Items
  | .empty => .empty
  | .item before value => .item before.bare value.bare
  | .pair before key value => .pair before.bare key.bare value.bare

end

theorem Value.isName_bare (value : Value) : value.bare.isName = value.isName := by
  cases value <;> simp only [Value.bare, Value.isName]

theorem Value.startsQuoted_bare : ∀ value : Value, value.bare.startsQuoted = value.startsQuoted
  | .number _ | .quoted _ | .name .. | .call .. | .paren _ | .literal .. => by
    simp only [Value.bare, Value.startsQuoted]
  | .index value _ _ | .method value _ _ => by
    simp only [Value.bare, Value.startsQuoted, value.startsQuoted_bare]

theorem Expr.isPlain_bare (e : Expr) : e.bare.isPlain = e.isPlain := by
  cases e <;> simp only [Expr.bare, Expr.isPlain]

theorem Items.isSingles_bare : ∀ items : Items, items.bare.isSingles = items.isSingles
  | .empty | .pair .. => by simp only [Items.bare, Items.isSingles]
  | .item before _ => by simp only [Items.bare, Items.isSingles, before.isSingles_bare]

theorem Items.separator_bare (items : Items) : items.bare.separator = items.separator := by
  cases items <;> simp only [Items.bare, Items.separator]

mutual

theorem Value.tokens_bare : ∀ value : Value, value.bare.tokens = value.tokens
  | .number _ | .quoted _ | .name .. => by simp only [Value.bare, Value.tokens]
  | .call _ _ args => by simp only [Value.bare, Value.tokens, args.tokens_bare]
  | .paren inner => by simp only [Value.bare, Value.tokens, inner.tokens_bare]
  | .literal _ items => by simp only [Value.bare, Value.tokens, items.tokens_bare]
  | .index value _ key => by
    simp only [Value.bare, Value.tokens, value.tokens_bare, key.tokens_bare]
  | .method value _ args => by
    simp only [Value.bare, Value.tokens, value.tokens_bare, args.tokens_bare]

theorem Terms.tokens_bare : ∀ terms : Terms, terms.bare.tokens = terms.tokens
  | .one _ value => by simp only [Terms.bare, Terms.tokens, value.tokens_bare]
  | .more left _ _ value => by
    simp only [Terms.bare, Terms.tokens, left.tokens_bare, value.tokens_bare]

/-- **The tokens of an expression** do not tell what its chains stand for. -/
theorem Expr.tokens_bare : ∀ e : Expr, e.bare.tokens = e.tokens
  | .plain terms => by simp only [Expr.bare, Expr.tokens, terms.tokens_bare]
  | .ternary test yes no => by
    simp only [Expr.bare, Expr.tokens, test.tokens_bare, yes.tokens_bare, no.tokens_bare]

theorem Items.tokens_bare : ∀ items : Items, items.bare.tokens = items.tokens
  | .empty => by simp only [Items.bare]
  | .item before value => by
    simp only [Items.bare, Items.tokens, before.tokens_bare, before.separator_bare,
      value.tokens_bare]
  | .pair before key value => by
    simp only [Items.bare, Items.tokens, before.tokens_bare, before.separator_bare,
      key.tokens_bare, value.tokens_bare]

end

mutual

theorem Value.depth_bare : ∀ value : Value, value.bare.depth = value.depth
  | .number _ | .quoted _ | .name .. => by simp only [Value.bare, Value.depth]
  | .call _ _ args => by simp only [Value.bare, Value.depth, args.depth_bare]
  | .paren inner => by simp only [Value.bare, Value.depth, inner.depth_bare]
  | .literal _ items => by simp only [Value.bare, Value.depth, items.depth_bare]
  | .index value _ key => by
    simp only [Value.bare, Value.depth, value.depth_bare, key.depth_bare]
  | .method value _ args => by
    simp only [Value.bare, Value.depth, value.depth_bare, args.depth_bare]

theorem Terms.depth_bare : ∀ terms : Terms, terms.bare.depth = terms.depth
  | .one _ value => by simp only [Terms.bare, Terms.depth, value.depth_bare]
  | .more left _ _ value => by
    simp only [Terms.bare, Terms.depth, left.depth_bare, value.depth_bare]

theorem Expr.depth_bare : ∀ e : Expr, e.bare.depth = e.depth
  | .plain terms => by simp only [Expr.bare, Expr.depth, terms.depth_bare]
  | .ternary test yes no => by
    simp only [Expr.bare, Expr.depth, test.depth_bare, yes.depth_bare, no.depth_bare]

theorem Items.depth_bare : ∀ items : Items, items.bare.depth = items.depth
  | .empty => by simp only [Items.bare]
  | .item before value => by
    simp only [Items.bare, Items.depth, before.depth_bare, value.depth_bare]
  | .pair before key value => by
    simp only [Items.bare, Items.depth, before.depth_bare, key.depth_bare, value.depth_bare]

end

/-! ## Well-formed trees -/

/-- What a sign stands before is the same kind of value. -/
theorem SignFits.of_bare {sign : Option Text} {value value' : Value} (h : SignFits sign value)
    (hbare : value'.bare = value.bare) : SignFits sign value' := by
  intro text htext
  obtain ⟨hsign, hquoted⟩ := h text htext
  refine ⟨hsign, ?_⟩
  rw [← value'.startsQuoted_bare, hbare, value.startsQuoted_bare, hquoted]

theorem Items.isSingles_of_bare {items items' : Items} (h : items.isSingles = true)
    (hbare : items'.bare = items.bare) : items'.isSingles = true := by
  rw [← items'.isSingles_bare, hbare, items.isSingles_bare, h]

theorem Expr.isPlain_of_bare {e e' : Expr} (h : e.isPlain = true) (hbare : e'.bare = e.bare) :
    e'.isPlain = true := by
  rw [← e'.isPlain_bare, hbare, e.isPlain_bare, h]

section WellFormed

variable {r r' : Registry} {n : Nat}

-- One case per constructor: chains are resolved again, and the rest is put together as it was.
mutual

theorem Value.WellFormed.extends (hr : r.Extends r') :
    ∀ {value : Value}, value.WellFormed ⟨r, n⟩ →
      ∃ value' : Value, value'.bare = value.bare ∧ value'.WellFormed ⟨r', n⟩
  | .number text, _ => ⟨.number text, rfl, trivial⟩
  | .quoted text, _ => ⟨.quoted text, rfl, trivial⟩
  | .name chain _, h => by
    obtain ⟨target, htarget⟩ := Chain.Denotes.extends hr h
    exact ⟨.name chain target, rfl, htarget⟩
  | .call chain _ args, ⟨hchain, hsingles, hargs⟩ => by
    obtain ⟨target, htarget⟩ := hchain.extends hr
    obtain ⟨args', hbare, hargs'⟩ := hargs.extends hr
    refine ⟨.call chain target args', ?_, htarget, Items.isSingles_of_bare hsingles hbare, hargs'⟩
    simp only [Value.bare, hbare]
  | .paren inner, h => by
    obtain ⟨inner', hbare, hinner⟩ := Expr.WellFormed.extends hr h
    exact ⟨.paren inner', by simp only [Value.bare, hbare], hinner⟩
  | .literal bracket items, ⟨hbracket, hitems⟩ => by
    obtain ⟨items', hbare, hitems'⟩ := hitems.extends hr
    exact ⟨.literal bracket items', by simp only [Value.bare, hbare], hbracket, hitems'⟩
  | .index value bracket key, ⟨hvalue, hbracket, hkey⟩ => by
    obtain ⟨value', hbare, hvalue'⟩ := hvalue.extends hr
    obtain ⟨key', hbare', hkey'⟩ := hkey.extends hr
    refine ⟨.index value' bracket key', ?_, hvalue', hbracket, hkey'⟩
    simp only [Value.bare, hbare, hbare']
  | .method value name args, ⟨hvalue, hname, hmethod, hsingles, hargs⟩ => by
    obtain ⟨value', hbare, hvalue'⟩ := hvalue.extends hr
    obtain ⟨args', hbare', hargs'⟩ := hargs.extends hr
    refine ⟨.method value' name args', ?_, hvalue', ?_, hr.wrapper.contains hmethod,
      Items.isSingles_of_bare hsingles hbare', hargs'⟩
    · simp only [Value.bare, hbare, hbare']
    · rw [← value'.isName_bare, hbare, value.isName_bare, hname]

theorem Terms.WellFormed.extends (hr : r.Extends r') :
    ∀ {terms : Terms}, terms.WellFormed ⟨r, n⟩ →
      ∃ terms' : Terms, terms'.bare = terms.bare ∧ terms'.WellFormed ⟨r', n⟩
  | .one sign value, ⟨hsign, hvalue⟩ => by
    obtain ⟨value', hbare, hvalue'⟩ := hvalue.extends hr
    exact ⟨.one sign value', by simp only [Terms.bare, hbare], hsign.of_bare hbare, hvalue'⟩
  | .more left op sign value, ⟨hleft, hop, hsign, hvalue⟩ => by
    obtain ⟨left', hbare, hleft'⟩ := hleft.extends hr
    obtain ⟨value', hbare', hvalue'⟩ := hvalue.extends hr
    refine ⟨.more left' op sign value', ?_, hleft', hop, hsign.of_bare hbare', hvalue'⟩
    simp only [Terms.bare, hbare, hbare']

/-- **An expression of the grammar is one under more symbols**, up to what its chains stand for. -/
theorem Expr.WellFormed.extends (hr : r.Extends r') :
    ∀ {e : Expr}, e.WellFormed ⟨r, n⟩ →
      ∃ e' : Expr, e'.bare = e.bare ∧ e'.WellFormed ⟨r', n⟩
  | .plain terms, h => by
    obtain ⟨terms', hbare, hterms⟩ := Terms.WellFormed.extends hr h
    exact ⟨.plain terms', by simp only [Expr.bare, hbare], hterms⟩
  | .ternary test yes no, ⟨htest, ⟨hplain, hyes⟩, hplain', hno⟩ => by
    obtain ⟨test', hbare, htest'⟩ := htest.extends hr
    obtain ⟨yes', hbare', hyes'⟩ := hyes.extends hr
    obtain ⟨no', hbare'', hno'⟩ := hno.extends hr
    refine ⟨.ternary test' yes' no', ?_, htest', ⟨Expr.isPlain_of_bare hplain hbare', hyes'⟩,
      Expr.isPlain_of_bare hplain' hbare'', hno'⟩
    simp only [Expr.bare, hbare, hbare', hbare'']

theorem Items.WellFormed.extends (hr : r.Extends r') :
    ∀ {items : Items}, items.WellFormed ⟨r, n⟩ →
      ∃ items' : Items, items'.bare = items.bare ∧ items'.WellFormed ⟨r', n⟩
  | .empty, _ => ⟨.empty, rfl, trivial⟩
  | .item before value, ⟨hbefore, hvalue⟩ => by
    obtain ⟨before', hbare, hbefore'⟩ := hbefore.extends hr
    obtain ⟨value', hbare', hvalue'⟩ := hvalue.extends hr
    exact ⟨.item before' value', by simp only [Items.bare, hbare, hbare'], hbefore', hvalue'⟩
  | .pair before key value, ⟨hbefore, hkey, hvalue⟩ => by
    obtain ⟨before', hbare, hbefore'⟩ := hbefore.extends hr
    obtain ⟨key', hbare', hkey'⟩ := hkey.extends hr
    obtain ⟨value', hbare'', hvalue'⟩ := hvalue.extends hr
    refine ⟨.pair before' key' value', ?_, hbefore', hkey', hvalue'⟩
    simp only [Items.bare, hbare, hbare', hbare'']

end

/-- **A tag that is read is read under more symbols**, up to the same place. -/
theorem readTag_extends (hr : r.Extends r') {t rest : Text} {e : Expr}
    (h : readTag ⟨r, n⟩ t = .ok (e, rest)) :
    ∃ e', readTag ⟨r', n⟩ t = .ok (e', rest) ∧ e'.bare = e.bare := by
  obtain ⟨hwellFormed, hdepth, hreads, hcloses⟩ := readTag_eq_ok_iff.1 h
  obtain ⟨e', hbare, hwellFormed'⟩ := hwellFormed.extends hr
  refine ⟨e', readTag_eq_ok_iff.2 ⟨hwellFormed', ?_, ?_, hcloses⟩, hbare⟩
  · rwa [← e'.depth_bare, hbare, e.depth_bare]
  · rwa [← e'.tokens_bare, hbare, e.tokens_bare]

end WellFormed

end Stencil
