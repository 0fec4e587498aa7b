import Mathlib.Data.List.Basic
import Stencil.Proofs.Block.Frame
import Stencil.Proofs.Expr.Feed
import Stencil.Proofs.Host.Closed

/-!
# Proofs/Expr/Registered — what a resolved chain names

    names  =  root · · · keys · · · method
    code   =  root["key"]["key"]->method

Every rule of resolution splits the names of a chain in its own way, with and without a call.
`Account` says what all of them have in common: the names are the root of the reference, then the
keys that index it, then the method that is called on it, each name once and in order; every symbol
that is named is registered; and something is called exactly if the chain is (`Reference.CalledBy`).
What a chain is resolved to has such an account (`Chain.Denotes.account`), and its code can be read
off it (`Chain.feed_registered`).
-/

namespace Stencil

/-! ## Registered references -/

/-- A root whose symbols are known, in a loop that is open. -/
def Root.Registered (s : Scope) : Root → Prop
  | data => True
  | superglobal name => name = "GLOBALS" ∨ name ∈ singleKeyGlobals
  | frame depth _ => 0 < depth ∧ depth ≤ s.loops
  | constant path => s.registry.symbols.hasConstant path = true
  | classConstant owner name =>
    ∃ found, s.registry.symbols.findClass? owner = some found ∧ found.hasConstant name = true

/-- **A reference whose symbols are known.** -/
def Reference.Registered (s : Scope) : Reference → Prop
  | word text => text ∈ reservedWords
  | self => True
  | selfMethod _ => True
  | value root _ => root.Registered s
  | wrapped root _ method => root.Registered s ∧ s.registry.wrapper.contains method = true
  | objectMethod root _ _ => root.Registered s
  | helper depth method =>
    (0 < depth ∧ depth ≤ s.loops) ∧ s.registry.helper.contains method = true
  | construct name => Symbols.isConstruct name = true
  | function path => s.registry.symbols.hasFunction path = true
  | staticMethod owner method =>
    ∃ found, s.registry.symbols.findClass? owner = some found ∧ found.hasMethod method = true

/-! ## The parts of a reference -/

/-- The loop members that are no key. -/
def loopMembers : List Text := ["i", "s", "k", "h", "v"]

/-- The names that spell a root: none for the template's data, and none for the value of a loop
unless it is named. -/
def Root.SpelledBy (names : List Text) : Root → Prop
  | data => names = []
  | superglobal name => names = [name]
  | frame _ .array => False
  | frame _ .index => names = [("i" : Text)]
  | frame _ .size => names = [("s" : Text)]
  | frame _ .key => names = [("k" : Text)]
  | frame _ .value => names = [("v" : Text)] ∨ names = []
  | constant path => names ≠ [] ∧ path = joinPath names
  | classConstant owner name => ∃ parts, parts ≠ [] ∧ names = parts ++ [name] ∧ owner = joinPath parts

namespace Reference

/-- The keys that index the root. -/
def keys : Reference → List Text
  | value _ keys | wrapped _ keys _ | objectMethod _ keys _ => keys
  | _ => []

/-- The method that is called on what is before it. -/
def method? : Reference → Option Text
  | selfMethod method | wrapped _ _ method | objectMethod _ _ method | helper _ method
  | staticMethod _ method => some method
  | _ => none

/-- Whether a construct, a function or a method is called. -/
def isCall : Reference → Bool
  | word _ | self | value _ _ => false
  | _ => true

/-- **What the call flag says**: without a call there is a word, `this`, or a value with its keys;
what is called is a construct or a function, by all names together, or the method of the last
name. -/
def CalledBy (names : List Text) (called : Bool) : Reference → Prop
  | word _ | self | value _ _ => called = false
  | construct name => called = true ∧ names = [name]
  | function path => called = true ∧ path = joinPath names
  | selfMethod method | wrapped _ _ method | objectMethod _ _ method | helper _ method
  | staticMethod _ method => called = true ∧ names.getLast? = some method

/-- **The names that spell the root of a reference**: a word, `this`, the loop helper, a function, a
class, or the root of a value. -/
def SpelledBy (names : List Text) : Reference → Prop
  | word text => names = [text]
  | self | selfMethod _ => names = [("this" : Text)]
  | value root _ | wrapped root _ _ | objectMethod root _ _ => root.SpelledBy names
  | helper _ _ => names = [("h" : Text)]
  | construct name => names = [name]
  | function path => names ≠ [] ∧ path = joinPath names
  | staticMethod owner _ => names ≠ [] ∧ owner = joinPath names

end Reference

/-- **An account of a chain**: its names fall into those of the root, the keys and the method, what
they name is registered, and something is called if the chain is. -/
structure Account (s : Scope) (c : Chain) (called : Bool) (target : Reference)
    (root : List Text) : Prop where
  registered : target.Registered s
  frame : ∀ depth, target.frame? = some depth → depth = c.depth
  names : c.names = root ++ target.keys ++ target.method?.toList
  spelled : target.SpelledBy root
  /-- A loop member at the start is the root. -/
  member : 0 < c.depth → root = [] → ∀ first ∈ c.names.head?, first ∉ loopMembers
  call : target.isCall = called
  /-- One name that is called is a construct or a function. -/
  bare : called = true → c.depth = 0 → ∀ name, c.names = [name] →
    target = .construct name ∨ target = .function name

/-! ## The rules -/

namespace Chain

variable {s : Scope} {c : Chain} {called : Bool} {target : Reference}

/-- A wrapper method that is called is registered. -/
theorem wrapperCall_cases {root : Root} {keys : List Text} {method : Text}
    (h : c.wrapperCall s root keys method = .ok target) :
    target = .wrapped root keys method ∧ s.registry.wrapper.contains method = true := by
  unfold wrapperCall at h
  split at h
  · next hmethod => exact ⟨(Except.ok.inj h).symm, hmethod⟩
  · cases h

/-- The scalar members of a loop. -/
theorem scalar?_cases {first : Text} {var : FrameVar} (h : FrameVar.scalar? first = some var)
    (depth : Nat) : (Root.frame depth var).SpelledBy [first] := by
  unfold FrameVar.scalar? at h
  split at h
  · next hi => cases h; rw [hi]; rfl
  split at h
  · next hs => cases h; rw [hs]; rfl
  split at h
  · next hk => cases h; rw [hk]; rfl
  · cases h

theorem ne_of_scalar?_none {first : Text} (h : FrameVar.scalar? first = none) :
    first ≠ "i" ∧ first ≠ "s" ∧ first ≠ "k" := by
  refine ⟨?_, ?_, ?_⟩ <;> rintro rfl <;> cases h

/-- The keys of the value of a loop: all names, but for a leading `v`. -/
theorem exists_loopKeys {first : Text} (rest : List Text) (hscalar : FrameVar.scalar? first = none)
    (hhelper : first ≠ "h") :
    ∃ root, first :: rest = root ++ (if first = "v" then rest else first :: rest) ∧
      (root = [("v" : Text)] ∨ root = []) ∧ (root = [] → first ∉ loopMembers) := by
  obtain ⟨hi, hs, hk⟩ := ne_of_scalar?_none hscalar
  by_cases hv : first = "v"
  · refine ⟨[("v" : Text)], ?_, .inl rfl, nofun⟩
    rw [if_pos hv, hv]
    rfl
  · refine ⟨[], ?_, .inr rfl, fun _ hmem => ?_⟩
    · rw [if_neg hv]
      rfl
    · simp only [loopMembers, List.mem_cons, List.not_mem_nil, or_false] at hmem
      rcases hmem with h | h | h | h | h
      · exact hi h
      · exact hs h
      · exact hk h
      · exact hhelper h
      · exact hv h

theorem account_of_resolveLoop (hdepth : 0 < c.depth) (h : c.resolveLoop s called = .ok target) :
    ∃ root, Account s c called target root := by
  unfold resolveLoop at h
  split at h
  · cases h
  next hle =>
  have hframe : 0 < c.depth ∧ c.depth ≤ s.loops := ⟨hdepth, Nat.le_of_not_lt hle⟩
  have hbare : called = true → c.depth = 0 → ∀ name, c.names = [name] →
      target = .construct name ∨ target = .function name := by
    intro _ hzero
    omega
  split at h
  · cases h
  next first rest hnames =>
  split at h
  · next var hvar =>
    have hspelled := scalar?_cases hvar c.depth
    split at h
    · cases h
      exact ⟨[first], hframe, by rintro _ ⟨⟩; rfl, hnames, hspelled, nofun, rfl, hbare⟩
    · next method =>
      obtain ⟨rfl, hmethod⟩ := wrapperCall_cases h
      exact ⟨[first], ⟨hframe, hmethod⟩, by rintro _ ⟨⟩; rfl, hnames, hspelled, nofun, rfl, hbare⟩
    · cases h
  next hscalar =>
  split at h
  · next hh =>
    split at h
    · next method =>
      split at h
      · next hmethod =>
        cases h
        exact ⟨["h"], ⟨hframe, hmethod⟩, by rintro _ ⟨⟩; rfl, by rw [hnames, hh]; rfl, rfl, nofun,
          rfl, hbare⟩
      · cases h
    · cases h
  next hhelper =>
  obtain ⟨root, hsplit, hroot, hmember⟩ := exists_loopKeys rest hscalar hhelper
  extract_lets keys at h
  have hmember : 0 < c.depth → root = [] → ∀ first ∈ c.names.head?, first ∉ loopMembers := by
    rintro - hnil _ hfirst
    rw [hnames] at hfirst
    cases hfirst
    exact hmember hnil
  split at h
  · next hcalled =>
    split at h
    · cases h
    next method hlast =>
    have hkeys : c.names = root ++ keys.dropLast ++ [method] := by
      rw [hnames, hsplit, List.append_assoc, List.dropLast_append_getLast? method hlast]
    split at h
    · next hmethod =>
      cases h
      exact ⟨root, ⟨hframe, hmethod⟩, by rintro _ ⟨⟩; rfl, hkeys, hroot, hmember, hcalled.symm,
        hbare⟩
    · cases h
      exact ⟨root, hframe, by rintro _ ⟨⟩; rfl, hkeys, hroot, hmember, hcalled.symm, hbare⟩
  · next hcalled =>
    cases h
    refine ⟨root, hframe, by rintro _ ⟨⟩; rfl, ?_, hroot, hmember,
      (Bool.eq_false_iff.2 hcalled).symm, hbare⟩
    rw [hnames, hsplit]
    exact (List.append_nil _).symm

theorem account_of_resolveSelf {rest : List Text} (hnames : c.names = ("this" : Text) :: rest)
    (hdepth : c.depth = 0) (h : c.resolveSelf called = .ok target) :
    ∃ root, Account s c called target root := by
  unfold resolveSelf at h
  rw [hnames] at h
  split at h
  · next heq =>
    cases h
    cases heq
    exact ⟨["this"], trivial, nofun, hnames, rfl, by simp [hdepth], rfl, nofun⟩
  · next heq =>
    cases h
    cases heq
    refine ⟨["this"], trivial, nofun, hnames, rfl, by simp [hdepth], rfl, fun _ _ name hone => ?_⟩
    cases hnames.symm.trans hone
  · cases h

theorem account_of_resolveGlobal {name : Text} {rest : List Text}
    (hnames : c.names = name :: rest) (hname : name = "GLOBALS" ∨ name ∈ singleKeyGlobals)
    (h : c.resolveGlobal s name rest called = .ok target) :
    ∃ root, Account s c called target root := by
  have hmember : 0 < c.depth → [name] = [] → ∀ first ∈ c.names.head?, first ∉ loopMembers := nofun
  unfold resolveGlobal at h
  extract_lets keys fits at h
  split at h
  · cases h
  split at h
  · next hcalled =>
    split at h
    · next method hlast =>
      obtain ⟨rfl, hmethod⟩ := wrapperCall_cases h
      refine ⟨[name], ⟨hname, hmethod⟩, nofun, ?_, rfl, hmember, hcalled.symm,
        fun _ _ one hone => ?_⟩
      · change c.names = name :: (keys ++ [method])
        rw [hnames, show keys = rest.dropLast from if_pos hcalled,
          List.dropLast_append_getLast? method hlast]
      · cases hnames.symm.trans hone
        cases hlast
    · cases h
  · next hcalled =>
    cases h
    refine ⟨[name], hname, nofun, ?_, rfl, hmember,
      (Bool.eq_false_iff.2 hcalled).symm, fun htrue => absurd htrue hcalled⟩
    change c.names = name :: (keys ++ [])
    rw [hnames, show keys = rest from if_neg hcalled, List.append_nil]

/-- **The constant that names address** is registered, and the names behind it are its keys. -/
theorem findConstant_cases {names keys : List Text} {root : Root}
    (h : c.findConstant s.registry.symbols names = .ok (some (root, keys))) :
    root.Registered s ∧ root.frame? = none ∧
      ∃ front, front ≠ [] ∧ names = front ++ keys ∧ root.SpelledBy front := by
  unfold findConstant at h
  extract_lets owner at h
  split at h
  · cases h
  next name keys' hdrop =>
  have hnames : names = (owner ++ [name]) ++ keys' := by
    rw [List.append_assoc, List.singleton_append, ← hdrop]
    exact (List.takeWhile_append_dropWhile).symm
  split at h
  · cases h
  split at h
  · next hempty =>
    split at h
    · next hconstant =>
      cases h
      rw [List.isEmpty_iff.1 hempty] at hnames
      refine ⟨hconstant, rfl, [name], List.cons_ne_nil _ _, hnames, List.cons_ne_nil _ _, ?_⟩
      rw [joinPath, List.intercalate_singleton]
    · cases h
  next howner =>
  split at h
  · next hconstant =>
    cases h
    exact ⟨hconstant, rfl, owner ++ [name], by simp, hnames, by simp, rfl⟩
  split at h
  · next hclass =>
    cases h
    obtain ⟨found, hfound, hconstant⟩ := (Option.any_eq_true _ _).1 hclass
    refine ⟨⟨found, hfound, hconstant⟩, rfl, owner ++ [name], by simp, hnames, owner, ?_, rfl, rfl⟩
    exact fun hnil => howner (List.isEmpty_iff.2 hnil)
  · cases h

theorem account_of_resolveMethod {owner : List Text} {method : Text} (hdepth : c.depth = 0)
    (hnames : c.names = owner ++ [method]) (howner : owner ≠ [])
    (h : c.resolveMethod s owner method = .ok target) : ∃ root, Account s c true target root := by
  have hmember : ∀ root : List Text,
      0 < c.depth → root = [] → ∀ first ∈ c.names.head?, first ∉ loopMembers := by
    intro root hpos
    omega
  have hbare : true = true → c.depth = 0 → ∀ name, c.names = [name] →
      target = .construct name ∨ target = .function name := by
    intro _ _ name hone
    rw [hnames, List.append_eq_singleton_iff] at hone
    rcases hone with ⟨hnil, -⟩ | ⟨-, hnil⟩
    · exact absurd hnil howner
    · cases hnil
  unfold resolveMethod at h
  split at h
  · cases h
  · next root keys hconstant =>
    obtain ⟨hroot, hframe, front, -, hsplit, hspelled⟩ := findConstant_cases hconstant
    obtain ⟨rfl, hmethod⟩ := wrapperCall_cases h
    refine ⟨front, ⟨hroot, hmethod⟩, ?_, by rw [hnames, hsplit]; rfl, hspelled, hmember _, rfl,
      hbare⟩
    intro depth hdepth
    cases hframe.symm.trans hdepth
  extract_lets path at h
  split at h
  · next found hfound =>
    split at h
    · next hmethod =>
      cases h
      exact ⟨owner, ⟨found, hfound, hmethod⟩, nofun, by rw [hnames]; simp [Reference.keys,
        Reference.method?], ⟨howner, rfl⟩, hmember _, rfl, hbare⟩
    · cases h
  split at h
  · next hfunction =>
    cases h
    exact ⟨owner ++ [method], hfunction, nofun, by rw [hnames]; simp [Reference.keys,
      Reference.method?], ⟨by simp, rfl⟩, hmember _, rfl, hbare⟩
  split at h
  · cases h
  · obtain ⟨rfl, hmethod⟩ := wrapperCall_cases h
    exact ⟨[], ⟨trivial, hmethod⟩, nofun, hnames, rfl, hmember _, rfl, hbare⟩

theorem account_of_resolveStatic (hdepth : c.depth = 0)
    (h : c.resolveStatic s called = .ok target) : ∃ root, Account s c called target root := by
  have hmember : ∀ root : List Text,
      0 < c.depth → root = [] → ∀ first ∈ c.names.head?, first ∉ loopMembers := by
    intro root hpos
    omega
  unfold resolveStatic at h
  split at h
  · next hcalled =>
    subst hcalled
    split at h
    · next name hnames =>
      have hone : ∀ other, c.names = [other] → name = other := fun other hother =>
        (List.cons.inj (hnames.symm.trans hother)).1
      unfold resolveFunction at h
      split at h
      · next hconstruct =>
        cases h
        exact ⟨[name], hconstruct, nofun, hnames, rfl, hmember _, rfl,
          fun _ _ other hother => .inl (congrArg _ (hone other hother))⟩
      split at h
      · next hfunction =>
        cases h
        refine ⟨[name], hfunction, nofun, hnames, ⟨List.cons_ne_nil _ _, ?_⟩, hmember _, rfl,
          fun _ _ other hother => .inr (congrArg _ (hone other hother))⟩
        rw [joinPath, List.intercalate_singleton]
      · cases h
    · next hmany =>
      split at h
      · next method hlast =>
        have hsplit : c.names = c.names.dropLast ++ [method] :=
          (List.dropLast_append_getLast? method hlast).symm
        refine account_of_resolveMethod hdepth hsplit (fun hnil => ?_) h
        rw [hnil] at hsplit
        exact hmany method hsplit
      · cases h
  next hcalled =>
  obtain rfl := Bool.eq_false_iff.2 hcalled
  split at h
  · cases h
  · next root keys hconstant =>
    cases h
    obtain ⟨hroot, hframe, front, -, hsplit, hspelled⟩ := findConstant_cases hconstant
    refine ⟨front, hroot, ?_, by rw [hsplit]; exact (List.append_nil _).symm, hspelled, hmember _,
      rfl, nofun⟩
    intro depth hdepth
    cases hframe.symm.trans hdepth
  · cases h
    exact ⟨[], trivial, nofun, (List.append_nil _).symm, rfl, hmember _, rfl, nofun⟩

/-- **What a chain denotes has an account.** -/
theorem Denotes.account (h : c.Denotes s called target) :
    ∃ root, Account s c called target root := by
  rcases h with ⟨word, hword, -, rfl, rfl, rfl⟩ | ⟨-, -, h⟩
  · exact ⟨[word], hword, nofun, rfl, rfl, nofun, rfl, nofun⟩
  unfold resolve at h
  split at h
  · next hdepth => exact account_of_resolveLoop hdepth h
  next hdepth =>
  have hdepth := Nat.eq_zero_of_not_pos hdepth
  split at h
  · cases h
  next first rest hnames =>
  split at h
  · next hthis => exact account_of_resolveSelf (hthis ▸ hnames) hdepth h
  split at h
  · next hglobal => exact account_of_resolveGlobal hnames hglobal h
  · exact account_of_resolveStatic hdepth h

end Chain

/-! ## The code of a reference -/

/-- A text without brackets. -/
def Bare (t : Text) : Prop := ∀ c ∈ t, c ∉ ['(', ')', '[', ']']

instance (t : Text) : Decidable (Bare t) := List.decidableBAll _ t

instance (name : Text) : Decidable (IsWord name) := List.decidableBAll _ name

theorem Bare.append {a b : Text} (ha : Bare a) (hb : Bare b) : Bare (a ++ b) := by
  intro c hc
  rcases List.mem_append.1 hc with hc | hc
  · exact ha c hc
  · exact hb c hc

/-- Names hold no brackets. -/
theorem IsWord.bare {name : Text} (h : IsWord name) : Bare name := by
  intro c hc hmem
  have hnone : ['(', ')', '[', ']'].all (fun d => !Text.isNamePart d) = true := by decide
  have hpart : Text.isNamePart c = false := by simpa using List.all_eq_true.1 hnone c hmem
  exact Text.ne_of_isNamePart (h c hc) hpart rfl

theorem bare_joinPath {names : List Text} (h : ∀ name ∈ names, IsWord name) :
    Bare (joinPath names) := by
  unfold joinPath
  induction names with
  | nil => exact nofun
  | cons name names ih =>
    have hname : Bare name := (h name List.mem_cons_self).bare
    have hnames := ih fun n hn => h n (List.mem_cons_of_mem _ hn)
    cases names with
    | nil =>
      rw [List.intercalate_singleton]
      exact hname
    | cons next names =>
      rw [List.intercalate_cons_cons]
      exact (hname.append (by decide)).append hnames

theorem bare_decimal (n : Nat) : Bare (Text.decimal n) := by
  intro c hc hmem
  have hdigit : c.isDigit = true := Nat.isDigit_of_mem_toDigits (by decide) (by decide) hc
  have hnone : ['(', ')', '[', ']'].all (fun d => !d.isDigit) = true := by decide
  have hother : c.isDigit = false := by simpa using List.all_eq_true.1 hnone c hmem
  cases hother.symm.trans hdigit

theorem FrameVar.bare_code (v : FrameVar) (depth : Nat) : Bare (v.code depth) := by
  have hsuffix : Bare v.suffix := by cases v <;> decide
  have hletter : Bare ("$L" : Text) := by decide
  exact (hletter.append (bare_decimal depth)).append hsuffix

/-- The code of a root has no brackets. -/
theorem Root.SpelledBy.bare_code {root : Root} {names : List Text} (h : root.SpelledBy names)
    (hnames : ∀ name ∈ names, IsWord name) : Bare root.code := by
  have hslash : Bare ("\\" : Text) := by decide
  have hcolons : Bare ("::" : Text) := by decide
  cases root with
  | data => exact (by decide : Bare ("$V" : Text))
  | superglobal name =>
    have hname : IsWord name := hnames name (by rw [show names = [name] from h]; simp)
    have hdollar : Bare ("$_" : Text) := by decide
    change Bare (if name = "GLOBALS" then "$GLOBALS" else "$_" ++ name)
    split
    · decide
    · exact hdollar.append hname.bare
  | frame depth var => exact var.bare_code depth
  | constant path =>
    obtain ⟨-, rfl⟩ := h
    exact hslash.append (bare_joinPath hnames)
  | classConstant owner name =>
    obtain ⟨parts, -, rfl, rfl⟩ := h
    have hname : Bare name := (hnames name (by simp)).bare
    have hparts : Bare (joinPath parts) :=
      bare_joinPath fun part hpart => hnames part (List.mem_append_left _ hpart)
    exact ((hslash.append hparts).append hcolons).append hname

/-- Indices hold no parentheses. -/
theorem not_mem_indexCode {keys : List Text} (hkeys : ∀ key ∈ keys, IsWord key) {c : Char}
    (hc : c = '(' ∨ c = ')') : c ∉ indexCode keys := by
  have hopen : c ∉ ("[\"" : Text) := by rcases hc with rfl | rfl <;> decide
  have hclose : c ∉ ("\"]" : Text) := by rcases hc with rfl | rfl <;> decide
  intro hmem
  obtain ⟨key, hkey, hmem⟩ := List.mem_flatMap.1 hmem
  rcases List.mem_append.1 hmem with hmem | hmem
  · rcases List.mem_append.1 hmem with hmem | hmem
    · exact hopen hmem
    · exact (hkeys key hkey).bare c hmem (by rcases hc with rfl | rfl <;> decide)
  · exact hclose hmem

namespace Reference

/-- The code in front of the keys. -/
def before (r : Registry) : Reference → Text
  | value root _ | wrapped root _ _ | objectMethod root _ _ => root.code
  | other => other.code r

/-- The code behind the keys. -/
def after : Reference → Text
  | wrapped _ _ method => ")->" ++ method
  | objectMethod _ _ method => "->" ++ method
  | _ => []

/-- **The keys stand in one place of the code.** -/
theorem tailCode_eq (r : Registry) (target : Reference) :
    target.tailCode r = target.before r ++ indexCode target.keys ++ target.after := by
  cases target with
  | value root keys => exact (List.append_nil _).symm
  | wrapped root keys method => exact List.append_assoc _ _ _
  | objectMethod root keys method => exact List.append_assoc _ _ _
  | word text => exact (List.append_nil _).symm.trans (List.append_nil _).symm
  | self => rfl
  | selfMethod method => exact (List.append_nil _).symm.trans (List.append_nil _).symm
  | helper depth method => exact (List.append_nil _).symm.trans (List.append_nil _).symm
  | construct name => exact (List.append_nil _).symm.trans (List.append_nil _).symm
  | function path => exact (List.append_nil _).symm.trans (List.append_nil _).symm
  | staticMethod owner method => exact (List.append_nil _).symm.trans (List.append_nil _).symm

end Reference

/-- The code between the brackets of a loop helper. -/
def helperArgs (depth : Nat) : Text :=
  FrameVar.index.code depth ++ "," ++ FrameVar.size.code depth ++ "," ++ FrameVar.key.code depth ++
    "," ++ FrameVar.value.code depth

theorem bare_helperArgs (depth : Nat) : Bare (helperArgs depth) := by
  have hcomma : Bare ("," : Text) := by decide
  have hvar : ∀ v : FrameVar, Bare (v.code depth) := fun v => v.bare_code depth
  exact (((((hvar .index).append hcomma).append (hvar .size)).append hcomma).append
    (hvar .key)).append hcomma |>.append (hvar .value)

/-- **The code of a loop helper** closes the bracket that it opens. -/
theorem helper_code (r : Registry) (depth : Nat) (method : Text) :
    (Reference.helper depth method).code r =
      r.helper.opening ++ helperArgs depth ++ ")->" ++ method := by
  change r.helper.opening ++ FrameVar.index.code depth ++ "," ++ FrameVar.size.code depth ++ ","
      ++ FrameVar.key.code depth ++ "," ++ FrameVar.value.code depth ++ ")->" ++ method = _
  rw [helperArgs]
  simp only [List.append_assoc]

namespace Account

variable {s : Scope} {c : Chain} {target : Reference} {root : List Text} {called : Bool}

/-- The names of an account are names of the chain. -/
theorem isWord (h : Account s c called target root) (hnames : ∀ name ∈ c.names, IsWord name) :
    (∀ name ∈ root, IsWord name) ∧ (∀ key ∈ target.keys, IsWord key) ∧
      ∀ method, target.method? = some method → IsWord method := by
  rw [h.names] at hnames
  refine ⟨fun name hn => hnames name (by simp [hn]), fun key hk => hnames key (by simp [hk]), ?_⟩
  intro method hm
  exact hnames method (by simp [hm])

/-- **Only a loop helper has brackets in front of its keys.** -/
theorem bare_before (h : Account s c called target root) (hnames : ∀ name ∈ c.names, IsWord name)
    (hhelper : ∀ depth method, target ≠ .helper depth method) :
    Bare (target.before s.registry) := by
  obtain ⟨hroot, -, hmethod⟩ := h.isWord hnames
  have hspelled := h.spelled
  have hslash : Bare ("\\" : Text) := by decide
  have hcolons : Bare ("::" : Text) := by decide
  cases target with
  | word text => exact (hroot text (by rw [show root = [text] from hspelled]; simp)).bare
  | self => exact (by decide : Bare ("$this" : Text))
  | selfMethod method =>
    have hself : Bare ("$this->" : Text) := by decide
    exact hself.append (hmethod method rfl).bare
  | value place keys => exact Root.SpelledBy.bare_code hspelled hroot
  | wrapped place keys method => exact Root.SpelledBy.bare_code hspelled hroot
  | objectMethod place keys method => exact Root.SpelledBy.bare_code hspelled hroot
  | helper depth method => exact absurd rfl (hhelper depth method)
  | construct name => exact (hroot name (by rw [show root = [name] from hspelled]; simp)).bare
  | function path =>
    obtain ⟨-, rfl⟩ := hspelled
    exact hslash.append (bare_joinPath hroot)
  | staticMethod owner method =>
    obtain ⟨-, rfl⟩ := hspelled
    exact ((hslash.append (bare_joinPath hroot)).append hcolons).append (hmethod method rfl).bare

/-- What follows the keys has a bracket only if the wrapper is to be closed. -/
theorem bare_after (h : Account s c called target root) (hnames : ∀ name ∈ c.names, IsWord name)
    (hwrapped : target.isWrapped = false) : Bare target.after := by
  obtain ⟨-, -, hmethod⟩ := h.isWord hnames
  have harrow : Bare ("->" : Text) := by decide
  cases target with
  | wrapped place keys method => cases hwrapped
  | objectMethod place keys method => exact harrow.append (hmethod method rfl).bare
  | _ => exact nofun

/-- **Brackets around keys only**: any other square bracket is one of the helper's class. -/
theorem square_not_mem (h : Account s c called target root) (hnames : ∀ name ∈ c.names, IsWord name)
    (hmem : '[' ∈ target.before s.registry ++ target.after) :
    ∃ depth method, target = .helper depth method ∧ '[' ∈ s.registry.helper.owner := by
  obtain ⟨-, -, hmethod⟩ := h.isWord hnames
  by_cases hhelper : ∃ depth method, target = .helper depth method
  · obtain ⟨depth, method, rfl⟩ := hhelper
    refine ⟨depth, method, rfl, ?_⟩
    have hcode : '[' ∈ s.registry.helper.opening ++ helperArgs depth ++ ")->" ++ method := by
      rw [← helper_code]
      exact (List.append_nil ((Reference.helper depth method).code s.registry)) ▸ hmem
    have hback : '[' ∉ helperArgs depth ++ ")->" ++ method := by
      have harrow : '[' ∉ (")->" : Text) := by decide
      intro hmem
      rcases List.mem_append.1 hmem with hmem | hmem
      · rcases List.mem_append.1 hmem with hmem | hmem
        · exact bare_helperArgs depth '[' hmem (by decide)
        · exact harrow hmem
      · exact (hmethod method rfl).bare '[' hmem (by decide)
    rw [List.append_assoc, List.append_assoc, ← List.append_assoc (helperArgs depth)] at hcode
    rcases List.mem_append.1 hcode with hopen | hback'
    · have hends : '[' ∉ ("\\" : Text) ∧ '[' ∉ ("::o(" : Text) := by decide
      rcases List.mem_append.1 hopen with hopen | hopen
      · rcases List.mem_append.1 hopen with hopen | hopen
        · exact absurd hopen hends.1
        · exact hopen
      · exact absurd hopen hends.2
    · exact absurd hback' hback
  · have hbefore := h.bare_before hnames fun depth method heq => hhelper ⟨depth, method, heq⟩
    rcases List.mem_append.1 hmem with hmem | hmem
    · exact absurd (by decide) (hbefore '[' hmem)
    · cases hwrapped : target.isWrapped with
      | false => exact absurd (by decide) (h.bare_after hnames hwrapped '[' hmem)
      | true =>
        cases target with
        | wrapped place keys method =>
          have harrow : '[' ∉ (")->" : Text) := by decide
          rcases List.mem_append.1 hmem with hmem | hmem
          · exact absurd hmem harrow
          · exact absurd (by decide) ((hmethod method rfl).bare '[' hmem)
        | _ => cases hwrapped

/-- **The wrapper is to be closed** exactly if the code has one closing bracket that nothing in it
opens. -/
theorem isWrapped_iff (h : Account s c called target root)
    (hnames : ∀ name ∈ c.names, IsWord name) :
    target.isWrapped = true ↔ ∃ front back, target.tailCode s.registry = front ++ ')' :: back ∧
      ∀ c ∈ front ++ back, c ≠ '(' ∧ c ≠ ')' := by
  obtain ⟨-, hkeys, hmethod⟩ := h.isWord hnames
  have hplain : ∀ {t : Text}, Bare t → ∀ c ∈ t, c ≠ '(' ∧ c ≠ ')' := by
    intro t ht c hc
    refine ⟨?_, ?_⟩ <;> rintro rfl <;> exact ht _ hc (by decide)
  constructor
  · intro hwrapped
    cases target with
    | wrapped place keys method =>
      refine ⟨place.code ++ indexCode keys, "->" ++ method, ?_, ?_⟩
      · exact List.append_assoc _ _ _
      · intro c hc
        have hroot : Bare place.code := h.bare_before hnames nofun
        have harrow : Bare ("->" : Text) := by decide
        rcases List.mem_append.1 hc with hc | hc
        · rcases List.mem_append.1 hc with hc | hc
          · exact hplain hroot c hc
          · refine ⟨?_, ?_⟩
            · rintro rfl
              exact not_mem_indexCode hkeys (.inl rfl) hc
            · rintro rfl
              exact not_mem_indexCode hkeys (.inr rfl) hc
        · exact hplain (harrow.append (hmethod method rfl).bare) c hc
    | _ => cases hwrapped
  · rintro ⟨front, back, hcode, hfree⟩
    by_contra hwrapped
    rw [Bool.not_eq_true] at hwrapped
    by_cases hhelper : ∃ depth method, target = .helper depth method
    · -- The helper opens a bracket of its own.
      obtain ⟨depth, method, rfl⟩ := hhelper
      have hopen : '(' ∈ (Reference.helper depth method).tailCode s.registry := by
        change '(' ∈ (Reference.helper depth method).code s.registry
        rw [helper_code, Adapter.opening]
        simp
      rw [hcode] at hopen
      rcases List.mem_append.1 hopen with hopen | hopen
      · exact (hfree '(' (List.mem_append_left _ hopen)).1 rfl
      · rcases List.mem_cons.1 hopen with heq | hopen
        · cases heq
        · exact (hfree '(' (List.mem_append_right _ hopen)).1 rfl
    · have hbefore := h.bare_before hnames fun depth method heq => hhelper ⟨depth, method, heq⟩
      have hafter := h.bare_after hnames hwrapped
      have hclose : ')' ∈ target.tailCode s.registry := by
        rw [hcode]
        simp
      rw [target.tailCode_eq] at hclose
      rcases List.mem_append.1 hclose with hclose | hclose
      · rcases List.mem_append.1 hclose with hclose | hclose
        · exact hbefore ')' hclose (by decide)
        · exact not_mem_indexCode hkeys (.inr rfl) hclose
      · exact hafter ')' hclose (by decide)

/-- **The last name is called**, or all of them are. -/
theorem calledBy (h : Account s c called target root) : target.CalledBy c.names called := by
  have hnames := h.names
  have hcall := h.call
  have hspelled := h.spelled
  have hlast : ∀ method, target.method? = some method → c.names.getLast? = some method := by
    intro method hmethod
    rw [hnames, hmethod]
    exact List.getLast?_concat
  have hall : target.keys = [] → target.method? = none → c.names = root := by
    intro hkeys hmethod
    rw [hnames, hkeys, hmethod]
    simp
  cases target with
  | word text => exact hcall.symm
  | self => exact hcall.symm
  | value place keys => exact hcall.symm
  | construct name => exact ⟨hcall.symm, (hall rfl rfl).trans hspelled⟩
  | function path => exact ⟨hcall.symm, (hall rfl rfl) ▸ hspelled.2⟩
  | selfMethod method => exact ⟨hcall.symm, hlast method rfl⟩
  | wrapped place keys method => exact ⟨hcall.symm, hlast method rfl⟩
  | objectMethod place keys method => exact ⟨hcall.symm, hlast method rfl⟩
  | helper depth method => exact ⟨hcall.symm, hlast method rfl⟩
  | staticMethod owner method => exact ⟨hcall.symm, hlast method rfl⟩

/-- **A bare call** is one of a construct or of a known function. -/
theorem bare_call (h : Account s c called target root) (hcalled : called = true)
    (hdepth : c.depth = 0) {name : Text} (hname : c.names = [name]) :
    (target = .construct name ∧ Symbols.isConstruct name = true) ∨
      (target = .function name ∧ s.registry.symbols.hasFunction name = true) := by
  have hregistered := h.registered
  rcases h.bare hcalled hdepth name hname with rfl | rfl
  · exact .inl ⟨rfl, hregistered⟩
  · exact .inr ⟨rfl, hregistered⟩

/-- A frame that is addressed is open. -/
theorem frame_open (h : Account s c called target root) {depth : Nat}
    (hframe : target.frame? = some depth) : depth = c.depth ∧ 0 < depth ∧ depth ≤ s.loops := by
  have hregistered := h.registered
  have hroot : ∀ {place : Root}, place.frame? = some depth → place.Registered s →
      0 < depth ∧ depth ≤ s.loops := by
    intro place hplace hknown
    cases place with
    | frame d var =>
      cases hplace
      exact hknown
    | _ => cases hplace
  refine ⟨h.frame depth hframe, ?_⟩
  cases target with
  | value place keys => exact hroot hframe hregistered
  | wrapped place keys method => exact hroot hframe hregistered.1
  | objectMethod place keys method => exact hroot hframe hregistered
  | helper d method =>
    cases hframe
    exact hregistered.1
  | _ => cases hframe

end Account

/-- **A chain that is resolved names registered symbols only.**  Its names are those of the root,
then the keys, then the method that is called; the keys stand as indices in the code, once and in
order, and no other index does; a frame is the one that the dots count, and it is open; and the
opener of the wrapper is wanted exactly if the code holds the one closing bracket that nothing in it
opens.  Something is called exactly if the chain is: a construct or a function by all names, or the
method of the last name; and one name that is called is a construct or a known function. -/
theorem Chain.feed_registered {s : Scope} {depth : Nat} {names : List Text} {called : Bool}
    {target : Reference} (hnames : ∀ name ∈ names, IsWord name)
    (h : Chain.feed s depth names called = .ok (some target)) :
    target.Registered s ∧
    (∀ d, target.frame? = some d → d = depth ∧ 0 < d ∧ d ≤ s.loops) ∧
    (∃ root, names = root ++ target.keys ++ target.method?.toList ∧ target.SpelledBy root ∧
      (0 < depth → root = [] → ∀ first ∈ names.head?, first ∉ loopMembers)) ∧
    (∃ front back, target.tailCode s.registry = front ++ indexCode target.keys ++ back ∧
      ('[' ∈ front ++ back →
        ∃ d method, target = .helper d method ∧ '[' ∈ s.registry.helper.owner)) ∧
    (target.isWrapped = true ↔ ∃ front back, target.tailCode s.registry = front ++ ')' :: back ∧
      ∀ c ∈ front ++ back, c ≠ '(' ∧ c ≠ ')') ∧
    target.code s.registry =
      (if target.isWrapped then s.registry.wrapper.opening else []) ++
        target.tailCode s.registry ∧
    target.CalledBy names called ∧
    (called = true → depth = 0 → ∀ name, names = [name] →
      (target = .construct name ∧ Symbols.isConstruct name = true) ∨
        (target = .function name ∧ s.registry.symbols.hasFunction name = true)) := by
  obtain ⟨root, haccount⟩ := (Chain.feed_eq_ok_iff.1 h).account
  refine ⟨haccount.registered, fun d hd => haccount.frame_open hd,
    ⟨root, haccount.names, haccount.spelled, haccount.member⟩,
    ⟨_, _, target.tailCode_eq s.registry, haccount.square_not_mem hnames⟩,
    haccount.isWrapped_iff hnames, target.code_eq s.registry, haccount.calledBy,
    fun hcalled hdepth _ hname => haccount.bare_call hcalled hdepth hname⟩

/-- A method on a key of the inner loop, for which the opener of the wrapper is wanted, and a
function that is called by its bare name. -/
theorem Chain.feed_registered_loop :
    (Reference.wrapped (.frame 2 .value) ["price"] "esc").Registered ⟨.standard, 2⟩ ∧
      (∃ root : List Text, (["v", "price", "esc"] : List Text) =
        root ++ (["price", "esc"] : List Text)) ∧
      (["v", "price", "esc"] : List Text).getLast? = some ("esc" : Text) ∧
      Registry.standard.symbols.hasFunction "strlen" = true := by
  have hnames : ∀ name ∈ (["v", "price", "esc"] : List Text), IsWord name := by decide
  have hfeed : Chain.feed ⟨.standard, 2⟩ 2 ["v", "price", "esc"] true =
      .ok (some (.wrapped (.frame 2 .value) ["price"] "esc")) := by rfl
  have hname : ∀ name ∈ (["strlen"] : List Text), IsWord name := by decide
  have hbare : Chain.feed ⟨.standard, 2⟩ 0 ["strlen"] true = .ok (some (.function "strlen")) := by
    rfl
  obtain ⟨hregistered, -, ⟨root, hroot, -⟩, -, -, -, ⟨-, hlast⟩, -⟩ :=
    Chain.feed_registered hnames hfeed
  obtain ⟨-, -, -, -, -, -, -, hcall⟩ := Chain.feed_registered hname hbare
  refine ⟨hregistered, ⟨root, hroot.trans (List.append_assoc _ _ _)⟩, hlast, ?_⟩
  rcases hcall rfl rfl _ rfl with ⟨hconstruct, -⟩ | ⟨-, hfunction⟩
  · cases hconstruct
  · exact hfunction

end Stencil
