import Stencil.Proofs.Expr.Complete

/-!
# Proofs/Expr/Feed — a chain, one name after the other

    dots · name ──▸ chain ──dot · name──▸ chain ── … ──▸ reference

A chain can be fed name by name, without a text: each name is added with a look at what stands
behind it, and the last one resolves the chain.  Feeding gives what the chain denotes
(`feed_eq_ok_iff`), and so what the reader finds (`feed_of_readChain`).  What is resolved is code
that may still want the opener of the wrapper in front of it (`Reference.code_eq`).
-/

namespace Stencil

/-- What stands behind a name. -/
inductive Lookahead
  /-- A dot: the chain goes on. -/
  | dot
  /-- An opening bracket: the name is called. -/
  | call
  | other
  deriving DecidableEq, Repr

/-- What the next character says about a name before it. -/
def Lookahead.of (ahead : Option Char) : Lookahead :=
  if ahead = some '.' then dot else if ahead = some '(' then call else other

theorem Lookahead.of_eq_dot_iff {ahead : Option Char} : of ahead = dot ↔ ahead = some '.' := by
  unfold of
  split
  · simp_all
  · split <;> simp_all

theorem Lookahead.of_eq_call_iff {ahead : Option Char} : of ahead = call ↔ ahead = some '(' := by
  unfold of
  split
  · simp_all
  · split <;> simp_all

namespace Chain

/-- No chain yet. -/
def fresh : Chain := ⟨0, []⟩

/-- A run of dots behind a chain: only a leading run may be longer than one. -/
def addDots (c : Chain) (run : Text) : Except Fault Chain :=
  if c.isEmpty then .ok { c with depth := run.length }
  else if 1 < run.length then .error (.unexpected (c.raw ++ run))
  else .ok c

/-- **A name behind a chain**: the chain that goes on, or what the whole chain stands for. -/
def addName (s : Scope) (c : Chain) (name : Text) (next : Lookahead) :
    Except Fault (Chain × Option Reference) :=
  if reservedWords.contains name ∧ (!c.isEmpty ∨ next = .call) then .error (.reservedWord name)
  else if reservedWords.contains name ∧ name ≠ "this" then
    if next = .dot then .error (.reservedWord name) else .ok (c, some (.word name))
  else if next = .dot then .ok (c.push name, none)
  else ((c.push name).resolve s (next = .call)).map fun target => (fresh, some target)

/-- The names of a chain, fed one after the other behind `c`. -/
def feedNames (s : Scope) (called : Bool) (c : Chain) : List Text → Except Fault (Option Reference)
  | [] => .ok none
  | [name] => (c.addName s name (if called then .call else .other)).map Prod.snd
  | name :: next :: names =>
    match c.addName s name .dot with
    | .error fault => .error fault
    | .ok (_, some target) => .ok (some target)
    | .ok (c, none) =>
      match c.addDots ['.'] with
      | .error fault => .error fault
      | .ok c => feedNames s called c (next :: names)

/-- The chain of a leading run of dots, which may be missing. -/
def leading (depth : Nat) : Except Fault Chain :=
  if depth = 0 then .ok fresh else fresh.addDots (List.replicate depth '.')

/-- **A chain fed as a whole**: its leading dots, and its names. -/
def feed (s : Scope) (depth : Nat) (names : List Text) (called : Bool) :
    Except Fault (Option Reference) :=
  leading depth >>= fun c => c.feedNames s called names

/-! ## Feeding resolves -/

variable {s : Scope} {c : Chain} {name : Text} {called : Bool} {target : Reference}

theorem addName_eq (next : Lookahead) :
    c.addName s name next =
      if name ∈ reservedWords ∧ (!c.isEmpty ∨ next = .call) then .error (.reservedWord name)
      else if name ∈ reservedWords ∧ name ≠ "this" then
        if next = .dot then .error (.reservedWord name) else .ok (c, some (.word name))
      else if next = .dot then .ok (c.push name, none)
      else ((c.push name).resolve s (next = .call)).map fun target => (fresh, some target) := by
  simp only [addName, List.contains_iff_mem]

/-- A dot keeps a chain that has a name. -/
theorem addDots_push (c : Chain) (name : Text) : (c.push name).addDots ['.'] = .ok (c.push name) := by
  have hne : (c.push name).isEmpty = false := by simp [isEmpty, push]
  rw [addDots, hne]
  rfl

/-- A name with a dot behind it is kept, unless it is reserved. -/
theorem addName_dot :
    c.addName s name .dot =
      if name ∈ reservedWords ∧ (c.isEmpty = false ∨ name ≠ "this") then .error (.reservedWord name)
      else .ok (c.push name, none) := by
  rw [addName_eq]
  by_cases hr : name ∈ reservedWords
  · by_cases ht : name = "this"
    · cases c.isEmpty <;> simp [ht]
    · cases c.isEmpty <;> simp [hr]
  · simp [hr]

/-- A name with no dot behind it stands for itself, or resolves the chain. -/
theorem addName_last {next : Lookahead} (hnext : next ≠ .dot) :
    (c.addName s name next).map Prod.snd =
      if name ∈ reservedWords ∧ (!c.isEmpty ∨ next = .call) then .error (.reservedWord name)
      else if name ∈ reservedWords ∧ name ≠ "this" then .ok (some (.word name))
      else ((c.push name).resolve s (next = .call)).map some := by
  rw [addName_eq, if_neg hnext, if_neg hnext]
  split
  · rfl
  split
  · rfl
  · cases (c.push name).resolve s (next = .call) <;> rfl

/-- **The last name gives what the chain denotes.** -/
theorem addName_last_eq_ok_iff {next : Lookahead} (hc : c.AvoidsReserved) (hnext : next ≠ .dot) :
    (c.addName s name next).map Prod.snd = .ok (some target) ↔
      Denotes s (c.push name) (next = .call) target := by
  rw [addName_last hnext]
  constructor
  · intro h
    split at h
    · cases h
    next hfirst =>
    split at h
    · next hword =>
      cases h
      have hfree : c.isEmpty = true ∧ next ≠ .call := by simpa [hword.1] using hfirst
      refine .inl ⟨name, hword.1, hword.2, ?_, decide_eq_false hfree.2, rfl⟩
      rw [isEmpty_iff.1 hfree.1]
      rfl
    · next hword =>
      cases hresolve : (c.push name).resolve s (next = .call) with
      | error fault => rw [hresolve] at h; cases h
      | ok found =>
        rw [hresolve] at h
        cases h
        refine .inr ⟨by simp [push], hc.push fun hr => ?_, hresolve⟩
        have hfree : c.isEmpty = true ∧ next ≠ .call := by simpa [hr] using hfirst
        exact ⟨hfree.1, by simpa [hr] using hword⟩
  · rintro (⟨word, hw, hne, heq, hcall, rfl⟩ | ⟨-, havoid, hresolve⟩)
    · obtain ⟨depth, names⟩ := c
      obtain ⟨rfl, hnames⟩ := Chain.mk.inj heq
      obtain rfl : names = [] := by simpa using congrArg List.length hnames
      obtain rfl : name = word := (List.cons.inj hnames).1
      rw [if_neg (by simpa [isEmpty] using fun _ => of_decide_eq_false hcall), if_pos ⟨hw, hne⟩]
    · have hthis : name ∈ reservedWords → c = fresh ∧ name = "this" := fun hr => by
        have havoid : AvoidsReserved ⟨c.depth, c.names ++ name :: []⟩ := havoid
        obtain ⟨hdepth, hnames, hname⟩ := havoid.eq_this hr
        exact ⟨by rw [fresh, ← hdepth, ← hnames], hname⟩
      have hfirst : ¬(name ∈ reservedWords ∧ ((!c.isEmpty) = true ∨ next = .call)) := by
        rintro ⟨hr, hbad⟩
        obtain ⟨rfl, rfl⟩ := hthis hr
        obtain ⟨fault, hfault⟩ := resolve_this_called s
        rcases hbad with hbad | rfl
        · cases hbad
        · cases hfault.symm.trans hresolve
      have hword : ¬(name ∈ reservedWords ∧ name ≠ "this") := fun h => h.2 (hthis h.1).2
      rw [if_neg hfirst, if_neg hword, hresolve]
      rfl

/-- Names behind a chain that avoids reserved words. -/
theorem feedNames_eq_ok_iff {names : List Text} (hc : c.AvoidsReserved) (hnames : names ≠ []) :
    c.feedNames s called names = .ok (some target) ↔
      Denotes s ⟨c.depth, c.names ++ names⟩ called target := by
  induction names generalizing c with
  | nil => exact absurd rfl hnames
  | cons name names ih =>
    cases names with
    | nil =>
      have hdot : (if called then Lookahead.call else .other) ≠ .dot := by cases called <;> decide
      have hcall : decide ((if called then Lookahead.call else .other) = .call) = called := by
        cases called <;> rfl
      rw [feedNames, addName_last_eq_ok_iff hc hdot, hcall]
      rfl
    | cons next names =>
      rw [feedNames, addName_dot]
      by_cases hbad : name ∈ reservedWords ∧ (c.isEmpty = false ∨ name ≠ "this")
      · rw [if_pos hbad]
        -- The reserved word would stand inside the chain.
        refine iff_of_false nofun ?_
        rintro (⟨word, -, -, heq, -⟩ | ⟨-, havoid, -⟩)
        · have hlength := congrArg (fun c : Chain => c.names.length) heq
          simp only [List.length_append, List.length_cons, List.length_nil] at hlength
          omega
        · obtain ⟨hdepth, hempty, hname⟩ := havoid.eq_this hbad.1
          rcases hbad.2 with hfull | hne
          · rw [isEmpty, hdepth, hempty] at hfull
            cases hfull
          · exact hne hname
      · rw [if_neg hbad]
        have hpush : (c.push name).AvoidsReserved := hc.push fun hr => by
          simpa [hr] using hbad
        have hnext := ih hpush (List.cons_ne_nil next names)
        rw [push, List.append_assoc, List.singleton_append] at hnext
        simp only [addDots_push]
        exact hnext

/-- **Feeding a chain gives what it denotes.** -/
theorem feed_eq_ok_iff {depth : Nat} {names : List Text} :
    feed s depth names called = .ok (some target) ↔ Denotes s ⟨depth, names⟩ called target := by
  have hstart : leading depth = .ok ⟨depth, []⟩ := by
    unfold leading
    split
    · next h => rw [h]; rfl
    · change Except.ok (⟨(List.replicate depth '.').length, []⟩ : Chain) = _
      rw [List.length_replicate]
  rw [feed, hstart]
  change feedNames s called ⟨depth, []⟩ names = _ ↔ _
  by_cases hnames : names = []
  · subst hnames
    refine iff_of_false nofun ?_
    rintro (⟨word, -, -, heq, -⟩ | ⟨hne, -⟩)
    · cases heq
    · exact hne rfl
  · exact feedNames_eq_ok_iff trivial hnames

end Chain

/-- **A chain that was read can be fed**, to the same end. -/
theorem feed_of_readChain {s : Scope} {ctx : Context} {depth : Nat} {name t rest : Text}
    {full : Chain} {target : Reference} {called : Bool}
    (h : readChain s ctx ⟨depth, []⟩ name t = .ok ((full, target, called), rest)) :
    full.depth = depth ∧ Chain.feed s depth full.names called = .ok (some target) := by
  obtain ⟨later, rfl, hdenotes, -⟩ := readChain_sound (by trivial) h
  exact ⟨rfl, Chain.feed_eq_ok_iff.2 hdenotes⟩

/-! ## What is resolved -/

namespace Reference

/-- Whether the opener of the wrapper is still to be put in front. -/
def isWrapped : Reference → Bool
  | wrapped .. => true
  | _ => false

/-- The code of a reference, but for the opener of the wrapper. -/
def tailCode (r : Registry) : Reference → Text
  | wrapped root keys method => root.code ++ indexCode keys ++ ")->" ++ method
  | other => other.code r

@[simp] theorem tailCode_wrapped (r : Registry) (root : Root) (keys : List Text) (method : Text) :
    (wrapped root keys method).tailCode r = root.code ++ indexCode keys ++ ")->" ++ method := rfl

/-- The opener goes in front of what is resolved. -/
theorem code_wrapped (r : Registry) (root : Root) (keys : List Text) (method : Text) :
    (wrapped root keys method).code r =
      r.wrapper.opening ++ (wrapped root keys method).tailCode r := by
  change r.wrapper.opening ++ root.code ++ indexCode keys ++ ")->" ++ method = _
  rw [tailCode_wrapped, List.append_assoc, List.append_assoc, List.append_assoc,
    ← List.append_assoc root.code, ← List.append_assoc (root.code ++ _)]

/-- **The code of a reference** is its own code, behind the opener if it wants one. -/
theorem code_eq (r : Registry) (target : Reference) :
    target.code r = (if target.isWrapped then r.wrapper.opening else []) ++ target.tailCode r := by
  cases target with
  | wrapped root keys method => exact code_wrapped r root keys method
  | _ => rfl

end Reference

end Stencil
