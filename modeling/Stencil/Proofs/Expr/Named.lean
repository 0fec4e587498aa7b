import Stencil.Proofs.Expr.Stuck
import Stencil.Proofs.Token.Stream

/-!
# Proofs/Expr/Named — the texts that a fault names

    what was read │ text ahead          message: words ++ a named text ++ words
    └── a named text stands here        └ no line feed ┘

A message is made of fixed words and of the texts that the fault names: characters, names, signs and
quoted texts that were read, the preview of what is ahead, and the owner of an adapter
(`Fault.feed_mem_message_iff`).  Of all tokens only a quoted text can hold a line feed, and it ends
with its quote, so the line feed has a character behind it that is no blank (`Text.Broken`).  Names
hold none, so the fault of a chain names none, but for an owner (`Chain.plain_of_resolve`).
-/

namespace Stencil

/-! ## The message of a fault -/

namespace Fault

/-- The texts of the template that a fault names. -/
def named : Fault → List Text
  | hostTag opener => [opener]
  | unclosedTag found | missingExpression found | strayDelimiter found | halfTernary found =>
    [[found]]
  | noToken preview => [preview]
  | unexpected found => [found]
  | wrongCloser found opener => [[found], [opener]]
  | chainedUnary first second => [first, second]
  | danglingEnd last => [last]
  | reservedWord word => [word]
  | selfUse chain | superglobalUse chain | loopMember chain | constantChain chain
  | loopDepth chain _ | noConstant chain => [chain]
  | uncalledMethod name | noFunction name => [name]
  | secondElse symbol | unclosedBlock symbol => [symbol]
  | noClass path => [path]
  | noStaticMethod path method => [path, method]
  | noWrapperMethod method _ near => [method, near]
  | noHelperMethod method _ => [method]
  | strayToken text => [text]
  | endInsideTag | nestedTernary | increment | tooDeep _ | noSpan => []

/-- The owner of the adapter that a fault names. -/
def owner? : Fault → Option Text
  | noWrapperMethod _ owner _ | noHelperMethod _ owner => some owner
  | _ => none

/-- The owner is that of the adapter in a registry. -/
def OwnedBy (r : Registry) : Fault → Prop
  | noWrapperMethod _ owner _ => owner = r.wrapper.owner
  | noHelperMethod _ owner => owner = r.helper.owner
  | _ => True

end Fault

/-- Decimal digits are no line feeds. -/
theorem Text.feed_not_mem_decimal (n : Nat) : '\n' ∉ Text.decimal n := by
  intro hmem
  have := Nat.isDigit_of_mem_toDigits (b := 10) (by decide) (by decide) hmem
  cases this

/-- **A message holds a line feed exactly if a text does that it names.** -/
theorem Fault.feed_mem_message_iff (f : Fault) :
    '\n' ∈ f.message ↔ (∃ t ∈ f.named, '\n' ∈ t) ∨ ∃ t ∈ f.owner?, '\n' ∈ t := by
  have hdecimal := Text.feed_not_mem_decimal
  unfold message named owner?
  cases f with
  | noWrapperMethod method owner near => simp [or_comm (a := '\n' ∈ owner), or_assoc]
  | wrongCloser found opener => simp
  | _ => simp [hdecimal]

/-! ## A line feed with something behind it -/

/-- A line feed with a character behind it that is no blank. -/
def Text.Broken (t : Text) : Prop := ∃ a b, t = a ++ '\n' :: b ∧ ∃ c ∈ b, Text.isBlank c = false

/-- What lies in front of the ending `t` of `w` is broken. -/
def BrokenBefore (w t : Text) : Prop := ∃ passed, w = passed ++ t ∧ passed.Broken

theorem Text.Broken.append_left {t : Text} (h : t.Broken) (front : Text) :
    Text.Broken (front ++ t) := by
  obtain ⟨a, b, rfl, hb⟩ := h
  exact ⟨front ++ a, b, (List.append_assoc ..).symm, hb⟩

theorem Text.Broken.append_right {t : Text} (h : t.Broken) (back : Text) :
    Text.Broken (t ++ back) := by
  obtain ⟨a, b, rfl, c, hc, hblank⟩ := h
  refine ⟨a, b ++ back, ?_, c, List.mem_append_left _ hc, hblank⟩
  rw [List.append_assoc, List.cons_append]

namespace BrokenBefore

variable {w w' t t' : Text}

theorem mono (h : BrokenBefore w t) (hw : w <:+ w') : BrokenBefore w' t := by
  obtain ⟨passed, rfl, hpassed⟩ := h
  obtain ⟨front, rfl⟩ := hw
  exact ⟨front ++ passed, (List.append_assoc ..).symm, hpassed.append_left front⟩

/-- Reading on leaves more behind. -/
theorem later (h : BrokenBefore w t) (ht : t' <:+ t) : BrokenBefore w t' := by
  obtain ⟨passed, rfl, hpassed⟩ := h
  obtain ⟨back, rfl⟩ := ht
  exact ⟨passed ++ back, (List.append_assoc ..).symm, hpassed.append_right back⟩

end BrokenBefore

/-! ## Tokens -/

namespace Token

/-- **Only a quoted text holds a line feed**, and it ends with its quote. -/
theorem broken_of_next {c : Char} {t rest : Text} {token : Token} (hc : Text.isBlank c = false)
    (h : next (c :: t) = .ok (token, rest)) (hfeed : '\n' ∈ token.text) :
    token.kind = .quoted ∧ token.text.Broken := by
  have hfixed : ∀ p ∈ fixed, '\n' ∉ p.1.toList := by decide
  rcases next_cases h with
    ⟨hblank, -⟩ | ⟨-, hk⟩ | ⟨hstart, rfl⟩ | ⟨-, rfl⟩ | ⟨hquote, b, hb, rfl⟩ | ⟨p, hp, rfl⟩
  · rw [hc] at hblank
    cases hblank
  · rw [(eq_dots_of_next h hk).2] at hfeed
    cases List.eq_of_mem_replicate hfeed
  · rcases List.mem_cons.1 hfeed with rfl | hfeed
    · exact absurd hstart (by decide)
    · exact absurd hfeed (not_mem_takeWhile (by decide) t)
  · exact absurd hfeed (not_mem_number (by decide) (by decide) _)
  · refine ⟨rfl, ?_⟩
    obtain ⟨front, rfl⟩ := eq_concat_of_closeQuote hb
    have hquote' : c ≠ '\n' ∧ Text.isBlank c = false := by
      rcases hquote with rfl | rfl <;> decide
    have hfront : '\n' ∈ front := by
      simpa [hquote'.1.symm] using hfeed
    obtain ⟨a, b, rfl⟩ := List.append_of_mem hfront
    exact ⟨c :: a, b ++ [c], by simp, c, by simp, hquote'.2⟩
  · exact absurd hfeed (hfixed p hp)

/-- A token that names a line feed leaves it behind. -/
theorem brokenBefore_of_next {c : Char} {t rest : Text} {token : Token}
    (hc : Text.isBlank c = false) (h : next (c :: t) = .ok (token, rest))
    (hfeed : '\n' ∈ token.text) : BrokenBefore (c :: t) rest :=
  ⟨token.text, (append_of_next h).symm, (broken_of_next hc h hfeed).2⟩

end Token

theorem needToken_next {ctx : Context} {before : Option Text} {t rest : Text} {token : Token}
    (h : needToken ctx before t = .ok (token, rest)) :
    ∃ c r, Text.trimStart t = c :: r ∧ Text.isBlank c = false ∧
      Token.next (c :: r) = .ok (token, rest) := by
  unfold needToken at h
  split at h
  · cases h
  next c r hc =>
  refine ⟨c, r, hc, Text.isBlank_head_trimStart hc, ?_⟩
  split at h
  · split at h
    · split at h <;> cases h
    · cases h
  split at h
  · cases h
  next hnext =>
  split at h
  · cases h
  · cases h
    exact hnext

section NeedToken

variable {ctx : Context} {before : Option Text} {t rest : Text} {token : Token}

theorem brokenBefore_of_needToken (h : needToken ctx before t = .ok (token, rest))
    (hfeed : '\n' ∈ token.text) : BrokenBefore t rest := by
  obtain ⟨c, r, htrim, hc, hnext⟩ := needToken_next h
  exact (Token.brokenBefore_of_next hc hnext hfeed).mono (htrim ▸ Text.trimStart_suffix t)

theorem feed_not_mem_of_needToken (h : needToken ctx before t = .ok (token, rest))
    (hk : token.kind ≠ .quoted) : '\n' ∉ token.text := by
  obtain ⟨c, r, -, hc, hnext⟩ := needToken_next h
  exact fun hfeed => hk (Token.broken_of_next hc hnext hfeed).1

theorem feed_not_mem_of_needName {name : Text} (h : needName ctx t = .ok (name, rest)) :
    '\n' ∉ name := by
  obtain ⟨⟨token, r⟩, htoken, hr⟩ := bind_eq_ok_iff.1 h
  dsimp only at hr
  split at hr
  · next hk =>
    cases hr
    exact feed_not_mem_of_needToken htoken (by rw [hk]; nofun)
  · cases hr

end NeedToken

/-! ## Faults without a line feed -/

/-- **A fault that names no line feed**, but for the owner of an adapter in the registry. -/
structure Fault.Plain (r : Registry) (f : Fault) : Prop where
  preview : (f.code == .noToken) = false
  owner : f.OwnedBy r
  named : ∀ t ∈ f.named, '\n' ∉ t

namespace Fault.Plain

variable {r : Registry} {f : Fault}

/-- A fault of its own words. -/
theorem of_nil (hnamed : f.named = []) (hcode : (f.code == .noToken) = false)
    (howner : f.OwnedBy r) : f.Plain r := ⟨hcode, howner, by rw [hnamed]; exact nofun⟩

/-- A fault that names one text. -/
theorem of_one {t : Text} (ht : '\n' ∉ t) (hnamed : f.named = [t])
    (hcode : (f.code == .noToken) = false) (howner : f.OwnedBy r) : f.Plain r :=
  ⟨hcode, howner, by rw [hnamed]; simpa using ht⟩

end Fault.Plain

theorem Context.misplaced_plain {r : Registry} (ctx : Context) {c : Char} (hc : c ≠ '\n') :
    (ctx.misplaced c).Plain r := by
  have hone : '\n' ∉ [c] := by simpa using hc.symm
  unfold Context.misplaced
  split
  · exact .of_one hone rfl rfl trivial
  · next bracket _ _ =>
    split
    · refine ⟨rfl, trivial, ?_⟩
      cases bracket <;> simpa [Fault.named, Bracket.opener] using hc.symm
    · exact .of_one hone rfl rfl trivial
  · exact .of_one hone rfl rfl trivial

/-! ## Chains -/

theorem feed_not_mem_intercalate {sep : Text} (hsep : '\n' ∉ sep) {names : List Text}
    (h : ∀ n ∈ names, '\n' ∉ n) : '\n' ∉ List.intercalate sep names := by
  induction names with
  | nil => exact nofun
  | cons n names ih =>
    have hn : '\n' ∉ n := h n List.mem_cons_self
    cases names with
    | nil => simpa [List.intercalate] using hn
    | cons m names =>
      rw [List.intercalate_cons_cons, List.mem_append, List.mem_append]
      rintro ((hmem | hmem) | hmem)
      · exact hn hmem
      · exact hsep hmem
      · exact ih (fun n hn => h n (List.mem_cons_of_mem _ hn)) hmem

namespace Chain

variable {s : Scope} {c : Chain} {called : Bool} {fault : Fault}

/-- The names of a chain are of one line each. -/
def OneLine (c : Chain) : Prop := ∀ n ∈ c.names, '\n' ∉ n

theorem OneLine.raw (h : c.OneLine) : '\n' ∉ c.raw := by
  unfold Chain.raw
  rw [List.mem_append]
  rintro (hmem | hmem)
  · cases List.eq_of_mem_replicate hmem
  · exact feed_not_mem_intercalate (by decide) h hmem

theorem OneLine.push (h : c.OneLine) {name : Text} (hname : '\n' ∉ name) :
    (c.push name).OneLine := by
  intro n hn
  rcases List.mem_append.1 hn with hn | hn
  · exact h n hn
  · rw [List.mem_singleton.1 hn]
    exact hname

theorem feed_not_mem_joinPath {names : List Text} (h : ∀ n ∈ names, '\n' ∉ n) :
    '\n' ∉ joinPath names := feed_not_mem_intercalate (by decide) h

theorem plain_of_wrapperCall (h : c.OneLine) {root : Root} {keys : List Text} {method : Text}
    (hmethod : '\n' ∉ method) (hcall : c.wrapperCall s root keys method = .error fault) :
    fault.Plain s.registry := by
  unfold wrapperCall at hcall
  split at hcall
  · cases hcall
  · cases hcall
    exact ⟨rfl, rfl, by simpa [Fault.named] using ⟨hmethod, h.raw⟩⟩

theorem plain_of_resolveLoop (h : c.OneLine) (hresolve : c.resolveLoop s called = .error fault) :
    fault.Plain s.registry := by
  have hraw : ∀ f : Fault, f.named = [c.raw] → (f.code == .noToken) = false →
      f.OwnedBy s.registry → f.Plain s.registry := fun f => .of_one h.raw
  unfold resolveLoop at hresolve
  split at hresolve
  · cases hresolve
    exact hraw _ rfl rfl trivial
  split at hresolve
  · cases hresolve
    exact hraw _ rfl rfl trivial
  next first rest hnames =>
  have hrest : ∀ n ∈ rest, '\n' ∉ n := fun n hn =>
    h n (by rw [hnames]; exact List.mem_cons_of_mem _ hn)
  split at hresolve
  · split at hresolve
    · cases hresolve
    · exact plain_of_wrapperCall h (hrest _ List.mem_cons_self) hresolve
    · cases hresolve
      exact hraw _ rfl rfl trivial
  split at hresolve
  · split at hresolve
    · split at hresolve
      · cases hresolve
      · cases hresolve
        exact ⟨rfl, rfl, by simpa [Fault.named] using hrest⟩
    · cases hresolve
      exact hraw _ rfl rfl trivial
  extract_lets keys at hresolve
  split at hresolve
  · split at hresolve
    · cases hresolve
      exact hraw _ rfl rfl trivial
    · split at hresolve
      · cases hresolve
      · cases hresolve
  · cases hresolve

theorem plain_of_resolveSelf {r : Registry} (h : c.OneLine)
    (hresolve : c.resolveSelf called = .error fault) : fault.Plain r := by
  unfold resolveSelf at hresolve
  split at hresolve
  · cases hresolve
  · cases hresolve
  · cases hresolve
    exact .of_one h.raw rfl rfl trivial

theorem plain_of_resolveGlobal (h : c.OneLine) {name : Text} {rest : List Text}
    (hrest : ∀ n ∈ rest, '\n' ∉ n) (hresolve : c.resolveGlobal s name rest called = .error fault) :
    fault.Plain s.registry := by
  unfold resolveGlobal at hresolve
  extract_lets keys fits at hresolve
  split at hresolve
  · cases hresolve
    exact .of_one h.raw rfl rfl trivial
  split at hresolve
  · split at hresolve
    · next hlast => exact plain_of_wrapperCall h (hrest _ (List.mem_of_getLast? hlast)) hresolve
    · cases hresolve
      exact .of_one h.raw rfl rfl trivial
  · cases hresolve

theorem plain_of_findConstant {r : Registry} (h : c.OneLine) {symbols : Symbols}
    {names : List Text} (hfind : c.findConstant symbols names = .error fault) : fault.Plain r := by
  unfold findConstant at hfind
  extract_lets owner at hfind
  split at hfind
  · cases hfind
  split at hfind
  · cases hfind
    exact .of_one h.raw rfl rfl trivial
  split at hfind
  · split at hfind
    · cases hfind
    · cases hfind
      exact .of_one h.raw rfl rfl trivial
  split at hfind
  · cases hfind
  split at hfind
  · cases hfind
  · cases hfind
    exact .of_one h.raw rfl rfl trivial

theorem plain_of_resolveMethod (h : c.OneLine) {owner : List Text} {method : Text}
    (howner : ∀ n ∈ owner, '\n' ∉ n) (hmethod : '\n' ∉ method)
    (hresolve : c.resolveMethod s owner method = .error fault) : fault.Plain s.registry := by
  have hpath := feed_not_mem_joinPath howner
  unfold resolveMethod at hresolve
  split at hresolve
  · next hconstant =>
    cases hresolve
    exact plain_of_findConstant h hconstant
  · exact plain_of_wrapperCall h hmethod hresolve
  dsimp only at hresolve
  split at hresolve
  · split at hresolve
    · cases hresolve
    · cases hresolve
      exact ⟨rfl, trivial, by simpa [Fault.named] using ⟨hpath, hmethod⟩⟩
  split at hresolve
  · cases hresolve
  split at hresolve
  · cases hresolve
    exact .of_one hpath rfl rfl trivial
  · exact plain_of_wrapperCall h hmethod hresolve

theorem plain_of_resolveStatic (h : c.OneLine)
    (hresolve : c.resolveStatic s called = .error fault) : fault.Plain s.registry := by
  unfold resolveStatic at hresolve
  split at hresolve
  · split at hresolve
    · next name hnames =>
      unfold resolveFunction at hresolve
      split at hresolve
      · cases hresolve
      split at hresolve
      · cases hresolve
      · cases hresolve
        exact .of_one (h name (by rw [hnames]; exact List.mem_cons_self)) rfl rfl trivial
    · split at hresolve
      · next hlast =>
        exact plain_of_resolveMethod h (fun n hn => h n (List.dropLast_subset _ hn))
          (h _ (List.mem_of_getLast? hlast)) hresolve
      · cases hresolve
        exact .of_one h.raw rfl rfl trivial
  · split at hresolve
    · next hconstant =>
      cases hresolve
      exact plain_of_findConstant h hconstant
    · cases hresolve
    · cases hresolve

/-- **A chain of names that stands for nothing** names no line feed, but for an owner. -/
theorem plain_of_resolve (h : c.OneLine) (hresolve : c.resolve s called = .error fault) :
    fault.Plain s.registry := by
  unfold resolve at hresolve
  split at hresolve
  · exact plain_of_resolveLoop h hresolve
  split at hresolve
  · cases hresolve
    exact .of_one h.raw rfl rfl trivial
  next first rest hnames =>
  split at hresolve
  · exact plain_of_resolveSelf h hresolve
  split at hresolve
  · exact plain_of_resolveGlobal h
      (fun n hn => h n (by rw [hnames]; exact List.mem_cons_of_mem _ hn)) hresolve
  · exact plain_of_resolveStatic h hresolve

end Chain

end Stencil
