import Stencil.Proofs.Expr.Emitter
import Stencil.Proofs.Expr.Spacing

/-!
# Proofs/Expr/Unbroken — an emitter that never breaks

    draft ──round──▸ draft        pending group, and ahead of it a character that it takes

Three faults of the emitter are faults of its own: a token that nothing writes (`strayToken`), a
wrapper method with no value before it (`noSpan`), and a delimiter that the open group does not take
(`strayDelimiter`).  No text leads to them.  The first is kept off by the stop characters and by
what may follow what (`Previous.clash?`); the second because a name starts a span itself; the third
because an expression only ends at a character that its group takes (`Context.turn_of_ends`).  A
round keeps what the next one relies on (`Draft.Ready`), a run goes round after round, and a level
relies on the level below it (`nestedEmitter_reliable`).
-/

namespace Stencil

/-! ## Faults that arise -/

/-- **A fault that a text can have**: the emitter is whole, and groups take the delimiters they are
given. -/
def Fault.Arises (f : Fault) : Prop := f.code ≠ .broken ∧ f.code ≠ .strayDelimiter

theorem Fault.Arises.of_code {f : Fault}
    (h : decide (f.code ≠ .broken ∧ f.code ≠ .strayDelimiter) = true) : f.Arises := by
  rw [Fault.Arises]
  exact of_decide_eq_true h

/-- The codes of the faults that a token can be, or a character where an expression may end. -/
def Fault.tokenCodes : List Code :=
  [.endInsideTag, .noToken, .unexpected, .missingExpression, .increment, .wrongCloser, .halfTernary,
   .chainedUnary, .danglingEnd, .reservedWord, .uncalledMethod] ++ chainCodes

/-- A fault of a token, or of a character where an expression may end. -/
def Fault.IsOfToken (f : Fault) : Prop := f.code ∈ Fault.tokenCodes

namespace Fault.IsOfToken

variable {f : Fault}

theorem of_code (h : decide (f.code ∈ tokenCodes) = true) : f.IsOfToken := by
  rw [Fault.IsOfToken]
  exact of_decide_eq_true h

/-- A chain that stands for nothing is a fault of its last token. -/
theorem of_isOfChain (h : f.IsOfChain) : f.IsOfToken := List.mem_append_right _ h

/-- A fault of a token is one of the text. -/
theorem arises (h : f.IsOfToken) : f.Arises := by
  have htable : ∀ code ∈ tokenCodes, code ≠ .broken ∧ code ≠ .strayDelimiter := by decide
  exact htable _ h

/-- No token is nested too deep by itself. -/
theorem code_ne_tooDeep (h : f.IsOfToken) : f.code ≠ .tooDeep := by
  have htable : ∀ code ∈ tokenCodes, code ≠ .tooDeep := by decide
  exact htable _ h

end Fault.IsOfToken

theorem Context.misplaced_isOfToken (ctx : Context) (c : Char) : (ctx.misplaced c).IsOfToken := by
  unfold misplaced
  split
  · exact .of_code rfl
  · split <;> exact .of_code rfl
  · exact .of_code rfl

theorem misfit_isOfToken (before : Option Text) (token : Token) :
    (misfit before token).IsOfToken := by
  unfold misfit
  split <;> exact .of_code rfl

theorem isOfToken_of_next {t : Text} {stuck : Stuck} (h : Token.next t = .error stuck) :
    stuck.fault.IsOfToken := by
  unfold Token.next at h
  split at h
  · cases h
    exact .of_code rfl
  · split at h
    · cases h
    · cases h
      exact .of_code rfl

theorem Previous.isOfToken_of_clash? {p : Previous} {next : Token} {group : Token.Group}
    {fault : Fault} (h : p.clash? next group = some fault) : fault.IsOfToken := by
  unfold clash? at h
  split at h
  · cases h
    exact .of_code rfl
  split at h
  · cases h
    exact misfit_isOfToken _ _
  split at h
  · cases h
    exact misfit_isOfToken _ _
  split at h
  · cases h
    exact misfit_isOfToken _ _
  split at h
  · cases h
    exact .of_code rfl
  split at h
  · cases h
    exact misfit_isOfToken _ _
  · cases h

theorem Previous.isOfToken_of_opens {p : Previous} {bracket : Bracket} {fault : Fault}
    (h : p.opens bracket = .error fault) : fault.IsOfToken := by
  unfold opens at h
  split at h
  · split at h
    · cases h
    split at h
    · cases h
      exact .of_code rfl
    · cases h
  · split at h <;> cases h

namespace Chain

variable {s : Scope} {c : Chain} {name : Text} {fault : Fault}

theorem isOfToken_of_addDots {run : Text} (h : c.addDots run = .error fault) : fault.IsOfToken := by
  unfold addDots at h
  split at h
  · cases h
  split at h
  · cases h
    exact .of_code rfl
  · cases h

theorem isOfToken_of_addName {next : Lookahead} (h : c.addName s name next = .error fault) :
    fault.IsOfToken := by
  unfold addName at h
  split at h
  · cases h
    exact .of_code rfl
  split at h
  · split at h
    · cases h
      exact .of_code rfl
    · cases h
  split at h
  · cases h
  · cases hresolve : (c.push name).resolve s (next = .call) with
    | error _ =>
      rw [hresolve] at h
      cases h
      exact .of_isOfChain (isOfChain_of_resolve hresolve)
    | ok target =>
      rw [hresolve] at h
      cases h

end Chain

/-! ## What ends a text

The emitter leaves blanks out and stops at stop characters, so it never takes a token of blanks, nor
one that a stop character starts. -/

theorem not_isBlank_of_isStop {c : Char} (h : isStop c = true) : Text.isBlank c = false := by
  have hc : (((c = ')' ∨ c = '}') ∨ c = ']') ∨ c = ':') ∨ c = ',' := by simpa [isStop] using h
  rcases hc with (((rfl | rfl) | rfl) | rfl) | rfl <;> decide

/-- A text starts as its first token does. -/
theorem Token.head?_of_next {c : Char} {r rest : Text} {token : Token}
    (h : next (c :: r) = .ok (token, rest)) : token.text.head? = some c := by
  obtain ⟨happend, hne⟩ := read?_append (next_eq_ok_iff.1 h)
  obtain ⟨d, text, htext⟩ := List.exists_cons_of_ne_nil hne
  rw [htext] at happend ⊢
  exact congrArg some (List.cons.inj happend).1

/-- A run of dots starts with a dot. -/
theorem Token.eq_dot_of_next {c : Char} {r rest : Text} {token : Token}
    (h : next (c :: r) = .ok (token, rest)) (hk : token.kind = .dots) : c = '.' := by
  obtain ⟨-, hdots⟩ := eq_dots_of_next h hk
  have hmem : c ∈ token.text := List.mem_of_head? (head?_of_next h)
  rw [hdots] at hmem
  exact (List.mem_replicate.1 hmem).2

/-- A token of a stop character starts with one. -/
theorem Token.isStop_of_next {c : Char} {r rest : Text} {token : Token}
    (h : next (c :: r) = .ok (token, rest)) (hk : token.kind.isStop = true) : isStop c = true := by
  have htable : ∀ p ∈ fixed, p.2.isStop = true → p.1.toList.head?.all isStop = true := by decide
  have hfixed : token.kind.isFixed = true := by
    revert hk
    cases token.kind <;> simp [Kind.isStop, Kind.isFixed]
  have hhead := head?_of_next h
  obtain ⟨p, hp, rfl⟩ := mem_fixed_of_next h hfixed
  have hall := htable p hp hk
  rw [show p.1.toList.head? = some c from hhead] at hall
  exact hall

/-! ## What a group takes -/

namespace Context

/-- The contexts of the parts of a group, and that of the first branch of a ternary: what follows
such an expression is up to the group. -/
def isPart : Context → Bool
  | tag | no => false
  | _ => true

/-- A part of a group ends at the closer of the group, or at a delimiter with a part behind it. -/
theorem closes_or_goes_on {ctx : Context} {c : Char} (hpart : ctx.isPart = true)
    (hends : ctx.ends c = true) :
    (∃ bracket, ctx.bracket? = some bracket ∧ bracket.closer = c) ∨
      (c = ',' ∨ c = ':') ∧ ∃ next, ctx.after? c = some next := by
  cases ctx with
  | tag => cases hpart
  | no => cases hpart
  | argument first =>
    have hc : c = ')' ∨ c = ',' := by simpa [ends] using hends
    rcases hc with rfl | rfl
    · exact .inl ⟨_, rfl, rfl⟩
    · exact .inr ⟨.inl rfl, _, rfl⟩
  | paren =>
    obtain rfl : c = ')' := by simpa [ends] using hends
    exact .inl ⟨_, rfl, rfl⟩
  | index bracket =>
    obtain rfl : c = bracket.closer := by simpa [ends] using hends
    exact .inl ⟨_, rfl, rfl⟩
  | item bracket slot =>
    by_cases hclose : c = bracket.closer
    · exact .inl ⟨_, rfl, hclose.symm⟩
    · cases slot with
      | value =>
        obtain rfl : c = ',' := by simpa [ends, hclose] using hends
        exact .inr ⟨.inl rfl, _, rfl⟩
      | first | later =>
        have hc : c = ',' ∨ c = ':' := by simpa [ends, hclose] using hends
        rcases hc with rfl | rfl
        · exact .inr ⟨.inl rfl, _, rfl⟩
        · exact .inr ⟨.inr rfl, _, rfl⟩
  | yes =>
    obtain rfl : c = ':' := by simpa [ends] using hends
    exact .inr ⟨.inr rfl, _, rfl⟩

/-- **A group takes the character at which one of its parts ends.** -/
theorem turn_of_ends {ctx : Context} {c : Char} (hpart : ctx.isPart = true)
    (hends : ctx.ends c = true) : ∃ turn, ctx.turn c = .ok turn := by
  unfold turn
  rcases closes_or_goes_on hpart hends with ⟨bracket, hbracket, rfl⟩ | ⟨hc, next, hnext⟩
  · rw [hbracket, Option.filter_some, if_pos (beq_self_eq_true _)]
    exact ⟨_, rfl⟩
  · split
    · exact ⟨_, rfl⟩
    · rw [if_neg (by rintro ⟨hcomma, hcolon⟩; exact hc.elim hcomma hcolon), hnext]
      exact ⟨_, rfl⟩

/-- The next part of a group is one of its parts, or the last branch of a ternary. -/
theorem isPart_of_after? {ctx next : Context} {c : Char} (h : ctx.after? c = some next) :
    next = .no ∨ next.isPart = true := by
  unfold after? at h
  split at h
  · split at h <;> cases h
    exact .inr rfl
  · split at h <;> cases h
    exact .inr rfl
  · split at h
    · cases h
      exact .inr rfl
    · split at h <;> cases h
      exact .inr rfl
  · split at h <;> cases h
    exact .inl rfl
  · cases h

theorem after?_of_turn {ctx next : Context} {c : Char} (h : ctx.turn c = .ok (.next next)) :
    ctx.after? c = some next := by
  unfold turn at h
  split at h
  · cases h
  split at h
  · cases h
  split at h
  · cases h
  · next hnext =>
    cases h
    exact hnext

end Context

/-- What stands behind an opening bracket is a part of its group. -/
theorem Previous.isPart_of_opens {p : Previous} {bracket : Bracket} {ctx : Context}
    (h : p.opens bracket = .ok ctx) : ctx.isPart = true := by
  unfold opens at h
  split at h
  · split at h
    · cases h
      rfl
    split at h
    · cases h
    · cases h
      rfl
  · split at h <;> cases h <;> rfl

/-! ## Rounds -/

/-- **What emits one level down can be relied on**: it does not break, and an expression that it
emits ends at a character that ends its context. -/
structure Nested.Reliable (nested : Nested) : Prop where
  arises : ∀ ctx t stuck, nested.emit ctx t = .error stuck → stuck.fault.Arises
  ends : ∀ ctx t out rest, nested.emit ctx t = .ok (out, rest) →
    ∃ c r, rest = c :: r ∧ ctx.ends c = true

namespace Draft

/-- **A draft before a text that suits it**: the character ahead ends the last part of the group that
is pending, and the group takes it. -/
def Ready (d : Draft) (t : Text) : Prop :=
  ∀ group, d.pending = some group →
    ∃ c r turn, Text.trimStart t = c :: r ∧ group.ends c = true ∧ group.turn c = .ok turn

/-- A draft with nothing pending suits any text. -/
theorem ready_of_none {d : Draft} (h : d.pending = none) (t : Text) : d.Ready t := by
  intro group hgroup
  cases h.symm.trans hgroup

/-- **What a round does goes well**: it does not break, and leaves a draft that suits its text. -/
structure Keeps (x : Except Stuck (Draft × Text)) : Prop where
  arises : ∀ stuck, x = .error stuck → stuck.fault.Arises
  ready : ∀ found, x = .ok found → found.1.Ready found.2

namespace Keeps

theorem error {fault : Fault} {rest : Text} (h : fault.Arises) : Keeps (.error ⟨fault, rest⟩) where
  arises := by
    rintro _ ⟨⟩
    exact h
  ready _ hfound := by cases hfound

theorem ok {d : Draft} (h : d.pending = none) (rest : Text) : Keeps (.ok (d, rest)) where
  arises _ hstuck := by cases hstuck
  ready := by
    rintro _ ⟨⟩
    exact ready_of_none h rest

/-- What is done to a draft in the end may leave what is pending. -/
theorem bind_ok {x : Except Stuck (Draft × Text)} {f : Draft → Draft} (h : Keeps x)
    (hf : ∀ d, (f d).pending = d.pending) :
    Keeps (x >>= fun found => .ok (f found.1, found.2)) := by
  cases x with
  | error stuck => exact .error (h.arises stuck rfl)
  | ok found =>
    refine ⟨fun _ hstuck => (by cases hstuck), ?_⟩
    rintro _ ⟨⟩ group hgroup
    exact h.ready found rfl group ((hf _).symm.trans hgroup)

theorem before {x : Except Fault Draft} {rest : Text}
    (hfault : ∀ fault, x = .error fault → fault.Arises)
    (hpending : ∀ d, x = .ok d → d.pending = none) : Keeps (before rest x) := by
  cases x with
  | error fault => exact .error (hfault fault rfl)
  | ok d => exact .ok (hpending d rfl) rest

end Keeps

variable {s : Scope} {nested : Option Nested} {ctx : Context} {d d' : Draft} {t rest : Text}

/-- **A round goes well**: it does not break, what is left suits the draft, and an expression ends
at a character that ends its context. -/
structure Proceeds (ctx : Context) (x : Except Stuck Round) : Prop where
  arises : ∀ stuck, x = .error stuck → stuck.fault.Arises
  ready : ∀ d rest, x = .ok (.more d rest) → d.Ready rest
  ends : ∀ out rest, x = .ok (.done out rest) → ∃ c r, rest = c :: r ∧ ctx.ends c = true

theorem Proceeds.error {fault : Fault} (h : fault.Arises) :
    Proceeds ctx (.error ⟨fault, rest⟩) where
  arises := by
    rintro _ ⟨⟩
    exact h
  ready _ _ hround := by cases hround
  ends _ _ hround := by cases hround

/-- A round that goes on. -/
theorem Keeps.proceeds {x : Except Stuck (Draft × Text)} (h : Keeps x) :
    Proceeds ctx (x >>= fun found => .ok (.more found.1 found.2)) := by
  cases x with
  | error stuck => exact .error (h.arises stuck rfl)
  | ok found =>
    refine ⟨fun _ hround => (by cases hround), ?_, fun _ _ hround => (by cases hround)⟩
    rintro _ _ ⟨⟩
    exact h.ready found rfl

/-- An expression that cannot end is at fault itself. -/
theorem isOfToken_of_unfinished? {c : Char} {fault : Fault} (h : d.unfinished? ctx c = some fault) :
    fault.IsOfToken := by
  unfold unfinished? at h
  split at h
  · split at h <;> cases h
    exact .of_code rfl
  · split at h <;> cases h <;> exact .of_code rfl

/-- The last round. -/
theorem stop_proceeds (d : Draft) (c : Char) (r : Text) :
    Proceeds ctx (d.stop ctx c (c :: r) >>= fun found => .ok (.done found.1 found.2)) := by
  unfold stop
  split
  · next hends =>
    split
    · next hfault => exact .error (isOfToken_of_unfinished? hfault).arises
    · refine ⟨fun _ hround => (by cases hround), fun _ _ hround => (by cases hround), ?_⟩
      rintro _ _ ⟨⟩
      exact ⟨c, r, rfl, hends⟩
  · exact .error (ctx.misplaced_isOfToken c).arises

/-! ### Names and dots -/

/-- **A name has a span**: if none has begun, it begins with the name. -/
theorem spanAfter_operand (d : Draft) : ∃ n, d.spanAfter .operand = some n := by
  unfold spanAfter
  cases hspan : d.span with
  | none => exact ⟨_, rfl⟩
  | some n => exact ⟨n, rfl⟩

theorem insertOpener_of_span {n : Nat} (h : d.span = some n) :
    d.insertOpener s = .ok { d with
      out := d.out.take n ++ s.registry.wrapper.opening ++ d.out.drop n } := by
  rw [insertOpener, h]

/-- Where a span has begun, every target can be written. -/
theorem emitTarget_of_span {n : Nat} (target : Reference) (h : d.span = some n) :
    ∃ out, d.emitTarget s target = .ok { d with out := out } := by
  unfold emitTarget
  rw [insertOpener_of_span h]
  split <;> exact ⟨_, rfl⟩

/-- A name breaks nothing where a span has begun, and leaves what is pending. -/
theorem emitName_of_span {name : Text} {n : Nat} (hspan : d.span = some n) :
    (∃ fault, d.emitName s name rest = .error fault ∧ fault.IsOfToken) ∨
      ∃ d', d.emitName s name rest = .ok d' ∧ d'.pending = d.pending := by
  unfold emitName
  extract_lets ahead
  split
  · split
    · exact .inl ⟨_, rfl, .of_code rfl⟩
    split
    · exact .inl ⟨_, rfl, .of_code rfl⟩
    · rw [insertOpener_of_span hspan]
      exact .inr ⟨_, rfl, rfl⟩
  · cases hname : d.chain.addName s name ahead with
    | error fault => exact .inl ⟨fault, rfl, Chain.isOfToken_of_addName hname⟩
    | ok found =>
      obtain ⟨chain, _ | target⟩ := found
      · exact .inr ⟨_, rfl, rfl⟩
      · obtain ⟨out, hout⟩ :=
          emitTarget_of_span (s := s) (d := { d with chain := chain }) target hspan
        exact .inr ⟨_, hout, rfl⟩

theorem isOfToken_of_emitDots {run : Text} {fault : Fault} (h : d.emitDots run = .error fault) :
    fault.IsOfToken := by
  unfold emitDots at h
  split at h
  · split at h
    · cases h
      exact .of_code rfl
    · cases h
  · cases hdots : d.chain.addDots run with
    | error _ =>
      rw [hdots] at h
      cases h
      exact Chain.isOfToken_of_addDots hdots
    | ok chain =>
      rw [hdots] at h
      cases h

theorem pending_of_emitDots {run : Text} (h : d.emitDots run = .ok d') :
    d'.pending = d.pending := by
  unfold emitDots at h
  split at h
  · split at h
    · cases h
    · cases h
      rfl
  · obtain ⟨chain, -, heq⟩ := bind_eq_ok_iff.1 h
    cases heq
    rfl

/-! ### Groups -/

section Levels

variable (hnested : ∀ level ∈ nested, level.Reliable)

include hnested

theorem arises_of_nest {stuck : Stuck} (h : d.nest nested ctx t = .error stuck) :
    stuck.fault.Arises := by
  unfold nest at h
  split at h
  · cases h
    exact .of_code rfl
  · next level =>
    cases hemit : level.emit ctx t with
    | error _ =>
      rw [hemit] at h
      cases h
      exact (hnested level rfl).arises _ _ _ hemit
    | ok found =>
      rw [hemit] at h
      cases h

/-- **A part of a group leaves its context pending**, before a character that the group takes. -/
theorem nest_keeps (hpart : ctx.isPart = true) : Keeps (d.nest nested ctx t) := by
  refine ⟨fun _ h => arises_of_nest hnested h, ?_⟩
  rintro ⟨d', rest⟩ h group hgroup
  cases nested with
  | none => cases h
  | some level =>
    obtain ⟨⟨out, r⟩, hemit, heq⟩ := bind_eq_ok_iff.1 h
    cases heq
    cases hgroup
    obtain ⟨c, r', rfl, hends⟩ := (hnested level rfl).ends _ _ _ _ hemit
    obtain ⟨turn, hturn⟩ := Context.turn_of_ends hpart hends
    have hblank := not_isBlank_of_isStop (Context.isStop_of_ends hends)
    exact ⟨c, r', turn, Text.trimStart_cons hblank r', hends, hturn⟩

/-- **What follows a part of a group does not break**: the group takes the character ahead. -/
theorem closeOrContinue_keeps {group : Context} {c : Char} {r : Text} {turn : Context.Turn}
    (hturn : group.turn c = .ok turn) :
    Keeps (d.closeOrContinue nested group (c :: r)) := by
  unfold closeOrContinue
  dsimp only
  split
  · next hfault => cases hfault.symm.trans hturn
  · exact .ok rfl r
  · generalize hnest : nest nested _ _ _ = x
    cases x with
    | error stuck => exact .error (arises_of_nest hnested hnest)
    | ok found => exact .ok rfl _
  · next next hno hnext =>
    rcases Context.isPart_of_after? (Context.after?_of_turn hnext) with rfl | hpart
    · exact absurd rfl hno
    · exact nest_keeps hnested hpart

/-! ### Tokens -/

/-- **A token that fits does not break**, unless it is one of blanks or of a stop character. -/
theorem emit_keeps {token : Token} {n : Nat} (hd : d.pending = none)
    (hspan : token.kind = .name → d.span = some n) (hspace : token.kind ≠ .space)
    (hstop : token.kind.isStop = false) (hcrement : token.kind ≠ .crement) (group : Token.Group) :
    Keeps (d.emit s nested ctx token group t) := by
  unfold emit
  split
  case h_1 hname =>
    refine .before (fun fault hfault => ?_) fun d' hd' => ?_
    · rcases emitName_of_span (hspan hname) with ⟨_, herror, htoken⟩ | ⟨_, hok, -⟩
      · cases herror.symm.trans hfault
        exact htoken.arises
      · cases hok.symm.trans hfault
    · rcases emitName_of_span (hspan hname) with ⟨_, herror, -⟩ | ⟨_, hok, hpending⟩
      · cases herror.symm.trans hd'
      · cases hok.symm.trans hd'
        exact hpending.trans hd
  case h_2 =>
    exact .before (fun _ h => (isOfToken_of_emitDots h).arises) fun _ h =>
      (pending_of_emitDots h).trans hd
  case h_12 =>
    split
    · next hopens => exact .error (Previous.isOfToken_of_opens hopens).arises
    · next hopens => exact nest_keeps hnested (Previous.isPart_of_opens hopens)
  case h_13 =>
    split
    · exact .error (.of_code rfl)
    · exact nest_keeps hnested rfl
  case h_5 =>
    split
    · exact .ok (by exact hd) t
    · split <;> exact .ok (by exact hd) t
  case h_6 => split <;> exact .ok (by exact hd) t
  case h_14 hk => exact absurd hk hcrement
  case h_15 hk | h_16 hk | h_17 hk =>
    rw [hk] at hstop
    cases hstop
  case h_18 hk => exact absurd hk hspace
  all_goals exact .ok (by exact hd) t

theorem take_keeps {c : Char} {r : Text} {token : Token} (hd : d.pending = none)
    (hblank : Text.isBlank c = false) (hc : isStop c = false)
    (hnext : Token.next (c :: r) = .ok (token, rest)) : Keeps (d.take s nested ctx token rest) := by
  unfold take
  extract_lets group
  split
  · next hclash => exact .error (Previous.isOfToken_of_clash? hclash).arises
  next hclash =>
  have hspace : token.kind ≠ .space := fun hk => by
    rw [(Token.isBlank_iff_of_next hnext).2 hk] at hblank
    cases hblank
  have hstop : token.kind.isStop = false := by
    rw [Bool.eq_false_iff]
    intro hk
    rw [Token.isStop_of_next hnext hk] at hc
    cases hc
  have hcrement : token.kind ≠ .crement := fun hk => by
    rw [Previous.clash?, if_pos hk] at hclash
    cases hclash
  obtain ⟨n, hn⟩ := spanAfter_operand d
  have hspan : token.kind = .name → (d.start group).span = some n := fun hk => by
    have hgroup : group = .operand := by simp only [group, Token.group, hk]
    rw [← hn, hgroup]
    rfl
  have hstart : (d.start group).pending = none := hd
  exact (emit_keeps hnested hstart hspan hspace hstop hcrement group).bind_ok
    (f := fun d => { d with prev := .token token group }) fun _ => rfl

/-! ### Rounds and runs -/

theorem round_proceeds (hready : d.Ready t) : Proceeds ctx (d.round s nested ctx t) := by
  unfold round
  split
  · next group hgroup =>
    obtain ⟨c, r, turn, ht, -, hturn⟩ := hready group hgroup
    rw [ht]
    exact (closeOrContinue_keeps hnested hturn).proceeds
  next hpending =>
  split
  · exact .error (.of_code rfl)
  next c r hc =>
  split
  · exact stop_proceeds d c r
  next hstop =>
  cases hnext : Token.next (c :: r) with
  | error stuck => exact .error (isOfToken_of_next hnext).arises
  | ok found =>
    obtain ⟨token, rest⟩ := found
    exact (take_keeps hnested hpending (Text.isBlank_head_trimStart hc)
      (by simpa using hstop) hnext).proceeds

/-- **A run does not break**, and ends at a character that ends its context. -/
theorem run_reliable (hready : d.Ready t) :
    (∀ stuck, d.run s nested ctx t = .error stuck → stuck.fault.Arises) ∧
      ∀ out rest, d.run s nested ctx t = .ok (out, rest) →
        ∃ c r, rest = c :: r ∧ ctx.ends c = true := by
  fun_induction run s nested ctx d t with
  | case1 d t stuck hround =>
    refine ⟨?_, fun _ _ h => (by cases h)⟩
    rintro _ ⟨⟩
    exact (round_proceeds hnested hready).arises stuck hround
  | case2 d t out rest hround =>
    refine ⟨fun _ h => (by cases h), ?_⟩
    rintro _ _ ⟨⟩
    exact (round_proceeds hnested hready).ends out rest hround
  | case3 d t d' rest hround ih => exact ih ((round_proceeds hnested hready).ready d' rest hround)

end Levels

/-- **The drafts that a run goes through**, each with the text ahead of it. -/
inductive Reached (s : Scope) (nested : Option Nested) (ctx : Context) (t : Text) :
    Draft → Text → Prop
  | start : Reached s nested ctx t {} t
  | round {d d' : Draft} {rest rest' : Text} (h : Reached s nested ctx t d rest)
      (hround : d.round s nested ctx rest = .ok (.more d' rest')) : Reached s nested ctx t d' rest'

/-- Every draft on the way suits its text. -/
theorem Reached.ready (hnested : ∀ level ∈ nested, level.Reliable)
    (h : Reached s nested ctx t d rest) : d.Ready rest := by
  induction h with
  | start => exact ready_of_none rfl t
  | round _ hround ih => exact (round_proceeds hnested ih).ready _ _ hround

end Draft

/-! ## Levels -/

theorem emitExpr_reliable {s : Scope} {nested : Option Nested}
    (hnested : ∀ level ∈ nested, level.Reliable) :
    Nested.Reliable ⟨emitExpr s nested, Draft.run_suffix⟩ where
  arises _ t _ h := (Draft.run_reliable hnested (Draft.ready_of_none rfl t)).1 _ h
  ends _ t _ _ h := (Draft.run_reliable hnested (Draft.ready_of_none rfl t)).2 _ _ h

/-- **Every level can be relied on**, by induction on the levels below it. -/
theorem nestedEmitter_reliable (s : Scope) (n : Nat) :
    ∀ level ∈ nestedEmitter s n, level.Reliable := by
  induction n with
  | zero => exact nofun
  | succ n ih =>
    rintro level ⟨⟩
    exact emitExpr_reliable ih

/-- **The emitter of a tag does not break.** -/
theorem arises_of_emitTag {s : Scope} {t : Text} {stuck : Stuck}
    (h : emitTag s t = .error stuck) : stuck.fault.Arises :=
  (emitExpr_reliable (nestedEmitter_reliable s maxNesting)).arises .tag t stuck h

end Stencil
