import Stencil.Proofs.Expr.Replay

/-!
# Proofs/Expr/ReplayValue — the emitter goes along with the reader of a value

    draft before a value ──rounds──▸ draft behind it ──rounds──▸ draft behind its suffixes
         (`Fresh`)                     (`value`)                        (`value`)

A value is written where the span begins that a wrapper method would apply to.  So the draft behind
a value is told by the value (`Draft.value`): the code in front, the code of the value, and the span
between them.  An index adds to the code, and a method puts the opener of the wrapper in front of
the span, which is the whole value.
-/

namespace Stencil

/-! ## Behind a value -/

/-- The last token of a value. -/
def Value.last (v : Value) : Previous :=
  match v with
  | .number _ => .token ⟨.number, v.lastText⟩ .operand
  | .quoted _ => .token ⟨.quoted, v.lastText⟩ .operand
  | .name .. => .token (Token.named v.lastText) .operand
  | .call .. | .paren _ | .method .. => .token (Token.closes .paren) .closing
  | .literal bracket _ | .index _ bracket _ => .token (Token.closes bracket) .closing

theorem Value.text_last (v : Value) : v.last.text = v.lastText := by
  cases v <;> rfl

theorem Value.endsValue_last (v : Value) : v.last.endsValue = true := by
  cases v <;> rfl

theorem Value.kind?_last {v : Value} (h : v.isName = false) : v.last.kind? ≠ some .name := by
  cases v with
  | name => cases h
  | _ => nofun

/-- Behind a value everything fits that starts none. -/
theorem Value.last_fits (v : Value) {token : Token} {group : Token.Group}
    (hcrement : token.kind ≠ .crement) (hgroup : ¬(group = .operand ∨ group = .unary)) :
    v.last.clash? token group = none := by
  have hwants : v.last.wantsValue = false := by cases v <;> rfl
  have hdot : v.last.group? ≠ some .dot := by cases v <;> nofun
  have hunary : v.last.group? ≠ some .unary := by cases v <;> nofun
  rw [Previous.clash?, if_neg hcrement, if_neg (fun h => hgroup h.2),
    if_neg (by simp [hwants]), if_neg (fun h => hdot h.1), if_neg (fun h => hunary h.1),
    if_neg (fun h => hunary h.1)]

/-- What starts a value does not fit behind one. -/
theorem Value.last_misfits (v : Value) {token : Token} {group : Token.Group}
    (hcrement : token.kind ≠ .crement) (hgroup : group = .operand ∨ group = .unary) :
    v.last.clash? token group = some (misfit (some v.lastText) token) := by
  rw [Previous.clash?, if_neg hcrement, if_pos ⟨v.endsValue_last, hgroup⟩]
  cases v <;> rfl

/-- The host has one pair of brackets for both families that hold items and keys. -/
theorem Bracket.openCode_of_ne {bracket : Bracket} (h : bracket ≠ .paren) :
    bracket.openCode = "[" := by
  cases bracket with
  | paren => exact absurd rfl h
  | brace | square => rfl

theorem Bracket.closeCode_of_ne {bracket : Bracket} (h : bracket ≠ .paren) :
    bracket.closeCode = "]" := by
  cases bracket with
  | paren => exact absurd rfl h
  | brace | square => rfl

namespace Draft

variable {s : Scope} {nested : Option Nested} {inner : Option Inner} {ctx : Context} {d : Draft}
  {t : Text}

/-- The code before a value: a `+` right before a quoted text joins texts. -/
def front (d : Draft) (v : Value) : Text := if v.startsQuoted then d.joined else d.out

/-- **The draft behind a value.** -/
def value (r : Registry) (d : Draft) (v : Value) : Draft :=
  { d with
    prev := v.last
    out := d.front v ++ v.code r
    started := true
    span := some (d.front v).length
    methodNext := false
    pending := none
    chain := .fresh }

theorem front_of_unquoted {v : Value} (h : v.startsQuoted = false) : d.front v = d.out := by
  rw [front, h, if_neg Bool.false_ne_true]

/-- A value that starts with no quoted text changes nothing before it. -/
theorem value_of_unquoted {d' : Draft} (r : Registry) {v : Value} (h : v.startsQuoted = false)
    (out : d'.out = d.out) (plusAt : d'.plusAt = d.plusAt) (ternaryDone : d'.ternaryDone = d.ternaryDone) :
    d'.value r v = d.value r v := by
  simp only [value, front_of_unquoted h, out, plusAt, ternaryDone]

/-- A draft is the one behind a value if it has its code, and is otherwise as it was before it. -/
theorem eq_value {d' : Draft} {r : Registry} {v : Value} (prev : d'.prev = v.last)
    (out : d'.out = d.front v ++ v.code r) (started : d'.started = true)
    (span : d'.span = some (d.front v).length) (methodNext : d'.methodNext = false)
    (plusAt : d'.plusAt = d.plusAt) (pending : d'.pending = none)
    (ternaryDone : d'.ternaryDone = d.ternaryDone) (chain : d'.chain = .fresh) :
    d' = d.value r v := by
  obtain ⟨⟩ := d'
  subst prev out started span methodNext plusAt pending ternaryDone chain
  rfl

theorem Chaining.target_eq (h : d.Chaining) (r : Registry) (full : Chain) (target : Reference) :
    d.target r full target = d.value r (.name full target) :=
  eq_value rfl rfl rfl rfl h.methodNext rfl h.pending rfl rfl

/-- **A draft before a value.** -/
structure Fresh (d : Draft) : Prop extends d.Wants where
  methodNext : d.methodNext = false
  span : d.span = none
  chain : d.chain = .fresh
  noDot : d.prev.group? ≠ some .dot
  joined : d.joined.length = d.out.length

namespace Fresh

theorem chaining (h : d.Fresh) : d.Chaining := ⟨h.toWants, h.methodNext, .inl h.span⟩

theorem kind?_ne_name (h : d.Fresh) : d.prev.kind? ≠ some .name := by
  have hleads := h.leads
  generalize d.prev = prev at hleads
  cases hleads with
  | start => nofun
  | operator hk | unary hk | dot hk => exact fun h => hk (Option.some.inj h)

theorem endsValue (h : d.Fresh) : d.prev.endsValue = false := by
  have hleads := h.leads
  generalize d.prev = prev at hleads
  cases hleads <;> rfl

theorem wantsValue (h : d.Fresh) : d.prev.wantsValue = true := by
  have hleads := h.leads
  generalize d.prev = prev at hleads
  cases hleads <;> rfl

/-- What a value begins with fits before it. -/
theorem fits (h : d.Fresh) {token : Token} {group : Token.Group} (hcrement : token.kind ≠ .crement)
    (hgroup : group.startsSpan = true) (hquoted : token.kind = .quoted → d.prev.group? ≠ some .unary) :
    d.prev.clash? token group = none := by
  have hother : ∀ other : Token.Group, other.startsSpan = false → group ≠ other := by
    rintro _ hother rfl
    cases hgroup.symm.trans hother
  rw [Previous.clash?, if_neg hcrement, if_neg (by simp [h.endsValue]),
    if_neg (by simp [hother .operator rfl, hother .delimiter rfl, hother .closing rfl]),
    if_neg fun hdot => h.noDot hdot.1, if_neg fun hunary => hother .unary rfl hunary.2,
    if_neg fun hunary => hquoted hunary.2 hunary.1]

/-- An operator, a delimiter or a closer does not fit before a value. -/
theorem misfits (h : d.Fresh) {token : Token} {group : Token.Group}
    (hcrement : token.kind ≠ .crement)
    (hgroup : group = .operator ∨ group = .delimiter ∨ group = .closing) :
    d.prev.clash? token group = some (misfit d.prev.text? token) := by
  rw [Previous.clash?, if_neg hcrement, if_neg (by simp [h.endsValue]), if_pos ⟨h.wantsValue, hgroup⟩]

end Fresh

/-- An opening bracket that fits. -/
theorem take_opening {bracket : Bracket} {group : Context}
    (hclash : d.prev.clash? (Token.opens bracket) .opening = none)
    (hopens : d.prev.opens bracket = .ok group) (t : Text) :
    d.take s nested ctx (Token.opens bracket) t =
      ((d.start .opening).write bracket.openCode).nest nested group t >>= fun found =>
        .ok ({ found.1 with prev := .token (Token.opens bracket) .opening }, found.2) := by
  have hstart : (d.start .opening).prev.opens bracket = .ok group := hopens
  have hgroup : (Token.opens bracket).group d.prev.group? = .opening := rfl
  rw [take_of_fits hgroup hclash, emit]
  simp only [Token.opens, hstart]

/-- An opening bracket that does not fit. -/
theorem take_opening_error {bracket : Bracket} {fault : Fault}
    (hclash : d.prev.clash? (Token.opens bracket) .opening = none)
    (hopens : d.prev.opens bracket = .error fault) (t : Text) :
    d.take s nested ctx (Token.opens bracket) t = .error ⟨fault, t⟩ := by
  have hstart : (d.start .opening).prev.opens bracket = .error fault := hopens
  have hgroup : (Token.opens bracket).group d.prev.group? = .opening := rfl
  rw [take_of_fits hgroup hclash, emit]
  simp only [Token.opens, hstart]
  rfl

/-- The draft behind a group in brackets with `code` between them. -/
def grouped (d : Draft) (bracket : Bracket) (code : Text) : Draft :=
  (((d.start .opening).write bracket.openCode).write code).close bracket

/-- A run of dots behind a value: the name of a method follows a single one. -/
theorem take_value_dots {v : Value} (hname : v.isName = false) (run t : Text) :
    (d.value s.registry v).take s nested ctx ⟨.dots, run⟩ t =
      if 1 < run.length then .error ⟨.unexpected (v.lastText ++ run), t⟩
      else
        .ok ({ d.value s.registry v with
          prev := .token ⟨.dots, run⟩ .dot, methodNext := true }, t) := by
  have hclash : v.last.clash? ⟨.dots, run⟩ .dot = none := v.last_fits nofun (by decide)
  have hvalue : ((d.value s.registry v).start .dot).prev.kind? ≠ some .name ∧
      ((d.value s.registry v).start .dot).prev.endsValue = true :=
    ⟨Value.kind?_last hname, v.endsValue_last⟩
  have hgroup : (Token.mk .dots run).group (d.value s.registry v).prev.group? = .dot := rfl
  have htext : ((d.value s.registry v).start .dot).prev.text = v.lastText := v.text_last
  rw [take_of_fits hgroup hclash]
  change before t (((d.value s.registry v).start .dot).emitDots run) >>= _ = _
  rw [emitDots, if_pos hvalue, htext]
  split <;> rfl

/-- **The name of a method behind a value**: the opener of the wrapper goes in front of the value. -/
theorem take_method {n : Nat} (hprev : d.prev = .token Token.dot .dot) (hmethod : d.methodNext = true)
    (hspan : d.span = some n) (name t : Text) :
    d.take s nested ctx (Token.named name) t =
      if (Text.trimStart t).head? ≠ some '(' then .error ⟨.uncalledMethod name, t⟩
      else if !s.registry.wrapper.contains name then
        .error ⟨.noWrapperMethod name s.registry.wrapper.owner name, t⟩
      else
        .ok ({ d with
          prev := .token (Token.named name) .operand, started := true
          span := some n, methodNext := false
          out := d.out.take n ++ s.registry.wrapper.opening ++ d.out.drop n ++ (")->" ++ name) },
          t) := by
  have hgroup : (Token.named name).group d.prev.group? = .operand := rfl
  have hstart : (d.start .operand).methodNext = true := hmethod
  have hspanAfter : d.spanAfter .operand = some n := by
    rw [Draft.spanAfter, if_neg (by decide), if_neg (by simp [hspan]), hspan]
  have hcall : Lookahead.of (Text.trimStart t).head? ≠ .call ↔
      (Text.trimStart t).head? ≠ some '(' := not_congr Lookahead.of_eq_call_iff
  rw [take_of_fits hgroup (by rw [hprev]; rfl)]
  change before t ((d.start .operand).emitName s name t) >>= _ = _
  rw [emitName, if_pos hstart]
  by_cases hahead : (Text.trimStart t).head? ≠ some '('
  · rw [if_pos (hcall.2 hahead), if_pos hahead]
    rfl
  rw [if_neg (mt hcall.1 hahead), if_neg hahead]
  split
  · rfl
  · rw [insertOpener_of_span hspanAfter]
    simp only [start, hspanAfter]
    rfl

/-- What starts with a name starts with no quoted text. -/
theorem startsQuoted_of_readNamed {chain : Chain} {name rest : Text} {v : Value}
    (h : readNamed s inner ctx chain name t = .ok (v, rest)) : v.startsQuoted = false := by
  obtain ⟨⟨⟨full, target, called⟩, r⟩, -, h⟩ := bind_eq_ok_iff.1 h
  dsimp only at h
  split at h
  · obtain ⟨r', -, h⟩ := bind_eq_ok_iff.1 h
    obtain ⟨args, -, h⟩ := bind_eq_ok_iff.1 h
    cases h
    rfl
  · cases h
    rfl

/-- A chain that is not called goes on neither with a dot nor with a bracket. -/
theorem head_of_readNamed {depth : Nat} {name rest : Text} {v : Value}
    (h : readNamed s inner ctx ⟨depth, []⟩ name t = .ok (v, rest)) (hv : v.isName = true) :
    (Text.trimStart rest).head? ≠ some '.' ∧ (Text.trimStart rest).head? ≠ some '(' := by
  obtain ⟨⟨⟨full, target, called⟩, r⟩, hchain, h⟩ := bind_eq_ok_iff.1 h
  have havoid : Chain.AvoidsReserved ⟨depth, []⟩ := trivial
  obtain ⟨-, -, -, -, hcalled, hdot⟩ := readChain_sound havoid hchain
  dsimp only at h
  split at h
  · obtain ⟨r', -, h⟩ := bind_eq_ok_iff.1 h
    obtain ⟨args, -, h⟩ := bind_eq_ok_iff.1 h
    cases h
    cases hv
  · next hno =>
    cases h
    exact ⟨hdot, fun hcall => hno (hcalled.2 hcall)⟩

theorem head_of_readPrimary {before : Option Text} {token : Token} {rest : Text} {v : Value}
    (h : readPrimary s inner ctx before token t = .ok (v, rest)) (hv : v.isName = true) :
    (Text.trimStart rest).head? ≠ some '.' ∧ (Text.trimStart rest).head? ≠ some '(' := by
  unfold readPrimary at h
  split at h
  · cases h
    cases hv
  · cases h
    cases hv
  · exact head_of_readNamed h hv
  · obtain ⟨⟨first, r⟩, -, h⟩ := bind_eq_ok_iff.1 h
    dsimp only at h
    split at h
    · exact head_of_readNamed h hv
    · cases h
  · obtain ⟨found, -, h⟩ := bind_eq_ok_iff.1 h
    cases h
    cases hv
  · obtain ⟨found, -, h⟩ := bind_eq_ok_iff.1 h
    cases h
    cases hv
  · cases h

/-- What has a suffix is no bare chain. -/
theorem isName_of_readSuffix {v v' : Value} {rest : Text}
    (h : readSuffix s inner ctx v t = .ok (some (v', rest))) : v'.isName = false := by
  rcases readSuffix_cases h with ⟨_, _, _, _, _, _, rfl⟩ | ⟨_, _, _, _, _, _, _, _, _, _, rfl⟩
  · rfl
  · rfl

section Levels

variable (hlevels : Option.Rel (Nested.Mirrors s.registry) nested inner)

include hlevels

/-- **A group behind a draft.** -/
theorem run_group {bracket : Bracket} {group : Context} (hgroup : group.Begins bracket)
    (hclash : d.prev.clash? (Token.opens bracket) .opening = none)
    (hopens : d.prev.opens bracket = .ok group) (t : Text) :
    (d.take s nested ctx (Token.opens bracket) t >>= resume s nested ctx) =
      readGroup inner bracket group t >>= fun found =>
        resume s nested ctx (d.grouped bracket (found.1.code s.registry), found.2) := by
  rw [take_opening hclash hopens, bind_assoc]
  exact run_readGroup hlevels _ hgroup t

/-- **One expression in brackets behind a draft.** -/
theorem run_single {bracket : Bracket} {group : Context}
    (hgroup : group = .paren ∧ bracket = .paren ∨ group = .index bracket)
    (hclash : d.prev.clash? (Token.opens bracket) .opening = none)
    (hopens : d.prev.opens bracket = .ok group) (t : Text) :
    (d.take s nested ctx (Token.opens bracket) t >>= resume s nested ctx) =
      readSingle inner group bracket t >>= fun found =>
        resume s nested ctx (d.grouped bracket (found.1.code s.registry), found.2) := by
  rw [take_opening hclash hopens, bind_assoc]
  exact run_readSingle hlevels _ hgroup

/-- **The arguments behind a name** that is called. -/
theorem run_call {name : Text} (hpending : d.pending = none)
    (hprev : d.prev = .token (Token.named name) .operand) (hcall : (Text.trimStart t).head? = some '(')
    (outer : Context) :
    d.run s nested ctx t =
      needChar outer '(' t >>= fun rest => readGroup inner .paren (.argument true) rest >>= fun found =>
        resume s nested ctx (d.grouped .paren (found.1.code s.registry), found.2) := by
  obtain ⟨r, ht⟩ := List.head?_eq_some_iff.1 hcall
  have hneed : needChar outer '(' t = .ok r := needChar_eq_ok_iff.2 ht
  have hopen : Token.next ('(' :: r) = .ok (Token.opens .paren, r) := Token.next_opener .paren r
  rw [run_token hpending ht rfl, hopen, hneed]
  exact run_group hlevels (.inl ⟨rfl, rfl⟩) (by rw [hprev]; rfl) (by rw [hprev]; rfl) r

/-- **A value that starts with a name.** -/
theorem run_readNamed (h : d.Chaining) {depth : Nat} (hchain : d.chain = ⟨depth, []⟩)
    (name t : Text) :
    (d.take s nested ctx (Token.named name) t >>= resume s nested ctx) =
      readNamed s inner ctx ⟨depth, []⟩ name t >>= fun found =>
        resume s nested ctx (d.value s.registry found.1, found.2) := by
  rw [run_readChain h, hchain, readNamed, bind_assoc]
  cases hread : readChain s ctx ⟨depth, []⟩ name t with
  | error stuck => rfl
  | ok found =>
    obtain ⟨⟨full, target, called⟩, rest⟩ := found
    have havoid : Chain.AvoidsReserved ⟨depth, []⟩ := trivial
    obtain ⟨-, -, -, -, hcalled, -⟩ := readChain_sound havoid hread
    cases called with
    | false => exact congrArg (resume s nested ctx ⟨·, rest⟩) (h.target_eq s.registry full target)
    | true =>
      change Draft.run s nested ctx _ rest = _
      rw [run_call hlevels (by exact h.pending) rfl (hcalled.1 rfl) ctx]
      change _ = (needChar ctx '(' rest >>= _) >>= _
      cases needChar ctx '(' rest with
      | error stuck => rfl
      | ok r =>
        change readGroup _ _ _ r >>= _ = (readGroup _ _ _ r >>= _) >>= _
        cases readGroup inner .paren (.argument true) r with
        | error stuck => rfl
        | ok found =>
          refine congrArg (resume s nested ctx ⟨·, found.2⟩)
            (eq_value rfl ?_ rfl rfl h.methodNext rfl rfl rfl rfl)
          change d.out ++ target.code s.registry ++ "(" ++ found.1.code s.registry ++ ")" =
            d.out ++ (target.code s.registry ++ "(" ++ found.1.code s.registry ++ ")")
          simp only [List.append_assoc]

/-- **A value that starts with dots.** -/
theorem run_dotted (h : d.Fresh) (run t : Text) :
    (d.take s nested ctx ⟨.dots, run⟩ t >>= resume s nested ctx) =
      readPrimary s inner ctx d.prev.text? ⟨.dots, run⟩ t >>= fun found =>
        resume s nested ctx (d.value s.registry found.1, found.2) := by
  have hclash : d.prev.clash? ⟨.dots, run⟩ .dot = none := h.fits nofun rfl nofun
  rw [take_dots hclash (by simp [h.endsValue]), h.chain]
  have hspan : d.spanAfter .dot = some d.out.length := h.chaining.spanAfter rfl
  have hdots : Wants { d with
      prev := .token ⟨.dots, run⟩ .dot, started := true
      span := d.spanAfter .dot, chain := ⟨run.length, []⟩ } := ⟨h.pending, .dot nofun, rfl⟩
  refine (run_behind_dots hdots rfl t).trans ?_
  change needToken ctx (some run) t >>= _ = (needToken ctx (some run) t >>= _) >>= _
  cases needToken ctx (some run) t with
  | error stuck => rfl
  | ok next =>
    obtain ⟨first, rest⟩ := next
    change (if first.kind = .name then _ else _) = (if first.kind = .name then _ else _) >>= _
    split
    · rw [run_readNamed hlevels ⟨hdots, h.methodNext, .inr hspan⟩ rfl]
      dsimp only
      cases hnamed : readNamed s inner ctx ⟨run.length, []⟩ first.text rest with
      | error stuck => rfl
      | ok found =>
        exact congrArg (resume s nested ctx ⟨·, found.2⟩)
          (value_of_unquoted s.registry (startsQuoted_of_readNamed hnamed) rfl rfl rfl)
    · rfl

/-- **A value in parentheses.** -/
theorem run_paren (h : d.Fresh) (t : Text) :
    (d.take s nested ctx (Token.opens .paren) t >>= resume s nested ctx) =
      readSingle inner .paren .paren t >>= fun found =>
        resume s nested ctx (d.value s.registry (.paren found.1), found.2) := by
  have hclash : d.prev.clash? (Token.opens .paren) .opening = none := h.fits nofun rfl nofun
  have hspan : d.spanAfter .opening = some d.out.length := h.chaining.spanAfter rfl
  have hopens : d.prev.opens .paren = .ok .paren := by
    rw [Previous.opens, if_neg h.kind?_ne_name, if_neg (by simp [h.endsValue])]
  rw [run_single hlevels (.inl ⟨rfl, rfl⟩) hclash hopens]
  cases readSingle inner .paren .paren t with
  | error stuck => rfl
  | ok found =>
    refine congrArg (resume s nested ctx ⟨·, found.2⟩)
      (eq_value rfl ?_ rfl hspan h.methodNext rfl rfl rfl h.chain)
    change d.out ++ "(" ++ found.1.code s.registry ++ ")" =
      d.out ++ ("(" ++ found.1.code s.registry ++ ")")
    simp only [List.append_assoc]

/-- **A literal.** -/
theorem run_literal (h : d.Fresh) {bracket : Bracket} (hbracket : bracket ≠ .paren) (t : Text) :
    (d.take s nested ctx (Token.opens bracket) t >>= resume s nested ctx) =
      readGroup inner bracket (.item bracket .first) t >>= fun found =>
        resume s nested ctx (d.value s.registry (.literal bracket found.1), found.2) := by
  have hclash : d.prev.clash? (Token.opens bracket) .opening = none := h.fits nofun rfl nofun
  have hspan : d.spanAfter .opening = some d.out.length := h.chaining.spanAfter rfl
  have hopens : d.prev.opens bracket = .ok (.item bracket .first) := by
    rw [Previous.opens, if_neg (by simp [h.endsValue])]
    exact hbracket
  rw [run_group hlevels (.inr rfl) hclash hopens]
  cases readGroup inner bracket (.item bracket .first) t with
  | error stuck => rfl
  | ok found =>
    refine congrArg (resume s nested ctx ⟨·, found.2⟩)
      (eq_value rfl ?_ rfl hspan h.methodNext rfl rfl rfl h.chain)
    change d.out ++ bracket.openCode ++ found.1.code s.registry ++ bracket.closeCode =
      d.out ++ ("[" ++ found.1.code s.registry ++ "]")
    rw [Bracket.openCode_of_ne hbracket, Bracket.closeCode_of_ne hbracket]
    simp only [List.append_assoc]

/-- **A value that starts with a bracket.** -/
theorem run_bracketed (h : d.Fresh) (bracket : Bracket) (t : Text) :
    (d.take s nested ctx (Token.opens bracket) t >>= resume s nested ctx) =
      readPrimary s inner ctx d.prev.text? (Token.opens bracket) t >>= fun found =>
        resume s nested ctx (d.value s.registry found.1, found.2) := by
  cases bracket with
  | paren =>
    rw [run_paren hlevels h]
    change _ = (readSingle inner .paren .paren t >>= _) >>= _
    rw [bind_assoc]
    rfl
  | brace | square =>
    rw [run_literal hlevels h (by decide)]
    change _ = (readGroup inner _ _ t >>= _) >>= _
    rw [bind_assoc]
    rfl

/-- **A value without its suffixes.** -/
theorem run_readPrimary (h : d.Fresh) {token : Token} (hsign : token.isSign = false)
    (hcrement : token.kind ≠ .crement) (hspace : token.kind ≠ .space)
    (hopening : ∀ bracket, token.kind = .opening bracket → token = Token.opens bracket)
    (hquoted : token.kind = .quoted → d.prev.group? ≠ some .unary) (t : Text) :
    (d.take s nested ctx token t >>= resume s nested ctx) =
      readPrimary s inner ctx d.prev.text? token t >>= fun found =>
        resume s nested ctx (d.value s.registry found.1, found.2) := by
  have hspan : d.spanAfter .operand = some d.out.length := h.chaining.spanAfter rfl
  obtain ⟨kind, text⟩ := token
  cases kind with
  | number =>
    rw [take_of_fits rfl (h.fits hcrement rfl hquoted)]
    exact congrArg (resume s nested ctx ⟨·, t⟩)
      (eq_value rfl rfl rfl hspan h.methodNext rfl h.pending rfl h.chain)
  | quoted =>
    have hjoined : d.spanAfter .operand = some d.joined.length := by rw [hspan, h.joined]
    rw [take_of_fits rfl (h.fits hcrement rfl hquoted)]
    exact congrArg (resume s nested ctx ⟨·, t⟩)
      (eq_value rfl rfl rfl hjoined h.methodNext rfl h.pending rfl h.chain)
  | name => exact run_readNamed hlevels h.chaining h.chain text t
  | dots => exact run_dotted hlevels h text t
  | opening bracket =>
    rw [hopening bracket rfl]
    exact run_bracketed hlevels h bracket t
  | crement => exact absurd rfl hcrement
  | space => exact absurd rfl hspace
  | unary | plus | minus => cases hsign
  | comparison | logic | elvis | arithmetic =>
    rw [take_of_clash rfl (h.misfits hcrement (.inl rfl))]
    rfl
  | question | colon | comma =>
    rw [take_of_clash rfl (h.misfits hcrement (.inr (.inl rfl)))]
    rfl
  | closing =>
    rw [take_of_clash rfl (h.misfits hcrement (.inr (.inr rfl)))]
    rfl

/-- **A method behind a value.** -/
theorem run_method {v : Value} (hname : v.isName = false) (t : Text) :
    ((d.value s.registry v).take s nested ctx Token.dot t >>= resume s nested ctx) =
      needName ctx t >>= fun (name, rest) =>
        if (Text.trimStart rest).head? ≠ some '(' then .error ⟨.uncalledMethod name, rest⟩
        else if !s.registry.wrapper.contains name then
          .error ⟨.noWrapperMethod name s.registry.wrapper.owner name, rest⟩
        else
          needChar ctx '(' rest >>= fun rest =>
            readGroup inner .paren (.argument true) rest >>= fun (args, rest) =>
              resume s nested ctx (d.value s.registry (.method v name args), rest) := by
  rw [Token.dot, take_value_dots hname, if_neg (by decide)]
  change Draft.run s nested ctx _ t = _
  rw [run_needName (by exact ⟨rfl, .dot nofun, rfl⟩) rfl]
  cases needName ctx t with
  | error stuck => rfl
  | ok found =>
    obtain ⟨name, rest⟩ := found
    change Draft.take s nested ctx _ (Token.named name) rest >>= _ = _
    rw [take_method rfl rfl rfl]
    change _ = if (Text.trimStart rest).head? ≠ some '(' then _ else _
    split
    · rfl
    next hcall =>
    split
    · rfl
    have hcall : (Text.trimStart rest).head? = some '(' := by simpa using hcall
    change Draft.run s nested ctx _ rest = _
    rw [run_call hlevels rfl rfl hcall ctx]
    cases needChar ctx '(' rest with
    | error stuck => rfl
    | ok r =>
    change readGroup _ _ _ r >>= _ = readGroup _ _ _ r >>= _
    cases readGroup inner .paren (.argument true) r with
    | error stuck => rfl
    | ok found =>
    refine congrArg (resume s nested ctx ⟨·, found.2⟩) (eq_value rfl ?_ rfl rfl rfl rfl rfl rfl rfl)
    change (d.front v ++ v.code s.registry).take (d.front v).length ++
        s.registry.wrapper.opening ++ (d.front v ++ v.code s.registry).drop (d.front v).length ++
        (")->" ++ name) ++ "(" ++ found.1.code s.registry ++ ")" =
      d.front v ++ (s.registry.wrapper.opening ++ v.code s.registry ++ ")->" ++ name ++ "(" ++
        found.1.code s.registry ++ ")")
    rw [List.take_left, List.drop_left]
    simp only [List.append_assoc]

/-- **An index of a value.** -/
theorem run_index {v : Value} {bracket : Bracket} (hbracket : bracket ≠ .paren) (t : Text) :
    ((d.value s.registry v).take s nested ctx (Token.opens bracket) t >>= resume s nested ctx) =
      readSingle inner (.index bracket) bracket t >>= fun found =>
        resume s nested ctx (d.value s.registry (.index v bracket found.1), found.2) := by
  have hclash : v.last.clash? (Token.opens bracket) .opening = none :=
    v.last_fits nofun (by decide)
  have hopens : v.last.opens bracket = .ok (.index bracket) := by
    rw [Previous.opens, if_pos v.endsValue_last]
    exact hbracket
  rw [run_single hlevels (.inr rfl) hclash hopens]
  cases readSingle inner (.index bracket) bracket t with
  | error stuck => rfl
  | ok found =>
    refine congrArg (resume s nested ctx ⟨·, found.2⟩) (eq_value rfl ?_ rfl rfl rfl rfl rfl rfl rfl)
    change d.front v ++ v.code s.registry ++ bracket.openCode ++ found.1.code s.registry ++
        bracket.closeCode =
      d.front v ++ (v.code s.registry ++ "[" ++ found.1.code s.registry ++ "]")
    rw [Bracket.openCode_of_ne hbracket, Bracket.closeCode_of_ne hbracket]
    simp only [List.append_assoc]

/-! ### One suffix -/

/-- The emitter behind the reader of a suffix: at the text it stands at, if there is no suffix. -/
def resumeSuffix (s : Scope) (nested : Option Nested) (ctx : Context) (d : Draft) (v : Value)
    (t : Text) : Option (Value × Text) → Except Stuck (Text × Text)
  | none => (d.value s.registry v).run s nested ctx t
  | some found => resume s nested ctx (d.value s.registry found.1, found.2)

section Suffix

variable {v : Value} {c : Char} {r rest text : Text} {bracket : Bracket}
  (ht : Text.trimStart t = c :: r) (hstop : isStop c = false)

include ht hstop

/-- Dots behind a value: one of them before a method, more are wrong. -/
theorem run_suffix_dots (hnot : v.isName = false)
    (hnext : Token.next (c :: r) = .ok (⟨.dots, text⟩, rest)) :
    ((d.value s.registry v).take s nested ctx ⟨.dots, text⟩ rest >>= resume s nested ctx) =
      readSuffix s inner ctx v t >>= resumeSuffix s nested ctx d v t := by
  obtain ⟨hne, htext⟩ := Token.eq_dots_of_next hnext rfl
  have htext : text = List.replicate text.length '.' := congrArg Token.text htext
  simp only [readSuffix, ht, hstop, hnext]
  by_cases hlong : 1 < text.length
  · rw [take_value_dots hnot, if_pos hlong]
    change _ = (if 1 < text.length then _ else _) >>= _
    rw [if_pos hlong]
    rfl
  have hone : text.length = 1 := by
    have hne : text.length ≠ 0 := hne
    omega
  obtain rfl : text = ['.'] := by
    rw [htext, hone]
    rfl
  rw [show Token.mk .dots ['.'] = Token.dot from rfl, run_method hlevels hnot]
  change needName ctx rest >>= _ = (needName ctx rest >>= _) >>= _
  cases needName ctx rest with
  | error stuck => rfl
  | ok found =>
    obtain ⟨name, after⟩ := found
    change (if _ then _ else if _ then _ else _) = (if _ then _ else if _ then _ else _) >>= _
    split
    · rfl
    split
    · rfl
    · rw [bind_assoc]
      refine congrArg (needChar ctx '(' after >>= ·) (funext fun _ => ?_)
      rw [bind_assoc]
      rfl

/-- An opening bracket behind a value: an index, or a call of what is no name. -/
theorem run_suffix_opening (hnot : bracket = .paren → v.isName = false)
    (hnext : Token.next (c :: r) = .ok (Token.opens bracket, rest)) :
    ((d.value s.registry v).take s nested ctx (Token.opens bracket) rest >>= resume s nested ctx) =
      readSuffix s inner ctx v t >>= resumeSuffix s nested ctx d v t := by
  simp only [readSuffix, ht, hstop, hnext]
  cases bracket with
  | paren =>
    have hclash : v.last.clash? (Token.opens .paren) .opening = none :=
      v.last_fits (by decide) (by decide)
    have hopens : v.last.opens .paren = .error (.unexpected (v.lastText ++ " (")) := by
      rw [Previous.opens, if_neg (Value.kind?_last (hnot rfl)), if_pos v.endsValue_last, v.text_last]
    rw [take_opening_error hclash hopens]
    rfl
  | brace | square =>
    rw [run_index hlevels (by decide)]
    change _ = (readSingle inner _ _ rest >>= _) >>= _
    rw [bind_assoc]
    rfl

omit hlevels in
/-- What neither goes on with a value nor ends it is wrong behind it. -/
theorem run_suffix_misfit {token : Token} (hnext : Token.next (c :: r) = .ok (token, rest))
    (hkind : token.kind = .name ∨ token.kind = .number ∨ token.kind = .quoted ∨
      token.kind = .unary ∨ token.kind = .crement) :
    ((d.value s.registry v).take s nested ctx token rest >>= resume s nested ctx) =
      readSuffix s inner ctx v t >>= resumeSuffix s nested ctx d v t := by
  obtain ⟨kind, text⟩ := token
  simp only [readSuffix, ht, hstop, hnext]
  rcases hkind with rfl | rfl | rfl | rfl | rfl
  · rw [take_of_clash rfl (v.last_misfits (by rintro ⟨⟩) (.inl rfl))]
    rfl
  · rw [take_of_clash rfl (v.last_misfits (by rintro ⟨⟩) (.inl rfl))]
    rfl
  · rw [take_of_clash rfl (v.last_misfits (by rintro ⟨⟩) (.inl rfl))]
    rfl
  · rw [take_of_clash rfl (v.last_misfits (by rintro ⟨⟩) (.inr rfl))]
    rfl
  · rw [take_crement rfl]
    rfl

end Suffix

/-- **A value with one more suffix**, if one is ahead. -/
theorem run_readSuffix {v : Value}
    (hname : v.isName = true →
      (Text.trimStart t).head? ≠ some '.' ∧ (Text.trimStart t).head? ≠ some '(') :
    (d.value s.registry v).run s nested ctx t =
      readSuffix s inner ctx v t >>= resumeSuffix s nested ctx d v t := by
  cases ht : Text.trimStart t with
  | nil =>
    simp only [readSuffix, ht]
    rfl
  | cons c r =>
    by_cases hstop : isStop c = true
    · simp only [readSuffix, ht, hstop]
      rfl
    have hstop : isStop c = false := by simpa using hstop
    cases hnext : Token.next (c :: r) with
    | error stuck =>
      rw [run_token rfl ht hstop, hnext]
      simp only [readSuffix, ht, hstop, hnext]
      rfl
    | ok next =>
      obtain ⟨⟨kind, text⟩, rest⟩ := next
      have hnot : c = '.' ∨ c = '(' → v.isName = false := fun hc => by
        rw [Bool.eq_false_iff]
        intro hv
        obtain ⟨hdot, hcall⟩ := hname hv
        rw [ht] at hdot hcall
        exact hc.elim (fun h => hdot (congrArg some h)) (fun h => hcall (congrArg some h))
      cases kind with
      | dots =>
        rw [run_next rfl ht hstop hnext]
        exact run_suffix_dots hlevels ht hstop (hnot (.inl (Token.eq_dot_of_next hnext rfl))) hnext
      | opening bracket =>
        rw [show Token.mk (.opening bracket) text = Token.opens bracket from
          Token.eq_opens_of_next hnext rfl] at hnext
        have hopener : some bracket.opener = some c := Token.head?_of_next hnext
        rw [run_next rfl ht hstop hnext]
        refine run_suffix_opening hlevels ht hstop (fun hparen => hnot (.inr ?_)) hnext
        subst hparen
        exact (Option.some.inj hopener).symm
      | name | number | quoted | unary | crement =>
        rw [run_next rfl ht hstop hnext]
        exact run_suffix_misfit ht hstop hnext (by simp)
      -- No suffix: the value is whole.
      | _ =>
        simp only [readSuffix, ht, hstop, hnext]
        rfl

/-- **A value with all the suffixes ahead.** -/
theorem run_readSuffixes {v : Value}
    (hname : v.isName = true →
      (Text.trimStart t).head? ≠ some '.' ∧ (Text.trimStart t).head? ≠ some '(') :
    (d.value s.registry v).run s nested ctx t =
      readSuffixes s inner ctx v t >>= fun found =>
        resume s nested ctx (d.value s.registry found.1, found.2) := by
  induction hlength : t.length using Nat.strongRecOn generalizing v t with
  | ind n ih =>
  rw [run_readSuffix hlevels hname, readSuffixes_step, bind_assoc]
  cases hsuffix : readSuffix s inner ctx v t with
  | error stuck => rfl
  | ok found =>
    obtain _ | ⟨v', rest⟩ := found
    · rfl
    · have hnot : v'.isName = true → (Text.trimStart rest).head? ≠ some '.' ∧
          (Text.trimStart rest).head? ≠ some '(' := fun hv => by
        rw [isName_of_readSuffix hsuffix] at hv
        cases hv
      exact ih _ (hlength ▸ (readSuffix_shorter hsuffix).2) hnot rfl

end Levels

end Draft

end Stencil
