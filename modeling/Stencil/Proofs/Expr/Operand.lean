import Stencil.Proofs.Expr.Hole
import Stencil.Proofs.Expr.Round

/-!
# Proofs/Expr/Operand — an operand on its way

    fresh ──name──▸ named ──.──▸ awaits ──name──▸ … ──▸ called ──(──▸ open ──)──▸ whole
      │                                                              ▴   │          │ ▴
      ╰──────────── number, text, bracket ───────────────────────────╯   ╰── , : ──╯ │ │
                                                    called ◂──name── awaits method ◂──╯ ╰──[── open

A run of the emitter is cut by marks: an operator sets one, and so does a sign.  Between the mark and
the text ahead stands a part of an operand, and a draft can be in few states there, each told by the
tokens since the mark and their code (`Operand`).  A round brings the operand forward or sets the next
mark (`Underway.advances`), so every draft of a run has such an operand behind its mark
(`Marked.underway`).  Behind a ternary nothing follows.
-/

namespace Stencil

namespace Draft

variable {s : Scope} {nested : Option Nested} {ctx : Context} {d d' : Draft} {t rest : Text}
  {n : Nat} {behind u : Text} {tokens : List Token} {token : Token}

/-! ## States -/

/-- The code of a draft behind the place where its span begins. -/
structure Spans (n : Nat) (code : Text) (d : Draft) : Prop where
  span : d.span = some n
  out : ∃ front, front.length = n ∧ d.out = front ++ code

/-- What is no operator leaves a span as it is. -/
theorem Spans.start {code : Text} {group : Token.Group} (h : d.Spans n code)
    (hgroup : group ≠ .operator) : (d.start group).Spans n code := by
  refine ⟨?_, h.out⟩
  change d.spanAfter group = some n
  rw [spanAfter, if_neg hgroup, if_neg (by simp [h.span]), h.span]

/-- **A draft that awaits a name**, with which the chain of its tokens goes on. -/
structure Awaits (n : Nat) (tokens : List Token) (d : Draft) : Prop extends d.Chaining where
  length : d.out.length = n
  avoids : d.chain.AvoidsReserved
  chain_tokens : ∀ name, (d.chain.push name).tokens = tokens ++ [Token.named name]

/-- Before its first token an operand may begin with a name. -/
theorem Fresh.awaits (h : d.Fresh) : Awaits d.out.length [] d where
  toChaining := h.chaining
  length := rfl
  avoids := by
    rw [h.chain]
    trivial
  chain_tokens name := by
    rw [h.chain]
    rfl

/-- A name of a chain, before a dot. -/
structure Named (n : Nat) (tokens : List Token) (d : Draft) (t : Text) : Prop
    extends d.Spans n [] where
  pending : d.pending = none
  methodNext : d.methodNext = false
  prev : ∃ name, d.prev = .token (Token.named name) .operand
  chain : d.chain.isEmpty = false
  avoids : d.chain.AvoidsReserved
  chain_tokens : ∀ name, (d.chain.push name).tokens = tokens ++ [Token.dot, Token.named name]
  ahead : (Text.trimStart t).head? = some '.'

/-- A name that is called, before the bracket of its arguments. -/
structure Called (s : Scope) (n : Nat) (hole : Hole) (d : Draft) (t : Text) : Prop
    extends d.Spans n (hole.code s.registry) where
  first : hole.first = .argument true
  wellFormed : hole.WellFormed s
  pending : d.pending = none
  methodNext : d.methodNext = false
  prev : ∃ name, d.prev = .token (Token.named name) .operand
  chain : d.chain = .fresh
  ahead : (Text.trimStart t).head? = some '('

/-- **A whole value.** -/
structure Whole (s : Scope) (n : Nat) (v : Value) (d : Draft) (t : Text) : Prop
    extends d.Spans n (v.code s.registry) where
  wellFormed : v.WellFormed s
  pending : d.pending = none
  methodNext : d.methodNext = false
  prev : d.prev = v.last
  chain : d.chain = .fresh
  /-- A chain that went on with a dot or was called is no bare name. -/
  ahead : v.isName = true →
    (Text.trimStart t).head? ≠ some '.' ∧ (Text.trimStart t).head? ≠ some '('

/-- A value and a dot, before the name of a method. -/
structure AwaitsMethod (s : Scope) (n : Nat) (v : Value) (d : Draft) : Prop
    extends d.Spans n (v.code s.registry) where
  wellFormed : v.WellFormed s
  isName : v.isName = false
  pending : d.pending = none
  methodNext : d.methodNext = true
  prev : d.prev = .token Token.dot .dot
  chain : d.chain = .fresh

/-- An open group with the parts it has so far, of which the last was read in the context `g`. -/
structure Open (s : Scope) (n : Nat) (hole : Hole) (items : Items) (g : Context) (d : Draft)
    (t : Text) : Prop
    extends d.Spans n
      (hole.code s.registry ++ hole.bracket.openCode ++ items.code s.registry) where
  wellFormed : hole.WellFormed s
  items_wellFormed : items.WellFormed s
  pending : d.pending = some g
  methodNext : d.methodNext = false
  prev : d.prev = .token (Token.opens hole.bracket) .opening
  chain : d.chain = .fresh
  stands : hole.Stands g items t

/-- **How far an operand has come** that begins at the place `n`: by its tokens so far, the draft
behind them, and the text ahead. -/
inductive Operand (s : Scope) (n : Nat) : List Token → Draft → Text → Prop
  | fresh {d : Draft} {t : Text} (h : d.Fresh) (hlength : d.out.length = n) : Operand s n [] d t
  | awaits {tokens : List Token} {d : Draft} {t : Text} (h : Awaits n tokens d)
      (hdot : d.prev.group? = some .dot) : Operand s n tokens d t
  | named {tokens : List Token} {d : Draft} {t : Text} (h : Named n tokens d t) :
      Operand s n tokens d t
  | called {hole : Hole} {d : Draft} {t : Text} (h : Called s n hole d t) :
      Operand s n hole.tokens d t
  | whole {v : Value} {d : Draft} {t : Text} (h : Whole s n v d t) : Operand s n v.tokens d t
  | method {v : Value} {d : Draft} {t : Text} (h : AwaitsMethod s n v d) :
      Operand s n (v.tokens ++ [Token.dot]) d t
  | opened {hole : Hole} {items : Items} {g : Context} {d : Draft} {t : Text}
      (h : Open s n hole items g d t) :
      Operand s n (hole.tokens ++ Token.opens hole.bracket :: items.tokens) d t

/-- The branches of a ternary, before their colon or the end of the expression. -/
def InTernary (d : Draft) (t : Text) : Prop :=
  d.pending = some .yes ∨
    d.pending = none ∧ d.prev = .ternary ∧ ∃ c r, Text.trimStart t = c :: r ∧ isStop c = true

/-- **What stands behind a mark**: an operand on its way, or a ternary. -/
def Underway (s : Scope) (n : Nat) (behind : Text) (d : Draft) (t : Text) : Prop :=
  d.InTernary t ∨ ∃ tokens, Reads behind tokens (Text.trimStart t) ∧ Operand s n tokens d t

end Draft

/-- Whether an operand begins behind a token: an operator, or the sign of the operand. -/
def Previous.leadsOperand (p : Previous) : Bool :=
  p.group? == some .operator || p.group? == some .unary

namespace Draft

variable {s : Scope} {nested : Option Nested} {ctx : Context} {d d' : Draft} {t rest : Text}
  {n : Nat} {behind u : Text} {tokens : List Token} {token : Token}

/-- **What a round makes of an operand**: more of it, or a new mark behind an operator or a sign. -/
def Advances (s : Scope) (n : Nat) (behind : Text) (d : Draft) (t : Text) : Prop :=
  d.prev.leadsOperand = true ∧ d.Fresh ∨ d.prev.leadsOperand = false ∧ Underway s n behind d t

theorem Operand.advances (h : Operand s n tokens d t)
    (hreads : Reads behind tokens (Text.trimStart t)) (hprev : d.prev.leadsOperand = false) :
    Advances s n behind d t :=
  .inr ⟨hprev, .inr ⟨tokens, hreads, h⟩⟩

/-! ## Names -/

section Names

variable {c chain : Chain} {name : Text} {next : Lookahead}

/-- A chain goes on behind a name with a dot behind it. -/
theorem goesOn_of_addName (hc : c.AvoidsReserved) (h : c.addName s name next = .ok (chain, none)) :
    next = .dot ∧ chain = c.push name ∧ (c.push name).AvoidsReserved := by
  by_cases hnext : next = .dot
  · subst hnext
    rw [Chain.addName_dot] at h
    split at h
    · cases h
    next hfree =>
    cases h
    exact ⟨rfl, rfl, hc.push fun hr => by simpa [hr] using hfree⟩
  · rw [Chain.addName_eq, if_neg hnext, if_neg hnext] at h
    split at h
    · cases h
    split at h
    · cases h
    · cases hresolve : (c.push name).resolve s (next = .call) with
      | error fault =>
        rw [hresolve] at h
        cases h
      | ok target =>
        rw [hresolve] at h
        cases h

/-- A chain ends with a name that gives it its meaning. -/
theorem denotes_of_addName {target : Reference} (hc : c.AvoidsReserved)
    (h : c.addName s name next = .ok (chain, some target)) :
    next ≠ .dot ∧ chain = .fresh ∧ (c.push name).Denotes s (next = .call) target := by
  have hnext : next ≠ .dot := by
    rintro rfl
    rw [Chain.addName_dot] at h
    split at h <;> cases h
  refine ⟨hnext, ?_, (Chain.addName_last_eq_ok_iff hc hnext).1 (by rw [h]; rfl)⟩
  rw [Chain.addName_eq, if_neg hnext, if_neg hnext] at h
  split at h
  · cases h
  next hfirst =>
  split at h
  · next hword =>
    cases h
    have hempty : c.isEmpty = true := by
      simpa [hword.1] using fun h => hfirst ⟨hword.1, .inl h⟩
    exact Chain.isEmpty_iff.1 hempty
  · cases hresolve : (c.push name).resolve s (next = .call) with
    | error fault =>
      rw [hresolve] at h
      cases h
    | ok target =>
      rw [hresolve] at h
      cases h
      rfl

/-- The tokens of a chain with one name more. -/
theorem tokens_push (hc : c.names ≠ []) (name : Text) :
    (c.push name).tokens = c.tokens ++ [Token.dot, Token.named name] := by
  obtain ⟨depth, names⟩ := c
  obtain ⟨first, later, rfl⟩ := List.exists_cons_of_ne_nil hc
  have hlater : Chain.laterTokens (later ++ [name]) =
      Chain.laterTokens later ++ [Token.dot, Token.named name] := List.flatMap_append
  change _ ++ Token.named first :: Chain.laterTokens (later ++ [name]) = _
  rw [hlater, Chain.tokens, List.append_assoc]
  rfl

end Names

/-- **A name where one is awaited**: the chain goes on at a dot, is called at a bracket, and is whole
elsewhere. -/
theorem Awaits.take_name (h : Awaits n tokens d) {name : Text}
    (htake : d.take s nested ctx (Token.named name) t = .ok (d', rest)) :
    rest = t ∧ d'.prev = .token (Token.named name) .operand ∧
      Operand s n (tokens ++ [Token.named name]) d' t := by
  have hlength := h.length
  rw [Draft.take_name h.toChaining] at htake
  split at htake
  · cases htake
  · next chain hadd =>
    cases htake
    obtain ⟨hdot, rfl, havoids⟩ := goesOn_of_addName h.avoids hadd
    refine ⟨rfl, rfl, .named ?_⟩
    exact {
      span := congrArg some hlength, out := ⟨d.out, hlength, (List.append_nil _).symm⟩
      pending := h.pending, methodNext := h.methodNext, prev := ⟨name, rfl⟩
      chain := by simp [Chain.isEmpty, Chain.push]
      avoids := havoids, ahead := Lookahead.of_eq_dot_iff.1 hdot
      chain_tokens := fun other => by
        rw [tokens_push (by simp [Chain.push]), h.chain_tokens] }
  · next chain target hadd =>
    cases htake
    obtain ⟨hdot, rfl, hdenotes⟩ := denotes_of_addName h.avoids hadd
    have hdot : (Text.trimStart t).head? ≠ some '.' := mt Lookahead.of_eq_dot_iff.2 hdot
    refine ⟨rfl, rfl, ?_⟩
    rw [← h.chain_tokens]
    by_cases hcall : (Text.trimStart t).head? = some '('
    · rw [decide_eq_true (Lookahead.of_eq_call_iff.2 hcall)] at hdenotes
      have hcalled : Called s n (.call (d.chain.push name) target) { d with
          prev := .token (Token.named name) .operand, started := true
          span := some d.out.length, chain := .fresh
          out := d.out ++ target.code s.registry } t :=
        { span := congrArg some hlength, out := ⟨d.out, hlength, rfl⟩, first := rfl
          wellFormed := hdenotes, pending := h.pending, methodNext := h.methodNext
          prev := ⟨name, rfl⟩, chain := rfl, ahead := hcall }
      exact .called hcalled
    · rw [decide_eq_false (mt Lookahead.of_eq_call_iff.1 hcall)] at hdenotes
      have hwhole : Whole s n (.name (d.chain.push name) target) { d with
          prev := .token (Token.named name) .operand, started := true
          span := some d.out.length, chain := .fresh
          out := d.out ++ target.code s.registry } t :=
        { span := congrArg some hlength, out := ⟨d.out, hlength, rfl⟩
          wellFormed := hdenotes, pending := h.pending, methodNext := h.methodNext
          prev := by simp [Value.last, Value.lastText, Chain.push]
          chain := rfl, ahead := fun _ => ⟨hdot, hcall⟩ }
      exact .whole hwhole

/-! ## Tokens -/

/-- Behind dots nothing but a name fits. -/
theorem name_of_clash? {p : Previous} {group : Token.Group} (hdot : p.group? = some .dot)
    (hclash : p.clash? token group = none) : token.kind = .name := by
  by_cases hname : token.kind = .name
  · exact hname
  by_cases hcrement : token.kind = .crement
  · rw [Previous.clash?, if_pos hcrement] at hclash
    cases hclash
  cases p with
  | start | ternary => cases hdot
  | token dots g =>
    obtain rfl : g = .dot := Option.some.inj hdot
    cases hclash.symm.trans (Previous.clash?_dot group hname hcrement)

/-- The name that a chain awaits behind its dots. -/
theorem Awaits.advances (h : Awaits n tokens d) (hdot : d.prev.group? = some .dot)
    (hreads : Reads behind tokens (Text.trimStart u))
    (hnext : Token.next (Text.trimStart u) = .ok (token, t))
    (htake : d.take s nested ctx token t = .ok (d', rest)) : Advances s n behind d' rest := by
  obtain ⟨kind, text⟩ := token
  obtain rfl : kind = .name := name_of_clash? hdot (take_cases htake).1
  obtain ⟨rfl, hprev, hoperand⟩ := h.take_name htake
  exact hoperand.advances (hreads.andThen (.singleton hnext))
    (congrArg Previous.leadsOperand hprev)

/-- The dot behind a name of a chain. -/
theorem Named.advances (h : Named n tokens d u) (hreads : Reads behind tokens (Text.trimStart u))
    (hnext : Token.next (Text.trimStart u) = .ok (token, t))
    (htake : d.take s nested ctx token t = .ok (d', rest)) : Advances s n behind d' rest := by
  have hmore := hreads.andThen (.singleton hnext)
  obtain ⟨name, hprev⟩ := h.prev
  have hname : ¬(d.prev.kind? ≠ some .name ∧ d.prev.endsValue) := by
    rw [hprev]
    exact fun hno => hno.1 rfl
  obtain ⟨r, ht⟩ := List.head?_eq_some_iff.1 h.ahead
  rw [ht, Token.next_dots] at hnext
  cases hnext
  rw [take_dots (take_cases htake).1 hname, Chain.addDots, h.chain,
    if_neg Bool.false_ne_true] at htake
  by_cases hrun : 1 < ('.' :: r.takeWhile (· == '.')).length
  · rw [if_pos hrun] at htake
    cases htake
  rw [if_neg hrun] at htake
  cases htake
  have hsingle : r.takeWhile (· == '.') = [] := by
    rw [List.length_cons] at hrun
    exact List.eq_nil_of_length_eq_zero (by omega)
  rw [hsingle] at hmore
  obtain ⟨front, hfront, hout⟩ := h.out
  have hlength : d.out.length = n := by rw [hout, List.append_nil, hfront]
  have hspan := (h.toSpans.start (by decide : Token.Group.dot ≠ .operator)).span
  refine Operand.advances (.awaits ?_ rfl) hmore rfl
  exact {
    pending := h.pending, leads := .dot (by rintro ⟨⟩), started := rfl, methodNext := h.methodNext
    span := .inr (hspan.trans (congrArg some hlength.symm)), length := hlength
    avoids := h.avoids
    chain_tokens := fun name => by
      rw [h.chain_tokens, List.append_assoc]
      rfl }

/-- **The name of a method behind a value**: the opener of the wrapper goes in front of the value. -/
theorem AwaitsMethod.advances {v : Value} (h : AwaitsMethod s n v d)
    (hreads : Reads behind (v.tokens ++ [Token.dot]) (Text.trimStart u))
    (hnext : Token.next (Text.trimStart u) = .ok (token, t))
    (htake : d.take s nested ctx token t = .ok (d', rest)) : Advances s n behind d' rest := by
  have hmore := hreads.andThen (.singleton hnext)
  rw [List.append_assoc] at hmore
  obtain ⟨kind, text⟩ := token
  obtain rfl : kind = .name := by
    refine name_of_clash? ?_ (take_cases htake).1
    rw [h.prev]
    rfl
  change d.take s nested ctx (Token.named text) t = _ at htake
  rw [take_method h.prev h.methodNext h.span] at htake
  split at htake
  · cases htake
  next hcall =>
  split at htake
  · cases htake
  next hmethod =>
  cases htake
  obtain ⟨front, hlength, hout⟩ := h.out
  have hcode : d.out.take n ++ s.registry.wrapper.opening ++ d.out.drop n ++ (")->" ++ text) =
      front ++ (Hole.method v text).code s.registry := by
    rw [hout, ← hlength, List.take_left, List.drop_left]
    change _ = front ++ (s.registry.wrapper.opening ++ v.code s.registry ++ ")->" ++ text)
    simp only [List.append_assoc]
  have hcalled : Called s n (.method v text) { d with
      prev := .token (Token.named text) .operand, started := true
      span := some n, methodNext := false
      out := d.out.take n ++ s.registry.wrapper.opening ++ d.out.drop n ++ (")->" ++ text) } t :=
    { span := rfl, out := ⟨front, hlength, hcode⟩, first := rfl
      wellFormed := ⟨h.wellFormed, h.isName, by simpa using hmethod⟩, pending := h.pending
      methodNext := rfl, prev := ⟨text, rfl⟩, chain := h.chain, ahead := by simpa using hcall }
  exact Operand.advances (.called hcalled) hmore rfl

/-- A sign fits only where there is none yet. -/
theorem Fresh.unsigned_of_clash? (h : d.Fresh) (hsign : token.isSign = true)
    (hclash : d.prev.clash? token .unary = none) : d.prev.group? ≠ some .unary := by
  intro hunary
  have hcrement : token.kind ≠ .crement := fun hk => by simp [Token.isSign, hk] at hsign
  rw [Previous.clash?, if_neg hcrement, if_neg (by simp [h.endsValue]), if_neg (by simp),
    if_neg fun hdot => h.noDot hdot.1, if_pos ⟨hunary, rfl⟩] at hclash
  cases hclash

/-- The sign of an operand. -/
theorem Fresh.advances_of_sign (h : d.Fresh) (hsign : token.isSign = true)
    (hnext : Token.next (Text.trimStart u) = .ok (token, t))
    (htake : d.take s nested ctx token t = .ok (d', rest)) : Advances s n behind d' rest := by
  obtain ⟨hclash, -⟩ := take_cases htake
  rw [h.group_sign hsign] at hclash
  rw [take_sign h (h.unsigned_of_clash? hsign hclash) hsign (Token.sign_of_next hnext hsign).2]
    at htake
  cases htake
  exact .inl ⟨rfl, h.signed token.text⟩

/-- The dots in front of a chain. -/
theorem Fresh.advances_of_dots (h : d.Fresh) {run : Text}
    (hreads : Reads behind [] (Text.trimStart u))
    (hnext : Token.next (Text.trimStart u) = .ok (⟨.dots, run⟩, t))
    (htake : d.take s nested ctx ⟨.dots, run⟩ t = .ok (d', rest)) :
    Advances s d.out.length behind d' rest := by
  obtain ⟨hlength, htext⟩ := Token.eq_dots_of_next hnext rfl
  have hspan : d.spanAfter .dot = some d.out.length := h.chaining.spanAfter rfl
  rw [take_dots (take_cases htake).1 (by simp [h.endsValue]), h.chain] at htake
  cases htake
  have hawaits : Awaits d.out.length [⟨.dots, run⟩] { d with
      prev := .token ⟨.dots, run⟩ .dot, started := true
      span := d.spanAfter .dot, chain := ⟨run.length, []⟩ } :=
    { pending := h.pending, leads := .dot nofun, started := rfl, methodNext := h.methodNext
      span := .inr hspan, length := rfl, avoids := trivial
      chain_tokens := fun name => by
        change Chain.tokens ⟨run.length, [name]⟩ = _
        rw [Chain.tokens, if_neg hlength]
        exact congrArg (fun dots => [dots] ++ [Token.named name]) htext.symm }
  exact Operand.advances (.awaits hawaits rfl) (hreads.andThen (.singleton hnext)) rfl

/-- **Behind an operator** an operand begins. -/
theorem fresh_of_operator {op : Token} {code : Text} {plusAt : Option Nat}
    (hop : op.isBinary = true) (hpending : d.pending = none) (hmethod : d.methodNext = false)
    (hchain : d.chain = .fresh) (hplus : (d.operated op code plusAt).PlusStands) :
    (d.operated op code plusAt).Fresh where
  pending := hpending
  leads := .operator fun hk => by simp [Token.isBinary, hk] at hop
  started := rfl
  methodNext := hmethod
  span := rfl
  chain := hchain
  noDot := nofun
  joined := hplus.length_joined

/-- The `?` of a ternary. -/
theorem advances_of_question {text : Text}
    (htake : d.take s nested ctx ⟨.question, text⟩ t = .ok (d', rest)) :
    Advances s n behind d' rest := by
  obtain ⟨-, d₁, hemit, rfl⟩ := take_cases htake
  change (if _ then _ else _) = _ at hemit
  split at hemit
  · cases hemit
  · obtain ⟨level, -, out, -, rfl⟩ := nest_cases hemit
    exact .inr ⟨rfl, .inl (.inl rfl)⟩

namespace Whole

variable {v : Value} (h : Whole s n v d u)

include h

/-- An operator behind a value. -/
theorem advances_of_operator (hop : token.isBinary = true)
    (htake : d.take s nested ctx token t = .ok (d', rest)) (hplus : d'.PlusStands) :
    Advances s n behind d' rest := by
  have hends : d.prev.group?.any Token.Group.endsValue = true :=
    (congrArg Previous.endsValue h.prev).trans v.endsValue_last
  have hgroup : token.group d.prev.group? = .operator := by
    obtain ⟨kind, text⟩ := token
    cases kind with
    | comparison | logic | elvis | arithmetic => rfl
    | plus | minus => exact if_pos hends
    | _ => cases hop
  obtain ⟨-, d₁, hemit, rfl⟩ := take_cases htake
  rw [hgroup] at hemit hplus ⊢
  refine .inl ⟨rfl, ?_⟩
  obtain ⟨kind, text⟩ := token
  cases kind with
  | comparison | logic | elvis | arithmetic | minus =>
    cases hemit
    exact fresh_of_operator rfl h.pending h.methodNext h.chain hplus
  | plus =>
    change (if d.prev.kind? = some .quoted then _ else _) = _ at hemit
    split at hemit
    · cases hemit
      exact fresh_of_operator rfl h.pending h.methodNext h.chain hplus
    · cases hemit
      exact fresh_of_operator rfl h.pending h.methodNext h.chain hplus
  | _ => cases hop

/-- A dot behind a value. -/
theorem advances_of_dots {run : Text} (hreads : Reads behind v.tokens (Text.trimStart u))
    (hnext : Token.next (Text.trimStart u) = .ok (⟨.dots, run⟩, t))
    (htake : d.take s nested ctx ⟨.dots, run⟩ t = .ok (d', rest)) : Advances s n behind d' rest := by
  obtain ⟨hne, htext⟩ := Token.eq_dots_of_next hnext rfl
  have hname : v.isName = false := by
    obtain ⟨c, r, ht⟩ := Token.exists_cons_of_next hnext
    refine Bool.eq_false_iff.2 fun hname => (h.ahead hname).1 ?_
    rw [ht] at hnext ⊢
    rw [Token.eq_dot_of_next hnext rfl]
    rfl
  have hvalue : (d.start .dot).prev.kind? ≠ some .name ∧ (d.start .dot).prev.endsValue = true := by
    rw [show (d.start .dot).prev = v.last from h.prev]
    exact ⟨Value.kind?_last hname, v.endsValue_last⟩
  obtain ⟨-, d₁, hemit, rfl⟩ := take_cases htake
  change before t ((d.start .dot).emitDots run) = _ at hemit
  rw [emitDots, if_pos hvalue] at hemit
  split at hemit
  · cases hemit
  next hshort =>
  cases hemit
  have hone : run.length = 1 := by
    have hne : run.length ≠ 0 := hne
    omega
  have hdot : Token.mk .dots run = Token.dot := by
    rw [htext]
    exact congrArg (fun n => Token.mk .dots (List.replicate n '.')) hone
  have hmore := hreads.andThen (.singleton hnext)
  have hspans := h.toSpans.start (by decide : Token.Group.dot ≠ .operator)
  rw [hdot] at hmore ⊢
  refine Operand.advances (.method ?_) hmore rfl
  exact {
    span := hspans.span, out := hspans.out, wellFormed := h.wellFormed, isName := hname
    pending := h.pending, methodNext := rfl, prev := rfl, chain := h.chain }

end Whole

/-! ## Groups -/

section Levels

variable (hnested : ∀ level ∈ nested, level.Writes s)

include hnested

/-- **A group that opens**, with its first part. -/
theorem advances_of_opens (hole : Hole) (hhole : hole.WellFormed s) (hmethod : d.methodNext = false)
    (hspans : (d.start .opening).Spans n (hole.code s.registry)) (hchain : d.chain = .fresh)
    (hopens : d.prev.opens hole.bracket = .ok hole.first)
    (hreads : Reads behind hole.tokens (Text.trimStart u))
    (hnext : Token.next (Text.trimStart u) = .ok (Token.opens hole.bracket, t))
    (htake : d.take s nested ctx (Token.opens hole.bracket) t = .ok (d', rest)) :
    Advances s n behind d' rest := by
  obtain ⟨hclash, -⟩ := take_cases htake
  rw [take_opening hclash hopens] at htake
  obtain ⟨⟨d₁, r⟩, hnest, heq⟩ := bind_eq_ok_iff.1 htake
  cases heq
  obtain ⟨level, hlevel, out, hemit, rfl⟩ := nest_cases hnest
  obtain ⟨c, r, rfl, hends⟩ := (hnested level hlevel).ends _ _ _ _ hemit
  have htrim : Text.trimStart (c :: r) = c :: r :=
    Text.trimStart_cons (not_isBlank_of_isStop (Context.isStop_of_ends hends)) r
  obtain ⟨hspan, front, hlength, hout⟩ := hspans
  have hcode : ∀ code, d.out ++ hole.bracket.openCode ++ code =
      front ++ (hole.code s.registry ++ hole.bracket.openCode ++ code) := fun code => by
    rw [show d.out = _ from hout]
    simp only [List.append_assoc]
  have hopened : ∀ (items : Items) (code : Text), items.WellFormed s →
      code = items.code s.registry → hole.Stands hole.first items (c :: r) →
      Open s n hole items hole.first { ((d.start .opening).write hole.bracket.openCode).write code with
        prev := .token (Token.opens hole.bracket) .opening, pending := some hole.first } (c :: r) := by
    rintro items _ hitems rfl hstands
    exact {
      span := hspan, out := ⟨front, hlength, hcode _⟩, wellFormed := hhole
      items_wellFormed := hitems, pending := rfl, methodNext := hmethod, prev := rfl
      chain := hchain, stands := hstands }
  rcases (hnested level hlevel).written _ _ _ _ hemit with ⟨hempty, rfl, hrest⟩ |
    ⟨e, he, heReads, rfl⟩
  · have hallows : hole.first.allowsEmpty c = true := by
      rw [← emptyAhead_of_cons hrest.symm, hempty]
    obtain rfl := Hole.eq_closer_of_allowsEmpty hallows
    refine Operand.advances (.opened (hopened .empty [] trivial rfl
      (.inr ⟨rfl, rfl, hallows, congrArg List.head? htrim⟩))) (hreads.andThen (.token hnext ?_)) rfl
    exact Reads.nil_iff.2 (hrest.symm.trans htrim.symm)
  · refine Operand.advances (.opened (hopened (.item .empty e) _ ⟨trivial, he⟩ rfl
      (.inl (hole.holds_first e)))) (hreads.andThen (.token hnext ?_)) rfl
    exact htrim.symm ▸ heReads

/-- **What follows a part of an open group**: another part, or the closer, and then the group is a
value. -/
theorem Open.advances {hole : Hole} {items : Items} {g : Context} (h : Open s n hole items g d u)
    (hreads : Reads behind (hole.tokens ++ Token.opens hole.bracket :: items.tokens)
      (Text.trimStart u))
    (hclose : { d with pending := none }.closeOrContinue nested g (Text.trimStart u) =
      .ok (d', rest)) : Advances s n behind d' rest := by
  obtain ⟨front, hlength, hout⟩ := h.out
  obtain ⟨c, r, ht, ⟨bracket, hturn, rfl, rfl⟩ | ⟨_, hturn, -⟩ | ⟨next, -, hturn, hnest⟩⟩ :=
    closeOrContinue_cases hclose
  · obtain ⟨hbracket, rfl⟩ := Context.closer_of_turn hturn
    obtain rfl := Option.some.inj (hbracket.symm.trans h.stands.bracket?)
    obtain ⟨v, hfill, hv⟩ := h.stands.fill h.wellFormed h.items_wellFormed
    obtain ⟨hlast, hname⟩ := Hole.last_fill hfill
    have hcode : d.out ++ hole.bracket.closeCode = front ++ v.code s.registry := by
      rw [hout, Hole.code_fill h.wellFormed hfill, List.append_assoc]
    have hwhole : Whole s n v ({ d with pending := none }.close hole.bracket) rest :=
      { span := h.span, out := ⟨front, hlength, hcode⟩, wellFormed := hv, pending := rfl
        methodNext := h.methodNext, prev := hlast.symm, chain := h.chain, ahead := by simp [hname] }
    have hcloses : Reads u [Token.closes hole.bracket] (Text.trimStart rest) :=
      Reads.singleton (by rw [ht, Token.next_closer])
    refine Operand.advances (.whole hwhole) ?_ rfl
    rw [Hole.tokens_fill hfill]
    simpa only [List.append_assoc, List.cons_append] using hreads.andThen hcloses
  · exact absurd rfl ((h.stands.holds ht hturn).ne_no (Context.after?_of_turn hturn))
  · have hafter := Context.after?_of_turn hturn
    have hc := Context.delimiter_of_after? hafter
    obtain ⟨level, hlevel, out, hemit, rfl⟩ := nest_cases hnest
    obtain ⟨c', r', rfl, hends⟩ := (hnested level hlevel).ends _ _ _ _ hemit
    have htrim : Text.trimStart (c' :: r') = c' :: r' :=
      Text.trimStart_cons (not_isBlank_of_isStop (Context.isStop_of_ends hends)) r'
    rcases (hnested level hlevel).written _ _ _ _ hemit with ⟨hempty, -⟩ | ⟨e, he, heReads, rfl⟩
    · rw [emptyAhead_of_forall (Context.allowsEmpty_of_after? hafter)] at hempty
      cases hempty
    obtain ⟨more, hholds, hmore, hcode, htokens⟩ :=
      (h.stands.holds ht hturn).next h.items_wellFormed he hc hafter
    have hdelimiter : Token.next (Text.trimStart u) =
        .ok (if c = ':' then Token.colon else Token.comma, r) := by
      rw [ht]
      rcases hc with rfl | rfl
      · exact Token.next_comma r
      · exact Token.next_colon r
    have hpart : d.out ++ (if g.isKey ∧ c = ':' then " => " else ", " : Text) ++
        e.code s.registry =
        front ++ (hole.code s.registry ++ hole.bracket.openCode ++ more.code s.registry) := by
      rw [hout, hcode]
      simp only [List.append_assoc]
    have hopened : Open s n hole more next
        { ({ d with pending := none }.write
            (if g.isKey ∧ c = ':' then " => " else ", " : Text)).write (e.code s.registry) with
          pending := some next } (c' :: r') :=
      { span := h.span, out := ⟨front, hlength, hpart⟩, wellFormed := h.wellFormed
        items_wellFormed := hmore, pending := rfl, methodNext := h.methodNext, prev := h.prev
        chain := h.chain, stands := .inl hholds }
    refine Operand.advances (.opened hopened) ?_ (congrArg Previous.leadsOperand h.prev)
    rw [htokens, htrim]
    simpa only [List.append_assoc, List.cons_append] using
      hreads.andThen (.token hdelimiter heReads)

/-- The arguments of a name that is called. -/
theorem Called.advances {hole : Hole} (h : Called s n hole d u)
    (hreads : Reads behind hole.tokens (Text.trimStart u))
    (hnext : Token.next (Text.trimStart u) = .ok (token, t))
    (htake : d.take s nested ctx token t = .ok (d', rest)) : Advances s n behind d' rest := by
  have hbracket : hole.bracket = .paren := by
    have hfirst := h.first
    cases hole with
    | call | method => rfl
    | literal | paren | index => cases hfirst
  obtain ⟨r, ht⟩ := List.head?_eq_some_iff.1 h.ahead
  have hopen : Token.next (Text.trimStart u) = .ok (Token.opens hole.bracket, r) := by
    rw [ht, hbracket]
    exact Token.next_opener .paren r
  cases hnext.symm.trans hopen
  refine advances_of_opens hnested hole h.wellFormed h.methodNext (h.toSpans.start nofun) h.chain ?_
    hreads hopen htake
  obtain ⟨name, hprev⟩ := h.prev
  rw [hprev, hbracket, h.first]
  rfl

/-- **A group that begins a value.** -/
theorem Fresh.advances_of_opens (h : d.Fresh) {bracket : Bracket}
    (hreads : Reads behind [] (Text.trimStart u))
    (hnext : Token.next (Text.trimStart u) = .ok (Token.opens bracket, t))
    (htake : d.take s nested ctx (Token.opens bracket) t = .ok (d', rest)) :
    Advances s d.out.length behind d' rest := by
  have hspan : d.spanAfter .opening = some d.out.length := h.chaining.spanAfter rfl
  have hspans : (d.start .opening).Spans d.out.length [] :=
    ⟨hspan, d.out, rfl, (List.append_nil _).symm⟩
  by_cases hbracket : bracket = .paren
  · subst hbracket
    refine Draft.advances_of_opens hnested .paren trivial h.methodNext hspans h.chain ?_ hreads
      hnext htake
    exact (if_neg h.kind?_ne_name).trans (if_neg (by simp [h.endsValue]))
  · refine Draft.advances_of_opens hnested (.literal bracket) hbracket h.methodNext hspans h.chain
      ?_ hreads hnext htake
    change d.prev.opens bracket = _
    rw [Previous.opens, if_neg (by simp [h.endsValue])]
    · rfl
    · exact hbracket

/-- **What begins an operand**: its sign, or the first token of its value. -/
theorem Fresh.advances (h : d.Fresh) (hreads : Reads behind [] (Text.trimStart u))
    (hnext : Token.next (Text.trimStart u) = .ok (token, t))
    (htake : d.take s nested ctx token t = .ok (d', rest)) :
    Advances s d.out.length behind d' rest := by
  have hmore : Reads behind [token] (Text.trimStart t) := hreads.andThen (.singleton hnext)
  have hspan : d.spanAfter .operand = some d.out.length := h.chaining.spanAfter rfl
  obtain ⟨hclash, d₁, hemit, hd'⟩ := take_cases htake
  obtain ⟨kind, text⟩ := token
  cases kind with
  | name =>
    obtain ⟨rfl, hprev, hoperand⟩ := h.awaits.take_name htake
    exact hoperand.advances hmore (congrArg Previous.leadsOperand hprev)
  | number =>
    cases hemit
    subst hd'
    have hwhole : Whole s d.out.length (.number text) { (d.start .operand).write text with
        prev := .token ⟨.number, text⟩ .operand } t :=
      { span := hspan, out := ⟨d.out, rfl, rfl⟩, wellFormed := trivial, pending := h.pending
        methodNext := h.methodNext, prev := rfl, chain := h.chain, ahead := nofun }
    exact Operand.advances (.whole hwhole) hmore rfl
  | quoted =>
    cases hemit
    subst hd'
    have hwhole : Whole s d.out.length (.quoted text) { d.start .operand with
        prev := .token ⟨.quoted, text⟩ .operand, out := d.joined ++ quotedCode text } t :=
      { span := hspan, out := ⟨d.joined, h.joined, rfl⟩, wellFormed := trivial
        pending := h.pending, methodNext := h.methodNext, prev := rfl, chain := h.chain
        ahead := nofun }
    exact Operand.advances (.whole hwhole) hmore rfl
  | dots => exact h.advances_of_dots hreads hnext htake
  | opening bracket =>
    obtain rfl : text = [bracket.opener] := congrArg Token.text (Token.eq_opens_of_next hnext rfl)
    exact h.advances_of_opens hnested hreads hnext htake
  | unary | plus | minus => exact h.advances_of_sign rfl hnext htake
  | crement => cases hclash.symm.trans (if_pos rfl)
  | comparison | logic | elvis | arithmetic =>
    cases hclash.symm.trans (h.misfits nofun (.inl rfl))
  | question | colon | comma => cases hclash.symm.trans (h.misfits nofun (.inr (.inl rfl)))
  | closing => cases hclash.symm.trans (h.misfits nofun (.inr (.inr rfl)))
  | space => cases hemit

/-- A bracket behind a value. -/
theorem Whole.advances_of_opens {v : Value} (h : Whole s n v d u) {bracket : Bracket}
    (hreads : Reads behind v.tokens (Text.trimStart u))
    (hnext : Token.next (Text.trimStart u) = .ok (Token.opens bracket, t))
    (htake : d.take s nested ctx (Token.opens bracket) t = .ok (d', rest)) :
    Advances s n behind d' rest := by
  by_cases hbracket : bracket = .paren
  · subst hbracket
    have hname : v.isName = false := by
      obtain ⟨c, r, ht⟩ := Token.exists_cons_of_next hnext
      refine Bool.eq_false_iff.2 fun hname => (h.ahead hname).2 ?_
      rw [ht] at hnext ⊢
      exact (Token.head?_of_next hnext).symm
    have hopens : d.prev.opens .paren = .error (.unexpected (d.prev.text ++ " (")) := by
      rw [h.prev, Previous.opens, if_neg (Value.kind?_last hname), if_pos v.endsValue_last]
    rw [take_opening_error (take_cases htake).1 hopens] at htake
    cases htake
  · refine Draft.advances_of_opens hnested (.index v bracket) ⟨h.wellFormed, hbracket⟩ h.methodNext
      (h.toSpans.start (by decide)) h.chain ?_ hreads hnext htake
    change d.prev.opens bracket = _
    rw [h.prev, Previous.opens, if_pos v.endsValue_last]
    · rfl
    · exact hbracket

/-- **What follows a value**: an operator, a dot, an index or a ternary. -/
theorem Whole.advances {v : Value} (h : Whole s n v d u)
    (hreads : Reads behind v.tokens (Text.trimStart u))
    (hnext : Token.next (Text.trimStart u) = .ok (token, t))
    (htake : d.take s nested ctx token t = .ok (d', rest)) (hplus : d'.PlusStands) :
    Advances s n behind d' rest := by
  obtain ⟨hclash, d₁, hemit, -⟩ := take_cases htake
  rw [h.prev] at hclash
  obtain ⟨kind, text⟩ := token
  cases kind with
  | comparison | logic | elvis | arithmetic | minus | plus =>
    exact h.advances_of_operator rfl htake hplus
  | dots => exact h.advances_of_dots hreads hnext htake
  | opening bracket =>
    obtain rfl : text = [bracket.opener] := congrArg Token.text (Token.eq_opens_of_next hnext rfl)
    exact h.advances_of_opens hnested hreads hnext htake
  | question => exact advances_of_question htake
  | name | number | quoted => cases hclash.symm.trans (v.last_misfits nofun (.inl rfl))
  | unary => cases hclash.symm.trans (v.last_misfits nofun (.inr rfl))
  | crement => cases hclash.symm.trans (if_pos rfl)
  | colon | comma | closing | space => cases hemit

/-- The branches of a ternary, up to their end. -/
theorem InTernary.advances (h : d.InTernary u)
    (hround : d.round s nested ctx u = .ok (.more d' rest)) : Advances s n behind d' rest := by
  rcases round_cases hround with ⟨group, hgroup, hclose⟩ | ⟨hpending, c, r, _, _, ht, hstop, -, -⟩
  · rcases h with hyes | ⟨hnone, -, -⟩
    · cases hyes.symm.trans hgroup
      obtain ⟨c, r, -, ⟨bracket, hturn, -⟩ | ⟨d₁, -, hnest, rfl⟩ | ⟨next, hno, hturn, -⟩⟩ :=
        closeOrContinue_cases hclose
      · cases (Context.closer_of_turn hturn).1
      · obtain ⟨level, hlevel, out, hemit, rfl⟩ := nest_cases hnest
        obtain ⟨c', r', rfl, hends⟩ := (hnested level hlevel).ends _ _ _ _ hemit
        exact .inr ⟨rfl, .inl (.inr ⟨rfl, rfl, c', r',
          Text.trimStart_cons (not_isBlank_of_isStop hends) r', hends⟩)⟩
      · have hafter := Context.after?_of_turn hturn
        change (if c = ':' then some Context.no else none) = some next at hafter
        split at hafter
        · exact absurd (Option.some.inj hafter).symm hno
        · cases hafter
    · cases hnone.symm.trans hgroup
  · rcases h with hyes | ⟨-, -, c', r', ht', hstop'⟩
    · cases hyes.symm.trans hpending
    · cases ht.symm.trans ht'
      cases hstop.symm.trans hstop'

/-! ## Rounds -/

/-- **A round brings an operand forward.** -/
theorem Underway.advances (h : Underway s n behind d u)
    (hround : d.round s nested ctx u = .ok (.more d' rest)) (hplus : d'.PlusStands) :
    Advances s n behind d' rest := by
  rcases h with hternary | ⟨tokens, hreads, hoperand⟩
  · exact hternary.advances hnested hround
  rcases round_cases hround with ⟨g, hgroup, hclose⟩ |
    ⟨hpending, c, r, token, t, ht, -, hnext, htake⟩
  · cases hoperand with
    | opened h =>
      cases h.pending.symm.trans hgroup
      exact h.advances hnested hreads hclose
    | fresh h | awaits h | named h | called h | whole h | method h =>
      cases h.pending.symm.trans hgroup
  · rw [← ht] at hnext
    cases hoperand with
    | fresh h hlength =>
      subst hlength
      exact h.advances hnested hreads hnext htake
    | awaits h hdot => exact h.advances hdot hreads hnext htake
    | named h => exact h.advances hreads hnext htake
    | called h => exact h.advances hnested hreads hnext htake
    | whole h => exact h.advances hnested hreads hnext htake hplus
    | method h => exact h.advances hreads hnext htake
    | opened h => cases hpending.symm.trans h.pending

end Levels

/-! ## Runs -/

/-- **The drafts that a run goes through, each with the mark of its operand**: where the code ended
behind the last operator or the sign of the operand, and the text that was ahead there. -/
inductive Marked (s : Scope) (nested : Option Nested) (ctx : Context) (t : Text) :
    Nat → Text → Draft → Text → Prop
  | start : Marked s nested ctx t 0 t {} t
  | leads {n : Nat} {behind u rest : Text} {d d' : Draft} (h : Marked s nested ctx t n behind d u)
      (hround : d.round s nested ctx u = .ok (.more d' rest))
      (hleads : d'.prev.leadsOperand = true) :
      Marked s nested ctx t d'.out.length rest d' rest
  | inside {n : Nat} {behind u rest : Text} {d d' : Draft} (h : Marked s nested ctx t n behind d u)
      (hround : d.round s nested ctx u = .ok (.more d' rest))
      (hleads : d'.prev.leadsOperand = false) : Marked s nested ctx t n behind d' rest

/-- Every draft on the way has a mark. -/
theorem Reached.exists_marked (h : Reached s nested ctx t d rest) :
    ∃ n behind, Marked s nested ctx t n behind d rest := by
  induction h with
  | start => exact ⟨0, t, .start⟩
  | @round d d' _ _ _ hround ih =>
    obtain ⟨n, behind, hmarked⟩ := ih
    cases hleads : d'.prev.leadsOperand with
    | true => exact ⟨_, _, hmarked.leads hround hleads⟩
    | false => exact ⟨_, _, hmarked.inside hround hleads⟩

namespace Marked

/-- Behind every binary `+` the code ends with it. -/
theorem plusStands (h : Marked s nested ctx t n behind d rest) : d.PlusStands := by
  induction h with
  | start => exact nofun
  | leads _ hround _ ih => exact plusStands_of_round ih hround
  | inside _ hround _ ih => exact plusStands_of_round ih hround

/-- **Behind every mark stands an operand on its way**, by induction on the rounds. -/
theorem underway (hnested : ∀ level ∈ nested, level.Writes s)
    (h : Marked s nested ctx t n behind d rest) : Underway s n behind d rest := by
  induction h with
  | start =>
    have hfresh : ({} : Draft).Fresh := ⟨⟨rfl, .start, rfl⟩, rfl, rfl, rfl, nofun, rfl⟩
    exact .inr ⟨[], .done t, .fresh hfresh rfl⟩
  | @leads n behind u rest d d' h hround hleads ih =>
    rcases ih.advances hnested hround (plusStands_of_round h.plusStands hround) with
      ⟨-, hfresh⟩ | ⟨hinside, -⟩
    · exact .inr ⟨[], .done rest, .fresh hfresh rfl⟩
    · cases hinside.symm.trans hleads
  | @inside n behind u rest d d' h hround hinside ih =>
    rcases ih.advances hnested hround (plusStands_of_round h.plusStands hround) with
      ⟨hleads, -⟩ | ⟨-, hunderway⟩
    · cases hinside.symm.trans hleads
    · exact hunderway

end Marked

end Draft

end Stencil
