import Stencil.Proofs.Expr.Feed

/-!
# Proofs/Expr/Emitter — the code of an expression in one pass

    text ──round──▸ draft, text ──round──▸ draft, text ── … ──▸ code, text

The reader builds a tree, and the tree has a code.  The emitter has no tree: it writes the code as it
goes from token to token, and what it must know of the tokens behind it stands in a `Draft`.  It
goes back into the code that is written twice: to put the opener of the wrapper in front of a value
(`insertOpener`), and to turn a `+` into the joining of texts (`joined`).  A round that opens a group
leaves it pending, and the next round closes it or goes on with its next part.

This module holds the emitter; that it writes what the tree stands for is shown elsewhere.
-/

namespace Stencil

/-! ## The token before -/

/-- What stands before the next token of an expression. -/
inductive Previous
  | start
  /-- A token, in the group it has at its place. -/
  | token (token : Token) (group : Token.Group)
  /-- A whole ternary. -/
  | ternary
  deriving DecidableEq, Repr

namespace Previous

def kind? : Previous → Option Token.Kind
  | token t _ => some t.kind
  | _ => none

def group? : Previous → Option Token.Group
  | start => none
  | token _ group => some group
  | ternary => some .operand

def text? : Previous → Option Text
  | token t _ => some t.text
  | _ => none

/-- The text of the token before, if there is one. -/
def text (p : Previous) : Text := p.text?.getD []

/-- Whether a value is complete. -/
def endsValue (p : Previous) : Bool := p.group?.any Token.Group.endsValue

/-- Whether a value must follow. -/
def wantsValue (p : Previous) : Bool :=
  match p.group? with
  | none | some .dot | some .operator | some .delimiter | some .unary => true
  | _ => false

/-- **Why a token cannot follow**, if it cannot. -/
def clash? (p : Previous) (next : Token) (group : Token.Group) : Option Fault :=
  if next.kind = .crement then some .increment
  else if p.endsValue ∧ (group = .operand ∨ group = .unary) then some (misfit p.text? next)
  else if p.wantsValue ∧ (group = .operator ∨ group = .delimiter ∨ group = .closing) then
    some (misfit p.text? next)
  else if p.group? = some .dot ∧ next.kind ≠ .name then some (misfit p.text? next)
  else if p.group? = some .unary ∧ group = .unary then some (.chainedUnary p.text next.text)
  else if p.group? = some .unary ∧ next.kind = .quoted then some (misfit p.text? next)
  else none

/-- The context behind an opening bracket: right behind a name it calls or indexes, behind another
value it indexes, and else it starts a value. -/
def opens (p : Previous) (bracket : Bracket) : Except Fault Context :=
  match bracket with
  | .paren =>
    if p.kind? = some .name then .ok (.argument true)
    else if p.endsValue then .error (.unexpected (p.text ++ " ("))
    else .ok .paren
  | bracket => if p.endsValue then .ok (.index bracket) else .ok (.item bracket .first)

end Previous

/-! ## Contexts -/

namespace Bracket

/-- The bracket that opens a group in the code. -/
def openCode : Bracket → Text
  | paren => "("
  | _ => "["

/-- The bracket that closes a group in the code. -/
def closeCode : Bracket → Text
  | paren => ")"
  | _ => "]"

end Bracket

namespace Context

/-- Whether nothing at all may stand before a character: only before the closer of a group that has
no delimiter yet. -/
def allowsEmpty : Context → Char → Bool
  | argument true, c => c == ')'
  | item bracket .first, c => c == bracket.closer
  | _, _ => false

/-- Whether a `:` stands between a key and its value. -/
def isKey : Context → Bool
  | item _ .first | item _ .later => true
  | _ => false

/-- What a character behind a part of a group does. -/
inductive Turn
  /-- It closes the group. -/
  | close (bracket : Bracket)
  /-- It leads to the next part. -/
  | next (ctx : Context)

/-- **Whether a group takes the character behind one of its parts**, and what it does there. -/
def turn (group : Context) (c : Char) : Except Fault Turn :=
  match group.bracket?.filter fun bracket => bracket.closer == c with
  | some bracket => .ok (.close bracket)
  | none =>
    if c ≠ ',' ∧ c ≠ ':' then .error (group.misplaced c)
    else
      match group.after? c with
      | none => .error (.strayDelimiter c)
      | some next => .ok (.next next)

end Context

/-! ## Drafts -/

/-- **What is known of an expression up to a token.** -/
structure Draft where
  prev : Previous := .start
  /-- The code that is written. -/
  out : Text := []
  /-- Whether a token was read. -/
  started : Bool := false
  /-- Where the value begins that a wrapper method would apply to. -/
  span : Option Nat := none
  /-- Whether the next name is a method of the value before it. -/
  methodNext : Bool := false
  /-- Where the last ` + ` stands. -/
  plusAt : Option Nat := none
  /-- The context of the last part of an open group. -/
  pending : Option Context := none
  /-- Whether the expression has its ternary. -/
  ternaryDone : Bool := false
  chain : Chain := .fresh

namespace Draft

/-- The draft with more code. -/
def write (d : Draft) (code : Text) : Draft := { d with out := d.out ++ code }

/-- Where the span begins once a token has come. -/
def spanAfter (d : Draft) (group : Token.Group) : Option Nat :=
  if group = .operator then none
  else if d.span = none ∧ group.startsSpan then some d.out.length
  else d.span

/-- **Puts the opener of the wrapper in front of the value.** -/
def insertOpener (s : Scope) (d : Draft) : Except Fault Draft :=
  match d.span with
  | none => .error .noSpan
  | some n => .ok { d with out := d.out.take n ++ s.registry.wrapper.opening ++ d.out.drop n }

/-- The code before a quoted text: a ` + ` at its end joins texts. -/
def joined (d : Draft) : Text :=
  if d.prev.kind? = some .plus ∧ d.prev.group? = some .operator then
    match d.plusAt with
    | none => d.out
    | some n => d.out.take n ++ " . " ++ d.out.drop (n + 3)
  else d.out

/-- Why the expression cannot end before a character, if it cannot. -/
def unfinished? (ctx : Context) (d : Draft) (c : Char) : Option Fault :=
  if d.started = false then if ctx.allowsEmpty c then none else some (.missingExpression c)
  else
    match d.prev.group? with
    | some .operator | some .unary | some .dot => some (.danglingEnd d.prev.text)
    | _ => none

end Draft

/-! ## Rounds -/

theorem Shorter.of_suffix (c : Char) {rest t : Text} (h : rest <:+ t) : Shorter rest (c :: t) :=
  ⟨h.trans (List.suffix_cons c t), Nat.lt_succ_of_le h.length_le⟩

/-- What emits the code of expressions one level down. -/
structure Nested where
  emit : Context → Text → Except Stuck (Text × Text)
  suffix : ∀ {ctx t out rest}, emit ctx t = .ok (out, rest) → rest <:+ t

/-- What a round of the emitter comes to. -/
inductive Round
  /-- The expression ends: its code, and the text ahead. -/
  | done (out rest : Text)
  | more (draft : Draft) (rest : Text)

namespace Draft

/-- What was done before a text, which is left. -/
def before {α : Type} (rest : Text) : Except Fault α → Except Stuck (α × Text)
  | .error fault => .error ⟨fault, rest⟩
  | .ok a => .ok (a, rest)

/-- The code of an expression one level down, and its context, which is left pending. -/
def nest (nested : Option Nested) (d : Draft) (ctx : Context) (t : Text) :
    Except Stuck (Draft × Text) :=
  match nested with
  | none => .error ⟨.tooDeep maxNesting, t⟩
  | some nested =>
    nested.emit ctx t >>= fun found =>
      .ok ({ d.write found.1 with pending := some ctx }, found.2)

/-- The draft behind the closing bracket of a group. -/
def close (d : Draft) (bracket : Bracket) : Draft :=
  { d.write bracket.closeCode with prev := .token (Token.closes bracket) .closing, pending := none }

/-- The draft behind the branches of a ternary. -/
def endTernary (d : Draft) : Draft :=
  { d.write ")" with prev := .ternary, ternaryDone := true, pending := none }

/-- **What follows a part of a group**: the closer of the group, or a delimiter and the next part. -/
def closeOrContinue (nested : Option Nested) (d : Draft) (group : Context) (t : Text) :
    Except Stuck (Draft × Text) :=
  match t with
  | [] => .error ⟨.endInsideTag, []⟩
  | c :: r =>
    match group.turn c with
    | .error fault => .error ⟨fault, c :: r⟩
    | .ok (.close bracket) => .ok (d.close bracket, r)
    | .ok (.next .no) =>
      (d.write " : (").nest nested .no r >>= fun found => .ok (found.1.endTernary, found.2)
    | .ok (.next next) =>
      (d.write (if group.isKey ∧ c = ':' then " => " else ", ")).nest nested next r

/-- What a chain stands for, with the opener of the wrapper in front if it wants one. -/
def emitTarget (s : Scope) (d : Draft) (target : Reference) : Except Fault Draft :=
  (if target.isWrapped then d.insertOpener s else .ok d) >>= fun d =>
    .ok (d.write (target.tailCode s.registry))

/-- A name: a method of the value before it, or one of a chain. -/
def emitName (s : Scope) (d : Draft) (name rest : Text) : Except Fault Draft :=
  let ahead := Lookahead.of (Text.trimStart rest).head?
  if d.methodNext then
    if ahead ≠ .call then .error (.uncalledMethod name)
    else if !s.registry.wrapper.contains name then
      .error (.noWrapperMethod name s.registry.wrapper.owner name)
    else
      d.insertOpener s >>= fun d => .ok { d.write (")->" ++ name) with methodNext := false }
  else
    d.chain.addName s name ahead >>= fun found =>
      match found.2 with
      | none => .ok { d with chain := found.1 }
      | some target => { d with chain := found.1 }.emitTarget s target

/-- A run of dots: a method of the value before it follows, or a chain goes on. -/
def emitDots (d : Draft) (run : Text) : Except Fault Draft :=
  if d.prev.kind? ≠ some .name ∧ d.prev.endsValue then
    if 1 < run.length then .error (.unexpected (d.prev.text ++ run))
    else .ok { d with methodNext := true }
  else d.chain.addDots run >>= fun chain => .ok { d with chain := chain }

/-- **The code of a token** that fits, before the text behind it. -/
def emit (s : Scope) (nested : Option Nested) (ctx : Context) (d : Draft) (token : Token)
    (group : Token.Group) (rest : Text) : Except Stuck (Draft × Text) :=
  match token.kind with
  | .name => before rest (d.emitName s token.text rest)
  | .dots => before rest (d.emitDots token.text)
  | .number => .ok (d.write token.text, rest)
  | .quoted => .ok ({ d with out := d.joined ++ quotedCode token.text }, rest)
  | .plus =>
    if group = .unary then .ok (d.write token.text, rest)
    else if d.prev.kind? = some .quoted then .ok ({ d.write " . " with plusAt := none }, rest)
    else .ok ({ d.write " + " with plusAt := some d.out.length }, rest)
  | .minus =>
    if group = .unary then .ok (d.write token.text, rest)
    else .ok (d.write (" " ++ token.text ++ " "), rest)
  | .comparison | .logic | .elvis | .arithmetic =>
    .ok (d.write (" " ++ token.text ++ " "), rest)
  | .unary => .ok (d.write token.text, rest)
  | .opening bracket =>
    match d.prev.opens bracket with
    | .error fault => .error ⟨fault, rest⟩
    | .ok inner => (d.write bracket.openCode).nest nested inner rest
  | .question =>
    if d.ternaryDone ∨ ctx.isBranch then .error ⟨.nestedTernary, rest⟩
    else (d.write " ? ").nest nested .yes rest
  | .crement | .colon | .comma | .closing _ | .space => .error ⟨.strayToken token.text, rest⟩

/-- The draft once a token has come, before its code. -/
def start (d : Draft) (group : Token.Group) : Draft :=
  { d with started := true, span := d.spanAfter group }

/-- A token behind the draft, before the text behind the token. -/
def take (s : Scope) (nested : Option Nested) (ctx : Context) (d : Draft) (token : Token)
    (rest : Text) : Except Stuck (Draft × Text) :=
  let group := token.group d.prev.group?
  match d.prev.clash? token group with
  | some fault => .error ⟨fault, rest⟩
  | none =>
    (d.start group).emit s nested ctx token group rest >>= fun found =>
      .ok ({ found.1 with prev := .token token group }, found.2)

/-- The end of the expression before a stop character. -/
def stop (ctx : Context) (d : Draft) (c : Char) (rest : Text) : Except Stuck (Text × Text) :=
  if ctx.ends c then
    match d.unfinished? ctx c with
    | some fault => .error ⟨fault, rest⟩
    | none => .ok (d.out, rest)
  else .error ⟨ctx.misplaced c, rest⟩

/-- **One round**: what follows a part of a group, the end of the expression, or a token. -/
def round (s : Scope) (nested : Option Nested) (ctx : Context) (d : Draft) (t : Text) :
    Except Stuck Round :=
  match d.pending with
  | some group =>
    { d with pending := none }.closeOrContinue nested group (Text.trimStart t) >>= fun found =>
      .ok (.more found.1 found.2)
  | none =>
    match Text.trimStart t with
    | [] => .error ⟨.endInsideTag, []⟩
    | c :: r =>
      if isStop c then d.stop ctx c (c :: r) >>= fun found => .ok (.done found.1 found.2)
      else
        Token.next (c :: r) >>= fun next =>
          d.take s nested ctx next.1 next.2 >>= fun found => .ok (.more found.1 found.2)

/-! ## The text that is left -/

variable {s : Scope} {nested : Option Nested} {ctx : Context} {d d' : Draft} {t rest : Text}

theorem nest_suffix (h : d.nest nested ctx t = .ok (d', rest)) : rest <:+ t := by
  cases nested with
  | none => cases h
  | some nested =>
    obtain ⟨⟨out, r⟩, hemit, heq⟩ := bind_eq_ok_iff.1 h
    cases heq
    exact nested.suffix hemit

theorem closeOrContinue_shorter {group : Context}
    (h : d.closeOrContinue nested group t = .ok (d', rest)) : Shorter rest t := by
  unfold closeOrContinue at h
  split at h
  · cases h
  next c r =>
  split at h
  · cases h
  · cases h
    exact .of_cons c _
  · obtain ⟨found, hnest, heq⟩ := bind_eq_ok_iff.1 h
    cases heq
    exact .of_suffix c (nest_suffix hnest)
  · exact .of_suffix c (nest_suffix h)

theorem rest_eq_of_before {α : Type} {x : Except Fault α} {a : α}
    (h : before t x = .ok (a, rest)) : rest = t := by
  cases x with
  | error fault => cases h
  | ok b => cases h; rfl

theorem emit_suffix {token : Token} {group : Token.Group}
    (h : d.emit s nested ctx token group t = .ok (d', rest)) : rest <:+ t := by
  unfold emit at h
  split at h
  case h_1 | h_2 => exact rest_eq_of_before h ▸ List.suffix_refl _
  case h_12 =>
    split at h
    · cases h
    · exact nest_suffix h
  case h_13 =>
    split at h
    · cases h
    · exact nest_suffix h
  -- What is left writes code only, or is refused.
  all_goals
    repeat' split at h
    all_goals
      cases h
      try exact List.suffix_refl _

theorem take_shorter {token : Token} {r : Text} (hnext : Token.next r = .ok (token, t))
    (h : d.take s nested ctx token t = .ok (d', rest)) : Shorter rest r := by
  unfold take at h
  extract_lets group at h
  split at h
  · cases h
  · obtain ⟨found, hemit, heq⟩ := bind_eq_ok_iff.1 h
    cases heq
    have hsuffix := emit_suffix hemit
    have hnext := Shorter.of_next hnext
    exact ⟨hsuffix.trans hnext.1, Nat.lt_of_le_of_lt hsuffix.length_le hnext.2⟩

/-- **A round that is not the last one moves forward.** -/
theorem round_shorter (h : d.round s nested ctx t = .ok (.more d' rest)) : Shorter rest t := by
  unfold round at h
  split at h
  · obtain ⟨found, hclose, heq⟩ := bind_eq_ok_iff.1 h
    cases heq
    exact (closeOrContinue_shorter hclose).trans_suffix (Text.trimStart_suffix t)
  split at h
  · cases h
  next c r hc =>
  split at h
  · obtain ⟨found, -, heq⟩ := bind_eq_ok_iff.1 h
    cases heq
  · obtain ⟨next, hnext, h⟩ := bind_eq_ok_iff.1 h
    obtain ⟨found, htake, heq⟩ := bind_eq_ok_iff.1 h
    cases heq
    exact (take_shorter hnext htake).trans_suffix (hc ▸ Text.trimStart_suffix t)

theorem round_suffix {out : Text} (h : d.round s nested ctx t = .ok (.done out rest)) :
    rest <:+ t := by
  unfold round at h
  split at h
  · obtain ⟨found, -, heq⟩ := bind_eq_ok_iff.1 h
    cases heq
  split at h
  · cases h
  next c r hc =>
  split at h
  · obtain ⟨found, hstop, heq⟩ := bind_eq_ok_iff.1 h
    cases heq
    unfold stop at hstop
    split at hstop
    · split at hstop
      · cases hstop
      · cases hstop
        exact hc ▸ Text.trimStart_suffix t
    · cases hstop
  · obtain ⟨next, -, h⟩ := bind_eq_ok_iff.1 h
    obtain ⟨found, -, heq⟩ := bind_eq_ok_iff.1 h
    cases heq

/-! ## Runs -/

/-- **Round after round**, up to the end of the expression. -/
def run (s : Scope) (nested : Option Nested) (ctx : Context) (d : Draft) (t : Text) :
    Except Stuck (Text × Text) :=
  match _ : d.round s nested ctx t with
  | .error stuck => .error stuck
  | .ok (.done out rest) => .ok (out, rest)
  | .ok (.more d rest) => run s nested ctx d rest
termination_by t.length
decreasing_by exact (round_shorter ‹_›).2

theorem run_suffix {out : Text} (h : d.run s nested ctx t = .ok (out, rest)) : rest <:+ t := by
  fun_induction run s nested ctx d t with
  | case1 => cases h
  | case2 d t out' rest' hround =>
    cases h
    exact round_suffix hround
  | case3 d t d' rest' hround ih => exact (ih h).trans (round_shorter hround).1

end Draft

/-! ## Expressions -/

/-- **The code of an expression in a context**, in one pass. -/
def emitExpr (s : Scope) (nested : Option Nested) (ctx : Context) (t : Text) :
    Except Stuck (Text × Text) := Draft.run s nested ctx {} t

/-- The emitter below a level that has `n` levels below it. -/
def nestedEmitter (s : Scope) : Nat → Option Nested
  | 0 => none
  | n + 1 => some ⟨emitExpr s (nestedEmitter s n), Draft.run_suffix⟩

/-- **The code of the expression of a tag**, in one pass. -/
def emitTag (s : Scope) (t : Text) : Except Stuck (Text × Text) :=
  emitExpr s (nestedEmitter s maxNesting) .tag t

end Stencil
