import Stencil.Proofs.Expr.ReplayValue

/-!
# Proofs/Expr/OnePass — the code written in one pass is the code of the tree

    operand ─op─▸ operand ─op─▸ … ─?─▸ branch ─:─▸ branch
    Fresh  Holds  Joins  Holds

A draft is `Fresh` before an operand, `Holds` the code of the terms behind it, and `Joins` them to
the next operand behind an operator.  A `+` is the one operator whose code the next operand settles:
the draft has two codes then, and `Joins` says what either stands for.

`run_readTerms` goes along the terms by induction on the text, `run_readExpr` adds the first operand,
and `emitTag_eq` is the induction on the levels.
-/

namespace Stencil

namespace Draft

variable {s : Scope} {nested : Option Nested} {inner : Option Inner} {ctx : Context} {d : Draft}
  {t : Text}

/-! ## Operands -/

/-- The draft behind a sign, if there is one. -/
def signed (d : Draft) : Option Text → Draft
  | none => d
  | some text =>
    { d with prev := .token (signToken text) .unary, out := d.out ++ text, started := true }

theorem signToken_ne_name (text : Text) : (signToken text).kind ≠ .name := by
  unfold signToken
  split
  · nofun
  split <;> nofun

/-- Behind a sign a value may begin as well. -/
theorem Fresh.signed (h : d.Fresh) (text : Text) : (d.signed (some text)).Fresh where
  pending := h.pending
  leads := .unary (signToken_ne_name text)
  started := rfl
  methodNext := h.methodNext
  span := h.span
  chain := h.chain
  noDot := nofun
  joined := by rw [Draft.joined, if_neg (by rintro ⟨-, ⟨⟩⟩)]

theorem Fresh.group_sign (h : d.Fresh) {token : Token} (hsign : token.isSign = true) :
    token.group d.prev.group? = .unary := by
  have hends : d.prev.group?.any Token.Group.endsValue = false := h.endsValue
  obtain ⟨kind, text⟩ := token
  cases kind with
  | unary => rfl
  | plus | minus => simp [Token.group, hends]
  | _ => cases hsign

/-- A sign fits before a value, unless there is one. -/
theorem Fresh.fits_sign (h : d.Fresh) (hunary : d.prev.group? ≠ some .unary) {token : Token}
    (hsign : token.isSign = true) : d.prev.clash? token .unary = none := by
  have hcrement : token.kind ≠ .crement := fun hk => by simp [Token.isSign, hk] at hsign
  have hquoted : token.kind ≠ .quoted := fun hk => by simp [Token.isSign, hk] at hsign
  rw [Previous.clash?, if_neg hcrement, if_neg (by simp [h.endsValue]), if_neg (by simp),
    if_neg fun hdot => h.noDot hdot.1, if_neg fun h => hunary h.1, if_neg fun h => hunary h.1]

/-- **A sign before a value.** -/
theorem take_sign (h : d.Fresh) (hunary : d.prev.group? ≠ some .unary) {token : Token}
    (hsign : token.isSign = true) (htoken : signToken token.text = token) (t : Text) :
    d.take s nested ctx token t = .ok (d.signed (some token.text), t) := by
  have hspan : d.spanAfter .unary = d.span := by
    rw [spanAfter, if_neg (by decide), if_neg (by rintro ⟨-, ⟨⟩⟩)]
  rw [take_of_fits (h.group_sign hsign) (h.fits_sign hunary hsign), signed, htoken]
  obtain ⟨kind, text⟩ := token
  cases kind with
  | unary | plus | minus =>
    simp only [start, hspan]
    rfl
  | _ => cases hsign

theorem signToken_text (text : Text) : (signToken text).text = text := by
  unfold signToken
  split
  · rfl
  split <;> rfl

theorem text?_signed (d : Draft) (text : Text) : (d.signed (some text)).prev.text? = some text :=
  congrArg some (signToken_text text)

/-- Two signs in a row. -/
theorem take_second_sign (h : d.Fresh) {text : Text} {token : Token}
    (hsign : token.isSign = true) (t : Text) :
    (d.signed (some text)).take s nested ctx token t = .error ⟨.chainedUnary text token.text, t⟩ := by
  have hsigned := h.signed text
  have hcrement : token.kind ≠ .crement := fun hk => by simp [Token.isSign, hk] at hsign
  have htext : (d.signed (some text)).prev.text = text := signToken_text text
  refine take_of_clash (hsigned.group_sign hsign) ?_
  rw [Previous.clash?, if_neg hcrement, if_neg (by simp [hsigned.endsValue]), if_neg (by simp),
    if_neg fun hdot => hsigned.noDot hdot.1, if_pos ⟨rfl, rfl⟩, htext]

/-- A quoted text behind a sign. -/
theorem take_signed_quoted (h : d.Fresh) {text : Text} {token : Token}
    (hquoted : token.kind = .quoted) (t : Text) :
    (d.signed (some text)).take s nested ctx token t =
      .error ⟨misfit (some text) token, t⟩ := by
  have hsigned := h.signed text
  have hgroup : token.group (d.signed (some text)).prev.group? = .operand := by
    simp only [Token.group, hquoted]
  refine take_of_clash hgroup ?_
  rw [Previous.clash?, if_neg (by simp [hquoted]), if_neg (by simp [hsigned.endsValue]),
    if_neg (by simp), if_neg fun hdot => hsigned.noDot hdot.1, if_neg (by simp),
    if_pos ⟨rfl, hquoted⟩, text?_signed]

section Levels

variable (hlevels : Option.Rel (Nested.Mirrors s.registry) nested inner)

include hlevels

/-- **A value with its suffixes**, from its first token on. -/
theorem run_value (h : d.Fresh) {before : Option Text} {u : Text} {token : Token}
    (hneed : needToken ctx before u = .ok (token, t)) (hsign : token.isSign = false)
    (hquoted : token.kind = .quoted → d.prev.group? ≠ some .unary) :
    (d.take s nested ctx token t >>= resume s nested ctx) =
      readPrimary s inner ctx d.prev.text? token t >>= fun found =>
        readSuffixes s inner ctx found.1 found.2 >>= fun whole =>
          resume s nested ctx (d.value s.registry whole.1, whole.2) := by
  obtain ⟨hnext, hcrement⟩ := next_of_needToken hneed
  have hspace : token.kind ≠ .space := by
    obtain ⟨c, r, hc⟩ := Token.exists_cons_of_next hnext
    rw [hc] at hnext
    intro hk
    have hblank := (Token.isBlank_iff_of_next hnext).2 hk
    cases (Text.isBlank_head_trimStart hc).symm.trans hblank
  have hopening : ∀ bracket, token.kind = .opening bracket → token = Token.opens bracket :=
    fun _ => Token.eq_opens_of_next hnext
  rw [run_readPrimary hlevels h hsign hcrement hspace hopening hquoted]
  cases hprimary : readPrimary s inner ctx d.prev.text? token t with
  | error stuck => rfl
  | ok found => exact run_readSuffixes hlevels (head_of_readPrimary hprimary)

/-- **An operand**: at most one sign, and a value. -/
theorem run_readOperand (h : d.Fresh) (hunary : d.prev.group? ≠ some .unary)
    (hempty : d.started = false → emptyAhead ctx t = false) :
    d.run s nested ctx t =
      readOperand s inner ctx d.prev.text? t >>= fun found =>
        resume s nested ctx ((d.signed found.1.1).value s.registry found.1.2, found.2) := by
  rw [run_needToken h.toWants hempty, readOperand, bind_assoc]
  cases hneed : needToken ctx d.prev.text? t with
  | error stuck => rfl
  | ok next =>
    obtain ⟨token, rest⟩ := next
    change (d.take s nested ctx token rest >>= _) = (if token.isSign then _ else _) >>= _
    cases hsign : token.isSign with
    | false =>
      rw [run_value hlevels h hneed hsign fun _ => hunary, if_neg Bool.false_ne_true]
      simp only [bind_assoc]
      rfl
    | true =>
      have htoken := (Token.sign_of_next (next_of_needToken hneed).1 hsign).2
      have hsigned := h.signed token.text
      rw [if_pos rfl, take_sign h hunary hsign htoken]
      change Draft.run s nested ctx _ rest = _
      rw [run_needToken hsigned.toWants (by simp [signed]), text?_signed, bind_assoc]
      cases hfirst : needToken ctx (some token.text) rest with
      | error stuck => rfl
      | ok next =>
        obtain ⟨first, rest'⟩ := next
        change Draft.take s nested ctx _ first rest' >>= _ =
          (if first.isSign then _ else if first.kind = .quoted then _ else _) >>= _
        by_cases hsecond : first.isSign = true
        · rw [if_pos hsecond, take_second_sign h hsecond]
          rfl
        rw [if_neg hsecond]
        by_cases hquoted : first.kind = .quoted
        · rw [if_pos hquoted, take_signed_quoted h hquoted]
          rfl
        rw [if_neg hquoted, run_value hlevels hsigned hfirst (by simpa using hsecond)
          (fun hk => absurd hk hquoted), text?_signed]
        simp only [bind_assoc]
        rfl

end Levels

end Draft

/-! ## Behind an operand -/

/-- Where no suffix is read, the operand ends. -/
theorem endsOperand_of_readSuffix {s : Scope} {inner : Option Inner} {ctx : Context} {v : Value}
    {t : Text} (h : readSuffix s inner ctx v t = .ok none) :
    Text.trimStart t = [] ∨ EndsOperand (Text.trimStart t) := by
  unfold readSuffix at h
  split at h
  · next hnil => exact .inl hnil
  next c r hc =>
  rw [hc]
  split at h
  · next hstop => exact .inr (.inl ⟨c, r, rfl, hstop⟩)
  next hstop =>
  obtain ⟨⟨⟨kind, text⟩, rest⟩, hnext, h⟩ := bind_eq_ok_iff.1 h
  refine .inr (.inr ⟨_, rest, hnext, ?_⟩)
  cases kind with
  | crement | name | number | quoted | unary => cases h
  | dots =>
    dsimp only at h
    split at h
    · cases h
    obtain ⟨⟨name, r1⟩, -, h⟩ := bind_eq_ok_iff.1 h
    dsimp only at h
    split at h
    · cases h
    split at h
    · cases h
    obtain ⟨r2, -, h⟩ := bind_eq_ok_iff.1 h
    obtain ⟨args, -, h⟩ := bind_eq_ok_iff.1 h
    cases h
  | opening bracket =>
    cases bracket with
    | paren => cases h
    | brace | square =>
      obtain ⟨key, -, h⟩ := bind_eq_ok_iff.1 h
      cases h
  | comparison | logic | elvis | arithmetic | plus | minus => exact .inl rfl
  | question => exact .inr rfl
  | colon | comma | closing => exact absurd (Token.isStop_of_next hnext rfl) hstop
  | space =>
    have hblank := (Token.isBlank_iff_of_next hnext).2 rfl
    cases (Text.isBlank_head_trimStart hc).symm.trans hblank

theorem readSuffix_of_readSuffixes {s : Scope} {inner : Option Inner} {ctx : Context} {v v' : Value}
    {t rest : Text} (h : readSuffixes s inner ctx v t = .ok (v', rest)) :
    readSuffix s inner ctx v' rest = .ok none := by
  fun_induction readSuffixes s inner ctx v t with
  | case1 => cases h
  | case2 v t hnone =>
    cases h
    exact hnone
  | case3 v t v'' rest' hsome ih => exact ih h

/-- **Behind an operand that was read** the operand ends. -/
theorem endsOperand_of_readOperand {s : Scope} {inner : Option Inner} {ctx : Context}
    {before : Option Text} {t rest : Text} {found : Option Text × Value}
    (h : readOperand s inner ctx before t = .ok (found, rest)) :
    Text.trimStart rest = [] ∨ EndsOperand (Text.trimStart rest) := by
  obtain ⟨⟨token, r⟩, -, h⟩ := bind_eq_ok_iff.1 h
  dsimp only at h
  split at h
  · obtain ⟨⟨first, r1⟩, -, h⟩ := bind_eq_ok_iff.1 h
    dsimp only at h
    split at h
    · cases h
    split at h
    · cases h
    obtain ⟨primary, -, h⟩ := bind_eq_ok_iff.1 h
    obtain ⟨whole, hsuffixes, h⟩ := bind_eq_ok_iff.1 h
    cases h
    exact endsOperand_of_readSuffix (readSuffix_of_readSuffixes hsuffixes)
  · obtain ⟨primary, -, h⟩ := bind_eq_ok_iff.1 h
    obtain ⟨whole, hsuffixes, h⟩ := bind_eq_ok_iff.1 h
    cases h
    exact endsOperand_of_readSuffix (readSuffix_of_readSuffixes hsuffixes)

/-! ## Terms -/

/-- The last value of terms. -/
def Terms.last : Terms → Value
  | one _ v => v
  | more _ _ _ v => v

theorem Terms.kind?_last (terms : Terms) :
    terms.last.last.kind? = some .quoted ↔ terms.endsQuoted = true := by
  have hnamed : ∀ text, (Token.named text).kind ≠ .quoted := nofun
  have hcloses : ∀ bracket, (Token.closes bracket).kind ≠ .quoted := nofun
  cases terms with
  | one _ v | more _ _ _ v =>
    cases v <;> simp [last, Value.last, Previous.kind?, endsQuoted, hnamed, hcloses]

/-- The code of an operator between terms and an operand, which starts with a quoted text or not. -/
def joint (left : Terms) (op : Token) (quoted : Bool) : Text :=
  if op.kind = .plus ∧ (left.endsQuoted || quoted) then " . " else " " ++ op.text ++ " "

theorem jointCode_eq (left : Terms) (op : Token) (sign : Option Text) (v : Value) :
    jointCode left op sign v = joint left op (sign.isNone && v.startsQuoted) := rfl

namespace Draft

variable {s : Scope} {nested : Option Nested} {inner : Option Inner} {ctx : Context} {d : Draft}
  {t : Text}

/-- **A draft behind terms**: it holds their code. -/
structure Holds (r : Registry) (d : Draft) (terms : Terms) : Prop where
  out : d.out = terms.code r
  prev : d.prev = terms.last.last
  started : d.started = true
  methodNext : d.methodNext = false
  pending : d.pending = none
  ternaryDone : d.ternaryDone = false
  chain : d.chain = .fresh

/-- **A draft behind an operator**: a quoted text may still turn its `+` into the joining of texts. -/
structure Joins (r : Registry) (d : Draft) (left : Terms) (op : Token) : Prop extends d.Fresh where
  prev : d.prev = .token op .operator
  out : d.out = left.code r ++ joint left op false
  out_joined : d.joined = left.code r ++ joint left op true
  ternaryDone : d.ternaryDone = false

/-- The code before a value, behind its sign. -/
theorem front_signed (d : Draft) (sign : Option Text) (v : Value) :
    (d.signed sign).front v =
      (if sign.isNone && v.startsQuoted then d.joined else d.out) ++ sign.getD [] := by
  cases sign with
  | none => simp [signed, front]
  | some text =>
    have hjoined : (d.signed (some text)).joined = d.out ++ text := by
      rw [Draft.joined, if_neg (by rintro ⟨-, ⟨⟩⟩)]
      rfl
    rw [front, hjoined]
    exact ite_self _

/-- The first operand. -/
theorem Holds.one (r : Registry) (sign : Option Text) (v : Value) :
    ((({} : Draft).signed sign).value r v).Holds r (.one sign v) := by
  refine ⟨?_, rfl, rfl, rfl, rfl, ?_, rfl⟩
  · change (({} : Draft).signed sign).front v ++ v.code r = sign.getD [] ++ v.code r
    rw [front_signed]
    exact congrArg (· ++ sign.getD [] ++ v.code r) (ite_self _)
  · cases sign <;> rfl

/-- One operand more. -/
theorem Joins.more {r : Registry} {left : Terms} {op : Token} (h : d.Joins r left op)
    (sign : Option Text) (v : Value) :
    ((d.signed sign).value r v).Holds r (.more left op sign v) := by
  refine ⟨?_, rfl, rfl, rfl, rfl, ?_, rfl⟩
  · change (d.signed sign).front v ++ v.code r =
      left.code r ++ jointCode left op sign v ++ sign.getD [] ++ v.code r
    rw [front_signed, jointCode_eq]
    cases (sign.isNone && v.startsQuoted) with
    | true => rw [if_pos rfl, h.out_joined]
    | false => rw [if_neg Bool.false_ne_true, h.out]
  · cases sign <;> exact h.ternaryDone

/-- The draft behind an operator, with its code. -/
def operated (d : Draft) (op : Token) (code : Text) (plusAt : Option Nat) : Draft :=
  { d with
    prev := .token op .operator
    out := d.out ++ code
    started := true
    span := none
    plusAt := plusAt }

section Operators

variable {left : Terms} {op : Token} (h : d.Holds s.registry left)

include h

theorem Holds.take_operator (hop : op.isBinary = true) (t : Text) :
    d.take s nested ctx op t =
      (d.start .operator).emit s nested ctx op .operator t >>= fun found =>
        .ok ({ found.1 with prev := .token op .operator }, found.2) := by
  have hends : d.prev.group?.any Token.Group.endsValue = true :=
    (congrArg Previous.endsValue h.prev).trans left.last.endsValue_last
  have hcrement : op.kind ≠ .crement := fun hk => by simp [Token.isBinary, hk] at hop
  have hgroup : op.group d.prev.group? = .operator := by
    obtain ⟨kind, text⟩ := op
    cases kind with
    | comparison | logic | elvis | arithmetic => rfl
    | plus | minus => simp [Token.group, hends]
    | _ => cases hop
  refine take_of_fits hgroup ?_
  rw [h.prev]
  exact left.last.last_fits hcrement (by decide)

/-- What is known behind an operator, whatever its code is. -/
theorem Holds.joins {code : Text} {plusAt : Option Nat} (hop : op.isBinary = true)
    (hcode : code = joint left op false)
    (hjoined : (d.operated op code plusAt).joined = left.code s.registry ++ joint left op true)
    (hlength : (joint left op true).length = code.length) :
    (d.operated op code plusAt).Joins s.registry left op where
  pending := h.pending
  leads := .operator fun hk => by simp [Token.isBinary, hk] at hop
  started := rfl
  methodNext := h.methodNext
  span := rfl
  chain := h.chain
  noDot := nofun
  joined := by
    rw [hjoined, List.length_append, hlength, ← List.length_append, ← h.out]
    rfl
  prev := rfl
  out := by
    rw [← hcode, ← h.out]
    rfl
  out_joined := hjoined
  ternaryDone := h.ternaryDone

/-- An operator that is no `+`. -/
theorem Holds.joins_plain (hop : op.isBinary = true) (hplus : op.kind ≠ .plus) :
    (d.operated op (" " ++ op.text ++ " ") d.plusAt).Joins s.registry left op := by
  have hjoint : ∀ quoted, joint left op quoted = " " ++ op.text ++ " " :=
    fun _ => if_neg (fun h => hplus h.1)
  refine h.joins hop (hjoint false).symm ?_ (congrArg List.length (hjoint true))
  rw [hjoint, ← h.out, joined, if_neg (fun h => hplus (Option.some.inj h.1))]
  rfl

/-- A `+` behind a quoted text joins texts. -/
theorem Holds.joins_texts (hquoted : left.endsQuoted = true) :
    (d.operated ⟨.plus, "+"⟩ " . " none).Joins s.registry left ⟨.plus, "+"⟩ := by
  have hjoint : ∀ quoted, joint left ⟨.plus, "+"⟩ quoted = " . " :=
    fun _ => if_pos ⟨rfl, by rw [hquoted, Bool.true_or]⟩
  refine h.joins rfl (hjoint false).symm ?_ (congrArg List.length (hjoint true))
  rw [hjoint, ← h.out]
  rfl

/-- Another `+` adds numbers, unless a quoted text follows. -/
theorem Holds.joins_numbers (hquoted : left.endsQuoted = false) :
    (d.operated ⟨.plus, "+"⟩ " + " (some d.out.length)).Joins s.registry left ⟨.plus, "+"⟩ := by
  have htexts : joint left ⟨.plus, "+"⟩ true = " . " := if_pos ⟨rfl, Bool.or_true _⟩
  have hnumbers : joint left ⟨.plus, "+"⟩ false = " + " := if_neg (by simp [hquoted])
  have hend : (d.out ++ " + ").drop (d.out.length + 3) = [] :=
    List.drop_eq_nil_of_le (by rw [List.length_append]; exact Nat.le_refl _)
  refine h.joins rfl hnumbers.symm ?_ (by rw [htexts]; rfl)
  change (d.out ++ " + ").take d.out.length ++ " . " ++ (d.out ++ " + ").drop (d.out.length + 3) = _
  rw [htexts, ← h.out, List.take_left, hend, List.append_nil]

/-- **An operator behind terms.** -/
theorem Holds.exists_joins {u : Text} (hnext : Token.next u = .ok (op, t))
    (hop : op.isBinary = true) :
    ∃ d', d.take s nested ctx op t = .ok (d', t) ∧ d'.Joins s.registry left op := by
  rw [h.take_operator hop]
  by_cases hplus : op.kind = .plus
  · have htable : ∀ p ∈ Token.fixed, p.2 = .plus → p.1.toList = ['+'] := by decide
    have hop : op = ⟨.plus, "+"⟩ := by
      obtain ⟨p, hp, rfl⟩ := Token.mem_fixed_of_next hnext (by rw [hplus]; rfl)
      exact congr (congrArg Token.mk hplus) (htable p hp hplus)
    subst hop
    change ∃ d', ((if d.prev.kind? = some .quoted then _ else _) >>= _) = _ ∧ _
    rw [h.prev]
    by_cases hquoted : left.endsQuoted = true
    · rw [if_pos (left.kind?_last.2 hquoted)]
      exact ⟨_, rfl, h.joins_texts hquoted⟩
    · rw [if_neg (mt left.kind?_last.1 hquoted)]
      exact ⟨_, rfl, h.joins_numbers (by simpa using hquoted)⟩
  · refine ⟨_, ?_, h.joins_plain hop hplus⟩
    obtain ⟨kind, text⟩ := op
    cases kind with
    | comparison | logic | elvis | arithmetic | minus => rfl
    | plus => exact absurd rfl hplus
    | _ => cases hop

end Operators

/-! ## Ternaries -/

/-- Nothing is missing behind a whole ternary. -/
theorem run_endTernary (hstarted : d.started = true) {c : Char} {r : Text} (hc : isStop c = true) :
    d.endTernary.run s nested ctx (c :: r) =
      needEnd ctx (c :: r) >>= fun rest => .ok (d.out ++ ")", rest) := by
  have ht : Text.trimStart (c :: r) = c :: r := Text.trimStart_cons (not_isBlank_of_isStop hc) r
  have hfinished : d.endTernary.unfinished? ctx c = none := by
    rw [unfinished?, if_neg]
    · rfl
    · rw [show d.endTernary.started = true from hstarted]
      nofun
  rw [run_stop rfl ht hc, stop, hfinished, needEnd, ht]
  by_cases hends : ctx.ends c = true
  · simp only [hends, if_true]
    rfl
  · simp only [hends]
    rfl

section Levels

variable (hlevels : Option.Rel (Nested.Mirrors s.registry) nested inner)

include hlevels

/-- **The last branch of a ternary**, behind its colon. -/
theorem run_no (hpending : d.pending = some .yes) (hstarted : d.started = true) (t : Text) :
    d.run s nested ctx (':' :: t) =
      readInner inner .no t >>= fun no =>
        needEnd ctx no.2 >>= fun rest =>
          .ok (d.out ++ " : (" ++ no.1.code s.registry ++ ")", rest) := by
  have ht : Text.trimStart (':' :: t) = ':' :: t := Text.trimStart_cons (by decide) t
  have hempty : emptyAhead .no t = false := emptyAhead_of_forall (fun _ => rfl) t
  have hturn : Context.yes.turn ':' = .ok (.next .no) := rfl
  rw [run_pending hpending, ht, closeOrContinue]
  simp only [hturn]
  rw [nest_eq hlevels hempty, bind_assoc, bind_assoc]
  cases hno : readInner inner .no t with
  | error stuck => rfl
  | ok found =>
    obtain ⟨no, rest⟩ := found
    obtain ⟨c, r, rfl, hends⟩ := ends_of_readInner hlevels hempty hno
    change Draft.run s nested ctx (endTernary _) (c :: r) = _
    rw [run_endTernary (by exact hstarted) hends]
    rfl

/-- **A ternary behind its test.** -/
theorem run_question {terms : Terms} (h : d.Holds s.registry terms) (t : Text) :
    (d.take s nested ctx Token.question t >>= resume s nested ctx) =
      if ctx.isBranch then .error ⟨.nestedTernary, t⟩
      else
        readBranches inner ctx t >>= fun found =>
          .ok ((Expr.ternary terms found.1.1 found.1.2).code s.registry, found.2) := by
  have hempty : emptyAhead .yes t = false := emptyAhead_of_forall (fun _ => rfl) t
  have hclash : d.prev.clash? Token.question .delimiter = none := by
    rw [h.prev]
    exact terms.last.last_fits nofun (by decide)
  rw [take_of_fits rfl hclash]
  change ((if d.ternaryDone ∨ ctx.isBranch then _ else _) >>= _) >>= _ = _
  by_cases hbranch : ctx.isBranch = true
  · rw [if_pos (.inr hbranch), if_pos hbranch]
    rfl
  rw [if_neg (by simp [h.ternaryDone, hbranch]), if_neg hbranch, nest_eq hlevels hempty, readBranches]
  simp only [bind_assoc]
  cases hyes : readInner inner .yes t with
  | error stuck => rfl
  | ok found =>
    obtain ⟨yes, rest⟩ := found
    obtain ⟨c, r, rfl, hends⟩ := ends_of_readInner hlevels hempty hyes
    obtain rfl : c = ':' := beq_iff_eq.1 hends
    have hneed : needChar .yes ':' (':' :: r) = .ok r :=
      needChar_eq_ok_iff.2 (Text.trimStart_cons (by decide) r)
    refine (run_no hlevels (by exact rfl) (by exact rfl) r).trans ?_
    simp only [bind, Except.bind, hneed]
    cases hno : readInner inner .no r with
    | error stuck => rfl
    | ok found =>
      obtain ⟨no, rest⟩ := found
      dsimp only
      cases hend : needEnd ctx rest with
      | error stuck => rfl
      | ok rest =>
        refine congrArg (fun code => Except.ok (code, rest)) ?_
        change d.out ++ " ? " ++ yes.code s.registry ++ " : (" ++ no.code s.registry ++ ")" =
          terms.code s.registry ++ " ? " ++ yes.code s.registry ++ " : (" ++ no.code s.registry ++ ")"
        rw [h.out]

/-! ## Expressions -/

omit hlevels in
/-- Behind terms an expression may end. -/
theorem Holds.unfinished? {terms : Terms} (h : d.Holds s.registry terms) (c : Char) :
    d.unfinished? ctx c = none := by
  rw [Draft.unfinished?, if_neg (by simp [h.started]), h.prev]
  cases terms.last <;> rfl

omit hlevels in
/-- Where an operand ends at no stop character, an operator or a ternary follows. -/
theorem token_of_endsOperand {c : Char} {r : Text} (h : c :: r = [] ∨ EndsOperand (c :: r))
    (hstop : isStop c = false) :
    ∃ token rest, Token.next (c :: r) = .ok (token, rest) ∧
      (token.isBinary = true ∨ token.kind = .question) := by
  rcases h with hnil | ⟨c', r', heq, hc⟩ | hnext
  · cases hnil
  · cases heq
    cases hstop.symm.trans hc
  · exact hnext

/-- **The rest of an expression behind terms.** -/
theorem run_readTerms {terms : Terms} (h : d.Holds s.registry terms)
    (hend : Text.trimStart t = [] ∨ EndsOperand (Text.trimStart t)) :
    d.run s nested ctx t =
      readTerms s inner ctx terms t >>= fun found =>
        .ok (found.1.code s.registry, found.2) := by
  induction hlength : t.length using Nat.strongRecOn generalizing d terms t with
  | ind n ih =>
  cases ht : Text.trimStart t with
  | nil =>
    rw [run_end h.pending ht, readTerms_end terms ht]
    rfl
  | cons c r =>
    by_cases hstop : isStop c = true
    · rw [run_stop h.pending ht hstop, stop, h.unfinished?, readTerms_at_stop terms ht hstop]
      split
      · rw [h.out]
        rfl
      · rfl
    have hstop : isStop c = false := by simpa using hstop
    obtain ⟨token, rest, hnext, hkind⟩ := token_of_endsOperand (ht ▸ hend) hstop
    rw [run_next h.pending ht hstop hnext, readTerms_step terms ht hstop hnext]
    by_cases hop : token.isBinary = true
    · have hjoined : ∃ d', d.take s nested ctx token rest = .ok (d', rest) ∧
          d'.Joins s.registry terms token := h.exists_joins hnext hop
      obtain ⟨d', htake, hjoins⟩ := hjoined
      have htext : d'.prev.text? = some token.text := congrArg Previous.text? hjoins.prev
      have hunary : d'.prev.group? ≠ some .unary := by
        rw [hjoins.prev]
        rintro ⟨⟩
      have hstarted : d'.started = true := by rw [hjoins.started, htext]; rfl
      rw [if_pos hop, htake]
      change d'.run s nested ctx rest = _
      rw [run_readOperand hlevels hjoins.toFresh hunary (by simp [hstarted]), htext, bind_assoc]
      cases hoperand : readOperand s inner ctx (some token.text) rest with
      | error stuck => rfl
      | ok found =>
        obtain ⟨⟨sign, v⟩, rest'⟩ := found
        have hshorter := ((readOperand_shorter hoperand).trans (Shorter.of_next hnext)).trans_suffix
          (ht ▸ Text.trimStart_suffix t)
        exact ih _ (hlength ▸ hshorter.2) (hjoins.more sign v)
          (endsOperand_of_readOperand hoperand) rfl
    · have hquestion : token.kind = .question := hkind.resolve_left hop
      rw [if_neg hop, if_pos hquestion, Token.eq_question_of_next hnext hquestion,
        run_question hlevels h]
      split
      · rfl
      · rw [bind_assoc]
        rfl

/-- **The emitter writes what the reader reads**, one level above two that do so. -/
theorem run_readExpr (hempty : emptyAhead ctx t = false) :
    Draft.run s nested ctx {} t =
      readExpr s inner ctx t >>= fun found => .ok (found.1.code s.registry, found.2) := by
  have hfresh : ({} : Draft).Fresh := ⟨⟨rfl, .start, rfl⟩, rfl, rfl, rfl, nofun, rfl⟩
  rw [run_readOperand hlevels hfresh nofun (fun _ => hempty), readExpr, bind_assoc]
  change readOperand s inner ctx none t >>= _ = _
  cases hoperand : readOperand s inner ctx none t with
  | error stuck => rfl
  | ok found =>
    obtain ⟨⟨sign, v⟩, rest⟩ := found
    exact run_readTerms hlevels (.one s.registry sign v) (endsOperand_of_readOperand hoperand)

end Levels

end Draft

/-! ## Levels -/

/-- Where an expression may be missing it ends. -/
theorem Context.ends_of_allowsEmpty {ctx : Context} {c : Char} (h : ctx.allowsEmpty c = true) :
    ctx.ends c = true := by
  unfold allowsEmpty at h
  split at h
  · obtain rfl := beq_iff_eq.1 h
    rfl
  · obtain rfl := beq_iff_eq.1 h
    simp [ends]
  · cases h

section Levels

variable {s : Scope} {nested : Option Nested} {inner : Option Inner}

/-- **One level more.** -/
theorem emitExpr_mirrors (hlevels : Option.Rel (Nested.Mirrors s.registry) nested inner) :
    Nested.Mirrors s.registry ⟨emitExpr s nested, Draft.run_suffix⟩
      ⟨readExpr s inner, readExpr_shorter⟩ where
  reliable := emitExpr_reliable fun level hlevel => by
    cases hlevels with
    | none => cases hlevel
    | some h =>
      cases hlevel
      exact h.reliable
  blank _ _ ht := Draft.run_end rfl ht
  empty ctx t h := by
    obtain ⟨c, hhead, hempty⟩ := (Option.any_eq_true _ _).1 h
    obtain ⟨r, ht⟩ := List.head?_eq_some_iff.1 hhead
    have hends := Context.ends_of_allowsEmpty hempty
    have hunfinished : ({} : Draft).unfinished? ctx c = none := by
      rw [Draft.unfinished?, if_pos rfl, if_pos hempty]
    change Draft.run s nested ctx {} t = _
    rw [Draft.run_stop rfl ht (Context.isStop_of_ends hends), Draft.stop, if_pos hends, hunfinished,
      ht]
  emit _ _ h := Draft.run_readExpr hlevels h

/-- **Every level goes along with the reader of its depth.** -/
theorem nestedEmitter_mirrors (s : Scope) (n : Nat) :
    Option.Rel (Nested.Mirrors s.registry) (nestedEmitter s n) (innerReader s n) := by
  induction n with
  | zero => exact .none
  | succ n ih => exact .some (emitExpr_mirrors ih)

end Levels

/-- **The code that is written in one pass is the code of the tree that is read**, and where the one
stops at a fault so does the other, with the same fault and the same text left. -/
theorem emitTag_eq (s : Scope) (t : Text) :
    emitTag s t = readTag s t >>= fun found => .ok (found.1.code s.registry, found.2) :=
  Draft.run_readExpr (nestedEmitter_mirrors s maxNesting) (Draft.emptyAhead_of_forall (fun _ => rfl) t)

/-- **What the reader of a tag stops at is a fault of the text.** -/
theorem arises_of_readTag {s : Scope} {t : Text} {stuck : Stuck}
    (h : readTag s t = .error stuck) : stuck.fault.Arises := by
  refine arises_of_emitTag (s := s) (t := t) ?_
  rw [emitTag_eq, h]
  rfl

end Stencil
