import Stencil.Expr.Basic
import Stencil.Expr.Context
import Stencil.Token.Lexer

/-!
# Expr/Reader — reading an expression

One level of an expression is read from left to right: an operand, then operators with their
operands, then perhaps a ternary.  What stands in brackets, and each branch of a ternary, is read
one level down by an `Inner` reader; a level that has none below it refuses to go deeper.  So the
nesting limit is the recursion: `innerReader` stacks `maxNesting` levels, and `readTag` starts on
top of them.

Every reader gives the text that is left, and it is a shorter ending of the text it was given
(`Shorter`): that is why the loops end.
-/

namespace Stencil

/-! ## The text that is left -/

/-- `rest` ends `t` and is shorter. -/
def Shorter (rest t : Text) : Prop := rest <:+ t ∧ rest.length < t.length

namespace Shorter

theorem trans {a b c : Text} (h : Shorter a b) (k : Shorter b c) : Shorter a c :=
  ⟨h.1.trans k.1, Nat.lt_trans h.2 k.2⟩

theorem trans_suffix {a b c : Text} (h : Shorter a b) (k : b <:+ c) : Shorter a c :=
  ⟨h.1.trans k, Nat.lt_of_lt_of_le h.2 k.length_le⟩

theorem of_cons (c : Char) (t : Text) : Shorter t (c :: t) := ⟨List.suffix_cons c t, by simp⟩

/-- The text behind the first character that is no blank. -/
theorem of_trimStart {c : Char} {r t : Text} (h : Text.trimStart t = c :: r) : Shorter r t :=
  (of_cons c r).trans_suffix (h ▸ Text.trimStart_suffix t)

theorem of_next {t rest : Text} {token : Token} (h : Token.next t = .ok (token, rest)) :
    Shorter rest t :=
  ⟨Token.suffix_of_next h, Token.length_lt_of_next h⟩

end Shorter

/-- A sequence succeeds when both of its steps do. -/
theorem bind_eq_ok_iff {ε α β : Type} {x : Except ε α} {f : α → Except ε β} {b : β} :
    (x >>= f) = .ok b ↔ ∃ a, x = .ok a ∧ f a = .ok b := by
  cases x <;> simp [bind, Except.bind]

/-! ## Single tokens -/

/-- The next token where the expression may not end: after `before`, or at its start. -/
def needToken (ctx : Context) (before : Option Text) (t : Text) : Except Stuck (Token × Text) :=
  match Text.trimStart t with
  | [] => .error ⟨.endInsideTag, []⟩
  | c :: r =>
    if isStop c then
      if ctx.ends c then
        match before with
        | none => .error ⟨.missingExpression c, c :: r⟩
        | some last => .error ⟨.danglingEnd last, c :: r⟩
      else .error ⟨ctx.misplaced c, c :: r⟩
    else
      match Token.next (c :: r) with
      | .error stuck => .error stuck
      | .ok (token, rest) =>
        if token.kind = .crement then .error ⟨.increment, rest⟩ else .ok (token, rest)

/-- Two neighbours that do not fit. -/
def misfit (before : Option Text) (token : Token) : Fault :=
  match before with
  | none => .unexpected token.text
  | some last => .unexpected (last ++ " " ++ token.text)

/-- The name that must follow a dot. -/
def needName (ctx : Context) (t : Text) : Except Stuck (Text × Text) := do
  let (token, rest) ← needToken ctx (some ".") t
  if token.kind = .name then return (token.text, rest)
  else throw ⟨misfit (some ".") token, rest⟩

theorem needToken_shorter {ctx : Context} {before : Option Text} {t rest : Text} {token : Token}
    (h : needToken ctx before t = .ok (token, rest)) : Shorter rest t := by
  unfold needToken at h
  split at h
  · simp at h
  · next c r hc =>
    split at h
    · split at h
      · split at h <;> simp at h
      · simp at h
    · split at h
      · simp at h
      · next token' rest' hn =>
        split at h
        · simp at h
        · obtain ⟨rfl, rfl⟩ := Prod.mk.inj (Except.ok.inj h)
          exact (Shorter.of_next hn).trans_suffix (hc ▸ Text.trimStart_suffix t)

theorem needName_shorter {ctx : Context} {t name rest : Text}
    (h : needName ctx t = .ok (name, rest)) : Shorter rest t := by
  obtain ⟨⟨token, r⟩, ht, hr⟩ := bind_eq_ok_iff.1 h
  dsimp only at hr
  split at hr
  · obtain ⟨rfl, rfl⟩ := Prod.mk.inj (Except.ok.inj hr)
    exact needToken_shorter ht
  · cases hr

/-! ## Chains -/

/-- A chain that goes on with `name`, up to its last name, with what it stands for and whether it is
called. -/
def readChain (s : Scope) (ctx : Context) (chain : Chain) (name : Text) (t : Text) :
    Except Stuck ((Chain × Reference × Bool) × Text) :=
  let ahead := (Text.trimStart t).head?
  let full := chain.push name
  if name ∈ reservedWords ∧ (!chain.isEmpty ∨ ahead = some '(') then
    .error ⟨.reservedWord name, t⟩
  else if name ∈ reservedWords ∧ name ≠ "this" then
    if ahead = some '.' then .error ⟨.reservedWord name, t⟩
    else .ok ((full, .word name, false), t)
  else
    match _ : Text.trimStart t with
    | '.' :: r =>
      let run := '.' :: r.takeWhile (· == '.')
      let rest := r.dropWhile (· == '.')
      if 1 < run.length then .error ⟨.unexpected (full.raw ++ run), rest⟩
      else
        match _ : needName ctx rest with
        | .error stuck => .error stuck
        | .ok (next, rest) => readChain s ctx full next rest
    | _ =>
      match full.resolve s (ahead = some '(') with
      | .error fault => .error ⟨fault, t⟩
      | .ok target => .ok ((full, target, ahead = some '('), t)
termination_by t.length
decreasing_by
  exact (((needName_shorter ‹_›).trans_suffix (List.dropWhile_suffix _)).trans
    (Shorter.of_trimStart ‹_›)).2

theorem readChain_suffix {s : Scope} {ctx : Context} {chain : Chain} {name t rest : Text}
    {found : Chain × Reference × Bool} (h : readChain s ctx chain name t = .ok (found, rest)) :
    rest <:+ t := by
  fun_induction readChain s ctx chain name t with
  | case1 => simp at h
  | case2 => simp at h
  | case3 => obtain ⟨-, rfl⟩ := Prod.mk.inj (Except.ok.inj h); exact List.suffix_refl _
  | case4 => simp at h
  | case5 => simp at h
  | case6 chain name t _ _ _ _ r ht run rest' _ next rest'' hn ih =>
    exact (ih h).trans (((needName_shorter hn).trans_suffix (List.dropWhile_suffix _)).trans
      (Shorter.of_trimStart ht)).1
  | case7 => simp at h
  | case8 => obtain ⟨-, rfl⟩ := Prod.mk.inj (Except.ok.inj h); exact List.suffix_refl _

/-! ## Groups -/

/-- A reader of expressions one level down. -/
structure Inner where
  read : Context → Text → Except Stuck (Expr × Text)
  shorter : ∀ {ctx t e rest}, read ctx t = .ok (e, rest) → Shorter rest t

/-- How many levels an expression may be nested. -/
def maxNesting : Nat := 128

/-- An expression one level down. -/
def readInner (inner : Option Inner) (ctx : Context) (t : Text) : Except Stuck (Expr × Text) :=
  match inner with
  | none => .error ⟨.tooDeep maxNesting, t⟩
  | some inner => inner.read ctx t

/-- The character `c` ahead, after an expression that ended in `ctx`. -/
def needChar (ctx : Context) (c : Char) (t : Text) : Except Stuck Text :=
  match Text.trimStart t with
  | [] => .error ⟨.endInsideTag, []⟩
  | d :: r => if d = c then .ok r else .error ⟨ctx.misplaced d, d :: r⟩

/-- One expression and the closing bracket after it. -/
def readSingle (inner : Option Inner) (ctx : Context) (bracket : Bracket) (t : Text) :
    Except Stuck (Expr × Text) := do
  let (e, rest) ← readInner inner ctx t
  let rest ← needChar ctx bracket.closer rest
  return (e, rest)

/-- The parts of a group behind `items`, the last of which was read in `ctx`, and the closing
bracket. -/
def readParts (inner : Inner) (bracket : Bracket) (ctx : Context) (items : Items) (t : Text) :
    Except Stuck (Items × Text) :=
  match _ : Text.trimStart t with
  | [] => .error ⟨.endInsideTag, []⟩
  | c :: r =>
    if c = bracket.closer then .ok (items, r)
    else if c = ',' ∨ c = ':' then
      match ctx.after? c with
      | none => .error ⟨.strayDelimiter c, c :: r⟩
      | some next =>
        match _ : inner.read next r with
        | .error stuck => .error stuck
        | .ok (e, rest) =>
          readParts inner bracket next (if c = ':' then items.withValue e else .item items e) rest
    else .error ⟨ctx.misplaced c, c :: r⟩
termination_by t.length
decreasing_by exact ((inner.shorter ‹_›).trans (Shorter.of_trimStart ‹_›)).2

/-- The parts of a group that may be empty, and its closing bracket. -/
def readGroup (inner : Option Inner) (bracket : Bracket) (ctx : Context) (t : Text) :
    Except Stuck (Items × Text) :=
  match inner with
  | none => .error ⟨.tooDeep maxNesting, t⟩
  | some inner =>
    match Text.trimStart t with
    | c :: r =>
      if c = bracket.closer then .ok (.empty, r)
      else
        match inner.read ctx t with
        | .error stuck => .error stuck
        | .ok (e, rest) => readParts inner bracket ctx (.item .empty e) rest
    | [] => .error ⟨.endInsideTag, []⟩

theorem readInner_shorter {inner : Option Inner} {ctx : Context} {t rest : Text} {e : Expr}
    (h : readInner inner ctx t = .ok (e, rest)) : Shorter rest t := by
  cases inner with
  | none => simp [readInner] at h
  | some inner => exact inner.shorter h

theorem needChar_shorter {ctx : Context} {c : Char} {t rest : Text}
    (h : needChar ctx c t = .ok rest) : Shorter rest t := by
  unfold needChar at h
  split at h
  · simp at h
  · next d r hd =>
    split at h
    · obtain rfl := Except.ok.inj h
      exact Shorter.of_trimStart hd
    · simp at h

theorem readSingle_shorter {inner : Option Inner} {ctx : Context} {bracket : Bracket}
    {t rest : Text} {e : Expr} (h : readSingle inner ctx bracket t = .ok (e, rest)) :
    Shorter rest t := by
  obtain ⟨⟨e', r⟩, he, hr⟩ := bind_eq_ok_iff.1 h
  obtain ⟨r', hc, hr⟩ := bind_eq_ok_iff.1 hr
  obtain ⟨rfl, rfl⟩ := Prod.mk.inj (Except.ok.inj hr)
  exact (needChar_shorter hc).trans (readInner_shorter he)

theorem readParts_shorter {inner : Inner} {bracket : Bracket} {ctx : Context} {items found : Items}
    {t rest : Text} (h : readParts inner bracket ctx items t = .ok (found, rest)) :
    Shorter rest t := by
  fun_induction readParts inner bracket ctx items t with
  | case1 => simp at h
  | case2 ctx items t r ht =>
    obtain ⟨rfl, rfl⟩ := Prod.mk.inj (Except.ok.inj h)
    exact Shorter.of_trimStart ht
  | case3 => simp at h
  | case4 => simp at h
  | case5 ctx items t c r ht _ _ next _ e rest' hr ih =>
    exact (ih h).trans ((inner.shorter hr).trans (Shorter.of_trimStart ht))
  | case6 => simp at h

theorem readGroup_shorter {inner : Option Inner} {bracket : Bracket} {ctx : Context} {t rest : Text}
    {items : Items} (h : readGroup inner bracket ctx t = .ok (items, rest)) : Shorter rest t := by
  unfold readGroup at h
  split at h
  · simp at h
  · next inner =>
    split at h
    · next c r hc =>
      split at h
      · obtain ⟨rfl, rfl⟩ := Prod.mk.inj (Except.ok.inj h)
        exact Shorter.of_trimStart hc
      · split at h
        · simp at h
        · next e rest' he => exact (readParts_shorter h).trans (inner.shorter he)
    · simp at h

/-! ## Values -/

/-- A value that starts with the chain going on with `name`. -/
def readNamed (s : Scope) (inner : Option Inner) (ctx : Context) (chain : Chain) (name : Text)
    (t : Text) : Except Stuck (Value × Text) := do
  let ((chain, target, called), rest) ← readChain s ctx chain name t
  if called then
    let rest ← needChar ctx '(' rest
    let (args, rest) ← readGroup inner .paren (.argument true) rest
    return (.call chain target args, rest)
  else return (.name chain target, rest)

/-- A value that starts with `token`, which stands after `before`, without its suffixes. -/
def readPrimary (s : Scope) (inner : Option Inner) (ctx : Context) (before : Option Text)
    (token : Token) (t : Text) : Except Stuck (Value × Text) :=
  match token.kind with
  | .number => .ok (.number token.text, t)
  | .quoted => .ok (.quoted token.text, t)
  | .name => readNamed s inner ctx ⟨0, []⟩ token.text t
  | .dots => do
    let (token', rest) ← needToken ctx (some token.text) t
    if token'.kind = .name then readNamed s inner ctx ⟨token.text.length, []⟩ token'.text rest
    else throw ⟨misfit (some token.text) token', rest⟩
  | .opening .paren => do
    let (e, rest) ← readSingle inner .paren .paren t
    return (.paren e, rest)
  | .opening bracket => do
    let (items, rest) ← readGroup inner bracket (.item bracket .first) t
    return (.literal bracket items, rest)
  | _ => .error ⟨misfit before token, t⟩

/-- A value with one more suffix, if one is ahead. -/
def readSuffix (s : Scope) (inner : Option Inner) (ctx : Context) (value : Value) (t : Text) :
    Except Stuck (Option (Value × Text)) :=
  match Text.trimStart t with
  | [] => .ok none
  | c :: r =>
    if isStop c then .ok none
    else do
      let (token, rest) ← Token.next (c :: r)
      match token.kind with
      | .crement => throw ⟨.increment, rest⟩
      | .dots =>
        if 1 < token.text.length then throw ⟨.unexpected (value.lastText ++ token.text), rest⟩
        else
          let (name, rest) ← needName ctx rest
          if (Text.trimStart rest).head? ≠ some '(' then throw ⟨.uncalledMethod name, rest⟩
          else if !s.registry.wrapper.contains name then
            throw ⟨.noWrapperMethod name s.registry.wrapper.owner name, rest⟩
          else
            let rest ← needChar ctx '(' rest
            let (args, rest) ← readGroup inner .paren (.argument true) rest
            return some (.method value name args, rest)
      | .opening .paren => throw ⟨.unexpected (value.lastText ++ " ("), rest⟩
      | .opening bracket =>
        let (key, rest) ← readSingle inner (.index bracket) bracket rest
        return some (.index value bracket key, rest)
      | .name | .number | .quoted | .unary => throw ⟨misfit (some value.lastText) token, rest⟩
      | _ => return none

theorem readNamed_suffix {s : Scope} {inner : Option Inner} {ctx : Context} {chain : Chain}
    {name t rest : Text} {value : Value}
    (h : readNamed s inner ctx chain name t = .ok (value, rest)) : rest <:+ t := by
  obtain ⟨⟨⟨chain', target, called⟩, r⟩, hc, hr⟩ := bind_eq_ok_iff.1 h
  have hs := readChain_suffix hc
  dsimp only at hr
  split at hr
  · obtain ⟨r', hp, hr⟩ := bind_eq_ok_iff.1 hr
    obtain ⟨⟨args, r''⟩, hg, hr⟩ := bind_eq_ok_iff.1 hr
    obtain ⟨-, rfl⟩ := Prod.mk.inj (Except.ok.inj hr)
    exact (readGroup_shorter hg).1.trans ((needChar_shorter hp).1.trans hs)
  · obtain ⟨-, rfl⟩ := Prod.mk.inj (Except.ok.inj hr)
    exact hs

theorem readPrimary_suffix {s : Scope} {inner : Option Inner} {ctx : Context}
    {before : Option Text} {token : Token} {t rest : Text} {value : Value}
    (h : readPrimary s inner ctx before token t = .ok (value, rest)) : rest <:+ t := by
  unfold readPrimary at h
  split at h
  · obtain ⟨-, rfl⟩ := Prod.mk.inj (Except.ok.inj h); exact List.suffix_refl _
  · obtain ⟨-, rfl⟩ := Prod.mk.inj (Except.ok.inj h); exact List.suffix_refl _
  · exact readNamed_suffix h
  · obtain ⟨⟨token', r⟩, ht, hr⟩ := bind_eq_ok_iff.1 h
    dsimp only at hr
    split at hr
    · exact (readNamed_suffix hr).trans (needToken_shorter ht).1
    · cases hr
  · obtain ⟨⟨e, r⟩, he, hr⟩ := bind_eq_ok_iff.1 h
    obtain ⟨-, rfl⟩ := Prod.mk.inj (Except.ok.inj hr)
    exact (readSingle_shorter he).1
  · obtain ⟨⟨e, r⟩, he, hr⟩ := bind_eq_ok_iff.1 h
    obtain ⟨-, rfl⟩ := Prod.mk.inj (Except.ok.inj hr)
    exact (readGroup_shorter he).1
  · cases h

theorem readSuffix_shorter {s : Scope} {inner : Option Inner} {ctx : Context}
    {value value' : Value} {t rest : Text}
    (h : readSuffix s inner ctx value t = .ok (some (value', rest))) : Shorter rest t := by
  unfold readSuffix at h
  split at h
  · cases h
  · next c r hc =>
    split at h
    · cases h
    · obtain ⟨⟨token, r'⟩, ht, hr⟩ := bind_eq_ok_iff.1 h
      have hs : Shorter r' t := (Shorter.of_next ht).trans_suffix (hc ▸ Text.trimStart_suffix t)
      dsimp only at hr
      split at hr
      · cases hr
      · split at hr
        · cases hr
        · obtain ⟨⟨name, r2⟩, hn, hr⟩ := bind_eq_ok_iff.1 hr
          dsimp only at hr
          split at hr
          · cases hr
          · split at hr
            · cases hr
            · obtain ⟨r3, hp, hr⟩ := bind_eq_ok_iff.1 hr
              obtain ⟨⟨args, r4⟩, hg, hr⟩ := bind_eq_ok_iff.1 hr
              obtain ⟨-, rfl⟩ := Prod.mk.inj (Option.some.inj (Except.ok.inj hr))
              exact (readGroup_shorter hg).trans
                ((needChar_shorter hp).trans ((needName_shorter hn).trans hs))
      · cases hr
      · obtain ⟨⟨key, r2⟩, hk, hr⟩ := bind_eq_ok_iff.1 hr
        obtain ⟨-, rfl⟩ := Prod.mk.inj (Option.some.inj (Except.ok.inj hr))
        exact (readSingle_shorter hk).trans hs
      · cases hr
      · cases hr
      · cases hr
      · cases hr
      · cases hr

/-- A value with all the suffixes ahead. -/
def readSuffixes (s : Scope) (inner : Option Inner) (ctx : Context) (value : Value) (t : Text) :
    Except Stuck (Value × Text) :=
  match _ : readSuffix s inner ctx value t with
  | .error stuck => .error stuck
  | .ok none => .ok (value, t)
  | .ok (some (value, rest)) => readSuffixes s inner ctx value rest
termination_by t.length
decreasing_by exact (readSuffix_shorter ‹_›).2

theorem readSuffixes_suffix {s : Scope} {inner : Option Inner} {ctx : Context}
    {value value' : Value} {t rest : Text}
    (h : readSuffixes s inner ctx value t = .ok (value', rest)) : rest <:+ t := by
  fun_induction readSuffixes s inner ctx value t with
  | case1 => simp at h
  | case2 => obtain ⟨-, rfl⟩ := Prod.mk.inj (Except.ok.inj h); exact List.suffix_refl _
  | case3 value t value'' rest' hs ih => exact (ih h).trans (readSuffix_shorter hs).1

/-! ## Operands -/

/-- A sign in front of an operand. -/
def Token.isSign (token : Token) : Bool :=
  match token.kind with
  | .unary | .plus | .minus => true
  | _ => false

/-- An operator between two operands. -/
def Token.isBinary (token : Token) : Bool :=
  match token.kind with
  | .comparison | .logic | .elvis | .arithmetic | .plus | .minus => true
  | _ => false

/-- An operand after `before`: at most one sign, and a value. -/
def readOperand (s : Scope) (inner : Option Inner) (ctx : Context) (before : Option Text)
    (t : Text) : Except Stuck ((Option Text × Value) × Text) := do
  let (token, rest) ← needToken ctx before t
  if token.isSign then
    let (first, rest) ← needToken ctx (some token.text) rest
    if first.isSign then throw ⟨.chainedUnary token.text first.text, rest⟩
    else if first.kind = .quoted then throw ⟨misfit (some token.text) first, rest⟩
    else
      let (value, rest) ← readPrimary s inner ctx (some token.text) first rest
      let (value, rest) ← readSuffixes s inner ctx value rest
      return ((some token.text, value), rest)
  else
    let (value, rest) ← readPrimary s inner ctx before token rest
    let (value, rest) ← readSuffixes s inner ctx value rest
    return ((none, value), rest)

theorem readOperand_shorter {s : Scope} {inner : Option Inner} {ctx : Context}
    {before : Option Text} {t rest : Text} {found : Option Text × Value}
    (h : readOperand s inner ctx before t = .ok (found, rest)) : Shorter rest t := by
  obtain ⟨⟨token, r⟩, ht, hr⟩ := bind_eq_ok_iff.1 h
  have hs := needToken_shorter ht
  dsimp only at hr
  split at hr
  · obtain ⟨⟨first, r1⟩, h1, hr⟩ := bind_eq_ok_iff.1 hr
    dsimp only at hr
    split at hr
    · cases hr
    · split at hr
      · cases hr
      · obtain ⟨⟨value, r2⟩, h2, hr⟩ := bind_eq_ok_iff.1 hr
        obtain ⟨⟨value', r3⟩, h3, hr⟩ := bind_eq_ok_iff.1 hr
        obtain ⟨-, rfl⟩ := Prod.mk.inj (Except.ok.inj hr)
        have hs := (needToken_shorter h1).trans hs
        exact ⟨(readSuffixes_suffix h3).trans ((readPrimary_suffix h2).trans hs.1),
          Nat.lt_of_le_of_lt
            ((readSuffixes_suffix h3).trans (readPrimary_suffix h2)).length_le hs.2⟩
  · obtain ⟨⟨value, r2⟩, h2, hr⟩ := bind_eq_ok_iff.1 hr
    obtain ⟨⟨value', r3⟩, h3, hr⟩ := bind_eq_ok_iff.1 hr
    obtain ⟨-, rfl⟩ := Prod.mk.inj (Except.ok.inj hr)
    exact ⟨(readSuffixes_suffix h3).trans ((readPrimary_suffix h2).trans hs.1),
      Nat.lt_of_le_of_lt
        ((readSuffixes_suffix h3).trans (readPrimary_suffix h2)).length_le hs.2⟩

/-! ## Expressions -/

/-- Whether the expression ends here, in `ctx`; the stop character stays ahead. -/
def needEnd (ctx : Context) (t : Text) : Except Stuck Text :=
  match Text.trimStart t with
  | [] => .error ⟨.endInsideTag, []⟩
  | c :: r => if ctx.ends c then .ok (c :: r) else .error ⟨ctx.misplaced c, c :: r⟩

/-- The two branches behind the `?` of a ternary. -/
def readBranches (inner : Option Inner) (ctx : Context) (t : Text) :
    Except Stuck ((Expr × Expr) × Text) := do
  let (yes, rest) ← readInner inner .yes t
  let rest ← needChar .yes ':' rest
  let (no, rest) ← readInner inner .no rest
  let rest ← needEnd ctx rest
  return ((yes, no), rest)

/-- The rest of an expression behind `terms`. -/
def readTerms (s : Scope) (inner : Option Inner) (ctx : Context) (terms : Terms) (t : Text) :
    Except Stuck (Expr × Text) :=
  match _ : Text.trimStart t with
  | [] => .error ⟨.endInsideTag, []⟩
  | c :: r =>
    if isStop c then
      if ctx.ends c then .ok (.plain terms, c :: r) else .error ⟨ctx.misplaced c, c :: r⟩
    else
      match _ : Token.next (c :: r) with
      | .error stuck => .error stuck
      | .ok (token, rest) =>
        if token.isBinary then
          match _ : readOperand s inner ctx (some token.text) rest with
          | .error stuck => .error stuck
          | .ok ((sign, value), rest) => readTerms s inner ctx (.more terms token sign value) rest
        else if token.kind = .question then
          if ctx.isBranch then .error ⟨.nestedTernary, rest⟩
          else do
            let ((yes, no), rest) ← readBranches inner ctx rest
            return (.ternary terms yes no, rest)
        else .error ⟨misfit none token, rest⟩
termination_by t.length
decreasing_by
  rename_i ht _ _ hn _ ho
  exact ((readOperand_shorter ho).trans
    ((Shorter.of_next hn).trans_suffix (ht ▸ Text.trimStart_suffix t))).2

/-- **An expression in a context**, up to the character that ends it. -/
def readExpr (s : Scope) (inner : Option Inner) (ctx : Context) (t : Text) :
    Except Stuck (Expr × Text) := do
  let ((sign, value), rest) ← readOperand s inner ctx none t
  readTerms s inner ctx (.one sign value) rest

theorem needEnd_suffix {ctx : Context} {t rest : Text} (h : needEnd ctx t = .ok rest) :
    rest <:+ t := by
  unfold needEnd at h
  split at h
  · cases h
  · next c r hc =>
    split at h
    · obtain rfl := Except.ok.inj h
      exact hc ▸ Text.trimStart_suffix t
    · cases h

theorem readBranches_suffix {inner : Option Inner} {ctx : Context} {t rest : Text}
    {found : Expr × Expr} (h : readBranches inner ctx t = .ok (found, rest)) : rest <:+ t := by
  obtain ⟨⟨yes, r1⟩, h1, h⟩ := bind_eq_ok_iff.1 h
  obtain ⟨r2, h2, h⟩ := bind_eq_ok_iff.1 h
  obtain ⟨⟨no, r3⟩, h3, h⟩ := bind_eq_ok_iff.1 h
  obtain ⟨r4, h4, h⟩ := bind_eq_ok_iff.1 h
  obtain ⟨-, rfl⟩ := Prod.mk.inj (Except.ok.inj h)
  exact (needEnd_suffix h4).trans ((readInner_shorter h3).1.trans
    ((needChar_shorter h2).1.trans (readInner_shorter h1).1))

theorem readTerms_suffix {s : Scope} {inner : Option Inner} {ctx : Context} {terms : Terms}
    {t rest : Text} {e : Expr} (h : readTerms s inner ctx terms t = .ok (e, rest)) :
    rest <:+ t := by
  fun_induction readTerms s inner ctx terms t with
  | case1 => simp at h
  | case2 terms t c r ht =>
    obtain ⟨-, rfl⟩ := Prod.mk.inj (Except.ok.inj h)
    exact ht ▸ Text.trimStart_suffix t
  | case3 => simp at h
  | case4 => simp at h
  | case5 => simp at h
  | case6 terms t c r ht _ token rest' hn _ sign value rest'' ho ih =>
    exact (ih h).trans ((readOperand_shorter ho).1.trans
      ((Shorter.of_next hn).trans_suffix (ht ▸ Text.trimStart_suffix t)).1)
  | case7 => simp at h
  | case8 terms t c r ht _ token rest' hn =>
    obtain ⟨⟨⟨yes, no⟩, r2⟩, hb, hr⟩ := bind_eq_ok_iff.1 h
    obtain ⟨-, rfl⟩ := Prod.mk.inj (Except.ok.inj hr)
    exact (readBranches_suffix hb).trans
      ((Shorter.of_next hn).trans_suffix (ht ▸ Text.trimStart_suffix t)).1
  | case9 => simp at h

/-- **Reading an expression moves forward.** -/
theorem readExpr_shorter {s : Scope} {inner : Option Inner} {ctx : Context} {t rest : Text}
    {e : Expr} (h : readExpr s inner ctx t = .ok (e, rest)) : Shorter rest t := by
  obtain ⟨⟨⟨sign, value⟩, r⟩, ho, hr⟩ := bind_eq_ok_iff.1 h
  have hs := readOperand_shorter ho
  have hk := readTerms_suffix hr
  exact ⟨hk.trans hs.1, Nat.lt_of_le_of_lt hk.length_le hs.2⟩

/-! ## Levels -/

/-- The reader below a level that has `n` levels below it. -/
def innerReader (s : Scope) : Nat → Option Inner
  | 0 => none
  | n + 1 => some ⟨readExpr s (innerReader s n), readExpr_shorter⟩

/-- **The expression of a tag**, up to its closing bracket. -/
def readTag (s : Scope) (t : Text) : Except Stuck (Expr × Text) :=
  readExpr s (innerReader s maxNesting) .tag t

end Stencil
