import Stencil.Proofs.Expr.Unbroken

/-!
# Proofs/Expr/Replay — the emitter goes along with the reader

    text ──reader──▸ chain, parts of a group, …      text left
      ╰──rounds of the emitter──▸ draft with their code ──╯

For each reader there is an equation: the emitter in front of a text runs as the reader reads, and
goes on from a draft that holds the code of what was read.  Where the reader stops at a fault, so
does the emitter, with the same fault in front of the same text.  The equations here are those of
single tokens, of chains and of groups.
-/

namespace Stencil

/-- What stands before a value: nothing, an operator, a sign or a dot. -/
inductive Previous.Leads : Previous → Prop
  | start : Leads .start
  | operator {token : Token} (h : token.kind ≠ .name) : Leads (.token token .operator)
  | unary {token : Token} (h : token.kind ≠ .name) : Leads (.token token .unary)
  | dot {token : Token} (h : token.kind ≠ .name) : Leads (.token token .dot)

/-- Where a value is wanted, a name fits. -/
theorem Previous.Leads.clash?_name {p : Previous} (h : p.Leads) (name : Text) :
    p.clash? (Token.named name) .operand = none := by
  cases h <;> rfl

/-- Behind dots nothing but a name fits. -/
theorem Previous.clash?_dot {dots token : Token} (group : Token.Group) (hname : token.kind ≠ .name)
    (hcrement : token.kind ≠ .crement) :
    (Previous.token dots .dot).clash? token group = some (misfit (some dots.text) token) := by
  have hends : (Previous.token dots .dot).endsValue = false := rfl
  rw [clash?, if_neg hcrement, if_neg (by simp [hends])]
  split
  · rfl
  · rw [if_pos ⟨rfl, hname⟩]
    rfl

namespace Draft

variable {s : Scope} {nested : Option Nested} {inner : Option Inner} {ctx : Context} {d : Draft}
  {t : Text}

/-- The emitter goes on from a draft and the text behind it. -/
def resume (s : Scope) (nested : Option Nested) (ctx : Context) (found : Draft × Text) :
    Except Stuck (Text × Text) := found.1.run s nested ctx found.2

/-! ## Rounds -/

theorem run_eq (d : Draft) (t : Text) :
    d.run s nested ctx t =
      d.round s nested ctx t >>= fun
        | .done out rest => .ok (out, rest)
        | .more d rest => d.run s nested ctx rest := by
  rw [run]
  split <;> next hround => rw [hround]; rfl

theorem run_pending {group : Context} (h : d.pending = some group) :
    d.run s nested ctx t =
      { d with pending := none }.closeOrContinue nested group (Text.trimStart t) >>=
        resume s nested ctx := by
  rw [run_eq, round, h]
  dsimp only
  rw [bind_assoc]
  rfl

theorem run_end (h : d.pending = none) (ht : Text.trimStart t = []) :
    d.run s nested ctx t = .error ⟨.endInsideTag, []⟩ := by
  rw [run_eq, round, h, ht]
  rfl

theorem run_stop {c : Char} {r : Text} (h : d.pending = none) (ht : Text.trimStart t = c :: r)
    (hc : isStop c = true) : d.run s nested ctx t = d.stop ctx c (c :: r) := by
  rw [run_eq, round, h, ht]
  dsimp only
  rw [if_pos hc, bind_assoc]
  cases d.stop ctx c (c :: r) <;> rfl

theorem run_token {c : Char} {r : Text} (h : d.pending = none) (ht : Text.trimStart t = c :: r)
    (hc : isStop c = false) :
    d.run s nested ctx t =
      Token.next (c :: r) >>= fun next =>
        d.take s nested ctx next.1 next.2 >>= resume s nested ctx := by
  rw [run_eq, round, h, ht]
  dsimp only
  rw [if_neg (by simp [hc]), bind_assoc]
  simp only [bind_assoc]
  rfl

/-- The emitter takes the token ahead. -/
theorem run_next {c : Char} {r rest : Text} {token : Token} (h : d.pending = none)
    (ht : Text.trimStart t = c :: r) (hc : isStop c = false)
    (hnext : Token.next (c :: r) = .ok (token, rest)) :
    d.run s nested ctx t = d.take s nested ctx token rest >>= resume s nested ctx := by
  rw [run_token h ht hc, hnext]
  rfl

/-! ## Tokens -/

theorem take_of_fits {token : Token} {group : Token.Group}
    (hgroup : token.group d.prev.group? = group) (h : d.prev.clash? token group = none) :
    d.take s nested ctx token t =
      (d.start group).emit s nested ctx token group t >>= fun found =>
        .ok ({ found.1 with prev := .token token group }, found.2) := by
  rw [take, hgroup, h]

theorem take_of_clash {token : Token} {group : Token.Group} {fault : Fault}
    (hgroup : token.group d.prev.group? = group) (h : d.prev.clash? token group = some fault) :
    d.take s nested ctx token t = .error ⟨fault, t⟩ := by
  rw [take, hgroup, h]

theorem take_crement {token : Token} (h : token.kind = .crement) :
    d.take s nested ctx token t = .error ⟨.increment, t⟩ :=
  take_of_clash rfl (if_pos h)

/-- **A draft that wants a value.** -/
structure Wants (d : Draft) : Prop where
  pending : d.pending = none
  leads : d.prev.Leads
  started : d.started = d.prev.text?.isSome

/-- Nothing at all stands before a character that allows it. -/
def emptyAhead (ctx : Context) (t : Text) : Bool := (Text.trimStart t).head?.any ctx.allowsEmpty

/-- An expression cannot end where a value is wanted. -/
theorem unfinished?_of_wants {c : Char} (h : d.Wants)
    (hempty : d.started = false → ctx.allowsEmpty c = false) :
    d.unfinished? ctx c =
      some (match d.prev.text? with
        | none => .missingExpression c
        | some last => .danglingEnd last) := by
  have hstarted := h.started
  have hleads := h.leads
  unfold unfinished?
  generalize hprev : d.prev = prev at hstarted hleads
  cases hleads with
  | start =>
    have hstarted : d.started = false := hstarted
    rw [if_pos hstarted, hempty hstarted]
    rfl
  | operator | unary | dot =>
    have hstarted : d.started = true := hstarted
    rw [if_neg (by simp [hstarted])]
    rfl

/-- **Where a value is wanted, the emitter takes the token that the reader needs.** -/
theorem run_needToken (h : d.Wants) (hempty : d.started = false → emptyAhead ctx t = false) :
    d.run s nested ctx t =
      needToken ctx d.prev.text? t >>= fun next =>
        d.take s nested ctx next.1 next.2 >>= resume s nested ctx := by
  unfold needToken
  cases ht : Text.trimStart t with
  | nil => exact run_end h.pending ht
  | cons c r =>
    dsimp only
    split
    · next hstop =>
      rw [run_stop h.pending ht hstop, stop]
      split
      · rw [unfinished?_of_wants h]
        · cases d.prev.text? <;> rfl
        · intro hstarted
          simpa [emptyAhead, ht] using hempty hstarted
      · rfl
    · next hstop =>
      rw [run_token h.pending ht (by simpa using hstop)]
      cases hnext : Token.next (c :: r) with
      | error stuck => rfl
      | ok found =>
        obtain ⟨token, rest⟩ := found
        dsimp only
        split
        · next hk =>
          change d.take s nested ctx token rest >>= resume s nested ctx = _
          rw [take_crement hk]
          rfl
        · rfl

/-! ## Chains -/

/-- **A draft in which a chain may begin or go on**: no value stands before it, and the span of its
value begins with it. -/
structure Chaining (d : Draft) : Prop extends d.Wants where
  methodNext : d.methodNext = false
  span : d.span = none ∨ d.span = some d.out.length

/-- What a chain begins with begins a span at the end of what is written. -/
theorem Chaining.spanAfter {group : Token.Group} (h : d.Chaining) (hgroup : group.startsSpan = true) :
    d.spanAfter group = some d.out.length := by
  have hoperator : group ≠ .operator := by
    rintro rfl
    cases hgroup
  rw [Draft.spanAfter, if_neg hoperator]
  rcases h.span with hspan | hspan
  · rw [if_pos ⟨hspan, hgroup⟩]
  · rw [if_neg (by simp [hspan]), hspan]

/-- The draft behind a chain that stands for `target`. -/
def target (r : Registry) (d : Draft) (chain : Chain) (target : Reference) : Draft :=
  { d with
    prev := .token (Token.named (chain.names.getLast?.getD [])) .operand
    out := d.out ++ target.code r
    started := true
    span := some d.out.length
    chain := .fresh }

/-- A target at the end of what is written. -/
theorem emitTarget_of_end (target : Reference) (h : d.span = some d.out.length) :
    d.emitTarget s target = .ok (d.write (target.code s.registry)) := by
  unfold emitTarget
  rw [insertOpener_of_span h, List.take_length, List.drop_length, List.append_nil,
    Reference.code_eq]
  split
  · simp only [bind, Except.bind, write, List.append_assoc]
  · rfl

/-- A name behind a chain, by the character ahead. -/
theorem addName_of (s : Scope) (c : Chain) (name : Text) (ahead : Option Char) :
    c.addName s name (.of ahead) =
      if name ∈ reservedWords ∧ (!c.isEmpty ∨ ahead = some '(') then .error (.reservedWord name)
      else if name ∈ reservedWords ∧ name ≠ "this" then
        if ahead = some '.' then .error (.reservedWord name) else .ok (c, some (.word name))
      else if ahead = some '.' then .ok (c.push name, none)
      else ((c.push name).resolve s (ahead = some '(')).map fun target =>
        (Chain.fresh, some target) := by
  simp only [Chain.addName_eq, Lookahead.of_eq_call_iff, Lookahead.of_eq_dot_iff]

/-- **A name in a chain.** -/
theorem take_name (h : d.Chaining) (name t : Text) :
    d.take s nested ctx (Token.named name) t =
      match d.chain.addName s name (.of (Text.trimStart t).head?) with
      | .error fault => .error ⟨fault, t⟩
      | .ok (chain, none) =>
        .ok ({ d with
          prev := .token (Token.named name) .operand, started := true
          span := some d.out.length, chain := chain }, t)
      | .ok (chain, some target) =>
        .ok ({ d with
          prev := .token (Token.named name) .operand, started := true
          span := some d.out.length, chain := chain
          out := d.out ++ target.code s.registry }, t) := by
  rw [take_of_fits rfl (h.leads.clash?_name name)]
  have hafter : d.spanAfter .operand = some d.out.length := h.spanAfter rfl
  have hspan : (d.start .operand).span = some d.out.length := hafter
  have hmethod : (d.start .operand).methodNext = false := h.methodNext
  change before t ((d.start .operand).emitName s name t) >>= _ = _
  rw [emitName, if_neg (by simp [hmethod])]
  change before t (d.chain.addName s name _ >>= _) >>= _ = _
  cases d.chain.addName s name (.of (Text.trimStart t).head?) with
  | error fault => rfl
  | ok found =>
    obtain ⟨chain, _ | target⟩ := found
    · simp only [start, hafter]
      rfl
    · have htarget := emitTarget_of_end (s := s)
        (d := { d.start .operand with chain := chain }) target hspan
      refine (congrArg (fun x => before t x >>= _) htarget).trans ?_
      simp only [start, hafter]
      rfl

/-- A run of dots in a chain, which they begin or go on with. -/
theorem take_dots {run : Text} (hclash : d.prev.clash? ⟨.dots, run⟩ .dot = none)
    (hchain : ¬(d.prev.kind? ≠ some .name ∧ d.prev.endsValue)) (t : Text) :
    d.take s nested ctx ⟨.dots, run⟩ t =
      match d.chain.addDots run with
      | .error fault => .error ⟨fault, t⟩
      | .ok chain =>
        .ok ({ d with
          prev := .token ⟨.dots, run⟩ .dot, started := true
          span := d.spanAfter .dot, chain := chain }, t) := by
  rw [take_of_fits rfl hclash]
  have hstart : ¬((d.start .dot).prev.kind? ≠ some .name ∧ (d.start .dot).prev.endsValue) := hchain
  change before t ((d.start .dot).emitDots run) >>= _ = _
  rw [emitDots, if_neg hstart]
  change before t (d.chain.addDots run >>= _) >>= _ = _
  cases d.chain.addDots run <;> rfl

/-- Dots behind a name of a chain. -/
theorem run_dots {name r : Text} (hpending : d.pending = none)
    (hprev : d.prev = .token (Token.named name) .operand) (hchain : d.chain.isEmpty = false)
    (ht : Text.trimStart t = '.' :: r) :
    d.run s nested ctx t =
      if 1 < ('.' :: r.takeWhile (· == '.')).length then
        .error ⟨.unexpected (d.chain.raw ++ '.' :: r.takeWhile (· == '.')), r.dropWhile (· == '.')⟩
      else
        { d with prev := .token Token.dot .dot, started := true, span := d.spanAfter .dot }.run
          s nested ctx (r.dropWhile (· == '.')) := by
  have hclash : d.prev.clash? ⟨.dots, '.' :: r.takeWhile (· == '.')⟩ .dot = none := by
    rw [hprev]
    rfl
  have hname : ¬(d.prev.kind? ≠ some .name ∧ d.prev.endsValue) := by
    rw [hprev]
    exact fun h => h.1 rfl
  rw [run_token hpending ht rfl, Token.next_dots]
  change d.take s nested ctx _ _ >>= _ = _
  rw [take_dots hclash hname, Chain.addDots, hchain, if_neg Bool.false_ne_true]
  by_cases hrun : 1 < ('.' :: r.takeWhile (· == '.')).length
  · rw [if_pos hrun, if_pos hrun]
    rfl
  · have hsingle : r.takeWhile (· == '.') = [] := by
      rw [List.length_cons] at hrun
      exact List.eq_nil_of_length_eq_zero (by omega)
    rw [if_neg hrun, if_neg hrun, hsingle]
    rfl

/-- **Behind dots the emitter takes the name that the reader needs**, and nothing else. -/
theorem run_behind_dots (h : d.Wants) {dots : Token} (hprev : d.prev = .token dots .dot) (t : Text) :
    d.run s nested ctx t =
      needToken ctx (some dots.text) t >>= fun next =>
        if next.1.kind = .name then
          d.take s nested ctx (Token.named next.1.text) next.2 >>= resume s nested ctx
        else .error ⟨misfit (some dots.text) next.1, next.2⟩ := by
  have hstarted : d.started = true := by rw [h.started, hprev]; rfl
  rw [run_needToken h (by simp [hstarted]), hprev]
  change needToken ctx (some dots.text) t >>= _ = _
  cases hneed : needToken ctx (some dots.text) t with
  | error stuck => rfl
  | ok next =>
    obtain ⟨⟨kind, text⟩, rest⟩ := next
    by_cases hkind : kind = .name
    · subst hkind
      rfl
    · have hclash : (Previous.token dots .dot).clash? ⟨kind, text⟩
          (Token.group (some .dot) ⟨kind, text⟩) = some (misfit (some dots.text) ⟨kind, text⟩) :=
        Previous.clash?_dot _ hkind (next_of_needToken hneed).2
      change d.take s nested ctx ⟨kind, text⟩ rest >>= _ = if kind = .name then _ else _
      rw [take_of_clash (by rw [hprev]; rfl) (hprev ▸ hclash), if_neg hkind]
      rfl

/-- **Behind a dot the emitter takes the name that the reader needs.** -/
theorem run_needName (h : d.Wants) (hprev : d.prev = .token Token.dot .dot) (t : Text) :
    d.run s nested ctx t =
      needName ctx t >>= fun found =>
        d.take s nested ctx (Token.named found.1) found.2 >>= resume s nested ctx := by
  rw [run_behind_dots h hprev, needName, bind_assoc]
  change needToken ctx (some ".") t >>= _ = needToken ctx (some ".") t >>= _
  cases needToken ctx (some ".") t with
  | error stuck => rfl
  | ok next =>
    change (if _ then _ else _) = (if _ then _ else _) >>= _
    split <;> rfl

/-- **A chain that is read is written**, name by name: the emitter keeps what the reader has, and
writes what the chain stands for in the end. -/
theorem run_readChain (h : d.Chaining) (name t : Text) :
    (d.take s nested ctx (Token.named name) t >>= resume s nested ctx) =
      readChain s ctx d.chain name t >>= fun found =>
        resume s nested ctx (d.target s.registry found.1.1 found.1.2.1, found.2) := by
  induction hlength : t.length using Nat.strongRecOn generalizing d name t with
  | ind n ih =>
  rw [take_name h, addName_of]
  by_cases hfirst : name ∈ reservedWords ∧
      ((!d.chain.isEmpty) = true ∨ (Text.trimStart t).head? = some '(')
  · rw [readChain, if_pos hfirst, if_pos hfirst]
    rfl
  rw [if_neg hfirst]
  by_cases hthis : name ∈ reservedWords ∧ name ≠ "this"
  · rw [readChain, if_neg hfirst, if_pos hthis, if_pos hthis]
    by_cases hdot : (Text.trimStart t).head? = some '.'
    · rw [if_pos hdot, if_pos hdot]
      rfl
    · have hempty : d.chain.isEmpty = true := by simpa [hthis.1] using fun h => hfirst ⟨hthis.1, .inl h⟩
      rw [if_neg hdot, if_neg hdot, Chain.isEmpty_iff.1 hempty]
      rfl
  rw [if_neg hthis]
  by_cases hdot : (Text.trimStart t).head? = some '.'
  · obtain ⟨r, ht⟩ := List.head?_eq_some_iff.1 hdot
    rw [if_pos hdot, readChain_dots hfirst hthis ht]
    have hfull : (d.chain.push name).isEmpty = false := by simp [Chain.isEmpty, Chain.push]
    change Draft.run s nested ctx _ t = _
    rw [run_dots (by exact h.pending) rfl hfull ht]
    split
    · rfl
    rw [run_needName (by exact ⟨h.pending, .dot (by decide), rfl⟩) rfl, bind_assoc]
    cases hname : needName ctx (r.dropWhile (· == '.')) with
    | error stuck => rfl
    | ok found =>
      have hshorter := ((needName_shorter hname).trans_suffix (List.dropWhile_suffix _)).trans
        (Shorter.of_trimStart ht)
      have hnext : Chaining { d with
          prev := .token Token.dot .dot, started := true
          span := some d.out.length, chain := d.chain.push name } :=
        ⟨⟨h.pending, .dot (by decide), rfl⟩, h.methodNext, .inr rfl⟩
      exact ih _ (hlength ▸ hshorter.2) hnext found.1 found.2 rfl
  · rw [if_neg hdot, readChain_whole hfirst hthis hdot]
    cases hresolve : (d.chain.push name).resolve s ((Text.trimStart t).head? = some '(') with
    | error fault => rfl
    | ok target =>
      have hlast : (d.chain.push name).names.getLast?.getD [] = name := by simp [Chain.push]
      change resume s nested ctx _ = resume s nested ctx (d.target s.registry _ target, t)
      rw [Draft.target, hlast]

end Draft

/-! ## Groups -/

namespace Context

/-- Behind a delimiter something must stand. -/
theorem allowsEmpty_of_after? {group next : Context} {c : Char} (h : group.after? c = some next)
    (d : Char) : next.allowsEmpty d = false := by
  unfold after? at h
  split at h
  · split at h <;> cases h
    rfl
  · split at h <;> cases h
    rfl
  · split at h
    · cases h
      rfl
    · split at h <;> cases h
      rfl
  · split at h <;> cases h
    rfl
  · cases h

/-- Behind a colon in a literal a value follows its key. -/
theorem isKey_of_after? {group next : Context} (h : group.after? ':' = some next)
    (hgroup : group ≠ .yes) : group.isKey = true := by
  cases group with
  | argument => cases h
  | item bracket slot =>
    cases slot with
    | value => cases h
    | first => rfl
    | later => rfl
  | yes => exact absurd rfl hgroup
  | _ => cases h

/-- Only a ternary leads to its last branch. -/
theorem ne_no_of_after? {group next : Context} {c : Char} (h : group.after? c = some next)
    (hgroup : group ≠ .yes) : next ≠ .no := by
  rintro rfl
  unfold after? at h
  split at h
  · split at h <;> cases h
  · split at h <;> cases h
  · split at h
    · cases h
    · split at h <;> cases h
  · exact hgroup rfl
  · cases h

/-- A character that does not close a group leads on, or is wrong there. -/
theorem turn_of_ne {group : Context} {bracket : Bracket} {c : Char}
    (hbracket : group.bracket? = some bracket) (hc : c ≠ bracket.closer) :
    group.turn c =
      if c ≠ ',' ∧ c ≠ ':' then .error (group.misplaced c)
      else
        match group.after? c with
        | none => .error (.strayDelimiter c)
        | some next => .ok (.next next) := by
  have hfilter : group.bracket?.filter (fun bracket => bracket.closer == c) = none := by
    rw [hbracket, Option.filter_some, if_neg (by simpa using fun h => hc h.symm)]
  unfold turn
  split
  · next hsome => cases hfilter.symm.trans hsome
  · rfl

end Context

namespace Items

variable {bracket : Bracket} {items : Items} {group : Context}

theorem EndIn.bracket? (h : items.EndIn bracket group) : group.bracket? = some bracket := by
  cases group with
  | argument => exact congrArg some h.1.symm
  | item => exact congrArg some h.1
  | _ => exact h.elim

theorem EndIn.ne_yes (h : items.EndIn bracket group) : group ≠ .yes := by
  rintro rfl
  exact h

/-- The code of parts with one more behind them. -/
theorem code_item (r : Registry) (h : items ≠ .empty) (e : Expr) :
    (item items e).code r = items.code r ++ ", " ++ e.code r := by
  cases items with
  | empty => exact absurd rfl h
  | item => rfl
  | pair => rfl

/-- The code of parts whose last one becomes a key. -/
theorem code_pair (r : Registry) (before : Items) (key e : Expr) :
    (pair before key e).code r = (item before key).code r ++ " => " ++ e.code r := by
  cases before <;> rfl

/-- **The parts with one more** behind a delimiter, and their code. -/
theorem EndIn.next {next : Context} {c : Char} (h : items.EndIn bracket group)
    (hc : c = ',' ∨ c = ':') (hnext : group.after? c = some next) (r : Registry) (e : Expr) :
    (if c = ':' then items.withValue e else .item items e).EndIn bracket next ∧
      (if c = ':' then items.withValue e else .item items e).code r =
        items.code r ++ (if group.isKey ∧ c = ':' then " => " else ", " : Text) ++ e.code r := by
  rcases hc with rfl | rfl
  · rw [if_neg (by decide), if_neg (by simp)]
    exact ⟨h.comma hnext e, code_item r h.ne_empty e⟩
  · obtain ⟨before, key, rfl, hpair⟩ := h.colon hnext e
    rw [if_pos rfl, if_pos ⟨Context.isKey_of_after? hnext h.ne_yes, rfl⟩]
    exact ⟨hpair, code_pair r before key e⟩

end Items

/-- **One level mirrors another**: what emits goes along with what reads, except where an expression
may be missing, which only what emits takes for one. -/
structure Nested.Mirrors (r : Registry) (level : Nested) (reader : Inner) : Prop where
  reliable : level.Reliable
  blank : ∀ ctx t, Text.trimStart t = [] → level.emit ctx t = .error ⟨.endInsideTag, []⟩
  empty : ∀ ctx t, Draft.emptyAhead ctx t = true → level.emit ctx t = .ok ([], Text.trimStart t)
  emit : ∀ ctx t, Draft.emptyAhead ctx t = false →
    level.emit ctx t = reader.read ctx t >>= fun found => .ok (found.1.code r, found.2)

namespace Draft

variable {s : Scope} {nested : Option Nested} {inner : Option Inner} {ctx : Context} {d : Draft}
  {t : Text}

theorem emptyAhead_of_forall (h : ∀ c, ctx.allowsEmpty c = false) (t : Text) :
    emptyAhead ctx t = false := by
  unfold emptyAhead
  cases (Text.trimStart t).head? with
  | none => rfl
  | some c => exact h c

theorem emptyAhead_of_cons {c : Char} {r : Text} (h : Text.trimStart t = c :: r) :
    emptyAhead ctx t = ctx.allowsEmpty c := by
  rw [emptyAhead, h]
  rfl

/-- The closer of a group. -/
theorem run_closer {group : Context} {bracket : Bracket} {r : Text}
    (hpending : d.pending = some group) (hgroup : group.bracket? = some bracket)
    (ht : Text.trimStart t = bracket.closer :: r) :
    d.run s nested ctx t = (d.close bracket).run s nested ctx r := by
  have hturn : group.turn bracket.closer = .ok (.close bracket) := by
    rw [Context.turn, hgroup, Option.filter_some, if_pos (beq_self_eq_true _)]
  rw [run_pending hpending, ht, closeOrContinue]
  simp only [hturn]
  rfl

section Levels

variable (hlevels : Option.Rel (Nested.Mirrors s.registry) nested inner)

include hlevels

/-- **An expression one level down.** -/
theorem nest_eq (hempty : emptyAhead ctx t = false) :
    d.nest nested ctx t =
      readInner inner ctx t >>= fun found =>
        .ok ({ d.write (found.1.code s.registry) with pending := some ctx }, found.2) := by
  cases hlevels with
  | none => rfl
  | some hlevel =>
    rw [nest, hlevel.emit ctx t hempty, bind_assoc]
    rfl

/-- An expression one level down ends at a character that ends its context. -/
theorem ends_of_readInner {e : Expr} {rest : Text} (hempty : emptyAhead ctx t = false)
    (h : readInner inner ctx t = .ok (e, rest)) : ∃ c r, rest = c :: r ∧ ctx.ends c = true := by
  cases hlevels with
  | none => cases h
  | some hlevel =>
    refine hlevel.reliable.ends ctx t (e.code s.registry) rest ?_
    rw [hlevel.emit ctx t hempty]
    exact bind_eq_ok_iff.2 ⟨_, h, rfl⟩

/-- **One expression in brackets.** -/
theorem run_readSingle {group : Context} {bracket : Bracket} (p : Previous)
    (hgroup : group = .paren ∧ bracket = .paren ∨ group = .index bracket) :
    (d.nest nested group t >>= fun found =>
        resume s nested ctx ({ found.1 with prev := p }, found.2)) =
      readSingle inner group bracket t >>= fun found =>
        resume s nested ctx ((d.write (found.1.code s.registry)).close bracket, found.2) := by
  have hempty : emptyAhead group t = false := by
    refine emptyAhead_of_forall (fun c => ?_) t
    rcases hgroup with ⟨rfl, -⟩ | rfl <;> rfl
  have hbracket : group.bracket? = some bracket := by
    rcases hgroup with ⟨rfl, rfl⟩ | rfl <;> rfl
  have hcloser : ∀ c, group.ends c = true → c = bracket.closer := by
    intro c hends
    rcases hgroup with ⟨rfl, rfl⟩ | rfl <;> exact beq_iff_eq.1 hends
  rw [nest_eq hlevels hempty, readSingle]
  simp only [bind_assoc]
  cases hread : readInner inner group t with
  | error stuck => rfl
  | ok found =>
    obtain ⟨e, rest⟩ := found
    obtain ⟨c, r, rfl, hends⟩ := ends_of_readInner hlevels hempty hread
    obtain rfl := hcloser c hends
    have hblank := not_isBlank_of_isStop (Context.isStop_of_ends hends)
    have ht := Text.trimStart_cons hblank r
    have hneed : needChar group bracket.closer (bracket.closer :: r) = .ok r :=
      needChar_eq_ok_iff.2 ht
    simp only [bind, Except.bind, hneed]
    exact run_closer rfl hbracket ht

end Levels

/-- **The next part of a group**, behind the delimiter before it. -/
theorem closeOrContinue_of_after? {group next : Context} {bracket : Bracket} {c : Char} {r : Text}
    (hbracket : group.bracket? = some bracket) (hclose : c ≠ bracket.closer)
    (hc : c = ',' ∨ c = ':') (hnext : group.after? c = some next) (hno : next ≠ .no) :
    d.closeOrContinue nested group (c :: r) =
      (d.write (if group.isKey ∧ c = ':' then " => " else ", ")).nest nested next r := by
  have hdelimiter : ¬(c ≠ ',' ∧ c ≠ ':') := fun h => hc.elim h.1 h.2
  have hturn : group.turn c = .ok (.next next) := by
    rw [Context.turn_of_ne hbracket hclose, if_neg hdelimiter, hnext]
  rw [closeOrContinue]
  split
  · next h => cases hturn.symm.trans h
  · next h => cases hturn.symm.trans h
  · next h =>
    cases hturn.symm.trans h
    exact absurd rfl hno
  · next h =>
    cases hturn.symm.trans h
    rfl

/-- **The parts of a group, up to its closer.** -/
theorem run_readParts {level : Nested} {reader : Inner}
    (hlevel : level.Mirrors s.registry reader) {bracket : Bracket} {group : Context} {items : Items}
    {front : Text} (hitems : items.EndIn bracket group) (hpending : d.pending = some group)
    (hout : d.out = front ++ items.code s.registry) (t : Text) :
    d.run s (some level) ctx t =
      readParts reader bracket group items t >>= fun found =>
        resume s (some level) ctx
          ({ d with out := front ++ found.1.code s.registry }.close bracket, found.2) := by
  induction hlength : t.length using Nat.strongRecOn generalizing d group items t with
  | ind n ih =>
  rw [run_pending hpending]
  cases ht : Text.trimStart t with
  | nil =>
    rw [readParts]
    split
    · rfl
    · next hcons => cases ht.symm.trans hcons
  | cons c r =>
    rw [readParts_step reader bracket group items ht]
    by_cases hclose : c = bracket.closer
    · subst hclose
      have hout' : { d with out := front ++ items.code s.registry } = d := by rw [← hout]
      rw [if_pos rfl, ← ht, ← run_pending hpending, run_closer hpending hitems.bracket? ht]
      change _ = resume s (some level) ctx (Draft.close { d with out := _ } bracket, r)
      rw [hout']
      rfl
    rw [if_neg hclose]
    by_cases hc : c = ',' ∨ c = ':'
    · rw [if_pos hc]
      cases hnext : group.after? c with
      | none =>
        have hturn : group.turn c = .error (.strayDelimiter c) := by
          rw [Context.turn_of_ne hitems.bracket? hclose, if_neg (fun h => hc.elim h.1 h.2), hnext]
        simp only [closeOrContinue, hturn]
        rfl
      | some next =>
        have hempty := emptyAhead_of_forall (Context.allowsEmpty_of_after? hnext) r
        have hno := Context.ne_no_of_after? hnext hitems.ne_yes
        rw [closeOrContinue_of_after? hitems.bracket? hclose hc hnext hno,
          nest_eq (.some hlevel) hempty]
        simp only [bind_assoc]
        change reader.read next r >>= _ = reader.read next r >>= _
        cases hread : reader.read next r with
        | error stuck => rfl
        | ok found =>
          obtain ⟨e, rest⟩ := found
          obtain ⟨hend, hcode⟩ := hitems.next hc hnext s.registry e
          have hshorter := (reader.shorter hread).trans (Shorter.of_trimStart ht)
          change Draft.run s (some level) ctx _ rest = _
          rw [ih _ (hlength ▸ hshorter.2) hend rfl ?_ rest rfl]
          · rfl
          · change d.out ++ _ ++ _ = _
            rw [hcode, hout]
            simp only [List.append_assoc]
    · have hturn : group.turn c = .error (group.misplaced c) := by
        rw [Context.turn_of_ne hitems.bracket? hclose, if_pos (not_or.1 hc)]
      rw [if_neg hc]
      simp only [closeOrContinue, hturn]
      rfl

/-- A group that begins allows nothing before its closer, and only there. -/
theorem emptyAhead_of_begins {group : Context} {bracket : Bracket} {c : Char} {r : Text}
    (hgroup : group.Begins bracket) (ht : Text.trimStart t = c :: r) :
    emptyAhead group t = (c == bracket.closer) := by
  rw [emptyAhead_of_cons ht]
  rcases hgroup with ⟨rfl, rfl⟩ | rfl <;> rfl

/-- **A group that may be empty**, behind its opening bracket. -/
theorem run_readGroup (hlevels : Option.Rel (Nested.Mirrors s.registry) nested inner)
    {group : Context} {bracket : Bracket} (p : Previous) (hgroup : group.Begins bracket) (t : Text) :
    (d.nest nested group t >>= fun found =>
        resume s nested ctx ({ found.1 with prev := p }, found.2)) =
      readGroup inner bracket group t >>= fun found =>
        resume s nested ctx ((d.write (found.1.code s.registry)).close bracket, found.2) := by
  have hbracket : group.bracket? = some bracket := by
    rcases hgroup with ⟨rfl, rfl⟩ | rfl <;> rfl
  cases hlevels with
  | none => rfl
  | @some level reader hlevel =>
  rw [readGroup]
  cases ht : Text.trimStart t with
  | nil =>
    rw [nest, hlevel.blank group t ht]
    rfl
  | cons c r =>
    dsimp only
    have hempty := emptyAhead_of_begins hgroup ht
    by_cases hclose : c = bracket.closer
    · subst hclose
      rw [if_pos rfl, nest, hlevel.empty group t (by rw [hempty, beq_self_eq_true]), bind_assoc]
      change Draft.run s _ ctx _ (Text.trimStart t) = _
      rw [run_closer rfl hbracket (by rw [Text.trimStart_trimStart, ht])]
      rfl
    · rw [if_neg hclose, nest_eq (.some hlevel) (by rw [hempty, beq_eq_false_iff_ne.2 hclose])]
      simp only [bind_assoc]
      change reader.read group t >>= _ = _
      cases hread : reader.read group t with
      | error stuck => rfl
      | ok found =>
        obtain ⟨e, rest⟩ := found
        change Draft.run s (some level) ctx _ rest = _
        rw [run_readParts hlevel (.first hgroup e) rfl rfl rest]
        rfl

end Draft

end Stencil
