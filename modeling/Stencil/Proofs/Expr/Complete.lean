import Stencil.Proofs.Expr.Sound
import Stencil.Template.Statement

/-!
# Proofs/Expr/Complete — every expression is read, and nothing else

A tree of the grammar is read from its own tokens, up to the character that ends it.  A reader takes
one token after the other, so what a tree needs is said about the text behind it: a chain that is
not called goes on at a dot, a value goes on at a bracket, terms go on at an operator.

With soundness this makes every level exact (`levels_innerReader`), and the main statement is
`readTag_code_iff`.
-/

namespace Stencil

/-! ## Single tokens -/

/-- A token that may stand where an operand is needed. -/
theorem needToken_of_next {ctx : Context} {before : Option Text} {t rest : Text} {token : Token}
    (h : Token.next (Text.trimStart t) = .ok (token, rest)) (hs : token.kind.isStop = false)
    (hc : token.kind ≠ .crement) : needToken ctx before t = .ok (token, rest) := by
  obtain ⟨c, r, hr⟩ := Token.exists_cons_of_next h
  rw [hr] at h
  obtain ⟨h1, h2, h3, h4, h5⟩ := Token.not_isStop_of_next h hs
  have hstop : isStop c = false := by simp [isStop, h1, h2, h3, h4, h5]
  simp only [needToken, hr, hstop, h, if_neg hc]
  rfl

theorem needName_of_next {ctx : Context} {t name rest : Text}
    (h : Token.next (Text.trimStart t) = .ok (Token.named name, rest)) :
    needName ctx t = .ok (name, rest) := by
  refine bind_eq_ok_iff.2 ⟨_, needToken_of_next h rfl nofun, ?_⟩
  rfl

/-! ## Chains -/

/-- A reserved word in a chain that avoids them is `this` at its start. -/
theorem Chain.AvoidsReserved.eq_this {depth : Nat} {names later : List Text} {name : Text}
    (h : Chain.AvoidsReserved ⟨depth, names ++ name :: later⟩) (hr : name ∈ reservedWords) :
    depth = 0 ∧ names = [] ∧ name = "this" := by
  cases names with
  | nil =>
    obtain ⟨hd, hn⟩ := h.1 hr
    exact ⟨hd, rfl, hn⟩
  | cons first others => exact absurd hr (h.2 name (by simp))

/-- `this` by itself is never called. -/
theorem Chain.resolve_this_called (s : Scope) :
    ∃ fault, Chain.resolve s ⟨0, ["this"]⟩ true = .error fault := ⟨_, rfl⟩

section Steps

variable {s : Scope} {ctx : Context} {chain : Chain} {name t : Text}

/-- A word of the host, alone. -/
theorem readChain_word (hw : name ∈ reservedWords) (ht : name ≠ "this")
    (hc : chain.isEmpty = true) (hcall : (Text.trimStart t).head? ≠ some '(')
    (hdot : (Text.trimStart t).head? ≠ some '.') :
    readChain s ctx chain name t = .ok ((chain.push name, .word name, false), t) := by
  rw [readChain, if_neg (by simp [hc, hcall]), if_pos ⟨hw, ht⟩, if_neg hdot]

variable (hfirst : ¬(name ∈ reservedWords ∧
    ((!chain.isEmpty) = true ∨ (Text.trimStart t).head? = some '(')))
  (hthis : ¬(name ∈ reservedWords ∧ name ≠ "this"))

include hfirst hthis

/-- The last name of a chain. -/
theorem readChain_last {target : Reference} (hdot : (Text.trimStart t).head? ≠ some '.')
    (hr : (chain.push name).resolve s ((Text.trimStart t).head? = some '(') = .ok target) :
    readChain s ctx chain name t =
      .ok ((chain.push name, target, (Text.trimStart t).head? = some '('), t) := by
  rw [readChain, if_neg hfirst, if_neg hthis]
  split
  · next r ht => rw [ht] at hdot; exact absurd rfl hdot
  · rw [hr]

/-- A name that another one follows. -/
theorem readChain_dot {r next rest : Text} (ht : Text.trimStart t = '.' :: r)
    (hr : r.takeWhile (· == '.') = [])
    (hn : needName ctx (r.dropWhile (· == '.')) = .ok (next, rest)) :
    readChain s ctx chain name t = readChain s ctx (chain.push name) next rest := by
  rw [readChain, if_neg hfirst, if_neg hthis]
  split
  · next r' ht' =>
    obtain rfl : r' = r := (List.cons.inj (ht'.symm.trans ht)).2
    rw [hr, if_neg (by simp)]
    split
    · next stuck hn' => rw [hn] at hn'; cases hn'
    · next next' rest' hn' =>
      obtain ⟨rfl, rfl⟩ := Prod.mk.inj (Except.ok.inj (hn.symm.trans hn'))
      rfl
  · next hno => exact absurd ht (hno r)

end Steps

/-- The last name of a chain. -/
theorem readChain_end {s : Scope} (ctx : Context) (chain : Chain) {name t : Text} {called : Bool}
    {target : Reference} (hden : Chain.Denotes s ⟨chain.depth, chain.names ++ [name]⟩ called target)
    (hdot : (Text.trimStart t).head? ≠ some '.')
    (hcall : called = true ↔ (Text.trimStart t).head? = some '(') :
    readChain s ctx chain name t =
      .ok ((⟨chain.depth, chain.names ++ [name]⟩, target, called), t) := by
  obtain rfl : called = decide ((Text.trimStart t).head? = some '(') := by
    rw [Bool.eq_iff_iff, hcall, decide_eq_true_eq]
  rcases hden with ⟨word, hw, ht, hc, hcalled, rfl⟩ | ⟨-, havoid, hr⟩
  · obtain ⟨depth, names⟩ := chain
    obtain ⟨rfl, hnames⟩ := Chain.mk.inj hc
    obtain rfl : names = [] := by
      have := congrArg List.length hnames
      simpa using this
    obtain rfl : name = word := (List.cons.inj hnames).1
    rw [hcalled]
    exact readChain_word hw ht rfl (by simpa using hcalled) hdot
  · refine readChain_last ?_ ?_ hdot hr
    · rintro ⟨hres, hahead⟩
      obtain ⟨hdepth, hnames, rfl⟩ := havoid.eq_this hres
      obtain ⟨depth, names⟩ := chain
      obtain rfl : depth = 0 := hdepth
      obtain rfl : names = [] := hnames
      have hparen : (Text.trimStart t).head? = some '(' := by simpa [Chain.isEmpty] using hahead
      obtain ⟨fault, hf⟩ := Chain.resolve_this_called s
      rw [hparen] at hr
      cases hf.symm.trans hr
    · rintro ⟨hres, hne⟩
      exact hne (havoid.eq_this hres).2.2

/-- A name of a chain with another one behind it. -/
theorem readChain_next {s : Scope} (ctx : Context) {later : List Text} (chain : Chain)
    {name next t r1 r2 : Text}
    (havoid : Chain.AvoidsReserved ⟨chain.depth, chain.names ++ name :: next :: later⟩)
    (hdot : Token.next (Text.trimStart t) = .ok (Token.dot, r1))
    (hname : Token.next (Text.trimStart r1) = .ok (Token.named next, r2)) :
    readChain s ctx chain name t = readChain s ctx (chain.push name) next r2 := by
  have hstart := Token.append_of_next hdot
  change '.' :: r1 = _ at hstart
  rw [← hstart] at hdot
  obtain ⟨hrun, hrest⟩ := Token.takeWhile_of_next_dot hdot
  rw [hrest] at hname
  refine readChain_dot ?_ ?_ hstart.symm hrun (needName_of_next hname)
  · rintro ⟨hres, hahead⟩
    obtain ⟨hdepth, hnames, -⟩ := havoid.eq_this hres
    rw [← hstart] at hahead
    simp [Chain.isEmpty, hdepth, hnames] at hahead
  · rintro ⟨hres, hne⟩
    exact hne (havoid.eq_this hres).2.2

/-- **A chain is read** up to its last name, if no dot follows. -/
theorem readChain_complete {s : Scope} (ctx : Context) {later : List Text} (chain : Chain)
    {name t r : Text} {called : Bool} {target : Reference}
    (hden : Chain.Denotes s ⟨chain.depth, chain.names ++ name :: later⟩ called target)
    (hreads : Reads t (Chain.laterTokens later) r) (hdot : r.head? ≠ some '.')
    (hcall : called = true ↔ r.head? = some '(') :
    ∃ rest, Text.trimStart rest = r ∧ readChain s ctx chain name t =
      .ok ((⟨chain.depth, chain.names ++ name :: later⟩, target, called), rest) := by
  induction later generalizing chain name t with
  | nil =>
    obtain rfl := Reads.nil_iff.1 hreads
    exact ⟨t, rfl, readChain_end ctx chain hden hdot hcall⟩
  | cons next later ih =>
    obtain ⟨r1, h1, k1⟩ := Reads.cons_iff.1 hreads
    obtain ⟨r2, h2, k2⟩ := Reads.cons_iff.1 k1
    have havoid : Chain.AvoidsReserved ⟨chain.depth, chain.names ++ name :: next :: later⟩ := by
      rcases hden with ⟨word, -, -, hc, -, -⟩ | ⟨-, havoid, -⟩
      · have hlen := congrArg (fun c : Chain => c.names.length) hc
        simp only [List.length_append, List.length_cons, List.length_nil] at hlen
        omega
      · exact havoid
    have hsame :
        chain.names ++ name :: next :: later = (chain.push name).names ++ next :: later := by
      simp [Chain.push]
    rw [readChain_next ctx chain havoid h1 h2, hsame]
    exact ih _ (by rw [← hsame]; exact hden) k2

/-! ## Groups -/

/-- **Streams come apart at a token of one character**, which the first part leaves ahead. -/
theorem Reads.split_at {t r : Text} {a b : List Token} {token : Token} {c : Char}
    (h : Reads t (a ++ token :: b) r) (hc : token.text = [c]) :
    ∃ rest, Reads t a (c :: rest) ∧ Reads rest b r := by
  obtain ⟨r1, ha, hb⟩ := h.split
  obtain ⟨rest, hn, hb⟩ := Reads.cons_iff.1 hb
  rw [ha.trimStart_rest] at hn
  have happ := Token.append_of_next hn
  rw [hc] at happ
  exact ⟨rest, by rw [show c :: rest = r1 from happ]; exact ha, hb⟩

/-- A closing bracket at the end of a stream. -/
theorem Reads.before_closer {t r : Text} {a : List Token} {bracket : Bracket}
    (h : Reads t (a ++ [Token.closes bracket]) r) :
    ∃ rest, Reads t a (bracket.closer :: rest) ∧ Text.trimStart rest = r := by
  obtain ⟨rest, ha, hr⟩ := h.split_at rfl
  exact ⟨rest, ha, Reads.nil_iff.1 hr⟩

/-- Kinds of the tokens that a value starts with. -/
def Token.Kind.startsValue : Token.Kind → Bool
  | .name | .number | .quoted | .dots | .opening _ => true
  | _ => false

theorem Chain.Denotes.names_ne {s : Scope} {c : Chain} {called : Bool} {target : Reference}
    (h : c.Denotes s called target) : c.names ≠ [] := by
  rcases h with ⟨word, -, -, rfl, -, -⟩ | ⟨hne, -, -⟩
  · simp
  · exact hne

theorem Chain.tokens_eq_cons {c : Chain} (h : c.names ≠ []) :
    ∃ token later, c.tokens = token :: later ∧ token.kind.startsValue = true := by
  obtain ⟨depth, names⟩ := c
  cases names with
  | nil => exact absurd rfl h
  | cons first later =>
    by_cases hd : depth = 0
    · exact ⟨Token.named first, Chain.laterTokens later, by simp [Chain.tokens, hd], rfl⟩
    · exact ⟨_, Token.named first :: Chain.laterTokens later, by simp [Chain.tokens, hd]; rfl, rfl⟩

/-- **A value has a first token**, which starts it. -/
theorem Value.tokens_eq_cons {s : Scope} : ∀ {value : Value}, value.WellFormed s →
    ∃ token later, value.tokens = token :: later ∧ token.kind.startsValue = true
  | .number _, _ => ⟨_, [], rfl, rfl⟩
  | .quoted _, _ => ⟨_, [], rfl, rfl⟩
  | .name _ _, h => Chain.tokens_eq_cons (Chain.Denotes.names_ne h)
  | .call _ _ _, h => by
    obtain ⟨token, later, htokens, hk⟩ := Chain.tokens_eq_cons h.1.names_ne
    exact ⟨token, _, by rw [Value.tokens, htokens]; rfl, hk⟩
  | .paren _, _ => ⟨_, _, rfl, rfl⟩
  | .literal _ _, _ => ⟨_, _, rfl, rfl⟩
  | .index _ _ _, h => by
    obtain ⟨token, later, htokens, hk⟩ := Value.tokens_eq_cons h.1
    exact ⟨token, _, by rw [Value.tokens, htokens]; rfl, hk⟩
  | .method _ _ _, h => by
    obtain ⟨token, later, htokens, hk⟩ := Value.tokens_eq_cons h.1
    exact ⟨token, _, by rw [Value.tokens, htokens]; rfl, hk⟩

/-- An operand does not start with a stop. -/
theorem operand_tokens_eq_cons {s : Scope} {sign : Option Text} {value : Value}
    (hs : SignFits sign value) (h : value.WellFormed s) :
    ∃ token later, signTokens sign ++ value.tokens = token :: later ∧
      token.kind.isStop = false := by
  have hsigns : ∀ text ∈ [['!'], ['~'], ['+'], ['-']], (signToken text).kind.isStop = false := by
    decide
  cases sign with
  | none =>
    obtain ⟨token, later, htokens, hk⟩ := Value.tokens_eq_cons h
    refine ⟨token, later, htokens, ?_⟩
    revert hk
    cases token.kind <;> simp [Token.Kind.startsValue, Token.Kind.isStop]
  | some text => exact ⟨signToken text, value.tokens, rfl, hsigns text (hs text rfl).1⟩

theorem Terms.tokens_eq_cons {s : Scope} : ∀ {terms : Terms}, terms.WellFormed s →
    ∃ token later, terms.tokens = token :: later ∧ token.kind.isStop = false
  | .one _ _, h => operand_tokens_eq_cons h.1 h.2
  | .more _ _ _ _, h => by
    obtain ⟨token, later, htokens, hk⟩ := Terms.tokens_eq_cons h.1
    exact ⟨token, _, by rw [Terms.tokens, htokens]; rfl, hk⟩

/-- **An expression does not start with a stop**, so it is told from the end of its group. -/
theorem Expr.tokens_eq_cons {s : Scope} {e : Expr} (h : e.WellFormed s) :
    ∃ token later, e.tokens = token :: later ∧ token.kind.isStop = false := by
  cases e with
  | plain terms => exact @Terms.tokens_eq_cons s terms h
  | ternary test yes no =>
    obtain ⟨token, later, htokens, hk⟩ := Terms.tokens_eq_cons h.1
    exact ⟨token, _, by rw [Expr.tokens, htokens]; rfl, hk⟩

/-- The text of an expression starts with a character that closes no bracket. -/
theorem Expr.exists_first {s : Scope} {e : Expr} {t r : Text} (h : e.WellFormed s)
    (hr : Reads t e.tokens r) (bracket : Bracket) :
    ∃ c r', Text.trimStart t = c :: r' ∧ c ≠ bracket.closer := by
  obtain ⟨token, later, htokens, hk⟩ := Expr.tokens_eq_cons h
  rw [htokens] at hr
  obtain ⟨r1, hn, -⟩ := Reads.cons_iff.1 hr
  obtain ⟨c, r', ht⟩ := Token.exists_cons_of_next hn
  rw [ht] at hn
  obtain ⟨hp, hb, hs, -⟩ := Token.not_isStop_of_next hn hk
  refine ⟨c, r', ht, ?_⟩
  cases bracket
  · exact hp
  · exact hb
  · exact hs

/-- The context in which the last part of a group is read, if the first one is read in `start`. -/
def Items.context (start : Context) : Items → Context
  | .empty => start
  | .item .empty _ => start
  | .item _ _ => (start.after? ',').getD start
  | .pair .. => (start.after? ':').getD start

namespace Context.Begins

variable {bracket : Bracket} {start : Context} (h : start.Begins bracket)

include h

/-- A context in which the first part of a group is read is no branch, nor is a later one. -/
theorem isBranch_context (items : Items) : (items.context start).isBranch = false := by
  rcases h with ⟨-, rfl⟩ | rfl <;>
    rcases items with _ | ⟨⟨⟩ | _ | _, _⟩ | _ <;> rfl

/-- A part is ended by the closing bracket and by a comma. -/
theorem ends_context (items : Items) {c : Char} (hc : c = bracket.closer ∨ c = ',') :
    (items.context start).ends c = true := by
  rcases h with ⟨rfl, rfl⟩ | rfl <;> rcases hc with rfl | rfl <;>
    rcases items with _ | ⟨⟨⟩ | _ | _, _⟩ | _ <;>
    simp [Items.context, Context.after?, Context.ends, Bracket.closer]

/-- Every group goes on after a comma. -/
theorem after_comma {items : Items} (hi : items ≠ .empty) (e : Expr) :
    (items.context start).after? ',' = some ((Items.item items e).context start) := by
  rcases h with ⟨-, rfl⟩ | rfl <;> rcases items with _ | ⟨⟨⟩ | _ | _, _⟩ | _ <;>
    first | exact absurd rfl hi | rfl

end Context.Begins

/-- A literal takes a colon behind a key. -/
theorem Context.Begins.after_colon {bracket : Bracket} {start : Context} (h : start.Begins bracket)
    (ha : start.isArgument = false) (before : Items) (key e : Expr) :
    ((Items.item before key).context start).ends ':' = true ∧
    ((Items.item before key).context start).after? ':' =
      some ((Items.pair before key e).context start) := by
  rcases h with ⟨-, rfl⟩ | rfl
  · cases ha
  · rcases before with _ | _ | _ <;>
      simp [Items.context, Context.after?, Context.ends]

section Parts

variable {inner : Inner} {bracket : Bracket} {ctx next : Context} {items : Items} {e : Expr}
  {r rest : Text}

theorem readParts_closer :
    readParts inner bracket ctx items (bracket.closer :: r) = .ok (items, r) := by
  have ht : Text.trimStart (bracket.closer :: r) = bracket.closer :: r := by
    cases bracket <;> rfl
  rw [readParts]
  split
  · next h => rw [ht] at h; cases h
  · next c r' h =>
    rw [ht] at h
    obtain ⟨rfl, rfl⟩ := List.cons.inj h
    rw [if_pos rfl]

/-- One more part behind a delimiter. -/
theorem readParts_delimiter {c : Char} (hc : c = ',' ∨ c = ':') (hn : ctx.after? c = some next)
    (hr : inner.read next r = .ok (e, rest)) :
    readParts inner bracket ctx items (c :: r) =
      readParts inner bracket next (if c = ':' then items.withValue e else .item items e) rest := by
  have ht : Text.trimStart (c :: r) = c :: r := by
    rcases hc with rfl | rfl <;> rfl
  have hclose : c ≠ bracket.closer := by
    rcases hc with rfl | rfl <;> cases bracket <;> decide
  rw [readParts]
  split
  · next h => rw [ht] at h; cases h
  · next c' r' h =>
    rw [ht] at h
    obtain ⟨rfl, rfl⟩ := List.cons.inj h
    rw [if_neg hclose, if_pos hc, hn]
    dsimp only
    split
    · next stuck h' => rw [hr] at h'; cases h'
    · next e' rest' h' =>
      obtain ⟨rfl, rfl⟩ := Prod.mk.inj (Except.ok.inj (hr.symm.trans h'))
      rfl

end Parts

variable {s : Scope} {n : Nat}

/-- A part of a group stands in its context. -/
theorem Context.Begins.stands {bracket : Bracket} {start : Context} (h : start.Begins bracket)
    (items : Items) {t : Text} {e : Expr} {c : Char} {r : Text} (hw : e.WellFormed s)
    (hd : e.depth < n) (hr : Reads t e.tokens (c :: r))
    (hends : (items.context start).ends c = true) :
    Stands s n (items.context start) t e (c :: r) := by
  refine ⟨hw, hd, fun hb => ?_, hr, c, r, rfl, hends⟩
  rw [h.isBranch_context items] at hb
  cases hb

/-- **The parts of a group are read one after the other.**  A pair is its key, read as a part by
itself, and then the value behind the colon. -/
theorem readGroup_eq_readParts {inner : Inner} (L : Levels s n (some inner)) {bracket : Bracket}
    {start : Context} (hb : start.Begins bracket) : ∀ {items : Items}, items ≠ .empty →
    items.WellFormed s → items.depth < n → (start.isArgument = true → items.isSingles = true) →
    ∀ {t : Text} {c : Char} {r : Text}, Reads t items.tokens (c :: r) →
    (items.context start).ends c = true →
    readGroup (some inner) bracket start t =
      readParts inner bracket (items.context start) items (c :: r)
  | .empty, hne, _, _, _, _, _, _, _, _ => absurd rfl hne
  | .item before e, _, hw, hd, hs, t, c, r, hreads, hends => by
    rw [Items.depth] at hd
    by_cases hempty : before = .empty
    · subst hempty
      obtain ⟨c', r', ht, hclose⟩ := Expr.exists_first hw.2 hreads bracket
      have hread : inner.read start t = .ok (e, c :: r) :=
        L.read_iff.2 (hb.stands (.item .empty e) hw.2 (by omega) hreads hends)
      simp only [readGroup, ht, if_neg hclose, hread]
      rfl
    · rw [Items.tokens, Items.separator_of_ne hempty] at hreads
      obtain ⟨r1, hbefore, hlast⟩ := hreads.split_at rfl
      have hread : inner.read ((Items.item before e).context start) r1 = .ok (e, c :: r) :=
        L.read_iff.2 (hb.stands _ hw.2 (by omega) hlast hends)
      rw [readGroup_eq_readParts L hb hempty hw.1 (by omega) hs hbefore
        (hb.ends_context before (.inr rfl)),
        readParts_delimiter (.inl rfl) (hb.after_comma hempty e) hread]
      rfl
  | .pair before key e, _, hw, hd, hs, t, c, r, hreads, hends => by
    rw [Items.depth] at hd
    have harg : start.isArgument = false := by
      by_cases ha : start.isArgument = true
      · cases hs ha
      · simpa using ha
    have htokens : (Items.pair before key e).tokens =
        (Items.item before key).tokens ++ Token.colon :: e.tokens := by
      simp only [Items.tokens, List.append_assoc]
    rw [htokens] at hreads
    obtain ⟨r1, hkey, hvalue⟩ := hreads.split_at rfl
    obtain ⟨hcolon, hafter⟩ := hb.after_colon harg before key e
    have hread : inner.read ((Items.pair before key e).context start) r1 = .ok (e, c :: r) :=
      L.read_iff.2 (hb.stands _ hw.2.2 (by omega) hvalue hends)
    have hwkey : (Items.item before key).WellFormed s := ⟨hw.1, hw.2.1⟩
    have hdkey : (Items.item before key).depth < n := by
      rw [Items.depth]
      omega
    have hnekey : Items.item before key ≠ .empty := by rintro ⟨⟩
    rw [readGroup_eq_readParts L hb hnekey hwkey hdkey (by simp [harg]) hkey hcolon,
      readParts_delimiter (.inr rfl) hafter hread]
    rfl
termination_by items => sizeOf items
decreasing_by
  · simp
    omega
  · have hsize : 0 < sizeOf e := by
      cases e <;> simp only [Expr.plain.sizeOf_spec, Expr.ternary.sizeOf_spec] <;> omega
    simp
    omega

/-- **A group is read** up to its closing bracket. -/
theorem readGroup_complete {inner : Option Inner} (L : Levels s n inner) {bracket : Bracket}
    {start : Context} (hb : start.Begins bracket) {items : Items} {t r : Text}
    (hw : items.WellFormed s) (hd : items.depth < n)
    (hs : start.isArgument = true → items.isSingles = true)
    (hr : Reads t (items.tokens ++ [Token.closes bracket]) r) :
    ∃ rest, Text.trimStart rest = r ∧ readGroup inner bracket start t = .ok (items, rest) := by
  obtain ⟨inner, rfl⟩ := Option.isSome_iff_exists.1 (L.isSome_iff.2 (Nat.zero_lt_of_lt hd))
  obtain ⟨rest, hitems, hrest⟩ := hr.before_closer
  refine ⟨rest, hrest, ?_⟩
  by_cases hempty : items = .empty
  · subst hempty
    have ht : Text.trimStart t = bracket.closer :: rest := Reads.nil_iff.1 hitems
    simp only [readGroup, ht, if_true]
  · rw [readGroup_eq_readParts L hb hempty hw hd hs hitems (hb.ends_context items (.inl rfl)),
      readParts_closer]

/-- **One expression in brackets is read.** -/
theorem readSingle_complete {inner : Option Inner} (L : Levels s n inner) {bracket : Bracket}
    (ctx : Context) {e : Expr} {t r : Text} (hbranch : ctx.isBranch = false)
    (hends : ctx.ends bracket.closer = true) (hw : e.WellFormed s) (hd : e.depth < n)
    (hr : Reads t (e.tokens ++ [Token.closes bracket]) r) :
    ∃ rest, Text.trimStart rest = r ∧ readSingle inner ctx bracket t = .ok (e, rest) := by
  obtain ⟨rest, he, hrest⟩ := hr.before_closer
  have hstands : Stands s n ctx t e (bracket.closer :: rest) :=
    ⟨hw, hd, by simp [hbranch], he, _, _, rfl, hends⟩
  refine ⟨rest, hrest, bind_eq_ok_iff.2 ⟨_, L.read_iff.2 hstands, ?_⟩⟩
  exact bind_eq_ok_iff.2 ⟨rest, needChar_eq_ok_iff.2 he.trimStart_rest, rfl⟩

/-! ## Values -/

/-- A chain that is not called is read up to its last name. -/
theorem readNamed_name (inner : Option Inner) (ctx : Context) {depth : Nat} {first : Text}
    {later : List Text} {target : Reference} {t r : Text}
    (hden : Chain.Denotes s ⟨depth, first :: later⟩ false target)
    (hr : Reads t (Chain.laterTokens later) r) (hdot : r.head? ≠ some '.')
    (hparen : r.head? ≠ some '(') :
    ∃ rest, Text.trimStart rest = r ∧ readNamed s inner ctx ⟨depth, []⟩ first t =
      .ok (.name ⟨depth, first :: later⟩ target, rest) := by
  obtain ⟨rest, hrest, hread⟩ :=
    readChain_complete ctx ⟨depth, []⟩ hden hr hdot (by simp [hparen])
  exact ⟨rest, hrest, bind_eq_ok_iff.2 ⟨_, hread, rfl⟩⟩

/-- A called chain is read with its arguments. -/
theorem readNamed_call {inner : Option Inner} (L : Levels s n inner) (ctx : Context) {depth : Nat}
    {first : Text} {later : List Text} {target : Reference} {args : Items} {t r : Text}
    (hden : Chain.Denotes s ⟨depth, first :: later⟩ true target) (hs : args.isSingles = true)
    (hw : args.WellFormed s) (hd : args.depth < n)
    (hr : Reads t (Chain.laterTokens later ++ Token.opens .paren ::
      (args.tokens ++ [Token.closes .paren])) r) :
    ∃ rest, Text.trimStart rest = r ∧ readNamed s inner ctx ⟨depth, []⟩ first t =
      .ok (.call ⟨depth, first :: later⟩ target args, rest) := by
  obtain ⟨r1, hchain, hargs⟩ := hr.split_at rfl
  obtain ⟨r2, hr2, hread⟩ := readChain_complete ctx ⟨depth, []⟩ hden hchain
    (by simp [Bracket.opener]) (by simp [Bracket.opener])
  obtain ⟨rest, hrest, hgroup⟩ := readGroup_complete L (.inl ⟨rfl, rfl⟩) hw hd (fun _ => hs) hargs
  refine ⟨rest, hrest, bind_eq_ok_iff.2 ⟨_, hread, ?_⟩⟩
  refine bind_eq_ok_iff.2 ⟨r1, needChar_eq_ok_iff.2 hr2, ?_⟩
  exact bind_eq_ok_iff.2 ⟨_, hgroup, rfl⟩

/-- The first token of a chain leads to its first name. -/
theorem readPrimary_chain (s : Scope) (inner : Option Inner) (ctx : Context) {chain : Chain}
    {first : Text} {later : List Text} {t r : Text} {more : List Token}
    (hc : chain.names = first :: later) (hr : Reads t (chain.tokens ++ more) r) :
    ∃ token r0 r1, Token.next (Text.trimStart t) = .ok (token, r0) ∧
      token.kind.startsValue = true ∧ token.kind ≠ .quoted ∧
      Reads r1 (Chain.laterTokens later ++ more) r ∧
      ∀ before, readPrimary s inner ctx before token r0 =
        readNamed s inner ctx ⟨chain.depth, []⟩ first r1 := by
  obtain ⟨depth, names⟩ := chain
  obtain rfl : names = first :: later := hc
  by_cases hd : depth = 0
  · subst hd
    change Reads t (Token.named first :: (Chain.laterTokens later ++ more)) r at hr
    obtain ⟨r0, hn, hr⟩ := Reads.cons_iff.1 hr
    exact ⟨Token.named first, r0, r0, hn, rfl, by rintro ⟨⟩, hr, fun _ => rfl⟩
  · simp only [Chain.tokens, if_neg hd, List.cons_append, List.nil_append] at hr
    obtain ⟨r0, hn, hr⟩ := Reads.cons_iff.1 hr
    obtain ⟨r1, hn1, hr⟩ := Reads.cons_iff.1 hr
    refine ⟨_, r0, r1, hn, rfl, by rintro ⟨⟩, hr, fun _ => ?_⟩
    simp only [readPrimary, List.length_replicate]
    rw [needToken_of_next hn1 rfl (by rintro ⟨⟩)]
    rfl

section Suffix

variable {inner : Option Inner} {ctx : Context} {value value' : Value} {t r rest : Text}

theorem readSuffixes_some (h : readSuffix s inner ctx value t = .ok (some (value', rest))) :
    readSuffixes s inner ctx value t = readSuffixes s inner ctx value' rest := by
  rw [readSuffixes]
  split
  · next h' => rw [h] at h'; cases h'
  · next h' => rw [h] at h'; cases h'
  · next h' =>
    rw [h] at h'
    cases h'
    rfl

theorem readSuffixes_none (h : readSuffix s inner ctx value t = .ok none) :
    readSuffixes s inner ctx value t = .ok (value, t) := by
  rw [readSuffixes]
  split
  · next h' => rw [h] at h'; cases h'
  · rfl
  · next h' => rw [h] at h'; cases h'

theorem readSuffix_index {bracket : Bracket} {key : Expr} (hb : bracket ≠ .paren)
    (ht : Text.trimStart t = bracket.opener :: r)
    (hk : readSingle inner (.index bracket) bracket r = .ok (key, rest)) :
    readSuffix s inner ctx value t = .ok (some (.index value bracket key, rest)) := by
  have hstop : isStop bracket.opener = false := by cases bracket <;> rfl
  simp only [readSuffix, ht, hstop, Token.next_opener]
  cases bracket with
  | paren => exact absurd rfl hb
  | brace => exact bind_eq_ok_iff.2 ⟨_, rfl, bind_eq_ok_iff.2 ⟨_, hk, rfl⟩⟩
  | square => exact bind_eq_ok_iff.2 ⟨_, rfl, bind_eq_ok_iff.2 ⟨_, hk, rfl⟩⟩

theorem readSuffix_method {name r1 r2 : Text} {args : Items}
    (hdot : Token.next (Text.trimStart t) = .ok (Token.dot, r))
    (hname : needName ctx r = .ok (name, r1)) (hparen : Text.trimStart r1 = '(' :: r2)
    (hreg : s.registry.wrapper.contains name = true)
    (hargs : readGroup inner .paren (.argument true) r2 = .ok (args, rest)) :
    readSuffix s inner ctx value t = .ok (some (.method value name args, rest)) := by
  have ht : Text.trimStart t = '.' :: r := (Token.append_of_next hdot).symm
  rw [ht] at hdot
  simp only [readSuffix, ht, show isStop '.' = false from rfl, hdot]
  refine bind_eq_ok_iff.2 ⟨_, rfl, ?_⟩
  refine bind_eq_ok_iff.2 ⟨_, hname, ?_⟩
  simp only [hparen, List.head?_cons, ne_eq, not_true_eq_false, if_false, hreg, Bool.not_true]
  refine bind_eq_ok_iff.2 ⟨r2, needChar_eq_ok_iff.2 hparen, ?_⟩
  exact bind_eq_ok_iff.2 ⟨_, hargs, rfl⟩

end Suffix

/-- **A value is read from its tokens**: its first token starts it, and the readers behind that
token reach the end of the value, with its suffixes taken one by one.  Behind a chain that is not
called stands no dot and no bracket, since these would go on with it. -/
theorem readSuffixes_of_reads {inner : Option Inner} (L : Levels s n inner) (ctx : Context) :
    ∀ {value : Value}, value.WellFormed s → value.depth ≤ n → ∀ {t r : Text},
    Reads t value.tokens r → (value.isName = true → r.head? ≠ some '.' ∧ r.head? ≠ some '(') →
    ∃ token r0 rest, Token.next (Text.trimStart t) = .ok (token, r0) ∧
      token.kind.startsValue = true ∧ (token.kind = .quoted → value.startsQuoted = true) ∧
      Text.trimStart rest = r ∧
      ∀ before, (readPrimary s inner ctx before token r0 >>= fun found =>
        readSuffixes s inner ctx found.1 found.2) = readSuffixes s inner ctx value rest
  | .number text, _, _, t, r, hr, _ => by
    obtain ⟨r0, hn, hr⟩ := Reads.cons_iff.1 hr
    exact ⟨_, r0, r0, hn, rfl, by rintro ⟨⟩, Reads.nil_iff.1 hr, fun _ => rfl⟩
  | .quoted text, _, _, t, r, hr, _ => by
    obtain ⟨r0, hn, hr⟩ := Reads.cons_iff.1 hr
    exact ⟨_, r0, r0, hn, rfl, fun _ => rfl, Reads.nil_iff.1 hr, fun _ => rfl⟩
  | .name ⟨depth, []⟩ target, hw, _, t, r, _, _ => absurd rfl (Chain.Denotes.names_ne hw)
  | .name ⟨depth, first :: later⟩ target, hw, _, t, r, hr, hfollow => by
    obtain ⟨hdot, hparen⟩ := hfollow rfl
    rw [Value.tokens, ← List.append_nil (Chain.tokens _)] at hr
    obtain ⟨token, r0, r1, hn, hk, hq, hr, hprimary⟩ :=
      readPrimary_chain s inner ctx rfl hr
    rw [List.append_nil] at hr
    obtain ⟨rest, hrest, hread⟩ := readNamed_name inner ctx hw hr hdot hparen
    refine ⟨token, r0, rest, hn, hk, fun h => absurd h hq, hrest, fun before => ?_⟩
    rw [hprimary, hread]
    rfl
  | .call ⟨depth, []⟩ target args, hw, _, t, r, _, _ => absurd rfl hw.1.names_ne
  | .call ⟨depth, first :: later⟩ target args, hw, hd, t, r, hr, _ => by
    obtain ⟨token, r0, r1, hn, hk, hq, hr, hprimary⟩ :=
      readPrimary_chain s inner ctx rfl hr
    obtain ⟨rest, hrest, hread⟩ := readNamed_call L ctx hw.1 hw.2.1 hw.2.2 hd hr
    refine ⟨token, r0, rest, hn, hk, fun h => absurd h hq, hrest, fun before => ?_⟩
    rw [hprimary, hread]
    rfl
  | .paren e, hw, hd, t, r, hr, _ => by
    obtain ⟨r0, hn, hr⟩ := Reads.cons_iff.1 hr
    obtain ⟨rest, hrest, hsingle⟩ := readSingle_complete L .paren rfl rfl hw hd hr
    refine ⟨_, r0, rest, hn, rfl, by rintro ⟨⟩, hrest, fun before => ?_⟩
    have hprimary : readPrimary s inner ctx before (Token.opens .paren) r0 = .ok (.paren e, rest) :=
      bind_eq_ok_iff.2 ⟨_, hsingle, rfl⟩
    rw [hprimary]
    rfl
  | .literal bracket items, hw, hd, t, r, hr, _ => by
    obtain ⟨r0, hn, hr⟩ := Reads.cons_iff.1 hr
    have hb : (Context.item bracket .first).Begins bracket := .inr rfl
    obtain ⟨rest, hrest, hgroup⟩ := readGroup_complete L hb hw.2 hd (by rintro ⟨⟩) hr
    refine ⟨_, r0, rest, hn, rfl, by rintro ⟨⟩, hrest, fun before => ?_⟩
    have hprimary : readPrimary s inner ctx before (Token.opens bracket) r0 =
        .ok (.literal bracket items, rest) := by
      cases bracket with
      | paren => exact absurd rfl hw.1
      | brace => exact bind_eq_ok_iff.2 ⟨_, hgroup, rfl⟩
      | square => exact bind_eq_ok_iff.2 ⟨_, hgroup, rfl⟩
    rw [hprimary]
    rfl
  | .index value bracket key, hw, hd, t, r, hr, _ => by
    rw [Value.depth] at hd
    obtain ⟨r1, hvalue, hkey⟩ := hr.split_at rfl
    have hfollow : (bracket.opener :: r1).head? ≠ some '.' ∧
        (bracket.opener :: r1).head? ≠ some '(' := by
      cases bracket with
      | paren => exact absurd rfl hw.2.1
      | brace => simp [Bracket.opener]
      | square => simp [Bracket.opener]
    obtain ⟨token, r0, r2, hn, hk, hq, hr2, hread⟩ :=
      readSuffixes_of_reads L ctx hw.1 (by omega) hvalue (fun _ => hfollow)
    obtain ⟨rest, hrest, hsingle⟩ := readSingle_complete L (.index bracket) rfl
      (by simp [Context.ends]) hw.2.2 (by omega) hkey
    refine ⟨token, r0, rest, hn, hk, hq, hrest, fun before => ?_⟩
    rw [hread, readSuffixes_some (readSuffix_index hw.2.1 hr2 hsingle)]
  | .method value name args, hw, hd, t, r, hr, _ => by
    rw [Value.depth] at hd
    obtain ⟨hvalue, hname, hreg, hsingles, hargs⟩ := hw
    obtain ⟨r1, hr1, hr⟩ := hr.split
    obtain ⟨r2, hdot, hr⟩ := Reads.cons_iff.1 hr
    obtain ⟨r3, hnamed, hr⟩ := Reads.cons_iff.1 hr
    obtain ⟨r4, hparen, hr⟩ := Reads.split_at (a := []) hr rfl
    obtain ⟨token, r0, r5, hn, hk, hq, hr5, hread⟩ :=
      readSuffixes_of_reads L ctx hvalue (by omega) hr1 (by simp [hname])
    obtain ⟨rest, hrest, hgroup⟩ :=
      readGroup_complete L (.inl ⟨rfl, rfl⟩) hargs (by omega) (fun _ => hsingles) hr
    refine ⟨token, r0, rest, hn, hk, hq, hrest, fun before => ?_⟩
    rw [hr1.trimStart_rest, ← hr5] at hdot
    rw [hread, readSuffixes_some
      (readSuffix_method hdot (needName_of_next hnamed) (Reads.nil_iff.1 hparen) hreg hgroup)]

/-! ## Operands and expressions -/

/-- **An operand ends here**: at a stop, or before an operator or the mark of a ternary. -/
def EndsOperand (r : Text) : Prop :=
  (∃ c r', r = c :: r' ∧ isStop c = true) ∨
    ∃ token rest, Token.next r = .ok (token, rest) ∧
      (token.isBinary = true ∨ token.kind = .question)

namespace EndsOperand

/-- No name goes on where an operand ends. -/
theorem head_ne {r : Text} (h : EndsOperand r) : r.head? ≠ some '.' ∧ r.head? ≠ some '(' := by
  rcases h with ⟨c, r', rfl, hc⟩ | ⟨token, rest, hn, hk⟩
  · refine ⟨?_, ?_⟩ <;> rintro ⟨⟩ <;> cases hc
  · obtain ⟨c, r', rfl⟩ := Token.exists_cons_of_next hn
    have hdots : token.kind ≠ .dots := by
      intro hd
      rcases hk with hk | hk <;> simp [Token.isBinary, hd] at hk
    have hopens : token.kind ≠ .opening .paren := by
      intro ho
      rcases hk with hk | hk <;> simp [Token.isBinary, ho] at hk
    have hdot := Token.ne_dot_of_next hn hdots
    have hparen := Token.ne_opener_of_next hn hopens
    exact ⟨fun h => hdot (Option.some.inj h), fun h => hparen (Option.some.inj h)⟩

/-- No suffix follows where an operand ends. -/
theorem readSuffix_eq {s : Scope} {inner : Option Inner} {ctx : Context} {value : Value} {t : Text}
    (h : EndsOperand (Text.trimStart t)) : readSuffix s inner ctx value t = .ok none := by
  rcases h with ⟨c, r', ht, hc⟩ | ⟨token, rest, hn, hk⟩
  · simp only [readSuffix, ht, hc, if_true]
  · obtain ⟨c, r', ht⟩ := Token.exists_cons_of_next hn
    rw [ht] at hn
    simp only [readSuffix, ht]
    by_cases hc : isStop c = true
    · rw [if_pos hc]
    · rw [if_neg hc]
      refine bind_eq_ok_iff.2 ⟨_, hn, ?_⟩
      obtain ⟨kind, text⟩ := token
      rcases hk with hk | hk
      · cases kind <;> first | rfl | cases hk
      · obtain rfl : kind = Token.Kind.question := hk
        rfl

end EndsOperand

/-- A sign is read as a sign. -/
theorem signToken_facts : ∀ text ∈ [['!'], ['~'], ['+'], ['-']],
    (signToken text).isSign = true ∧ (signToken text).text = text ∧
      (signToken text).kind.isStop = false ∧ (signToken text).kind ≠ .crement := by
  decide

/-- A token that starts a value is no stop, no crement and no sign. -/
theorem startsValue_facts {token : Token} (h : token.kind.startsValue = true) :
    token.kind.isStop = false ∧ token.kind ≠ .crement ∧ token.isSign = false := by
  obtain ⟨kind, text⟩ := token
  revert h
  cases kind <;> simp [Token.Kind.startsValue, Token.Kind.isStop, Token.isSign]

/-- **An operand is read from its tokens.** -/
theorem readOperand_complete {inner : Option Inner} (L : Levels s n inner) (ctx : Context)
    (before : Option Text) {sign : Option Text} {value : Value} {t r : Text}
    (hs : SignFits sign value) (hw : value.WellFormed s) (hd : value.depth ≤ n)
    (hr : Reads t (signTokens sign ++ value.tokens) r) (he : EndsOperand r) :
    ∃ rest, Text.trimStart rest = r ∧
      readOperand s inner ctx before t = .ok ((sign, value), rest) := by
  cases sign with
  | none =>
    obtain ⟨token, r0, rest, hn, hk, -, rfl, hread⟩ :=
      readSuffixes_of_reads L ctx hw hd hr (fun _ => he.head_ne)
    obtain ⟨hstop, hcrement, hsign⟩ := startsValue_facts hk
    rw [readSuffixes_none he.readSuffix_eq] at hread
    obtain ⟨⟨primary, r1⟩, hp, hv⟩ := bind_eq_ok_iff.1 (hread before)
    refine ⟨rest, rfl, bind_eq_ok_iff.2 ⟨_, needToken_of_next hn hstop hcrement, ?_⟩⟩
    simp only [hsign]
    exact bind_eq_ok_iff.2 ⟨_, hp, bind_eq_ok_iff.2 ⟨_, hv, rfl⟩⟩
  | some text =>
    obtain ⟨hmem, hquoted⟩ := hs text rfl
    obtain ⟨hsigned, htext, hstop', hcrement'⟩ := signToken_facts text hmem
    obtain ⟨t1, hn', hr⟩ := Reads.cons_iff.1 hr
    obtain ⟨token, r0, rest, hn, hk, hq, rfl, hread⟩ :=
      readSuffixes_of_reads L ctx hw hd hr (fun _ => he.head_ne)
    obtain ⟨hstop, hcrement, hsign⟩ := startsValue_facts hk
    have hkind : token.kind ≠ .quoted := by
      intro h
      rw [hq h] at hquoted
      cases hquoted
    rw [readSuffixes_none he.readSuffix_eq] at hread
    obtain ⟨⟨primary, r1⟩, hp, hv⟩ := bind_eq_ok_iff.1 (hread (some text))
    refine ⟨rest, rfl, bind_eq_ok_iff.2 ⟨_, needToken_of_next hn' hstop' hcrement', ?_⟩⟩
    simp only [hsigned, htext, if_true]
    refine bind_eq_ok_iff.2 ⟨_, needToken_of_next hn hstop hcrement, ?_⟩
    simp only [hsign, hkind]
    exact bind_eq_ok_iff.2 ⟨_, hp, bind_eq_ok_iff.2 ⟨_, hv, rfl⟩⟩

/-- The stops of a context are stops. -/
theorem Context.isStop_of_ends {ctx : Context} {c : Char} (h : ctx.ends c = true) :
    isStop c = true := by
  have hclosers : ∀ bracket : Bracket, isStop bracket.closer = true := by
    intro bracket
    cases bracket <;> rfl
  cases ctx with
  | tag => rw [beq_iff_eq.1 h]; rfl
  | argument =>
    rcases Bool.or_eq_true_iff.1 h with h | h <;> rw [beq_iff_eq.1 h] <;> rfl
  | paren => rw [beq_iff_eq.1 h]; rfl
  | index bracket => rw [beq_iff_eq.1 h]; exact hclosers bracket
  | item bracket slot =>
    have h : (c = bracket.closer ∨ c = ',') ∨ c = ':' := by
      cases slot <;> simp only [Context.ends, Bool.or_eq_true, beq_iff_eq] at h
      · exact h
      · exact h
      · exact .inl h
    rcases h with (rfl | rfl) | rfl
    · exact hclosers bracket
    · rfl
    · rfl
  | yes => rw [beq_iff_eq.1 h]; rfl
  | no => exact h

/-- An operator and its operand go on with the terms before them. -/
theorem readTerms_operator {inner : Option Inner} {ctx : Context} {terms : Terms} {op : Token}
    {sign : Option Text} {value : Value} {t r rest : Text}
    (hn : Token.next (Text.trimStart t) = .ok (op, r)) (hb : op.isBinary = true)
    (ho : readOperand s inner ctx (some op.text) r = .ok ((sign, value), rest)) :
    readTerms s inner ctx terms t = readTerms s inner ctx (.more terms op sign value) rest := by
  have hk : op.kind.isStop = false := by
    obtain ⟨kind, text⟩ := op
    cases kind <;> first | rfl | cases hb
  obtain ⟨c, r', ht⟩ := Token.exists_cons_of_next hn
  rw [ht] at hn
  have hstop : isStop c = false := by
    obtain ⟨h1, h2, h3, h4, h5⟩ := Token.not_isStop_of_next hn hk
    simp [isStop, h1, h2, h3, h4, h5]
  rw [readTerms]
  split
  · next h => rw [ht] at h; cases h
  · next c' r1 h =>
    obtain ⟨rfl, rfl⟩ := List.cons.inj (ht.symm.trans h)
    rw [if_neg (by simp [hstop])]
    split
    · next h => rw [hn] at h; cases h
    · next token rest' h =>
      obtain ⟨rfl, rfl⟩ := Prod.mk.inj (Except.ok.inj (hn.symm.trans h))
      rw [if_pos hb]
      split
      · next h => rw [ho] at h; cases h
      · next sign' value' rest'' h =>
        cases ho.symm.trans h
        rfl

/-- **Terms are read from their tokens**, one operator after the other. -/
theorem readExpr_eq_readTerms {inner : Option Inner} (L : Levels s n inner) (ctx : Context) :
    ∀ {terms : Terms}, terms.WellFormed s → terms.depth ≤ n → ∀ {t r : Text},
    Reads t terms.tokens r → EndsOperand r →
    ∃ rest, Text.trimStart rest = r ∧
      readExpr s inner ctx t = readTerms s inner ctx terms rest
  | .one sign value, hw, hd, t, r, hr, he => by
    obtain ⟨rest, hrest, hread⟩ := readOperand_complete L ctx none hw.1 hw.2 hd hr he
    refine ⟨rest, hrest, ?_⟩
    rw [readExpr, hread]
    rfl
  | .more left op sign value, hw, hd, t, r, hr, he => by
    rw [Terms.depth] at hd
    obtain ⟨hleft, hop, hsign, hvalue⟩ := hw
    obtain ⟨r1, hr1, hr2⟩ := hr.split
    obtain ⟨r2, hn, hlast⟩ := Reads.cons_iff.1 hr2
    rw [hr1.trimStart_rest] at hn
    obtain ⟨t1, ht1, hread⟩ := readExpr_eq_readTerms L ctx hleft (by omega) hr1
      (.inr ⟨op, r2, hn, .inl hop⟩)
    obtain ⟨rest, hrest, ho⟩ :=
      readOperand_complete L ctx (some op.text) hsign hvalue (by omega) hlast he
    rw [← ht1] at hn
    exact ⟨rest, hrest, hread.trans (readTerms_operator hn hop ho)⟩

/-- The mark of a ternary and its branches end an expression outside of branches. -/
theorem readTerms_question {inner : Option Inner} {ctx : Context} {terms : Terms} {yes no : Expr}
    {t r rest : Text} (hn : Token.next (Text.trimStart t) = .ok (Token.question, r))
    (hc : ctx.isBranch = false) (hb : readBranches inner ctx r = .ok ((yes, no), rest)) :
    readTerms s inner ctx terms t = .ok (.ternary terms yes no, rest) := by
  obtain ⟨c, r', ht⟩ := Token.exists_cons_of_next hn
  have hquestion : '?' :: r = c :: r' := (Token.append_of_next hn).trans ht
  obtain ⟨rfl, rfl⟩ := List.cons.inj hquestion
  rw [ht] at hn
  rw [readTerms]
  split
  · next h => rw [ht] at h; cases h
  · next c' r1 h =>
    obtain ⟨rfl, rfl⟩ := List.cons.inj (ht.symm.trans h)
    rw [if_neg (by decide)]
    split
    · next h => rw [hn] at h; cases h
    · next token rest' h =>
      obtain ⟨rfl, rfl⟩ := Prod.mk.inj (Except.ok.inj (hn.symm.trans h))
      rw [if_neg (by decide), if_pos (by decide), if_neg (by simp [hc]), hb]
      rfl

/-- Terms end an expression at a stop of its context. -/
theorem readTerms_stop {inner : Option Inner} {ctx : Context} {terms : Terms} {t r : Text}
    {c : Char} (ht : Text.trimStart t = c :: r) (hc : ctx.ends c = true) :
    readTerms s inner ctx terms t = .ok (.plain terms, c :: r) := by
  rw [readTerms]
  split
  · next h => rw [ht] at h; cases h
  · next c' r1 h =>
    obtain ⟨rfl, rfl⟩ := List.cons.inj (ht.symm.trans h)
    rw [if_pos (Context.isStop_of_ends hc), if_pos hc]

/-- **The two branches of a ternary are read.** -/
theorem readBranches_complete {inner : Option Inner} (L : Levels s n inner) {ctx : Context}
    {yes no : Expr} {t r : Text} {c : Char} (hy : yes.isPlain = true ∧ yes.WellFormed s)
    (hdy : yes.depth < n) (hn : no.isPlain = true ∧ no.WellFormed s) (hdn : no.depth < n)
    (hr : Reads t (yes.tokens ++ Token.colon :: no.tokens) (c :: r)) (hc : ctx.ends c = true) :
    readBranches inner ctx t = .ok ((yes, no), c :: r) := by
  obtain ⟨r1, hyes, hno⟩ := hr.split_at rfl
  have hsyes : Stands s n .yes t yes (':' :: r1) :=
    ⟨hy.2, hdy, fun _ => hy.1, hyes, ':', r1, rfl, rfl⟩
  have hsno : Stands s n .no r1 no (c :: r) :=
    ⟨hn.2, hdn, fun _ => hn.1, hno, c, r, rfl, Context.isStop_of_ends hc⟩
  refine bind_eq_ok_iff.2 ⟨_, L.read_iff.2 hsyes, ?_⟩
  refine bind_eq_ok_iff.2 ⟨r1, needChar_eq_ok_iff.2 hyes.trimStart_rest, ?_⟩
  refine bind_eq_ok_iff.2 ⟨_, L.read_iff.2 hsno, ?_⟩
  refine bind_eq_ok_iff.2 ⟨c :: r, needEnd_eq_ok_iff.2 ⟨hno.trimStart_rest, c, r, rfl, hc⟩, ?_⟩
  rfl

/-- **Completeness**: an expression that stands in a context is read there. -/
theorem readExpr_of_stands {inner : Option Inner} (L : Levels s n inner) {ctx : Context}
    {t rest : Text} {e : Expr} (h : Stands s (n + 1) ctx t e rest) :
    readExpr s inner ctx t = .ok (e, rest) := by
  obtain ⟨hw, hd, hplain, hr, c, r, rfl, hc⟩ := h
  have hend : EndsOperand (c :: r) := .inl ⟨c, r, rfl, Context.isStop_of_ends hc⟩
  cases e with
  | plain terms =>
    obtain ⟨t1, ht1, hread⟩ := readExpr_eq_readTerms L ctx hw (Nat.lt_succ_iff.1 hd) hr hend
    exact hread.trans (readTerms_stop ht1 hc)
  | ternary test yes no =>
    rw [Expr.depth] at hd
    obtain ⟨hwt, hwy, hwn⟩ := hw
    have hbranch : ctx.isBranch = false := by
      by_cases hb : ctx.isBranch = true
      · cases hplain hb
      · simpa using hb
    obtain ⟨r1, htest, hr1⟩ := hr.split
    obtain ⟨r2, hn, hbranches⟩ := Reads.cons_iff.1 hr1
    rw [htest.trimStart_rest] at hn
    obtain ⟨t1, ht1, hread⟩ := readExpr_eq_readTerms L ctx hwt (by omega) htest
      (.inr ⟨_, r2, hn, .inr rfl⟩)
    rw [← ht1] at hn
    exact hread.trans (readTerms_question hn hbranch
      (readBranches_complete L hwy (by omega) hwn (by omega) hbranches hc))

/-! ## Levels -/

/-- **Every level reads exactly the expressions that stand before it**, by induction on the levels
below it. -/
theorem levels_innerReader (s : Scope) : ∀ n, Levels s n (innerReader s n)
  | 0 => ⟨by simp [innerReader], by
      intro ctx t e rest
      constructor
      · nofun
      · exact fun h => absurd h.depth (Nat.not_lt_zero _)⟩
  | n + 1 => ⟨by simp [innerReader],
      stands_of_readExpr (levels_innerReader s n), readExpr_of_stands (levels_innerReader s n)⟩

/-- **An expression fills a tag**: it is of the grammar, at most `maxNesting` deep, and its tokens
reach up to the bracket that closes the tag. -/
structure Fills (s : Scope) (t : Text) (e : Expr) (rest : Text) : Prop where
  wellFormed : e.WellFormed s
  depth : e.depth ≤ maxNesting
  reads : Reads t e.tokens rest
  closes : rest.head? = some ']'

/-- **The reader of tags is exact.** -/
theorem readTag_eq_ok_iff {s : Scope} {t rest : Text} {e : Expr} :
    readTag s t = .ok (e, rest) ↔ Fills s t e rest := by
  have L := levels_innerReader s maxNesting
  constructor
  · intro h
    obtain ⟨hw, hd, -, hr, c, r, rfl, hc⟩ := stands_of_readExpr L h
    rw [show c = ']' from beq_iff_eq.1 hc] at hr ⊢
    exact ⟨hw, Nat.lt_succ_iff.1 hd, hr, rfl⟩
  · rintro ⟨hw, hd, hr, hc⟩
    obtain ⟨r, rfl⟩ := List.head?_eq_some_iff.1 hc
    exact readExpr_of_stands L ⟨hw, Nat.lt_succ_iff.2 hd, nofun, hr, ']', r, rfl, rfl⟩

/-- **Reading a tag is parsing the grammar.**  The code of a tag is found exactly when some tree
fills the tag; the tree is the only one that does, the code is the code of the tree, and what is
left starts with the bracket that closes the tag. -/
theorem readTag_code_iff (r : Registry) (blocks : List Block) (t code rest : Text) :
    (readTag ⟨r, Block.loops blocks⟩ t).map (fun found => (found.1.code r, found.2)) =
        .ok (code, rest) ↔
      ∃ e, Fills ⟨r, Block.loops blocks⟩ t e rest ∧ e.code r = code ∧
        ∀ e' rest', Fills ⟨r, Block.loops blocks⟩ t e' rest' → e' = e ∧ rest' = rest := by
  have hmap : ∀ x : Except Stuck (Expr × Text), x.map (fun found => (found.1.code r, found.2)) =
      .ok (code, rest) ↔ ∃ e, x = .ok (e, rest) ∧ e.code r = code := by
    intro x
    rcases x with stuck | ⟨e, rest'⟩
    · simp [Except.map]
    · constructor
      · intro h
        obtain ⟨hcode, rfl⟩ := Prod.mk.inj (Except.ok.inj h)
        exact ⟨e, rfl, hcode⟩
      · rintro ⟨e', h, hcode⟩
        obtain ⟨rfl, rfl⟩ := Prod.mk.inj (Except.ok.inj h)
        exact congrArg (fun c => Except.ok (c, rest')) hcode
  rw [hmap]
  constructor
  · rintro ⟨e, he, hcode⟩
    refine ⟨e, readTag_eq_ok_iff.1 he, hcode, fun e' rest' h' => ?_⟩
    have hsame := (readTag_eq_ok_iff.2 h').symm.trans he
    exact Prod.mk.inj (Except.ok.inj hsame)
  · rintro ⟨e, he, hcode, -⟩
    exact ⟨e, readTag_eq_ok_iff.2 he, hcode⟩

end Stencil
