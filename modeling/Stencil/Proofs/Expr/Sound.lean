import Stencil.Proofs.Expr.Grammar

/-!
# Proofs/Expr/Sound — what is read is an expression

Each reader gives a tree of the grammar and passes over exactly the tokens of that tree.  The levels
below a reader are assumed to do so (`Levels`), and the reader itself then does
(`stands_of_readExpr`).  The statements follow the readers from single tokens up, and each says
which tokens lie between the text given and the text left.
-/

namespace Stencil

/-- **An expression stands at the start of a text**: it is of the grammar, its nesting stays below
`n`, and behind its tokens comes a character that ends it in its context. -/
structure Stands (s : Scope) (n : Nat) (ctx : Context) (t : Text) (e : Expr) (rest : Text) :
    Prop where
  wellFormed : e.WellFormed s
  depth : e.depth < n
  plain : ctx.isBranch = true → e.isPlain = true
  reads : Reads t e.tokens rest
  ends : ∃ c r, rest = c :: r ∧ ctx.ends c = true

/-- **A reader of inner expressions with `n` levels**: it gives exactly the expressions that stand
there. -/
structure Levels (s : Scope) (n : Nat) (inner : Option Inner) : Prop where
  isSome_iff : inner.isSome = true ↔ 0 < n
  read_iff : ∀ {ctx t e rest}, readInner inner ctx t = .ok (e, rest) ↔ Stands s n ctx t e rest

/-! ## Single tokens -/

theorem next_of_needToken {ctx : Context} {before : Option Text} {t rest : Text} {token : Token}
    (h : needToken ctx before t = .ok (token, rest)) :
    Token.next (Text.trimStart t) = .ok (token, rest) ∧ token.kind ≠ .crement := by
  unfold needToken at h
  split at h
  · cases h
  next c r hc =>
  rw [hc]
  split at h
  · split at h
    · split at h <;> cases h
    · cases h
  split at h
  · cases h
  next token' rest' hn =>
  split at h
  · cases h
  next hk =>
  obtain ⟨rfl, rfl⟩ := Prod.mk.inj (Except.ok.inj h)
  exact ⟨hn, hk⟩

theorem next_of_needName {ctx : Context} {t name rest : Text}
    (h : needName ctx t = .ok (name, rest)) :
    Token.next (Text.trimStart t) = .ok (Token.named name, rest) := by
  obtain ⟨⟨⟨kind, text⟩, r⟩, ht, hr⟩ := bind_eq_ok_iff.1 h
  dsimp only at hr
  split at hr
  · next hk =>
    obtain ⟨rfl, rfl⟩ := Prod.mk.inj (Except.ok.inj hr)
    rw [(next_of_needToken ht).1, show kind = Token.Kind.name from hk]
    rfl
  · cases hr

theorem needChar_eq_ok_iff {ctx : Context} {c : Char} {t rest : Text} :
    needChar ctx c t = .ok rest ↔ Text.trimStart t = c :: rest := by
  unfold needChar
  cases Text.trimStart t with
  | nil => simp
  | cons d r =>
    by_cases hd : d = c
    · simp [hd]
    · simp [hd]

/-- An opening bracket that was asked for is a token. -/
theorem reads_of_needChar_opener {ctx : Context} (bracket : Bracket) {t rest : Text}
    (h : needChar ctx bracket.opener t = .ok rest) :
    Reads t [Token.opens bracket] (Text.trimStart rest) := by
  refine Reads.singleton ?_
  rw [needChar_eq_ok_iff.1 h, Token.next_opener]

/-- A closing bracket that was asked for is a token. -/
theorem reads_of_needChar_closer {ctx : Context} {bracket : Bracket} {t rest : Text}
    (h : needChar ctx bracket.closer t = .ok rest) :
    Reads t [Token.closes bracket] (Text.trimStart rest) := by
  refine Reads.singleton ?_
  rw [needChar_eq_ok_iff.1 h, Token.next_closer]

namespace Token

/-- A sign is one of four. -/
theorem sign_of_next {t rest : Text} {token : Token} (h : next t = .ok (token, rest))
    (hk : token.isSign = true) :
    token.text ∈ [['!'], ['~'], ['+'], ['-']] ∧ signToken token.text = token := by
  have hfixed : token.kind.isFixed = true := by
    revert hk
    simp only [isSign]
    cases token.kind <;> simp [Kind.isFixed]
  have htable : ∀ p ∈ fixed, (⟨p.2, p.1.toList⟩ : Token).isSign = true →
      p.1.toList ∈ [['!'], ['~'], ['+'], ['-']] ∧ signToken p.1.toList = ⟨p.2, p.1.toList⟩ := by
    decide
  obtain ⟨p, hp, rfl⟩ := mem_fixed_of_next h hfixed
  exact htable p hp hk

end Token

/-! ## Chains -/

namespace Chain

theorem isEmpty_iff {c : Chain} : c.isEmpty = true ↔ c = ⟨0, []⟩ := by
  obtain ⟨depth, names⟩ := c
  simp [isEmpty]

/-- A name that is no reserved word, or `this` at the very start, can follow. -/
theorem AvoidsReserved.push {c : Chain} {name : Text} (h : c.AvoidsReserved)
    (hn : name ∈ reservedWords → c.isEmpty = true ∧ name = "this") :
    (c.push name).AvoidsReserved := by
  obtain ⟨depth, names⟩ := c
  cases names with
  | nil =>
    refine ⟨fun hr => ?_, by simp⟩
    obtain ⟨he, ht⟩ := hn hr
    exact ⟨congrArg Chain.depth (isEmpty_iff.1 he), ht⟩
  | cons first later =>
    refine ⟨h.1, fun other ho => ?_⟩
    rcases List.mem_append.1 ho with ho | ho
    · exact h.2 other ho
    · rw [List.mem_singleton.1 ho]
      intro hr
      cases isEmpty_iff.1 (hn hr).1

/-- Of the reserved words only `this` passes the two checks, and only at the very start. -/
theorem reserved_name {c : Chain} {name : Text} {ahead : Option Char}
    (h : ¬(name ∈ reservedWords ∧ ((!c.isEmpty) = true ∨ ahead = some '(')))
    (k : ¬(name ∈ reservedWords ∧ name ≠ "this")) (hr : name ∈ reservedWords) :
    c.isEmpty = true ∧ name = "this" := by
  simp only [hr, true_and, not_or, Bool.not_eq_true', Bool.not_eq_false] at h
  exact ⟨h.1, by simpa [hr] using k⟩

end Chain

/-- **A chain that was read** goes on from the names before it, stands for its target, and is called
exactly when a bracket follows. -/
theorem readChain_sound {s : Scope} {ctx : Context} {chain full : Chain} {name t rest : Text}
    {target : Reference} {called : Bool} (hc : chain.AvoidsReserved)
    (h : readChain s ctx chain name t = .ok ((full, target, called), rest)) :
    ∃ later, full = ⟨chain.depth, chain.names ++ name :: later⟩ ∧
      full.Denotes s called target ∧ Reads t (Chain.laterTokens later) (Text.trimStart rest) ∧
      (called = true ↔ (Text.trimStart rest).head? = some '(') ∧
      (Text.trimStart rest).head? ≠ some '.' := by
  fun_induction readChain s ctx chain name t with
  | case1 => cases h
  | case2 => cases h
  | case3 chain name t ahead full' hfirst hword hdot =>
    simp only [Except.ok.injEq, Prod.mk.injEq] at h
    obtain ⟨⟨hf, rfl, rfl⟩, rfl⟩ := h
    rw [← hf]
    have hempty : chain.isEmpty = true ∧ ahead ≠ some '(' := by
      simpa [hword.1] using hfirst
    refine ⟨[], rfl, .inl ⟨name, hword.1, hword.2, ?_, rfl, rfl⟩, .done t, ?_, hdot⟩
    · change chain.push name = _
      rw [Chain.isEmpty_iff.1 hempty.1]
      rfl
    · simpa using hempty.2
  | case4 => cases h
  | case5 => cases h
  | case6 chain name t ahead full' hfirst hword r ht run rest' hrun next rest'' hn ih =>
    have hpush := hc.push (Chain.reserved_name hfirst hword)
    obtain ⟨later, hfull, hden, hreads, hcall, hdot⟩ := ih hpush h
    refine ⟨next :: later, ?_, hden, ?_, hcall, hdot⟩
    · rw [hfull]
      simp [full', Chain.push]
    · have hsingle : r.takeWhile (· == '.') = [] := by
        have hlen : ¬ 1 < ('.' :: r.takeWhile (· == '.')).length := hrun
        rw [List.length_cons] at hlen
        exact List.eq_nil_of_length_eq_zero (by omega)
      have hd : Token.next (Text.trimStart t) = .ok (Token.dot, rest') := by
        rw [ht, Token.next_dots, hsingle]
        rfl
      exact .token hd (.token (next_of_needName hn) hreads)
  | case7 => cases h
  | case8 chain name t ahead full' hfirst hword target' hr hdot =>
    simp only [Except.ok.injEq, Prod.mk.injEq] at h
    obtain ⟨⟨hf, rfl, rfl⟩, rfl⟩ := h
    rw [← hf]
    have hpush := hc.push (Chain.reserved_name hfirst hword)
    refine ⟨[], rfl, .inr ⟨by simp [full', Chain.push], hpush, hr⟩, .done t, ?_, ?_⟩
    · simp [ahead]
    · intro hd
      obtain ⟨r, hr⟩ := List.head?_eq_some_iff.1 hd
      exact hdot r hr
/-! ## Groups -/

/-- An argument of a call. -/
def Context.isArgument : Context → Bool
  | .argument _ => true
  | _ => false

/-- The later parts of a call are arguments, and those of a literal are none. -/
theorem Context.isArgument_after? {ctx next : Context} {c : Char} (h : ctx.after? c = some next) :
    next.isArgument = ctx.isArgument := by
  unfold Context.after? at h
  split at h
  · split at h <;> cases h
    rfl
  · split at h <;> cases h
    rfl
  · split at h
    · cases h
      rfl
    · split at h <;> cases h
      rfl
  · split at h <;> cases h
    rfl
  · cases h

/-- The parts of a group in `bracket`, of which the last was read in a context. -/
def Items.EndIn (bracket : Bracket) (items : Items) : Context → Prop
  | .argument _ => bracket = .paren ∧ items ≠ .empty ∧ items.isSingles = true
  | .item b slot =>
    b = bracket ∧ items ≠ .empty ∧ (slot ≠ .value → ∃ before e, items = .item before e)
  | _ => False

theorem Items.separator_of_ne {items : Items} (h : items ≠ .empty) :
    items.separator = [Token.comma] := by
  cases items with
  | empty => exact absurd rfl h
  | item => rfl
  | pair => rfl

theorem Items.EndIn.ne_empty {bracket : Bracket} {items : Items} {ctx : Context}
    (h : items.EndIn bracket ctx) : items ≠ .empty := by
  cases ctx with
  | argument => exact h.2.1
  | item => exact h.2.1
  | _ => exact h.elim

theorem Items.EndIn.isSingles {bracket : Bracket} {items : Items} {ctx : Context}
    (h : items.EndIn bracket ctx) (ha : ctx.isArgument = true) : items.isSingles = true := by
  cases ctx with
  | argument => exact h.2.2
  | _ => cases ha

/-- A part after a comma. -/
theorem Items.EndIn.comma {bracket : Bracket} {items : Items} {ctx next : Context}
    (h : items.EndIn bracket ctx) (hn : ctx.after? ',' = some next) (e : Expr) :
    (Items.item items e).EndIn bracket next := by
  cases ctx with
  | argument first =>
    obtain rfl := Option.some.inj hn
    exact ⟨h.1, by simp, h.2.2⟩
  | item b slot =>
    have hnext : next = .item b .later := by
      cases slot <;> exact (Option.some.inj hn).symm
    rw [hnext]
    exact ⟨h.1, by simp, fun _ => ⟨items, e, rfl⟩⟩
  | _ => exact h.elim

/-- A part after a colon makes the last part a key. -/
theorem Items.EndIn.colon {bracket : Bracket} {items : Items} {ctx next : Context}
    (h : items.EndIn bracket ctx) (hn : ctx.after? ':' = some next) (e : Expr) :
    ∃ before key, items = .item before key ∧ (Items.pair before key e).EndIn bracket next := by
  cases ctx with
  | argument first => cases hn
  | item b slot =>
    cases slot with
    | value => cases hn
    | first =>
      obtain ⟨before, key, rfl⟩ := h.2.2 (by simp)
      obtain rfl := Option.some.inj hn
      exact ⟨before, key, rfl, h.1, by simp, fun hv => absurd rfl hv⟩
    | later =>
      obtain ⟨before, key, rfl⟩ := h.2.2 (by simp)
      obtain rfl := Option.some.inj hn
      exact ⟨before, key, rfl, h.1, by simp, fun hv => absurd rfl hv⟩
  | _ => exact h.elim

variable {s : Scope} {n : Nat}

/-- **The parts of a group that were read.** -/
theorem readParts_sound {inner : Inner} (L : Levels s n (some inner)) {bracket : Bracket}
    {ctx : Context} {items found : Items} {t rest : Text} (hi : items.EndIn bracket ctx)
    (hw : items.WellFormed s) (hd : items.depth < n)
    (h : readParts inner bracket ctx items t = .ok (found, rest)) :
    found.WellFormed s ∧ found.depth < n ∧ (ctx.isArgument = true → found.isSingles = true) ∧
      ∃ more, found.tokens = items.tokens ++ more ∧
        Reads t (more ++ [Token.closes bracket]) (Text.trimStart rest) := by
  fun_induction readParts inner bracket ctx items t with
  | case1 => cases h
  | case2 ctx items t r ht =>
    cases h
    refine ⟨hw, hd, hi.isSingles, [], by simp, Reads.singleton ?_⟩
    rw [ht, Token.next_closer]
  | case3 => cases h
  | case4 => cases h
  | case5 ctx items t c r ht hclose hdelim next hnext e rest' hr ih =>
    have he : Stands s n next r e rest' := L.read_iff.1 hr
    have := he.depth
    rcases hdelim with rfl | rfl
    · have hw' : (Items.item items e).WellFormed s := ⟨hw, he.wellFormed⟩
      have hd' : (Items.item items e).depth < n := by
        simp only [Items.depth]
        omega
      obtain ⟨hwf, hdf, hsingles, more, htokens, hmore⟩ := ih (hi.comma hnext e) hw' hd' h
      have hne : items ≠ .empty := hi.ne_empty
      refine ⟨hwf, hdf, Context.isArgument_after? hnext ▸ hsingles,
        Token.comma :: (e.tokens ++ more), ?_, ?_⟩
      · change found.tokens = (Items.item items e).tokens ++ more at htokens
        rw [htokens, Items.tokens, Items.separator_of_ne hne]
        simp only [List.append_assoc, List.cons_append, List.nil_append]
      · rw [List.cons_append, List.append_assoc]
        exact .token (ht ▸ Token.next_comma r) (he.reads.append hmore)
    · obtain ⟨before, key, rfl, hpair⟩ := hi.colon hnext e
      have hw' : (Items.pair before key e).WellFormed s := ⟨hw.1, hw.2, he.wellFormed⟩
      have hd' : (Items.pair before key e).depth < n := by
        simp only [Items.depth] at hd ⊢
        omega
      obtain ⟨hwf, hdf, hsingles, more, htokens, hmore⟩ := ih hpair hw' hd' h
      refine ⟨hwf, hdf, Context.isArgument_after? hnext ▸ hsingles,
        Token.colon :: (e.tokens ++ more), ?_, ?_⟩
      · change found.tokens = (Items.pair before key e).tokens ++ more at htokens
        rw [htokens, Items.tokens, Items.tokens]
        simp only [List.append_assoc, List.cons_append]
      · rw [List.cons_append, List.append_assoc]
        exact .token (ht ▸ Token.next_colon r) (he.reads.append hmore)
  | case6 => cases h

/-- The context in which the first part of a group is read. -/
def Context.Begins (bracket : Bracket) (ctx : Context) : Prop :=
  bracket = .paren ∧ ctx = .argument true ∨ ctx = .item bracket .first

/-- The first part of a group. -/
theorem Items.EndIn.first {bracket : Bracket} {ctx : Context} (h : ctx.Begins bracket) (e : Expr) :
    (Items.item .empty e).EndIn bracket ctx := by
  rcases h with ⟨rfl, rfl⟩ | rfl
  · exact ⟨rfl, by simp, rfl⟩
  · exact ⟨rfl, by simp, fun _ => ⟨.empty, e, rfl⟩⟩

/-- **A group that was read**, with its closing bracket. -/
theorem readGroup_sound {inner : Option Inner} (L : Levels s n inner) {bracket : Bracket}
    {ctx : Context} {items : Items} {t rest : Text} (hc : ctx.Begins bracket)
    (h : readGroup inner bracket ctx t = .ok (items, rest)) :
    items.WellFormed s ∧ items.depth < n ∧ (ctx = .argument true → items.isSingles = true) ∧
      Reads t (items.tokens ++ [Token.closes bracket]) (Text.trimStart rest) := by
  cases inner with
  | none => cases h
  | some inner =>
  simp only [readGroup] at h
  split at h
  · next c r hcr =>
    split at h
    · next hclose =>
      cases h
      refine ⟨trivial, L.isSome_iff.1 rfl, fun _ => rfl, Reads.singleton ?_⟩
      rw [hcr, hclose, Token.next_closer]
    · split at h
      · cases h
      next e rest' he =>
      have he : Stands s n ctx t e rest' := L.read_iff.1 he
      have hd : (Items.item .empty e).depth < n := by
        have := he.depth
        simp only [Items.depth]
        omega
      obtain ⟨hwf, hdf, hsingles, more, htokens, hmore⟩ :=
        readParts_sound L (.first hc e) ⟨trivial, he.wellFormed⟩ hd h
      refine ⟨hwf, hdf, ?_, ?_⟩
      · rintro rfl
        exact hsingles rfl
      · rw [htokens, List.append_assoc]
        exact he.reads.append hmore
  · cases h

/-- **One expression in brackets that was read.** -/
theorem readSingle_sound {inner : Option Inner} (L : Levels s n inner) {bracket : Bracket}
    {ctx : Context} {e : Expr} {t rest : Text}
    (h : readSingle inner ctx bracket t = .ok (e, rest)) :
    e.WellFormed s ∧ e.depth < n ∧
      Reads t (e.tokens ++ [Token.closes bracket]) (Text.trimStart rest) := by
  obtain ⟨⟨e', r⟩, he, hr⟩ := bind_eq_ok_iff.1 h
  obtain ⟨r', hc, hr⟩ := bind_eq_ok_iff.1 hr
  cases hr
  have hs : Stands s n ctx t e r := L.read_iff.1 he
  exact ⟨hs.wellFormed, hs.depth, hs.reads.append (reads_of_needChar_closer hc)⟩

/-! ## Values -/

/-- **A value that starts with a chain.** -/
theorem readNamed_sound {inner : Option Inner} (L : Levels s n inner) {ctx : Context} {depth : Nat}
    {name t rest : Text} {value : Value}
    (h : readNamed s inner ctx ⟨depth, []⟩ name t = .ok (value, rest)) :
    value.WellFormed s ∧ value.depth ≤ n ∧ value.startsQuoted = false ∧
      (value.isName = true → (Text.trimStart rest).head? ≠ some '.') ∧
      ∃ later, value.tokens = Chain.tokens ⟨depth, [name]⟩ ++ later ∧
        Reads t later (Text.trimStart rest) := by
  obtain ⟨⟨⟨full, target, called⟩, r⟩, hc, hr⟩ := bind_eq_ok_iff.1 h
  have havoid : Chain.AvoidsReserved ⟨depth, []⟩ := trivial
  obtain ⟨later, rfl, hden, hreads, hcall, hdot⟩ := readChain_sound havoid hc
  have htokens : ∀ names, Chain.tokens ⟨depth, name :: names⟩ =
      Chain.tokens ⟨depth, [name]⟩ ++ Chain.laterTokens names := by
    intro names
    simp [Chain.tokens, Chain.laterTokens]
  dsimp only at hr
  split at hr
  · next hcalled =>
    obtain ⟨r', hp, hr⟩ := bind_eq_ok_iff.1 hr
    obtain ⟨⟨args, r''⟩, hg, hr⟩ := bind_eq_ok_iff.1 hr
    cases hr
    obtain ⟨hw, hd, hsingles, hargs⟩ := readGroup_sound L (.inl ⟨rfl, rfl⟩) hg
    refine ⟨⟨hcalled ▸ hden, hsingles rfl, hw⟩, hd, rfl, nofun,
      Chain.laterTokens later ++ Token.opens .paren :: (args.tokens ++ [Token.closes .paren]), ?_,
      hreads.andThen ((reads_of_needChar_opener .paren hp).andThen hargs)⟩
    rw [Value.tokens, ← List.append_assoc, ← htokens]
    rfl
  · next hcalled =>
    cases hr
    obtain rfl : called = false := Bool.eq_false_iff.2 hcalled
    exact ⟨hden, Nat.zero_le _, rfl, fun _ => hdot,
      Chain.laterTokens later, htokens later, hreads⟩

/-- **A value without its suffixes**, behind its first token. -/
theorem readPrimary_sound {inner : Option Inner} (L : Levels s n inner) {ctx : Context}
    {before : Option Text} {token : Token} {t t' rest : Text} {value : Value}
    (ht : Token.next t' = .ok (token, t))
    (h : readPrimary s inner ctx before token t = .ok (value, rest)) :
    value.WellFormed s ∧ value.depth ≤ n ∧ (value.startsQuoted = true → token.kind = .quoted) ∧
      (value.isName = true → (Text.trimStart rest).head? ≠ some '.') ∧
      ∃ later, value.tokens = token :: later ∧ Reads t later (Text.trimStart rest) := by
  obtain ⟨kind, text⟩ := token
  unfold readPrimary at h
  dsimp only at h
  split at h
  · cases h
    exact ⟨trivial, Nat.zero_le _, nofun, nofun, [], rfl, .done t⟩
  · cases h
    exact ⟨trivial, Nat.zero_le _, fun _ => rfl, nofun, [], rfl, .done t⟩
  · obtain ⟨hw, hd, hq, hdot, later, htokens, hreads⟩ := readNamed_sound L h
    refine ⟨hw, hd, fun hs => ?_, hdot, later, htokens, hreads⟩
    rw [hq] at hs
    cases hs
  · obtain ⟨⟨⟨kind', text'⟩, r⟩, hn, hr⟩ := bind_eq_ok_iff.1 h
    dsimp only at hr
    split at hr
    · next hk =>
      obtain rfl : kind' = Token.Kind.name := hk
      obtain ⟨hw, hd, hq, hdot, later, htokens, hreads⟩ := readNamed_sound L hr
      obtain ⟨hlen, hdots⟩ := Token.eq_dots_of_next ht rfl
      refine ⟨hw, hd, fun hs => ?_, hdot, Token.named text' :: later, ?_,
        .token (next_of_needToken hn).1 hreads⟩
      · rw [hq] at hs
        cases hs
      · rw [htokens, Chain.tokens, if_neg hlen, ← hdots]
        rfl
    · cases hr
  · obtain ⟨⟨e, r⟩, he, hr⟩ := bind_eq_ok_iff.1 h
    cases hr
    obtain ⟨hw, hd, hreads⟩ := readSingle_sound L he
    refine ⟨hw, hd, nofun, nofun, _, ?_, hreads⟩
    rw [Token.eq_opens_of_next ht rfl]
    rfl
  · next bracket hne =>
    obtain ⟨⟨items, r⟩, hi, hr⟩ := bind_eq_ok_iff.1 h
    cases hr
    obtain ⟨hw, hd, -, hreads⟩ := readGroup_sound L (.inr rfl) hi
    refine ⟨⟨fun hb => hne (hb ▸ rfl), hw⟩, hd, nofun, nofun, _, ?_, hreads⟩
    rw [Token.eq_opens_of_next ht rfl]
    rfl
  · cases h

/-- **What a suffix is**: an index in brackets, or a registered method behind a single dot. -/
theorem readSuffix_cases {inner : Option Inner} {ctx : Context} {value value' : Value}
    {t rest : Text} (h : readSuffix s inner ctx value t = .ok (some (value', rest))) :
    (∃ bracket key r, bracket ≠ .paren ∧
      Token.next (Text.trimStart t) = .ok (Token.opens bracket, r) ∧
      readSingle inner (.index bracket) bracket r = .ok (key, rest) ∧
      value' = .index value bracket key) ∨
    ∃ name args r r1 r2, Token.next (Text.trimStart t) = .ok (Token.dot, r) ∧
      needName ctx r = .ok (name, r1) ∧ needChar ctx '(' r1 = .ok r2 ∧
      s.registry.wrapper.contains name = true ∧
      readGroup inner .paren (.argument true) r2 = .ok (args, rest) ∧
      value' = .method value name args := by
  unfold readSuffix at h
  split at h
  · cases h
  next c r hc =>
  split at h
  · cases h
  obtain ⟨⟨⟨kind, text⟩, r'⟩, ht, hr⟩ := bind_eq_ok_iff.1 h
  dsimp only at hr
  split at hr
  · cases hr
  · split at hr
    · cases hr
    next hlen =>
    obtain ⟨⟨name, r2⟩, hn, hr⟩ := bind_eq_ok_iff.1 hr
    dsimp only at hr
    split at hr
    · cases hr
    split at hr
    · cases hr
    next hreg =>
    obtain ⟨r3, hp, hr⟩ := bind_eq_ok_iff.1 hr
    obtain ⟨⟨args, r4⟩, hg, hr⟩ := bind_eq_ok_iff.1 hr
    cases hr
    obtain ⟨hpos, hdots⟩ := Token.eq_dots_of_next ht rfl
    have hone : text.length = 1 := by
      dsimp only at hpos
      omega
    refine .inr ⟨name, args, r', r2, r3, ?_, hn, hp, by simpa using hreg, hg, rfl⟩
    rw [hc, ht, hdots, hone]
    rfl
  · cases hr
  · next bracket hne =>
    obtain ⟨⟨key, r2⟩, hk, hr⟩ := bind_eq_ok_iff.1 hr
    cases hr
    refine .inl ⟨bracket, key, r', fun hb => hne (hb ▸ rfl), ?_, hk, rfl⟩
    rw [hc, ht, Token.eq_opens_of_next ht rfl]
  all_goals cases hr

/-- **One more suffix of a value.**  A method never follows a chain that is not called: the chain
would have taken it. -/
theorem readSuffix_sound {inner : Option Inner} (L : Levels s n inner) {ctx : Context}
    {value value' : Value} {t rest : Text} (hw : value.WellFormed s) (hd : value.depth ≤ n)
    (hdot : value.isName = true → (Text.trimStart t).head? ≠ some '.')
    (h : readSuffix s inner ctx value t = .ok (some (value', rest))) :
    value'.WellFormed s ∧ value'.depth ≤ n ∧ value'.startsQuoted = value.startsQuoted ∧
      value'.isName = false ∧
      ∃ more, value'.tokens = value.tokens ++ more ∧ Reads t more (Text.trimStart rest) := by
  rcases readSuffix_cases h with ⟨bracket, key, r, hb, hopen, hk, rfl⟩ |
    ⟨name, args, r, r1, r2, hnext, hn, hp, hreg, hg, rfl⟩
  · obtain ⟨hwk, hdk, hreads⟩ := readSingle_sound L hk
    have hd' : (Value.index value bracket key).depth ≤ n := by
      simp only [Value.depth]
      omega
    exact ⟨⟨hw, hb, hwk⟩, hd', rfl, rfl, _, rfl, .token hopen hreads⟩
  · obtain ⟨hwa, hda, hsingles, hargs⟩ := readGroup_sound L (.inl ⟨rfl, rfl⟩) hg
    have hname : value.isName = false := by
      by_cases hv : value.isName = true
      · refine absurd ?_ (hdot hv)
        rw [← Token.append_of_next hnext]
        rfl
      · simpa using hv
    have hd' : (Value.method value name args).depth ≤ n := by
      simp only [Value.depth]
      omega
    refine ⟨⟨hw, hname, hreg, hsingles rfl, hwa⟩, hd', rfl, rfl, _, rfl, ?_⟩
    exact .token hnext (.token (next_of_needName hn)
      ((reads_of_needChar_opener .paren hp).andThen hargs))

/-- **All suffixes of a value.** -/
theorem readSuffixes_sound {inner : Option Inner} (L : Levels s n inner) {ctx : Context}
    {value value' : Value} {t rest : Text} (hw : value.WellFormed s) (hd : value.depth ≤ n)
    (hdot : value.isName = true → (Text.trimStart t).head? ≠ some '.')
    (h : readSuffixes s inner ctx value t = .ok (value', rest)) :
    value'.WellFormed s ∧ value'.depth ≤ n ∧ value'.startsQuoted = value.startsQuoted ∧
      ∃ more, value'.tokens = value.tokens ++ more ∧ Reads t more (Text.trimStart rest) := by
  fun_induction readSuffixes s inner ctx value t with
  | case1 => cases h
  | case2 value t =>
    cases h
    exact ⟨hw, hd, rfl, [], by simp, .done _⟩
  | case3 value t next r hs ih =>
    obtain ⟨hwn, hdn, hqn, hname, more, htokens, hreads⟩ := readSuffix_sound L hw hd hdot hs
    obtain ⟨hwf, hdf, hqf, more', htokens', hreads'⟩ := ih hwn hdn (by simp [hname]) h
    refine ⟨hwf, hdf, hqf.trans hqn, more ++ more', ?_, hreads.andThen hreads'⟩
    rw [htokens', htokens, List.append_assoc]

/-! ## Operands and expressions -/

/-- **An operand that was read**: its sign, and its value. -/
theorem readOperand_sound {inner : Option Inner} (L : Levels s n inner) {ctx : Context}
    {before : Option Text} {t rest : Text} {sign : Option Text} {value : Value}
    (h : readOperand s inner ctx before t = .ok ((sign, value), rest)) :
    SignFits sign value ∧ value.WellFormed s ∧ value.depth ≤ n ∧
      Reads t (signTokens sign ++ value.tokens) (Text.trimStart rest) := by
  obtain ⟨⟨token, r⟩, ht, hr⟩ := bind_eq_ok_iff.1 h
  have hnext := (next_of_needToken ht).1
  dsimp only at hr
  split at hr
  · next hsign =>
    obtain ⟨⟨first, r1⟩, hf, hr⟩ := bind_eq_ok_iff.1 hr
    dsimp only at hr
    split at hr
    · cases hr
    split at hr
    · cases hr
    next hquoted =>
    obtain ⟨⟨primary, r2⟩, hp, hr⟩ := bind_eq_ok_iff.1 hr
    obtain ⟨⟨value', r3⟩, hv, hr⟩ := bind_eq_ok_iff.1 hr
    cases hr
    have hfirst := (next_of_needToken hf).1
    obtain ⟨hwp, hdp, hqp, hdot, later, htokens, hreads⟩ := readPrimary_sound L hfirst hp
    obtain ⟨hwv, hdv, hqv, more, htokens', hreads'⟩ := readSuffixes_sound L hwp hdp hdot hv
    obtain ⟨hmem, hsigned⟩ := Token.sign_of_next hnext hsign
    refine ⟨?_, hwv, hdv, ?_⟩
    · rintro text ⟨⟩
      refine ⟨hmem, ?_⟩
      rw [hqv]
      by_cases hq : primary.startsQuoted = true
      · exact absurd (hqp hq) hquoted
      · simpa using hq
    · rw [htokens', htokens]
      change Reads t (signToken token.text :: first :: (later ++ more)) _
      rw [hsigned]
      exact .token hnext (.token hfirst (hreads.andThen hreads'))
  · obtain ⟨⟨primary, r2⟩, hp, hr⟩ := bind_eq_ok_iff.1 hr
    obtain ⟨⟨value', r3⟩, hv, hr⟩ := bind_eq_ok_iff.1 hr
    cases hr
    obtain ⟨hwp, hdp, -, hdot, later, htokens, hreads⟩ := readPrimary_sound L hnext hp
    obtain ⟨hwv, hdv, -, more, htokens', hreads'⟩ := readSuffixes_sound L hwp hdp hdot hv
    refine ⟨nofun, hwv, hdv, ?_⟩
    rw [htokens', htokens]
    exact .token hnext (hreads.andThen hreads')

/-- The end of an expression in its context. -/
theorem needEnd_eq_ok_iff {ctx : Context} {t rest : Text} :
    needEnd ctx t = .ok rest ↔
      Text.trimStart t = rest ∧ ∃ c r, rest = c :: r ∧ ctx.ends c = true := by
  unfold needEnd
  cases Text.trimStart t with
  | nil =>
    constructor
    · nofun
    · rintro ⟨rfl, c, r, hc, -⟩
      cases hc
  | cons d r =>
    by_cases hd : ctx.ends d = true
    · simp only [hd, if_true, Except.ok.injEq]
      constructor
      · rintro rfl
        exact ⟨rfl, d, r, rfl, hd⟩
      · exact fun h => h.1
    · simp only [hd]
      constructor
      · nofun
      · rintro ⟨rfl, c, r, hc, he⟩
        cases hc
        exact absurd he hd

/-- **The two branches of a ternary.** -/
theorem readBranches_sound {inner : Option Inner} (L : Levels s n inner) {ctx : Context}
    {t rest : Text} {yes no : Expr} (h : readBranches inner ctx t = .ok ((yes, no), rest)) :
    (yes.isPlain = true ∧ yes.WellFormed s ∧ yes.depth < n) ∧
      (no.isPlain = true ∧ no.WellFormed s ∧ no.depth < n) ∧
      Reads t (yes.tokens ++ Token.colon :: no.tokens) rest ∧
      ∃ c r, rest = c :: r ∧ ctx.ends c = true := by
  obtain ⟨⟨yes', r1⟩, h1, h⟩ := bind_eq_ok_iff.1 h
  obtain ⟨r2, h2, h⟩ := bind_eq_ok_iff.1 h
  obtain ⟨⟨no', r3⟩, h3, h⟩ := bind_eq_ok_iff.1 h
  obtain ⟨r4, h4, h⟩ := bind_eq_ok_iff.1 h
  cases h
  have hyes : Stands s n .yes t yes r1 := L.read_iff.1 h1
  have hno : Stands s n .no r2 no r3 := L.read_iff.1 h3
  obtain ⟨hrest, hends⟩ := needEnd_eq_ok_iff.1 h4
  rw [hno.reads.trimStart_rest] at hrest
  refine ⟨⟨hyes.plain rfl, hyes.wellFormed, hyes.depth⟩,
    ⟨hno.plain rfl, hno.wellFormed, hno.depth⟩, hyes.reads.append (.token ?_ (hrest ▸ hno.reads)),
    hends⟩
  rw [needChar_eq_ok_iff.1 h2, Token.next_colon]

/-- **The rest of an expression behind its first terms.** -/
theorem readTerms_sound {inner : Option Inner} (L : Levels s n inner) {ctx : Context}
    {terms : Terms} {t rest : Text} {e : Expr} (hw : terms.WellFormed s) (hd : terms.depth ≤ n)
    (h : readTerms s inner ctx terms t = .ok (e, rest)) :
    e.WellFormed s ∧ e.depth ≤ n ∧ (ctx.isBranch = true → e.isPlain = true) ∧
      (∃ c r, rest = c :: r ∧ ctx.ends c = true) ∧
      ∃ more, e.tokens = terms.tokens ++ more ∧ Reads t more rest := by
  fun_induction readTerms s inner ctx terms t with
  | case1 => cases h
  | case2 terms t c r ht hstop hends =>
    cases h
    exact ⟨hw, hd, fun _ => rfl, ⟨c, r, rfl, hends⟩, [], by simp [Expr.tokens], Reads.nil_iff.2 ht⟩
  | case3 => cases h
  | case4 => cases h
  | case5 => cases h
  | case6 terms t c r ht hstop token r1 hn hbin sign value r2 ho ih =>
    obtain ⟨hsign, hwv, hdv, hreads⟩ := readOperand_sound L ho
    have hd' : (terms.more token sign value).depth ≤ n := by
      simp only [Terms.depth]
      omega
    obtain ⟨hwf, hdf, hplain, hends, more, htokens, hmore⟩ := ih ⟨hw, hbin, hsign, hwv⟩ hd' h
    refine ⟨hwf, hdf, hplain, hends, token :: (signTokens sign ++ value.tokens ++ more), ?_,
      .token (ht ▸ hn) (hreads.andThen hmore)⟩
    rw [htokens, Terms.tokens]
    simp only [List.append_assoc, List.cons_append]
  | case7 => cases h
  | case8 terms t c r ht hstop token r1 hn hbin hq hbranch =>
    obtain ⟨⟨⟨yes, no⟩, r2⟩, hb, hr⟩ := bind_eq_ok_iff.1 h
    cases hr
    obtain ⟨⟨hpy, hwy, hdy⟩, ⟨hpn, hwn, hdn⟩, hreads, hends⟩ := readBranches_sound L hb
    have hd' : (Expr.ternary terms yes no).depth ≤ n := by
      simp only [Expr.depth]
      omega
    refine ⟨⟨hw, ⟨hpy, hwy⟩, hpn, hwn⟩, hd', fun hc => absurd hc hbranch, hends, _, rfl, ?_⟩
    refine .token ?_ hreads
    rw [ht, hn, Token.eq_question_of_next hn hq]
  | case9 => cases h

/-- **Soundness**: what is read in a context stands there. -/
theorem stands_of_readExpr {inner : Option Inner} (L : Levels s n inner) {ctx : Context}
    {t rest : Text} {e : Expr} (h : readExpr s inner ctx t = .ok (e, rest)) :
    Stands s (n + 1) ctx t e rest := by
  obtain ⟨⟨⟨sign, value⟩, r⟩, ho, hr⟩ := bind_eq_ok_iff.1 h
  obtain ⟨hsign, hwv, hdv, hreads⟩ := readOperand_sound L ho
  have hone : (Terms.one sign value).WellFormed s := ⟨hsign, hwv⟩
  obtain ⟨hw, hd, hplain, hends, more, htokens, hmore⟩ := readTerms_sound L hone hdv hr
  exact ⟨hw, Nat.lt_succ_of_le hd, hplain, htokens ▸ hreads.andThen hmore, hends⟩

end Stencil
