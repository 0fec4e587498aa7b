import Stencil.Proofs.Expr.Operand
import Stencil.Proofs.Expr.Registered

/-!
# Proofs/Expr/Splice — where the emitter goes back into its code

    … operator sign │ operand      ──. name──▸   … operator sign │ opener operand )-> name
                    ╰ mark                                       ╰ mark

    … front " + "                  ──"text"──▸   … front " . " "text"
            ╰ length − 3

The emitter goes back into the code that is written on two occasions only (`out_of_round`), each time
at a place that it took down earlier.  The opener of the wrapper is put in where the operand begins
that a method is called on, behind its sign (`Underway.encloses`), and a `+` in front of a quoted text
is turned into the joining of texts where it stands, at the end of the code
(`Takes.round_of_quoted`).  `marked_splices` says so of every round of every run, at every depth and
for every text.

Places are counted in characters.  They fall between characters, and each of the three that are turned
is one byte long.
-/

namespace Stencil

namespace Draft

variable {s : Scope} {nested : Option Nested} {ctx : Context} {d d' d₀ : Draft}
  {t u rest behind code written operand : Text} {n mark : Nat} {tokens : List Token} {token : Token}
  {name : Text}

/-! ## Tokens that are taken -/

/-- **A token that the next round takes**: it stands ahead and fits. -/
structure Takes (d : Draft) (t : Text) (token : Token) (rest : Text) : Prop where
  pending : d.pending = none
  goesOn : (Text.trimStart t).head?.any isStop = false
  next : Token.next (Text.trimStart t) = .ok (token, rest)
  fits : d.prev.clash? token (token.group d.prev.group?) = none

/-- The round is that of the token. -/
theorem Takes.round_eq (h : d.Takes t token rest) :
    d.round s nested ctx t =
      (d.start (token.group d.prev.group?)).emit s nested ctx token (token.group d.prev.group?) rest
        >>= fun found =>
          .ok (.more { found.1 with prev := .token token (token.group d.prev.group?) } found.2) := by
  obtain ⟨c, r, ht⟩ := Token.exists_cons_of_next h.next
  have hstop : isStop c = false := by simpa [ht] using h.goesOn
  have hnext := h.next
  rw [ht] at hnext
  rw [round, h.pending]
  simp only [ht, hstop, Bool.false_eq_true, if_false, hnext, bind, Except.bind]
  rw [take_of_fits rfl h.fits]
  simp only [bind, Except.bind]
  cases emit s nested ctx (d.start (token.group d.prev.group?)) token (token.group d.prev.group?) rest
    <;> rfl

/-! ## The opener of the wrapper -/

/-- **Where a name has the opener put in**: the draft in front of whose span it goes, and the code
that is written behind. -/
inductive Inserts (s : Scope) (d : Draft) (name rest : Text) : Draft → Text → Prop
  /-- A method of the value before it. -/
  | method (hmethod : d.methodNext = true)
      (hcall : Lookahead.of (Text.trimStart rest).head? = .call)
      (hregistered : s.registry.wrapper.contains name = true) :
      Inserts s d name rest d (")->" ++ name)
  /-- The last name of a chain that a method ends. -/
  | chain {chain : Chain} {target : Reference} (hmethod : d.methodNext = false)
      (hadd : d.chain.addName s name (.of (Text.trimStart rest).head?) = .ok (chain, some target))
      (hwrapped : target.isWrapped = true) :
      Inserts s d name rest { d with chain := chain } (target.tailCode s.registry)

/-- A name has the opener put in. -/
theorem emitName_of_inserts (h : d.Inserts s name rest d₀ code) :
    d.emitName s name rest =
      d₀.insertOpener s >>= fun d => .ok { d.write code with methodNext := false } := by
  cases h with
  | method hmethod hcall hregistered =>
    rw [emitName, if_pos hmethod, if_neg (not_not_intro hcall), hregistered]
    rfl
  | @chain chain target hmethod hadd hwrapped =>
    rw [emitName, if_neg (by simp [hmethod]), hadd]
    change emitTarget s { d with chain := chain } target = _
    rw [emitTarget, if_pos hwrapped]
    cases hspan : d.span with
    | none =>
      simp only [insertOpener]
      rfl
    | some n => simp only [insertOpener, bind, Except.bind, write, hmethod]

/-- **Any other name** leaves what is written as it is. -/
theorem out_of_emitName (h : d.emitName s name rest = .ok d')
    (hnone : ∀ d₀ code, ¬ d.Inserts s name rest d₀ code) : ∃ code, d'.out = d.out ++ code := by
  unfold emitName at h
  extract_lets ahead at h
  cases hmethod : d.methodNext with
  | true =>
    rw [if_pos hmethod] at h
    by_cases hcall : ahead = .call
    · rw [if_neg (not_not_intro hcall)] at h
      cases hregistered : s.registry.wrapper.contains name with
      | true => exact absurd (.method hmethod hcall hregistered) (hnone _ _)
      | false =>
        rw [hregistered] at h
        cases h
    · rw [if_pos hcall] at h
      cases h
  | false =>
    rw [if_neg (by simp [hmethod])] at h
    obtain ⟨⟨chain, found⟩, hadd, h⟩ := bind_eq_ok_iff.1 h
    cases found with
    | none =>
      cases h
      exact ⟨[], (List.append_nil _).symm⟩
    | some target =>
      cases hwrapped : target.isWrapped with
      | true => exact absurd (.chain hmethod hadd hwrapped) (hnone _ _)
      | false =>
        change emitTarget s { d with chain := chain } target = _ at h
        rw [emitTarget, hwrapped] at h
        cases h
        exact ⟨_, rfl⟩

/-- The code behind a round that puts the opener in. -/
theorem Takes.round_of_inserts (h : d.Takes u token rest) (hname : token.kind = .name)
    (hinserts : (d.start .operand).Inserts s token.text rest d₀ code) (hspans : d₀.Spans mark written) :
    ∃ d', d.round s nested ctx u = .ok (.more d' rest) ∧
      d'.out = d₀.out.take mark ++ s.registry.wrapper.opening ++ written ++ code := by
  obtain ⟨kind, text⟩ := token
  obtain rfl : kind = .name := hname
  obtain ⟨hspan, front, hlength, hout⟩ := hspans
  rw [h.round_eq]
  change ∃ d', (before rest ((d.start .operand).emitName s text rest) >>= _) = _ ∧ _
  rw [emitName_of_inserts hinserts, insertOpener_of_span hspan]
  refine ⟨_, rfl, ?_⟩
  change d₀.out.take mark ++ _ ++ d₀.out.drop mark ++ code = _
  rw [hout, ← hlength, List.drop_left]

/-! ## The joining of texts -/

/-- **A quoted text behind a binary `+`** finds that `+` at the end of the code, and turns nothing
else. -/
theorem Takes.round_of_quoted (h : d.Takes u token rest) (hquoted : token.kind = .quoted)
    (hplus : d.PlusStands) (hkind : d.prev.kind? = some .plus)
    (hgroup : d.prev.group? = some .operator) :
    ∃ front,
      (d.plusAt = none ∧ d.out = front ++ " . " ∨
        d.plusAt = some (d.out.length - 3) ∧ d.out = front ++ " + ") ∧
      ∃ d', d.round s nested ctx u = .ok (.more d' rest) ∧
        d'.out = front ++ " . " ++ quotedCode token.text := by
  obtain ⟨kind, text⟩ := token
  obtain rfl : kind = .quoted := hquoted
  obtain ⟨front, hends, hjoined⟩ := hplus.joined hkind hgroup
  refine ⟨front, ?_, ?_⟩
  · rcases hends with hends | ⟨hat, hout⟩
    · exact .inl hends
    · refine .inr ⟨?_, hout⟩
      rw [hat, hout, List.length_append]
      rfl
  · rw [h.round_eq]
    exact ⟨_, rfl, congrArg (· ++ quotedCode text) hjoined⟩

/-! ## Nowhere else -/

theorem out_of_nest (h : (d.write code).nest nested ctx t = .ok (d', rest)) :
    ∃ code, d'.out = d.out ++ code := by
  obtain ⟨level, -, out, -, rfl⟩ := nest_cases h
  exact ⟨code ++ out, List.append_assoc _ _ _⟩

/-- What follows a part of a group comes behind what is written. -/
theorem out_of_closeOrContinue {group : Context}
    (h : d.closeOrContinue nested group t = .ok (d', rest)) : ∃ code, d'.out = d.out ++ code := by
  obtain ⟨c, r, -, ⟨bracket, -, rfl, -⟩ | ⟨d₁, -, hnest, rfl⟩ | ⟨next, -, -, hnest⟩⟩ :=
    closeOrContinue_cases h
  · exact ⟨bracket.closeCode, rfl⟩
  · obtain ⟨code, hout⟩ := out_of_nest hnest
    refine ⟨code ++ ")", ?_⟩
    change d₁.out ++ ")" = _
    rw [hout, List.append_assoc]
  · exact out_of_nest hnest

theorem eq_ok_of_before {α : Type} {x : Except Fault α} {a : α} (h : before t x = .ok (a, rest)) :
    x = .ok a := by
  cases x with
  | error fault => cases h
  | ok b =>
    cases h
    rfl

theorem out_of_emitDots {run : Text} (h : d.emitDots run = .ok d') : d'.out = d.out := by
  unfold emitDots at h
  split at h
  · split at h
    · cases h
    · cases h
      rfl
  · obtain ⟨chain, -, heq⟩ := bind_eq_ok_iff.1 h
    cases heq
    rfl

/-- What a token writes, one case for each kind. -/
theorem out_of_emit {group : Token.Group}
    (h : d.emit s nested ctx token group t = .ok (d', rest)) :
    (∃ code, d'.out = d.out ++ code) ∨
      token.kind = .name ∧ (∃ d₀ code, d.Inserts s token.text t d₀ code) ∨
      token.kind = .quoted ∧ d.prev.kind? = some .plus ∧ d.prev.group? = some .operator := by
  obtain ⟨kind, text⟩ := token
  cases kind with
  | name =>
    by_cases hinserts : ∃ d₀ code, d.Inserts s text t d₀ code
    · exact .inr (.inl ⟨rfl, hinserts⟩)
    · exact .inl (out_of_emitName (eq_ok_of_before h) fun d₀ code hinsert =>
        hinserts ⟨d₀, code, hinsert⟩)
  | dots => exact .inl ⟨[], (out_of_emitDots (eq_ok_of_before h)).trans (List.append_nil _).symm⟩
  | quoted =>
    by_cases hplus : d.prev.kind? = some .plus ∧ d.prev.group? = some .operator
    · exact .inr (.inr ⟨rfl, hplus⟩)
    · cases h
      exact .inl ⟨quotedCode text, congrArg (· ++ quotedCode text) (if_neg hplus)⟩
  | number | unary | comparison | logic | elvis | arithmetic =>
    cases h
    exact .inl ⟨_, rfl⟩
  | plus | minus =>
    simp only [emit] at h
    repeat' split at h
    all_goals
      cases h
      exact .inl ⟨_, rfl⟩
  | opening bracket =>
    simp only [emit] at h
    cases hopens : d.prev.opens bracket with
    | error fault =>
      rw [hopens] at h
      cases h
    | ok inner =>
      rw [hopens] at h
      exact .inl (out_of_nest h)
  | question =>
    simp only [emit] at h
    split at h
    · cases h
    · exact .inl (out_of_nest h)
  | crement | colon | comma | closing | space => cases h

/-- **A round adds to what is written, but for the two occasions**: a name that has the opener put in,
and a quoted text behind a binary `+`. -/
theorem out_of_round (h : d.round s nested ctx u = .ok (.more d' rest)) :
    (∃ code, d'.out = d.out ++ code) ∨
      ∃ token t, d.Takes u token t ∧
        (token.kind = .name ∧ (∃ d₀ code, (d.start .operand).Inserts s token.text t d₀ code) ∨
          token.kind = .quoted ∧ d.prev.kind? = some .plus ∧ d.prev.group? = some .operator) := by
  rcases round_cases h with ⟨group, -, hclose⟩ | ⟨hpending, c, r, token, t, ht, hstop, hnext, htake⟩
  · exact .inl (out_of_closeOrContinue hclose)
  obtain ⟨hclash, d₁, hemit, rfl⟩ := take_cases htake
  refine (out_of_emit hemit).imp_right fun hback =>
    ⟨token, t, ⟨hpending, by simp [ht, hstop], ht ▸ hnext, hclash⟩, hback.imp_left ?_⟩
  rintro ⟨hname, hinserts⟩
  have hgroup : token.group d.prev.group? = .operand := by simp [Token.group, hname]
  exact ⟨hname, hgroup ▸ hinserts⟩

/-! ## Operands -/

/-- **What a method is called on**: the tokens between the mark and the name of the method, the code
that is written for them, and the code of the whole operand.  A value is written when the method comes.
A chain is written at its end only, and then the names in front of the method are its operand. -/
inductive Encloses (s : Scope) (method : Text) : List Token → Text → Text → Prop
  | value {v : Value} (hv : v.WellFormed s) :
      Encloses s method (v.tokens ++ [Token.dot]) (v.code s.registry) (v.code s.registry)
  | chain {c : Chain} {called : Bool} {root : Root} {keys names : List Text} {tokens : List Token}
      (hdenotes : c.Denotes s called (.wrapped root keys method))
      (hnames : c.names = names ++ keys ++ [method]) (hroot : root.SpelledBy names)
      (htokens : c.tokens = tokens ++ [Token.named method]) :
      Encloses s method tokens [] ((Reference.value root keys).code s.registry)

/-- A name that ends a chain with a method. -/
theorem Awaits.encloses (h : Awaits n tokens d)
    (hinserts : (d.start .operand).Inserts s name rest d₀ code) :
    ∃ written operand, Encloses s name tokens written operand ∧ d₀.Spans n written ∧
      written ++ code = operand ++ (")->" ++ name) := by
  cases hinserts with
  | method hmethod => cases h.methodNext.symm.trans hmethod
  | @chain chain target hmethod hadd hwrapped =>
    obtain ⟨-, rfl, hdenotes⟩ := denotes_of_addName h.avoids hadd
    cases target with
    | wrapped root keys method =>
      obtain ⟨names, haccount⟩ := hdenotes.account
      have hnames : d.chain.names ++ [name] = names ++ keys ++ [method] := haccount.names
      obtain rfl : name = method :=
        List.cons.inj (List.append_inj_right' hnames rfl) |>.1
      have hspan : d.spanAfter .operand = some d.out.length := h.spanAfter rfl
      refine ⟨[], _, .chain hdenotes haccount.names haccount.spelled (h.chain_tokens name), ?_, ?_⟩
      · exact ⟨hspan.trans (congrArg some h.length), d.out, h.length, (List.append_nil _).symm⟩
      · change root.code ++ indexCode keys ++ ")->" ++ name =
          root.code ++ indexCode keys ++ (")->" ++ name)
        exact List.append_assoc _ _ _
    | _ => cases hwrapped

/-- **The span that the opener goes in front of is a whole operand**, which begins at the mark. -/
theorem Underway.encloses (h : Underway s n behind d u) (htakes : d.Takes u token rest)
    (hname : token.kind = .name)
    (hinserts : (d.start .operand).Inserts s token.text rest d₀ code) :
    ∃ tokens written operand, Reads behind tokens (Text.trimStart u) ∧
      Encloses s token.text tokens written operand ∧ d₀.Spans n written ∧
      written ++ code = operand ++ (")->" ++ token.text) := by
  rcases h with hyes | ⟨tokens, hreads, hoperand⟩
  · rcases hyes with hyes | ⟨-, -, c, r, ht, hstop⟩
    · cases htakes.pending.symm.trans hyes
    · have hgoesOn := htakes.goesOn
      rw [ht] at hgoesOn
      cases hstop.symm.trans hgoesOn
  have hnext := htakes.next
  cases hoperand with
  | fresh h hlength =>
    subst hlength
    exact ⟨[], (h.awaits.encloses hinserts).imp fun _ => .imp fun _ h => ⟨hreads, h⟩⟩
  | awaits h => exact ⟨tokens, (h.encloses hinserts).imp fun _ => .imp fun _ h => ⟨hreads, h⟩⟩
  | named h =>
    obtain ⟨r, ht⟩ := List.head?_eq_some_iff.1 h.ahead
    rw [ht, Token.next_dots] at hnext
    cases hnext
    cases hname
  | called h =>
    obtain ⟨r, ht⟩ := List.head?_eq_some_iff.1 h.ahead
    cases hnext.symm.trans ((congrArg Token.next ht).trans (Token.next_opener .paren r))
    cases hname
  | @whole v _ _ h =>
    have hclash := htakes.fits
    rw [h.prev, v.last_misfits (by simp [hname]) (.inl (by simp [Token.group, hname]))] at hclash
    cases hclash
  | @method v _ _ h =>
    cases hinserts with
    | method => exact ⟨_, _, _, hreads, .value h.wellFormed, h.toSpans.start (by decide), rfl⟩
    | chain hmethod => cases h.methodNext.symm.trans hmethod
  | opened h => cases htakes.pending.symm.trans h.pending

/-! ## Splices -/

/-- **Wherever the emitter goes back into its code, the place is right.**  Take any round of a run, at
any depth, and the mark of its operand, which every draft of a run has (`Reached.exists_marked`).

A name that has the opener of the wrapper put in finds the span to begin at the mark, the tokens behind
the mark to be those of a whole operand, and the opener in front of the code of that operand, which the
call of the method follows.

A quoted text behind a binary `+` finds the joining of texts at the end of the code, or a ` + ` there
whose place is the one that is kept, and only that ` + ` is turned. -/
theorem marked_splices (h : Marked s (nestedEmitter s n) ctx t mark behind d u)
    (htakes : d.Takes u token rest) :
    (∀ d₀ code, token.kind = .name → (d.start .operand).Inserts s token.text rest d₀ code →
      ∃ tokens written operand, Reads behind tokens (Text.trimStart u) ∧
        Encloses s token.text tokens written operand ∧ d₀.Spans mark written ∧
        ∃ d', d.round s (nestedEmitter s n) ctx u = .ok (.more d' rest) ∧
          d'.out = d₀.out.take mark ++ s.registry.wrapper.opening ++ operand ++
            (")->" ++ token.text)) ∧
      (token.kind = .quoted → d.prev.kind? = some .plus → d.prev.group? = some .operator →
        ∃ front,
          (d.plusAt = none ∧ d.out = front ++ " . " ∨
            d.plusAt = some (d.out.length - 3) ∧ d.out = front ++ " + ") ∧
          ∃ d', d.round s (nestedEmitter s n) ctx u = .ok (.more d' rest) ∧
            d'.out = front ++ " . " ++ quotedCode token.text) := by
  refine ⟨fun d₀ code hname hinserts => ?_, fun hquoted hkind hgroup => ?_⟩
  · obtain ⟨tokens, written, operand, hreads, hencloses, hspans, hcode⟩ :=
      (h.underway (nestedEmitter_writes s n)).encloses htakes hname hinserts
    obtain ⟨d', hround, hout⟩ := htakes.round_of_inserts hname hinserts hspans
    refine ⟨tokens, written, operand, hreads, hencloses, hspans, d', hround, hout.trans ?_⟩
    rw [List.append_assoc _ written, hcode, ← List.append_assoc]
  · exact htakes.round_of_quoted hquoted h.plusStands hkind hgroup

/-- A number and a text are joined, and then a method is called on the text. -/
theorem marked_splices_text_method :
    (∃ d d' : Draft, d.plusAt = some (d.out.length - 3) ∧ d.out = ("1 + " : Text) ∧
      d.round ⟨.standard, 0⟩ none .tag ("\"x\".esc()]" : Text) =
        .ok (.more d' (".esc()]" : Text)) ∧
      d'.out = ("1 . \"x\"" : Text)) ∧
    ∃ d d' : Draft,
      (∃ tokens written operand, Reads ("\"x\".esc()]" : Text) tokens ("esc()]" : Text) ∧
        Encloses ⟨.standard, 0⟩ "esc" tokens written operand ∧ d.Spans 4 written) ∧
      d.round ⟨.standard, 0⟩ none .tag ("esc()]" : Text) = .ok (.more d' ("()]" : Text)) ∧
      d'.out = ("1 . \\TplValWrapper::o(\"x\")->esc" : Text) := by
  have hnumber : Marked ⟨.standard, 0⟩ none .tag ("1+\"x\".esc()]" : Text) 0
      ("1+\"x\".esc()]" : Text)
      { prev := .token ⟨.number, "1"⟩ .operand, out := "1", started := true, span := some 0 }
      ("+\"x\".esc()]" : Text) := Marked.start.inside rfl rfl
  have hplus : Marked ⟨.standard, 0⟩ none .tag ("1+\"x\".esc()]" : Text) 4
      ("\"x\".esc()]" : Text)
      { prev := .token ⟨.plus, "+"⟩ .operator, out := "1 + ", started := true, plusAt := some 1 }
      ("\"x\".esc()]" : Text) := hnumber.leads rfl rfl
  have htext : Marked ⟨.standard, 0⟩ none .tag ("1+\"x\".esc()]" : Text) 4
      ("\"x\".esc()]" : Text)
      { prev := .token ⟨.quoted, "\"x\""⟩ .operand, out := "1 . \"x\"", started := true,
        span := some 4, plusAt := some 1 }
      (".esc()]" : Text) := hplus.inside rfl rfl
  have hdot : Marked ⟨.standard, 0⟩ none .tag ("1+\"x\".esc()]" : Text) 4
      ("\"x\".esc()]" : Text)
      { prev := .token Token.dot .dot, out := "1 . \"x\"", started := true,
        span := some 4, plusAt := some 1, methodNext := true }
      ("esc()]" : Text) := htext.inside rfl rfl
  constructor
  · obtain ⟨front, hends, d', hround, hout⟩ :=
      (marked_splices (n := 0) hplus ⟨rfl, rfl, rfl, rfl⟩).2 rfl rfl rfl
    have hfront : front = ("1" : Text) := by
      rcases hends with ⟨hat, -⟩ | ⟨-, hends⟩
      · cases hat
      · exact (List.append_inj_left' hends rfl).symm
    exact ⟨_, d', rfl, rfl, hround, by rw [hout, hfront]; rfl⟩
  · obtain ⟨tokens, written, operand, hreads, hencloses, hspans, d', hround, -⟩ :=
      (marked_splices (n := 0) hdot ⟨rfl, rfl, rfl, rfl⟩).1 _ _ rfl
        (.method rfl rfl rfl)
    exact ⟨_, d', ⟨tokens, written, operand, hreads, hencloses, hspans⟩, hround,
      by cases hround; rfl⟩

end Draft

end Stencil
