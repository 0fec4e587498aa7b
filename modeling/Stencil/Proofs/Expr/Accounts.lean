import Stencil.Proofs.Expr.Named

/-!
# Proofs/Expr/Accounts — where a line feed in a message comes from

    w = what was read ++ text ahead
        └ named texts    └ preview

A reader that cannot go on tells a fault and the text ahead.  The texts that the fault names were
read before that text, or they are what is ahead itself, in a preview, or the owner of an adapter
(`Accounted`).  It goes along with sequencing (`Accounts.bind`) and with longer texts
(`Accounts.mono`), so each reader has it from those it calls.  What a reader is told about the text
before its own (the last text of a value, the operator in front) is a hypothesis of its lemma.
-/

namespace Stencil

/-! ## Faults that are accounted for -/

/-- **Where a line feed that a fault names comes from**: the preview is what is ahead, and all else
stands in the part of `w` that was read, unless it is the owner of an adapter. -/
structure Accounted (r : Registry) (w : Text) (stuck : Stuck) : Prop where
  owner : stuck.fault.OwnedBy r
  preview : stuck.fault.code = .noToken →
    stuck.fault = .noToken (stuck.rest.take Token.previewLength)
  named : stuck.fault.code ≠ .noToken →
    ∀ t ∈ stuck.fault.named, '\n' ∈ t → BrokenBefore w stuck.rest

theorem Fault.Plain.accounted {r : Registry} {f : Fault} (h : f.Plain r) (w rest : Text) :
    Accounted r w ⟨f, rest⟩ :=
  ⟨h.owner, fun hcode => absurd hcode (beq_eq_false_iff_ne.1 h.preview),
    fun _ t ht hfeed => absurd hfeed (h.named t ht)⟩

/-- A text that is not expected, made of what was read. -/
theorem accounted_unexpected (r : Registry) {w rest found : Text}
    (h : '\n' ∈ found → BrokenBefore w rest) : Accounted r w ⟨.unexpected found, rest⟩ :=
  ⟨trivial, nofun, fun _ _ ht hfeed => h (List.mem_singleton.1 ht ▸ hfeed)⟩

theorem accounted_misfit (r : Registry) {w rest : Text} {before : Option Text} {token : Token}
    (hbefore : ∀ last ∈ before, '\n' ∈ last → BrokenBefore w rest)
    (htoken : '\n' ∈ token.text → BrokenBefore w rest) :
    Accounted r w ⟨misfit before token, rest⟩ := by
  unfold misfit
  split
  · exact accounted_unexpected r htoken
  · next last =>
    refine accounted_unexpected r fun hfeed => ?_
    rcases List.mem_append.1 hfeed with hfeed | hfeed
    · rcases List.mem_append.1 hfeed with hfeed | hfeed
      · exact hbefore last rfl hfeed
      · exact absurd hfeed (by decide)
    · exact htoken hfeed

/-- **A reader that accounts for its faults** in a whole text. -/
def Accounts {α : Type} (r : Registry) (w : Text) (x : Except Stuck α) : Prop :=
  ∀ stuck, x = .error stuck → Accounted r w stuck

namespace Accounts

variable {α β : Type} {r : Registry} {w : Text}

theorem ok (a : α) : Accounts r w (.ok a) := nofun

theorem error {stuck : Stuck} (h : Accounted r w stuck) :
    Accounts r w (.error stuck : Except Stuck α) := by
  rintro _ ⟨⟩
  exact h

theorem plain {fault : Fault} (rest : Text) (h : fault.Plain r) :
    Accounts r w (.error ⟨fault, rest⟩ : Except Stuck α) := .error (h.accounted w rest)

theorem mono {u : Text} {x : Except Stuck α} (h : Accounts r u x) (hu : u <:+ w) :
    Accounts r w x := fun stuck hstuck =>
  ⟨(h stuck hstuck).owner, (h stuck hstuck).preview,
    fun hcode t ht hfeed => ((h stuck hstuck).named hcode t ht hfeed).mono hu⟩

/-- A sequence accounts for its faults if its steps do. -/
theorem bind {x : Except Stuck α} {f : α → Except Stuck β} (hx : Accounts r w x)
    (hf : ∀ a, x = .ok a → Accounts r w (f a)) : Accounts r w (x >>= f) := by
  cases x with
  | error stuck =>
    rintro _ ⟨⟩
    exact hx stuck rfl
  | ok a => exact hf a rfl

/-- An error that is passed on. -/
theorem pass {x : Except Stuck α} {stuck : Stuck} (hx : Accounts r w x) (h : x = .error stuck) :
    Accounts r w (.error stuck : Except Stuck β) := .error (hx stuck h)

end Accounts

/-! ## Readers -/

section Readers

variable {r : Registry} {s : Scope} {inner : Option Inner} {ctx : Context}

/-- What stands behind the blanks is no line feed. -/
theorem ne_feed_of_trimStart {c : Char} {t rest : Text} (h : Text.trimStart t = c :: rest) :
    c ≠ '\n' := by
  rintro rfl
  cases Text.isBlank_head_trimStart h

theorem next_accounts (t : Text) : Accounts r t (Token.next t) := by
  unfold Token.next
  split
  · exact .plain _ (.of_nil rfl rfl trivial)
  · split
    · exact .ok _
    · exact .error ⟨trivial, fun _ => rfl, fun hcode => absurd rfl hcode⟩

theorem needToken_accounts {before : Option Text} (hbefore : ∀ last ∈ before, '\n' ∉ last)
    (t : Text) : Accounts r t (needToken ctx before t) := by
  unfold needToken
  split
  · exact .plain _ (.of_nil rfl rfl trivial)
  next c rest hc =>
  have hfeed : c ≠ '\n' := ne_feed_of_trimStart hc
  have hone : '\n' ∉ [c] := by simpa using hfeed.symm
  split
  · split
    · split
      · exact .plain _ (.of_one hone rfl rfl trivial)
      · exact .plain _ (.of_one (hbefore _ rfl) rfl rfl trivial)
    · exact .plain _ (ctx.misplaced_plain hfeed)
  · split
    · next hnext => exact ((next_accounts _).mono (hc ▸ Text.trimStart_suffix t)).pass hnext
    · split
      · exact .plain _ (.of_nil rfl rfl trivial)
      · exact .ok _

theorem needName_accounts (t : Text) : Accounts r t (needName ctx t) := by
  have hdot : ∀ last ∈ (some "." : Option Text), '\n' ∉ last := by
    rintro _ ⟨⟩
    decide
  refine (needToken_accounts hdot t).bind fun ⟨token, rest⟩ htoken => ?_
  dsimp only
  split
  · exact .ok _
  · exact .error (accounted_misfit r (fun last hlast hfeed => absurd hfeed (hdot last hlast))
      (brokenBefore_of_needToken htoken))

theorem readChain_accounts {chain : Chain} {name : Text} (hchain : chain.OneLine)
    (hname : '\n' ∉ name) (t : Text) :
    Accounts s.registry t (readChain s ctx chain name t) := by
  fun_induction readChain s ctx chain name t with
  | case1 => exact .plain _ (.of_one hname rfl rfl trivial)
  | case2 => exact .plain _ (.of_one hname rfl rfl trivial)
  | case3 => exact .ok _
  | case4 chain name t _ full _ _ r ht run =>
    refine .error (accounted_unexpected _ fun hfeed => ?_)
    have hrun : '\n' ∉ run := by
      intro hmem
      rcases List.mem_cons.1 hmem with hdot | hmem
      · cases hdot
      · exact Token.not_mem_takeWhile (by decide) r hmem
    rcases List.mem_append.1 hfeed with hfeed | hfeed
    · exact absurd hfeed (hchain.push hname).raw
    · exact absurd hfeed hrun
  | case5 chain name t _ _ _ r ht _ rest _ stuck hneed =>
    have hrest := (List.dropWhile_suffix (· == '.')).trans (Shorter.of_trimStart ht).1
    exact ((needName_accounts _).mono hrest).pass hneed
  | case6 chain name t _ _ _ _ r ht run rest' _ next rest hneed ih =>
    have hrest := (List.dropWhile_suffix (· == '.')).trans (Shorter.of_trimStart ht).1
    exact (ih (hchain.push hname) (feed_not_mem_of_needName hneed)).mono
      ((needName_shorter hneed).1.trans hrest)
  | case7 chain name t _ _ _ _ _ hfault =>
    exact .plain _ (Chain.plain_of_resolve (hchain.push hname) hfault)
  | case8 => exact .ok _

theorem oneLine_of_readChain {chain chain' : Chain} {name t rest : Text} {target : Reference}
    {called : Bool} (hchain : chain.OneLine) (hname : '\n' ∉ name)
    (h : readChain s ctx chain name t = .ok ((chain', target, called), rest)) :
    chain'.OneLine := by
  fun_induction readChain s ctx chain name t with
  | case1 => cases h
  | case2 => cases h
  | case3 =>
    obtain ⟨rfl, -⟩ := Prod.mk.inj (Prod.mk.inj (Except.ok.inj h)).1
    exact hchain.push hname
  | case4 => cases h
  | case5 => cases h
  | case6 chain name t _ _ _ _ r ht run rest' _ next rest'' hneed ih =>
    exact ih (hchain.push hname) (feed_not_mem_of_needName hneed) h
  | case7 => cases h
  | case8 =>
    obtain ⟨rfl, -⟩ := Prod.mk.inj (Prod.mk.inj (Except.ok.inj h)).1
    exact hchain.push hname

theorem needChar_accounts (c : Char) (t : Text) : Accounts r t (needChar ctx c t) := by
  unfold needChar
  split
  · exact .plain _ (.of_nil rfl rfl trivial)
  next d rest hd =>
  split
  · exact .ok _
  · exact .plain _ (ctx.misplaced_plain (ne_feed_of_trimStart hd))

theorem needEnd_accounts (t : Text) : Accounts r t (needEnd ctx t) := by
  unfold needEnd
  split
  · exact .plain _ (.of_nil rfl rfl trivial)
  next c rest hc =>
  split
  · exact .ok _
  · exact .plain _ (ctx.misplaced_plain (ne_feed_of_trimStart hc))

/-- **The readers one level down account for their faults.** -/
def InnerAccounts (r : Registry) (inner : Option Inner) : Prop :=
  ∀ reader ∈ inner, ∀ ctx t, Accounts r t (reader.read ctx t)

theorem readInner_accounts (hinner : InnerAccounts r inner) (t : Text) :
    Accounts r t (readInner inner ctx t) := by
  unfold readInner
  split
  · exact .plain _ (.of_nil rfl rfl trivial)
  · exact hinner _ rfl ctx t

theorem readSingle_accounts (hinner : InnerAccounts r inner) (bracket : Bracket) (t : Text) :
    Accounts r t (readSingle inner ctx bracket t) := by
  refine (readInner_accounts hinner t).bind fun ⟨e, rest⟩ he => ?_
  refine ((needChar_accounts _ rest).mono (readInner_shorter he).1).bind fun _ _ => ?_
  exact .ok _

theorem readParts_accounts {reader : Inner} (hreader : ∀ ctx t, Accounts r t (reader.read ctx t))
    (bracket : Bracket) (items : Items) (t : Text) :
    Accounts r t (readParts reader bracket ctx items t) := by
  fun_induction readParts reader bracket ctx items t with
  | case1 => exact .plain _ (.of_nil rfl rfl trivial)
  | case2 => exact .ok _
  | case3 ctx items t c rest ht =>
    refine .plain _ (.of_one ?_ rfl rfl trivial)
    simpa using (ne_feed_of_trimStart ht).symm
  | case4 ctx items t c rest ht _ _ next _ stuck hstuck =>
    exact ((hreader next rest).mono (Shorter.of_trimStart ht).1).pass hstuck
  | case5 ctx items t c rest ht _ _ next _ e rest' he ih =>
    exact ih.mono ((reader.shorter he).trans (Shorter.of_trimStart ht)).1
  | case6 ctx items t c rest ht => exact .plain _ (ctx.misplaced_plain (ne_feed_of_trimStart ht))

theorem readGroup_accounts (hinner : InnerAccounts r inner) (bracket : Bracket) (t : Text) :
    Accounts r t (readGroup inner bracket ctx t) := by
  unfold readGroup
  split
  · exact .plain _ (.of_nil rfl rfl trivial)
  next reader =>
  have hreader := hinner reader rfl
  split
  · split
    · exact .ok _
    split
    · next hstuck => exact (hreader ctx t).pass hstuck
    · next he => exact (readParts_accounts hreader bracket _ _).mono (reader.shorter he).1
  · exact .plain _ (.of_nil rfl rfl trivial)

theorem readNamed_accounts (hinner : InnerAccounts s.registry inner) {chain : Chain} {name : Text}
    (hchain : chain.OneLine) (hname : '\n' ∉ name) (t : Text) :
    Accounts s.registry t (readNamed s inner ctx chain name t) := by
  refine (readChain_accounts hchain hname t).bind fun ⟨⟨chain', target, called⟩, rest⟩ hread => ?_
  have hrest := readChain_suffix hread
  dsimp only
  split
  · refine ((needChar_accounts '(' rest).mono hrest).bind fun rest' hchar => ?_
    refine ((readGroup_accounts hinner _ rest').mono ?_).bind fun _ _ => .ok _
    exact (needChar_shorter hchar).1.trans hrest
  · exact .ok _

/-- A value that is a chain or a call ends in a name or in a bracket. -/
theorem lastText_of_readNamed {chain : Chain} {name t rest : Text} {value : Value}
    (hchain : chain.OneLine) (hname : '\n' ∉ name)
    (h : readNamed s inner ctx chain name t = .ok (value, rest)) : '\n' ∉ value.lastText := by
  obtain ⟨⟨⟨chain', target, called⟩, rest'⟩, hread, hr⟩ := bind_eq_ok_iff.1 h
  dsimp only at hr
  split at hr
  · obtain ⟨_, -, hr⟩ := bind_eq_ok_iff.1 hr
    obtain ⟨_, -, hr⟩ := bind_eq_ok_iff.1 hr
    cases hr
    exact (by decide : '\n' ∉ (")" : Text))
  · cases hr
    change '\n' ∉ chain'.names.getLast?.getD []
    cases hlast : chain'.names.getLast? with
    | none => exact List.not_mem_nil
    | some last => exact oneLine_of_readChain hchain hname hread last (List.mem_of_getLast? hlast)

theorem feed_not_mem_closer (bracket : Bracket) : '\n' ∉ [bracket.closer] := by
  cases bracket <;> decide

/-- A chain of which nothing was read yet. -/
theorem oneLine_start (depth : Nat) : Chain.OneLine ⟨depth, []⟩ := nofun

section Value

variable {w : Text} {before : Option Text} {token : Token} {t : Text}

theorem readPrimary_accounts (hinner : InnerAccounts s.registry inner) (ht : t <:+ w)
    (hbefore : ∀ last ∈ before, '\n' ∉ last) (htoken : '\n' ∈ token.text → BrokenBefore w t)
    (hkind : token.kind ≠ .quoted → '\n' ∉ token.text) :
    Accounts s.registry w (readPrimary s inner ctx before token t) := by
  unfold readPrimary
  split
  · exact .ok _
  · exact .ok _
  · next hk =>
    exact (readNamed_accounts hinner (oneLine_start 0) (hkind (by rw [hk]; nofun)) t).mono ht
  · next hk =>
    have hdots : ∀ last ∈ some token.text, '\n' ∉ last := by
      rintro _ ⟨⟩
      exact hkind (by rw [hk]; nofun)
    refine ((needToken_accounts hdots t).mono ht).bind fun ⟨token', rest⟩ hneed => ?_
    have hrest := (needToken_shorter hneed).1.trans ht
    dsimp only
    split
    · next hname =>
      exact (readNamed_accounts hinner (oneLine_start _)
        (feed_not_mem_of_needToken hneed (by rw [hname]; nofun)) rest).mono hrest
    · exact .error (accounted_misfit _ (fun last hlast hfeed => absurd hfeed (hdots last hlast))
        fun hfeed => (brokenBefore_of_needToken hneed hfeed).mono ht)
  · exact ((readSingle_accounts hinner _ t).mono ht).bind fun _ _ => .ok _
  · exact ((readGroup_accounts hinner _ t).mono ht).bind fun _ _ => .ok _
  · exact .error (accounted_misfit _ (fun last hlast hfeed => absurd hfeed (hbefore last hlast))
      htoken)

/-- **A value ends in a line feed's text only if it is a quoted text**, which was read. -/
theorem lastText_of_readPrimary {rest : Text} {value : Value}
    (htoken : '\n' ∈ token.text → BrokenBefore w t)
    (hkind : token.kind ≠ .quoted → '\n' ∉ token.text)
    (h : readPrimary s inner ctx before token t = .ok (value, rest))
    (hfeed : '\n' ∈ value.lastText) : BrokenBefore w rest := by
  unfold readPrimary at h
  split at h
  · cases h
    exact htoken hfeed
  · cases h
    exact htoken hfeed
  · next hk =>
    exact absurd hfeed (lastText_of_readNamed (oneLine_start 0) (hkind (by rw [hk]; nofun)) h)
  · obtain ⟨⟨token', rest'⟩, hneed, hr⟩ := bind_eq_ok_iff.1 h
    dsimp only at hr
    split at hr
    · next hname =>
      exact absurd hfeed (lastText_of_readNamed (oneLine_start _)
        (feed_not_mem_of_needToken hneed (by rw [hname]; nofun)) hr)
    · cases hr
  · obtain ⟨_, -, hr⟩ := bind_eq_ok_iff.1 h
    cases hr
    exact absurd hfeed (by decide : '\n' ∉ (")" : Text))
  · obtain ⟨_, -, hr⟩ := bind_eq_ok_iff.1 h
    cases hr
    exact absurd hfeed (feed_not_mem_closer _)
  · cases h

theorem readSuffix_accounts (hinner : InnerAccounts s.registry inner) (ht : t <:+ w)
    {value : Value} (hvalue : '\n' ∈ value.lastText → BrokenBefore w t) :
    Accounts s.registry w (readSuffix s inner ctx value t) := by
  unfold readSuffix
  split
  · exact .ok _
  next c rest hc =>
  have hrest : c :: rest <:+ t := hc ▸ Text.trimStart_suffix t
  split
  · exact .ok _
  refine ((next_accounts _).mono (hrest.trans ht)).bind fun ⟨token, rest'⟩ hnext => ?_
  have hrest' : rest' <:+ t := (Token.suffix_of_next hnext).trans hrest
  have hblank := Text.isBlank_head_trimStart hc
  have htoken : '\n' ∈ token.text → BrokenBefore w rest' := fun hfeed =>
    (Token.brokenBefore_of_next hblank hnext hfeed).mono (hrest.trans ht)
  have hlast : '\n' ∈ value.lastText → BrokenBefore w rest' := fun hfeed =>
    (hvalue hfeed).later hrest'
  have hmisfit : Accounted s.registry w ⟨misfit (some value.lastText) token, rest'⟩ := by
    refine accounted_misfit _ ?_ htoken
    rintro _ ⟨⟩
    exact hlast
  dsimp only
  split
  · exact .plain _ (.of_nil rfl rfl trivial)
  · split
    · refine .error (accounted_unexpected _ fun hfeed => ?_)
      exact (List.mem_append.1 hfeed).elim hlast htoken
    refine ((needName_accounts rest').mono (hrest'.trans ht)).bind fun ⟨name, rest''⟩ hneed => ?_
    have hname := feed_not_mem_of_needName hneed
    have hrest'' : rest'' <:+ w := (needName_shorter hneed).1.trans (hrest'.trans ht)
    dsimp only
    split
    · exact .plain _ (.of_one hname rfl rfl trivial)
    split
    · exact .plain _ ⟨rfl, rfl, by simpa [Fault.named] using hname⟩
    refine ((needChar_accounts '(' rest'').mono hrest'').bind fun rest₃ hchar => ?_
    refine ((readGroup_accounts hinner _ rest₃).mono ?_).bind fun _ _ => .ok _
    exact (needChar_shorter hchar).1.trans hrest''
  · refine .error (accounted_unexpected _ fun hfeed => ?_)
    rcases List.mem_append.1 hfeed with hfeed | hfeed
    · exact hlast hfeed
    · exact absurd hfeed (by decide)
  · exact ((readSingle_accounts hinner _ rest').mono (hrest'.trans ht)).bind fun _ _ => .ok _
  · exact .error hmisfit
  · exact .error hmisfit
  · exact .error hmisfit
  · exact .error hmisfit
  · exact .ok _

/-- A value with a suffix ends in a bracket. -/
theorem lastText_of_readSuffix {rest : Text} {value value' : Value}
    (h : readSuffix s inner ctx value t = .ok (some (value', rest))) : '\n' ∉ value'.lastText := by
  unfold readSuffix at h
  split at h
  · cases h
  split at h
  · cases h
  obtain ⟨⟨token, rest'⟩, -, hr⟩ := bind_eq_ok_iff.1 h
  dsimp only at hr
  split at hr
  · cases hr
  · split at hr
    · cases hr
    obtain ⟨⟨name, rest''⟩, -, hr⟩ := bind_eq_ok_iff.1 hr
    dsimp only at hr
    split at hr
    · cases hr
    split at hr
    · cases hr
    obtain ⟨_, -, hr⟩ := bind_eq_ok_iff.1 hr
    obtain ⟨_, -, hr⟩ := bind_eq_ok_iff.1 hr
    cases hr
    exact (by decide : '\n' ∉ (")" : Text))
  · cases hr
  · obtain ⟨_, -, hr⟩ := bind_eq_ok_iff.1 hr
    cases hr
    exact feed_not_mem_closer _
  all_goals cases hr

theorem readSuffixes_accounts (hinner : InnerAccounts s.registry inner) {value : Value}
    (ht : t <:+ w) (hvalue : '\n' ∈ value.lastText → BrokenBefore w t) :
    Accounts s.registry w (readSuffixes s inner ctx value t) := by
  fun_induction readSuffixes s inner ctx value t with
  | case1 value t stuck hstuck => exact (readSuffix_accounts hinner ht hvalue).pass hstuck
  | case2 => exact .ok _
  | case3 value t value' rest hsuffix ih =>
    exact ih ((readSuffix_shorter hsuffix).1.trans ht) fun hfeed =>
      absurd hfeed (lastText_of_readSuffix hsuffix)

/-- A value and its suffixes, behind what was read before them. -/
theorem readValue_accounts {α : Type} (hinner : InnerAccounts s.registry inner) (ht : t <:+ w)
    (hbefore : ∀ last ∈ before, '\n' ∉ last) (htoken : '\n' ∈ token.text → BrokenBefore w t)
    (hkind : token.kind ≠ .quoted → '\n' ∉ token.text) (found : Value → α) :
    Accounts s.registry w (do
      let (value, rest) ← readPrimary s inner ctx before token t
      let (value, rest) ← readSuffixes s inner ctx value rest
      return (found value, rest)) := by
  refine (readPrimary_accounts hinner ht hbefore htoken hkind).bind fun ⟨value, rest⟩ hread => ?_
  have hrest := (readPrimary_suffix hread).trans ht
  refine (readSuffixes_accounts hinner hrest ?_).bind fun _ _ => .ok _
  exact lastText_of_readPrimary htoken hkind hread

end Value

theorem readOperand_accounts (hinner : InnerAccounts s.registry inner) {before : Option Text}
    (hbefore : ∀ last ∈ before, '\n' ∉ last) (t : Text) :
    Accounts s.registry t (readOperand s inner ctx before t) := by
  refine (needToken_accounts hbefore t).bind fun ⟨token, rest⟩ hneed => ?_
  have hrest := (needToken_shorter hneed).1
  have hkind := feed_not_mem_of_needToken hneed
  dsimp only
  split
  · next hsign =>
    have htext : '\n' ∉ token.text := hkind fun hk => by simp [Token.isSign, hk] at hsign
    have hsome : ∀ last ∈ some token.text, '\n' ∉ last := by
      rintro _ ⟨⟩
      exact htext
    refine ((needToken_accounts hsome rest).mono hrest).bind fun ⟨first, rest'⟩ hfirst => ?_
    have hrest' := (needToken_shorter hfirst).1.trans hrest
    have hfeed : '\n' ∈ first.text → BrokenBefore t rest' := fun hfeed =>
      (brokenBefore_of_needToken hfirst hfeed).mono hrest
    have hkind' := feed_not_mem_of_needToken hfirst
    dsimp only
    split
    · next hsign' =>
      have htext' : '\n' ∉ first.text := hkind' fun hk => by simp [Token.isSign, hk] at hsign'
      exact .plain _ ⟨rfl, trivial, by simpa [Fault.named] using ⟨htext, htext'⟩⟩
    split
    · exact .error (accounted_misfit _ (fun last hlast hmem => absurd hmem (hsome last hlast))
        hfeed)
    · exact readValue_accounts hinner hrest' hsome hfeed hkind'
        fun value => (some token.text, value)
  · exact readValue_accounts hinner hrest hbefore (brokenBefore_of_needToken hneed) hkind
      fun value => (none, value)

theorem readBranches_accounts (hinner : InnerAccounts r inner) (t : Text) :
    Accounts r t (readBranches inner ctx t) := by
  refine (readInner_accounts hinner t).bind fun ⟨yes, rest₁⟩ hyes => ?_
  have h₁ := (readInner_shorter hyes).1
  refine ((needChar_accounts ':' rest₁).mono h₁).bind fun rest₂ hcolon => ?_
  have h₂ := (needChar_shorter hcolon).1.trans h₁
  refine ((readInner_accounts hinner rest₂).mono h₂).bind fun ⟨no, rest₃⟩ hno => ?_
  have h₃ := (readInner_shorter hno).1.trans h₂
  exact ((needEnd_accounts rest₃).mono h₃).bind fun _ _ => .ok _

/-- The text of an operator is of one line. -/
theorem operator_oneLine {c : Char} {t rest rest' : Text} {token : Token}
    (ht : Text.trimStart t = c :: rest) (hnext : Token.next (c :: rest) = .ok (token, rest'))
    (hbinary : token.isBinary = true) : ∀ last ∈ some token.text, '\n' ∉ last := by
  rintro _ ⟨⟩ hfeed
  have hk := (Token.broken_of_next (Text.isBlank_head_trimStart ht) hnext hfeed).1
  simp [Token.isBinary, hk] at hbinary

theorem readTerms_accounts (hinner : InnerAccounts s.registry inner) (terms : Terms) (t : Text) :
    Accounts s.registry t (readTerms s inner ctx terms t) := by
  fun_induction readTerms s inner ctx terms t with
  | case1 => exact .plain _ (.of_nil rfl rfl trivial)
  | case2 => exact .ok _
  | case3 terms t c rest ht => exact .plain _ (ctx.misplaced_plain (ne_feed_of_trimStart ht))
  | case4 terms t c rest ht _ stuck hstuck =>
    exact ((next_accounts _).mono (ht ▸ Text.trimStart_suffix t)).pass hstuck
  | case5 terms t c rest ht _ token rest' hnext hbinary stuck hstuck =>
    have hrest := (Token.suffix_of_next hnext).trans (ht ▸ Text.trimStart_suffix t)
    exact ((readOperand_accounts hinner (operator_oneLine ht hnext hbinary) rest').mono hrest).pass
      hstuck
  | case6 terms t c rest ht _ token rest' hnext _ sign value rest'' hoperand ih =>
    have hrest := (Token.suffix_of_next hnext).trans (ht ▸ Text.trimStart_suffix t)
    exact ih.mono ((readOperand_shorter hoperand).1.trans hrest)
  | case7 => exact .plain _ (.of_nil rfl rfl trivial)
  | case8 terms t c rest ht _ token rest' hnext =>
    have hrest := (Token.suffix_of_next hnext).trans (ht ▸ Text.trimStart_suffix t)
    exact ((readBranches_accounts hinner rest').mono hrest).bind fun _ _ => .ok _
  | case9 terms t c rest ht _ token rest' hnext =>
    have hnone : ∀ last ∈ (none : Option Text), '\n' ∈ last → BrokenBefore t rest' :=
      fun _ hlast => absurd hlast (Option.not_mem_none _)
    refine .error (accounted_misfit _ hnone fun hfeed => ?_)
    exact (Token.brokenBefore_of_next (Text.isBlank_head_trimStart ht) hnext hfeed).mono
      (ht ▸ Text.trimStart_suffix t)

theorem readExpr_accounts (hinner : InnerAccounts s.registry inner) (ctx : Context) (t : Text) :
    Accounts s.registry t (readExpr s inner ctx t) := by
  have hnone : ∀ last ∈ (none : Option Text), '\n' ∉ last := by simp
  refine (readOperand_accounts hinner hnone t).bind fun ⟨⟨sign, value⟩, rest⟩ hoperand => ?_
  exact (readTerms_accounts hinner _ rest).mono (readOperand_shorter hoperand).1

/-- **Every level accounts for its faults**, by induction on the levels below it. -/
theorem innerReader_accounts (s : Scope) (n : Nat) :
    InnerAccounts s.registry (innerReader s n) := by
  induction n with
  | zero => exact nofun
  | succ n ih =>
    rintro reader ⟨⟩
    exact readExpr_accounts ih

end Readers

/-! ## A whole tag -/

theorem readTag_accounts (s : Scope) (t : Text) : Accounts s.registry t (readTag s t) :=
  readExpr_accounts (innerReader_accounts s maxNesting) .tag t

theorem closeTag_accounts (r : Registry) (t : Text) : Accounts r t (closeTag t) := by
  unfold closeTag
  split
  · exact .plain _ (.of_nil rfl rfl trivial)
  next c rest hc =>
  split
  · exact .ok _
  · refine .plain _ (.of_one ?_ rfl rfl trivial)
    simpa using (ne_feed_of_trimStart hc).symm

theorem readElse_accounts (r : Registry) (blocks : List Block) (line : Nat) (top : Block)
    (t : Text) : Accounts r t (readElse r blocks line top t) := by
  have hsymbol : ∀ kind : BlockKind, '\n' ∉ kind.symbol := by
    intro kind
    cases kind <;> decide
  unfold readElse
  split
  · exact .plain _ (.of_one (hsymbol _) rfl rfl trivial)
  · exact .plain _ (.of_one (hsymbol _) rfl rfl trivial)
  · exact .ok _
  · split
    · exact .ok _
    · exact (readTag_accounts ⟨r, _⟩ t).bind fun _ _ => .ok _

theorem readCommand_accounts (r : Registry) (blocks : List Block) (line : Nat) (command : Command)
    (t : Text) : Accounts r t (readCommand r blocks line command t) := by
  unfold readCommand
  split
  · exact (readTag_accounts ⟨r, _⟩ t).bind fun _ _ => .ok _
  · exact (readTag_accounts ⟨r, _⟩ t).bind fun _ _ => .ok _
  · exact (readTag_accounts ⟨r, _⟩ t).bind fun _ _ => .ok _
  · split
    · exact .ok _
    · exact (readElse_accounts r _ line _ t).bind fun _ _ => .ok _
  · split
    · exact .ok _
    · exact .ok _

/-- **The reader of a tag accounts for its faults.** -/
theorem readStatement_accounts (r : Registry) (blocks : List Block) (line : Nat)
    (command : Command) (t : Text) : Accounts r t (readStatement r blocks line command t) := by
  refine (readCommand_accounts r blocks line command t).bind fun result hresult => ?_
  cases result with
  | none => exact .ok _
  | some found =>
    obtain ⟨found, rest⟩ := found
    refine ((closeTag_accounts r rest).mono (readCommand_suffix hresult)).bind fun _ _ => .ok _

end Stencil
