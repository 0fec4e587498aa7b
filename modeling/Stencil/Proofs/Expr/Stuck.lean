import Stencil.Proofs.Expr.Resolve
import Stencil.Template.Statement

/-!
# Proofs/Expr/Stuck — where the reader of a tag stops

    text ──reader──▸ what was read, and the text ahead
                └──▸ a fault of the tag, and the text ahead

A reader that cannot go on tells the text that was ahead of it.  `StopsIn t` says that this text
ends `t`, and that the fault is one of a tag.  It goes along with sequencing (`StopsIn.bind`) and
with longer texts (`StopsIn.mono`), so each reader has it from those it calls, and the reader of a
whole tag has it in the end (`readStatement_stopsIn`).
-/

namespace Stencil

/-- **A fault of a tag**, unlike that of a host tag or of a block that is left open. -/
def Fault.IsOfTag (f : Fault) : Prop := f.code ≠ .hostTag ∧ f.code ≠ .unclosedBlock

instance (f : Fault) : Decidable f.IsOfTag := inferInstanceAs (Decidable (_ ∧ _))

/-- The code of a fault says whether it is one of a tag. -/
theorem Fault.IsOfTag.of_code {f : Fault} (h : decide f.IsOfTag = true) : f.IsOfTag :=
  of_decide_eq_true h

/-- **A reader that can only stop inside a text**, at a fault of a tag. -/
def StopsIn {α : Type} (t : Text) (x : Except Stuck α) : Prop :=
  ∀ stuck, x = .error stuck → stuck.rest <:+ t ∧ stuck.fault.IsOfTag

namespace StopsIn

variable {α β : Type} {t : Text}

theorem ok (a : α) : StopsIn t (.ok a) := nofun

theorem error {rest : Text} {fault : Fault} (hrest : rest <:+ t) (hfault : fault.IsOfTag) :
    StopsIn t (.error ⟨fault, rest⟩ : Except Stuck α) := by
  rintro stuck ⟨⟩
  exact ⟨hrest, hfault⟩

theorem mono {u : Text} {x : Except Stuck α} (h : StopsIn u x) (hu : u <:+ t) : StopsIn t x :=
  fun stuck hstuck => ⟨(h stuck hstuck).1.trans hu, (h stuck hstuck).2⟩

/-- A sequence stops where one of its steps does. -/
theorem bind {x : Except Stuck α} {f : α → Except Stuck β} (hx : StopsIn t x)
    (hf : ∀ a, x = .ok a → StopsIn t (f a)) : StopsIn t (x >>= f) := by
  cases x with
  | error stuck =>
    rintro _ ⟨⟩
    exact hx stuck rfl
  | ok a => exact hf a rfl

/-- An error that is passed on. -/
theorem pass {x : Except Stuck α} {stuck : Stuck} (hx : StopsIn t x) (h : x = .error stuck) :
    StopsIn t (.error stuck : Except Stuck β) := by
  rintro _ ⟨⟩
  exact hx stuck h

end StopsIn

/-! ## Faults of a tag -/

theorem Context.misplaced_isOfTag (ctx : Context) (c : Char) : (ctx.misplaced c).IsOfTag := by
  unfold Context.misplaced
  split
  · exact (.of_code rfl)
  · split
    · exact (.of_code rfl)
    · exact (.of_code rfl)
  · exact (.of_code rfl)

theorem misfit_isOfTag (before : Option Text) (token : Token) : (misfit before token).IsOfTag := by
  unfold misfit
  split
  · exact (.of_code rfl)
  · exact (.of_code rfl)

/-- The codes of faults that a chain has when it stands for nothing. -/
def Fault.chainCodes : List Code :=
  [.unexpected, .selfUse, .superglobalUse, .loopDepth, .loopMember, .constantChain, .noFunction,
   .noClass, .noStaticMethod, .noConstant, .noWrapperMethod, .noHelperMethod]

/-- **A fault of a chain** that stands for nothing. -/
def Fault.IsOfChain (f : Fault) : Prop := f.code ∈ Fault.chainCodes

namespace Fault.IsOfChain

theorem of_code {f : Fault} (h : decide (f.code ∈ chainCodes) = true) : f.IsOfChain := by
  rw [Fault.IsOfChain]
  exact of_decide_eq_true h

theorem isOfTag {f : Fault} (h : f.IsOfChain) : f.IsOfTag := by
  have htable : ∀ code ∈ chainCodes, code ≠ .hostTag ∧ code ≠ .unclosedBlock := by decide
  exact htable _ h

end Fault.IsOfChain

namespace Chain

variable {s : Scope} {c : Chain} {called : Bool} {fault : Fault}

theorem isOfChain_of_wrapperCall {root : Root} {keys : List Text} {method : Text}
    (h : c.wrapperCall s root keys method = .error fault) : fault.IsOfChain := by
  unfold wrapperCall at h
  split at h
  · cases h
  · cases h
    exact (.of_code rfl)

theorem isOfChain_of_resolveLoop (h : c.resolveLoop s called = .error fault) : fault.IsOfChain := by
  unfold resolveLoop at h
  split at h
  · cases h
    exact (.of_code rfl)
  split at h
  · cases h
    exact (.of_code rfl)
  split at h
  · split at h
    · cases h
    · exact isOfChain_of_wrapperCall h
    · cases h
      exact (.of_code rfl)
  split at h
  · split at h
    · split at h
      · cases h
      · cases h
        exact (.of_code rfl)
    · cases h
      exact (.of_code rfl)
  extract_lets keys at h
  split at h
  · split at h
    · cases h
      exact (.of_code rfl)
    · split at h
      · cases h
      · cases h
  · cases h

theorem isOfChain_of_resolveSelf (h : c.resolveSelf called = .error fault) : fault.IsOfChain := by
  unfold resolveSelf at h
  split at h
  · cases h
  · cases h
  · cases h
    exact (.of_code rfl)

theorem isOfChain_of_resolveGlobal {name : Text} {rest : List Text}
    (h : c.resolveGlobal s name rest called = .error fault) : fault.IsOfChain := by
  unfold resolveGlobal at h
  extract_lets keys fits at h
  split at h
  · cases h
    exact (.of_code rfl)
  split at h
  · split at h
    · exact isOfChain_of_wrapperCall h
    · cases h
      exact (.of_code rfl)
  · cases h

theorem isOfChain_of_findConstant {symbols : Symbols} {names : List Text}
    (h : c.findConstant symbols names = .error fault) : fault.IsOfChain := by
  unfold findConstant at h
  extract_lets owner at h
  split at h
  · cases h
  split at h
  · cases h
    exact (.of_code rfl)
  split at h
  · split at h
    · cases h
    · cases h
      exact (.of_code rfl)
  split at h
  · cases h
  split at h
  · cases h
  · cases h
    exact (.of_code rfl)

theorem isOfChain_of_resolveMethod {owner : List Text} {method : Text}
    (h : c.resolveMethod s owner method = .error fault) : fault.IsOfChain := by
  unfold resolveMethod at h
  split at h
  · next hconstant =>
    cases h
    exact isOfChain_of_findConstant hconstant
  · exact isOfChain_of_wrapperCall h
  dsimp only at h
  split at h
  · split at h
    · cases h
    · cases h
      exact (.of_code rfl)
  split at h
  · cases h
  split at h
  · cases h
    exact (.of_code rfl)
  · exact isOfChain_of_wrapperCall h

theorem isOfChain_of_resolveStatic (h : c.resolveStatic s called = .error fault) :
    fault.IsOfChain := by
  unfold resolveStatic at h
  split at h
  · split at h
    · unfold resolveFunction at h
      split at h
      · cases h
      split at h
      · cases h
      · cases h
        exact (.of_code rfl)
    · split at h
      · exact isOfChain_of_resolveMethod h
      · cases h
        exact (.of_code rfl)
  · split at h
    · next hconstant =>
      cases h
      exact isOfChain_of_findConstant hconstant
    · cases h
    · cases h

/-- **A chain that stands for nothing is a fault of its own.** -/
theorem isOfChain_of_resolve (h : c.resolve s called = .error fault) : fault.IsOfChain := by
  unfold resolve at h
  split at h
  · exact isOfChain_of_resolveLoop h
  split at h
  · cases h
    exact (.of_code rfl)
  split at h
  · exact isOfChain_of_resolveSelf h
  split at h
  · exact isOfChain_of_resolveGlobal h
  · exact isOfChain_of_resolveStatic h

end Chain

/-! ## Readers -/

section Readers

variable {s : Scope} {inner : Option Inner} {ctx : Context}

theorem next_stopsIn (t : Text) : StopsIn t (Token.next t) := by
  unfold Token.next
  split
  · exact .error (List.suffix_refl _) (.of_code rfl)
  · split
    · exact .ok _
    · exact .error (List.suffix_refl _) (.of_code rfl)

theorem needToken_stopsIn (before : Option Text) (t : Text) :
    StopsIn t (needToken ctx before t) := by
  unfold needToken
  split
  · exact .error List.nil_suffix (.of_code rfl)
  next c r hc =>
  have hr : c :: r <:+ t := hc ▸ Text.trimStart_suffix t
  split
  · split
    · split
      · exact .error hr (.of_code rfl)
      · exact .error hr (.of_code rfl)
    · exact .error hr (ctx.misplaced_isOfTag c)
  · split
    · next hnext => exact ((next_stopsIn _).mono hr).pass hnext
    · next hnext =>
      split
      · exact .error ((Token.suffix_of_next hnext).trans hr) (.of_code rfl)
      · exact .ok _

theorem needName_stopsIn (t : Text) : StopsIn t (needName ctx t) := by
  refine (needToken_stopsIn (some ".") t).bind fun ⟨token, rest⟩ htoken => ?_
  dsimp only
  split
  · exact .ok _
  · exact .error (needToken_shorter htoken).1 (misfit_isOfTag _ _)

theorem readChain_stopsIn (chain : Chain) (name t : Text) :
    StopsIn t (readChain s ctx chain name t) := by
  fun_induction readChain s ctx chain name t with
  | case1 => exact .error (List.suffix_refl _) (.of_code rfl)
  | case2 => exact .error (List.suffix_refl _) (.of_code rfl)
  | case3 => exact .ok _
  | case4 chain name t _ _ _ _ r ht =>
    exact .error ((List.dropWhile_suffix _).trans (Shorter.of_trimStart ht).1) (.of_code rfl)
  | case5 chain name t _ _ _ r ht _ rest _ stuck hname =>
    have hrest := (List.dropWhile_suffix (· == '.')).trans (Shorter.of_trimStart ht).1
    exact ((needName_stopsIn _).mono hrest).pass hname
  | case6 chain name t _ _ _ _ r ht run rest' _ next rest hname ih =>
    have hrest := (List.dropWhile_suffix (· == '.')).trans (Shorter.of_trimStart ht).1
    exact ih.mono ((needName_shorter hname).1.trans hrest)
  | case7 chain name t _ _ _ _ _ hfault =>
    exact .error (List.suffix_refl _) (Chain.isOfChain_of_resolve hfault).isOfTag
  | case8 => exact .ok _

theorem needChar_stopsIn (c : Char) (t : Text) : StopsIn t (needChar ctx c t) := by
  unfold needChar
  split
  · exact .error List.nil_suffix (.of_code rfl)
  next d r hd =>
  split
  · exact .ok _
  · exact .error (hd ▸ Text.trimStart_suffix t) (ctx.misplaced_isOfTag d)

theorem needEnd_stopsIn (t : Text) : StopsIn t (needEnd ctx t) := by
  unfold needEnd
  split
  · exact .error List.nil_suffix (.of_code rfl)
  next c r hc =>
  split
  · exact .ok _
  · exact .error (hc ▸ Text.trimStart_suffix t) (ctx.misplaced_isOfTag c)

/-- **The readers one level down stop inside their texts.** -/
def InnerStops (inner : Option Inner) : Prop :=
  ∀ reader ∈ inner, ∀ ctx t, StopsIn t (reader.read ctx t)

theorem readInner_stopsIn (hinner : InnerStops inner) (t : Text) :
    StopsIn t (readInner inner ctx t) := by
  unfold readInner
  split
  · exact .error (List.suffix_refl _) (.of_code rfl)
  · exact hinner _ rfl ctx t

theorem readSingle_stopsIn (hinner : InnerStops inner) (bracket : Bracket) (t : Text) :
    StopsIn t (readSingle inner ctx bracket t) := by
  refine (readInner_stopsIn hinner t).bind fun ⟨e, rest⟩ he => ?_
  refine ((needChar_stopsIn _ rest).mono (readInner_shorter he).1).bind fun _ _ => ?_
  exact .ok _

theorem readParts_stopsIn {reader : Inner} (hreader : ∀ ctx t, StopsIn t (reader.read ctx t))
    (bracket : Bracket) (items : Items) (t : Text) :
    StopsIn t (readParts reader bracket ctx items t) := by
  fun_induction readParts reader bracket ctx items t with
  | case1 => exact .error List.nil_suffix (.of_code rfl)
  | case2 => exact .ok _
  | case3 ctx items t c r ht =>
    exact .error (ht ▸ Text.trimStart_suffix t) (.of_code rfl)
  | case4 ctx items t c r ht _ _ next _ stuck hstuck =>
    exact ((hreader next r).mono (Shorter.of_trimStart ht).1).pass hstuck
  | case5 ctx items t c r ht _ _ next _ e rest he ih =>
    exact ih.mono ((reader.shorter he).trans (Shorter.of_trimStart ht)).1
  | case6 ctx items t c r ht =>
    exact .error (ht ▸ Text.trimStart_suffix t) (ctx.misplaced_isOfTag c)

theorem readGroup_stopsIn (hinner : InnerStops inner) (bracket : Bracket) (t : Text) :
    StopsIn t (readGroup inner bracket ctx t) := by
  unfold readGroup
  split
  · exact .error (List.suffix_refl _) (.of_code rfl)
  next reader =>
  have hreader := hinner reader rfl
  split
  · split
    · exact .ok _
    split
    · next hstuck => exact (hreader ctx t).pass hstuck
    · next he =>
      exact (readParts_stopsIn hreader bracket _ _).mono (reader.shorter he).1
  · exact .error List.nil_suffix (.of_code rfl)

theorem readNamed_stopsIn (hinner : InnerStops inner) (chain : Chain) (name t : Text) :
    StopsIn t (readNamed s inner ctx chain name t) := by
  refine (readChain_stopsIn chain name t).bind fun ⟨⟨chain', target, called⟩, rest⟩ hchain => ?_
  have hrest := readChain_suffix hchain
  dsimp only
  split
  · refine ((needChar_stopsIn '(' rest).mono hrest).bind fun rest' hchar => ?_
    refine ((readGroup_stopsIn hinner _ rest').mono ?_).bind fun _ _ => .ok _
    exact (needChar_shorter hchar).1.trans hrest
  · exact .ok _

theorem readPrimary_stopsIn (hinner : InnerStops inner) (before : Option Text) (token : Token)
    (t : Text) : StopsIn t (readPrimary s inner ctx before token t) := by
  unfold readPrimary
  split
  · exact .ok _
  · exact .ok _
  · exact readNamed_stopsIn hinner _ _ t
  · refine (needToken_stopsIn _ t).bind fun ⟨token', rest⟩ htoken => ?_
    have hrest := (needToken_shorter htoken).1
    dsimp only
    split
    · exact (readNamed_stopsIn hinner _ _ rest).mono hrest
    · exact .error hrest (misfit_isOfTag _ _)
  · exact (readSingle_stopsIn hinner _ t).bind fun _ _ => .ok _
  · exact (readGroup_stopsIn hinner _ t).bind fun _ _ => .ok _
  · exact .error (List.suffix_refl _) (misfit_isOfTag _ _)

theorem readSuffix_stopsIn (hinner : InnerStops inner) (value : Value) (t : Text) :
    StopsIn t (readSuffix s inner ctx value t) := by
  unfold readSuffix
  split
  · exact .ok _
  next c r hc =>
  have hr : c :: r <:+ t := hc ▸ Text.trimStart_suffix t
  split
  · exact .ok _
  refine ((next_stopsIn _).mono hr).bind fun ⟨token, rest⟩ htoken => ?_
  have hrest : rest <:+ t := (Token.suffix_of_next htoken).trans hr
  dsimp only
  split
  · exact .error hrest (.of_code rfl)
  · split
    · exact .error hrest (.of_code rfl)
    refine ((needName_stopsIn rest).mono hrest).bind fun ⟨name, rest'⟩ hname => ?_
    have hrest' : rest' <:+ t := (needName_shorter hname).1.trans hrest
    dsimp only
    split
    · exact .error hrest' (.of_code rfl)
    split
    · exact .error hrest' (.of_code rfl)
    refine ((needChar_stopsIn '(' rest').mono hrest').bind fun rest'' hchar => ?_
    refine ((readGroup_stopsIn hinner _ rest'').mono ?_).bind fun _ _ => .ok _
    exact (needChar_shorter hchar).1.trans hrest'
  · exact .error hrest (.of_code rfl)
  · exact ((readSingle_stopsIn hinner _ rest).mono hrest).bind fun _ _ => .ok _
  · exact .error hrest (misfit_isOfTag _ _)
  · exact .error hrest (misfit_isOfTag _ _)
  · exact .error hrest (misfit_isOfTag _ _)
  · exact .error hrest (misfit_isOfTag _ _)
  · exact .ok _

theorem readSuffixes_stopsIn (hinner : InnerStops inner) (value : Value) (t : Text) :
    StopsIn t (readSuffixes s inner ctx value t) := by
  fun_induction readSuffixes s inner ctx value t with
  | case1 value t stuck hstuck => exact (readSuffix_stopsIn hinner value t).pass hstuck
  | case2 => exact .ok _
  | case3 value t value' rest hsuffix ih => exact ih.mono (readSuffix_shorter hsuffix).1

/-- A value and its suffixes, behind what was read before them. -/
theorem readValue_stopsIn {α : Type} (hinner : InnerStops inner) (before : Option Text)
    (token : Token) (t : Text) (found : Value → α) :
    StopsIn t (do
      let (value, rest) ← readPrimary s inner ctx before token t
      let (value, rest) ← readSuffixes s inner ctx value rest
      return (found value, rest)) := by
  refine (readPrimary_stopsIn hinner before token t).bind fun ⟨value, rest⟩ hvalue => ?_
  refine ((readSuffixes_stopsIn hinner value rest).mono ?_).bind fun _ _ => .ok _
  exact readPrimary_suffix hvalue

theorem readOperand_stopsIn (hinner : InnerStops inner) (before : Option Text) (t : Text) :
    StopsIn t (readOperand s inner ctx before t) := by
  refine (needToken_stopsIn before t).bind fun ⟨token, rest⟩ htoken => ?_
  have hrest := (needToken_shorter htoken).1
  dsimp only
  split
  · refine ((needToken_stopsIn _ rest).mono hrest).bind fun ⟨first, rest'⟩ hfirst => ?_
    have hrest' := (needToken_shorter hfirst).1.trans hrest
    dsimp only
    split
    · exact .error hrest' (.of_code rfl)
    split
    · exact .error hrest' (misfit_isOfTag _ _)
    · exact (readValue_stopsIn hinner _ first rest' fun value => (some token.text, value)).mono hrest'
  · exact (readValue_stopsIn hinner before token rest fun value => (none, value)).mono hrest

theorem readBranches_stopsIn (hinner : InnerStops inner) (t : Text) :
    StopsIn t (readBranches inner ctx t) := by
  refine (readInner_stopsIn hinner t).bind fun ⟨yes, rest₁⟩ hyes => ?_
  have h₁ := (readInner_shorter hyes).1
  refine ((needChar_stopsIn ':' rest₁).mono h₁).bind fun rest₂ hcolon => ?_
  have h₂ := (needChar_shorter hcolon).1.trans h₁
  refine ((readInner_stopsIn hinner rest₂).mono h₂).bind fun ⟨no, rest₃⟩ hno => ?_
  have h₃ := (readInner_shorter hno).1.trans h₂
  exact ((needEnd_stopsIn rest₃).mono h₃).bind fun _ _ => .ok _

theorem readTerms_stopsIn (hinner : InnerStops inner) (terms : Terms) (t : Text) :
    StopsIn t (readTerms s inner ctx terms t) := by
  fun_induction readTerms s inner ctx terms t with
  | case1 => exact .error List.nil_suffix (.of_code rfl)
  | case2 => exact .ok _
  | case3 terms t c r ht =>
    exact .error (ht ▸ Text.trimStart_suffix t) (ctx.misplaced_isOfTag c)
  | case4 terms t c r ht _ stuck hstuck =>
    exact ((next_stopsIn _).mono (ht ▸ Text.trimStart_suffix t)).pass hstuck
  | case5 terms t c r ht _ token rest hnext _ stuck hstuck =>
    have hrest := (Token.suffix_of_next hnext).trans (ht ▸ Text.trimStart_suffix t)
    exact ((readOperand_stopsIn hinner _ rest).mono hrest).pass hstuck
  | case6 terms t c r ht _ token rest hnext _ sign value rest' hoperand ih =>
    have hrest := (Token.suffix_of_next hnext).trans (ht ▸ Text.trimStart_suffix t)
    exact ih.mono ((readOperand_shorter hoperand).1.trans hrest)
  | case7 terms t c r ht _ token rest hnext =>
    exact .error ((Token.suffix_of_next hnext).trans (ht ▸ Text.trimStart_suffix t)) (.of_code rfl)
  | case8 terms t c r ht _ token rest hnext =>
    have hrest := (Token.suffix_of_next hnext).trans (ht ▸ Text.trimStart_suffix t)
    exact ((readBranches_stopsIn hinner rest).mono hrest).bind fun _ _ => .ok _
  | case9 terms t c r ht _ token rest hnext =>
    exact .error ((Token.suffix_of_next hnext).trans (ht ▸ Text.trimStart_suffix t))
      (misfit_isOfTag _ _)

theorem readExpr_stopsIn (hinner : InnerStops inner) (ctx : Context) (t : Text) :
    StopsIn t (readExpr s inner ctx t) := by
  refine (readOperand_stopsIn hinner none t).bind fun ⟨⟨sign, value⟩, rest⟩ hoperand => ?_
  exact (readTerms_stopsIn hinner _ rest).mono (readOperand_shorter hoperand).1

/-- **Every level stops inside its text**, by induction on the levels below it. -/
theorem innerReader_stops (s : Scope) (n : Nat) : InnerStops (innerReader s n) := by
  induction n with
  | zero => exact nofun
  | succ n ih =>
    rintro reader ⟨⟩
    exact readExpr_stopsIn ih

end Readers

/-! ## A whole tag -/

theorem readTag_stopsIn (s : Scope) (t : Text) : StopsIn t (readTag s t) :=
  readExpr_stopsIn (innerReader_stops s maxNesting) .tag t

theorem closeTag_stopsIn (t : Text) : StopsIn t (closeTag t) := by
  unfold closeTag
  split
  · exact .error List.nil_suffix (.of_code rfl)
  next c r hc =>
  split
  · exact .ok _
  · exact .error (hc ▸ Text.trimStart_suffix t) (.of_code rfl)

theorem readElse_stopsIn (r : Registry) (blocks : List Block) (line : Nat) (top : Block)
    (t : Text) : StopsIn t (readElse r blocks line top t) := by
  unfold readElse
  split
  · exact .error (List.suffix_refl _) (.of_code rfl)
  · exact .error (List.suffix_refl _) (.of_code rfl)
  · exact .ok _
  · split
    · exact .ok _
    · exact (readTag_stopsIn _ t).bind fun _ _ => .ok _

theorem readCommand_stopsIn (r : Registry) (blocks : List Block) (line : Nat) (command : Command)
    (t : Text) : StopsIn t (readCommand r blocks line command t) := by
  unfold readCommand
  split
  · exact (readTag_stopsIn _ t).bind fun _ _ => .ok _
  · exact (readTag_stopsIn _ t).bind fun _ _ => .ok _
  · exact (readTag_stopsIn _ t).bind fun _ _ => .ok _
  · split
    · exact .ok _
    · exact (readElse_stopsIn r _ line _ t).bind fun _ _ => .ok _
  · split
    · exact .ok _
    · exact .ok _

/-- **The reader of a tag stops inside it**, whatever is wrong there. -/
theorem readStatement_stopsIn (r : Registry) (blocks : List Block) (line : Nat) (command : Command)
    (t : Text) : StopsIn t (readStatement r blocks line command t) := by
  refine (readCommand_stopsIn r blocks line command t).bind fun result hresult => ?_
  cases result with
  | none => exact .ok _
  | some found =>
    obtain ⟨found, rest⟩ := found
    refine ((closeTag_stopsIn rest).mono (readCommand_suffix hresult)).bind fun _ _ => .ok _

end Stencil
