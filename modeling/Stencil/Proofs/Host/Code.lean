import Stencil.Proofs.Block.Change
import Stencil.Proofs.Expr.Resolve
import Stencil.Proofs.Host.Quiet

/-!
# Proofs/Host/Code — no host script starts inside generated code

Generated code is put together from fixed words, adapter names, and texts of the template: names,
numbers, quoted texts, operators, and the text of the tag in its mark.  All of these are `Sealed`
when the template is quiet, so host script starts in a statement only where its delimiter stands
(`Statement.code_eq`).
-/

namespace Stencil

open HostTag

variable {short : Bool}

/-! ## Escaped texts -/

theorem escapes_guardDollars (t : Text) : Escapes t (guardDollars t) := by
  fun_induction guardDollars t with
  | case1 => exact .nil
  | case2 c t ih => exact .keep _ (.keep _ ih)
  | case3 t _ ih => exact .insert (by decide) (.keep _ ih)
  | case4 c t _ _ ih => exact .keep _ ih

theorem escapes_guardCommentEnd (t : Text) : Escapes t (guardCommentEnd t) := by
  fun_induction guardCommentEnd t with
  | case1 => exact .nil
  | case2 t ih => exact .keep _ (.insert (by decide) (.keep _ ih))
  | case3 c t _ ih => exact .keep _ ih

namespace Json

/-- A hexadecimal digit stands in no opener. -/
theorem breaks_hexDigit {n : Nat} (h : n < 16) : breaks (hexDigit n) = true := by
  have hall : ∀ k : Fin 16, breaks (hexDigit k.val) = true := by decide
  exact hall ⟨n, h⟩

/-- **The form of a character in a JSON string** is the character, or stands in no opener. -/
theorem escapeChar_cases (c : Char) :
    escapeChar c = [c] ∨ ∃ d ds, escapeChar c = d :: ds ∧ (d :: ds).all breaks = true := by
  unfold escapeChar
  iterate 7
    split
    · exact .inr ⟨_, _, rfl, rfl⟩
  split
  · next hc =>
    refine .inr ⟨_, _, rfl, ?_⟩
    have hhigh : breaks (hexDigit (c.toNat / 16)) = true := breaks_hexDigit (by omega)
    have hlow : breaks (hexDigit (c.toNat % 16)) = true := breaks_hexDigit (by omega)
    simp only [List.all_cons, hhigh, hlow]
    rfl
  · exact .inl rfl

theorem escapes_flatMap (t : Text) : Escapes t (t.flatMap escapeChar) := by
  induction t with
  | nil => exact .nil
  | cons c t ih =>
    rw [List.flatMap_cons]
    rcases escapeChar_cases c with hc | ⟨d, ds, hc, hds⟩
    · rw [hc]
      exact .keep c ih
    · rw [hc]
      exact .replace c hds ih

end Json

/-- **The mark of a quiet text is sealed.** -/
theorem Mark.sealed_comment {m : Mark} (h : Quiet short m.code) : Sealed short m.comment := by
  have hcode : Sealed short (m.code.flatMap Json.escapeChar ++ ['"']) := by
    have hplain : Sealed short (m.code ++ ['"']) := h.sealed_concat (by decide) (by decide)
    exact hplain.of_escapes ((Json.escapes_flatMap _).append (.refl _))
  have hquote : Sealed short (Json.quote m.code) := by
    have hfront : Sealed short ['"'] := sealed_word _
    have hall := hfront.append hcode
    rwa [← List.append_assoc] at hall
  have hline : Sealed short ("\x7b\"line\":" ++ Text.decimal m.line) :=
    (sealed_word _).append (sealed_decimal m.line)
  have hjson : Sealed short m.json :=
    ((hline.append (sealed_word _)).append hquote).append (sealed_word _)
  have hguarded : Sealed short (guardCommentEnd m.json) :=
    hjson.of_escapes (escapes_guardCommentEnd _)
  exact ((sealed_word _).append hguarded).append (sealed_word _)

/-! ## Tokens -/

namespace Token

/-- Kinds whose tokens are copied into the code as they are. -/
def Kind.isWord : Kind → Bool
  | name | number | quoted => true
  | _ => false

/-- **A token that starts no host script**: a word by itself, an operator before a blank. -/
structure Harmless (short : Bool) (token : Token) : Prop where
  word : token.kind.isWord = true → Sealed short token.text
  operator : token.kind.isFixed = true → Sealed short (token.text ++ " ")

/-- **The tokens of a quiet text are harmless.** -/
theorem harmless_of_next {t rest : Text} {token : Token} (hq : Quiet short t)
    (h : next t = .ok (token, rest)) : token.Harmless short := by
  have htable : ∀ p ∈ fixed, p.2.isWord = false ∧ tame (p.1.toList ++ " ") = true := by decide
  have hinfix : token.text <:+: t := ⟨[], rest, append_of_next h⟩
  obtain ⟨c, t, rfl⟩ := exists_cons_of_next h
  rcases next_cases h with
    ⟨-, hk⟩ | ⟨-, hk⟩ | ⟨hc, rfl⟩ | ⟨-, rfl⟩ | ⟨hc, b, hb, rfl⟩ | ⟨p, hp, rfl⟩
  · exact ⟨by rw [hk]; nofun, by rw [hk]; nofun⟩
  · exact ⟨by rw [hk]; nofun, by rw [hk]; nofun⟩
  · refine ⟨fun _ => sealed_of_not_mem ?_, nofun⟩
    have hc' : c ≠ '<' := by
      rintro rfl
      exact absurd hc (by decide)
    simpa [named, hc'.symm] using not_mem_takeWhile (by decide) t
  · exact ⟨fun _ => sealed_of_not_mem (not_mem_number (by decide) (by decide) _), nofun⟩
  · refine ⟨fun _ => ?_, nofun⟩
    obtain ⟨front, rfl⟩ := eq_concat_of_closeQuote hb
    have hfront : Quiet short (c :: front) := hq.of_infix (.trans ⟨[], [c], rfl⟩ hinfix)
    rcases hc with rfl | rfl
    · exact hfront.sealed_concat (by decide) (by decide)
    · exact hfront.sealed_concat (by decide) (by decide)
  · obtain ⟨hword, htame⟩ := htable p hp
    refine ⟨fun hk => ?_, fun _ => sealed_of_tame htame⟩
    rw [hword] at hk
    cases hk

end Token

theorem Reads.harmless {t rest : Text} {tokens : List Token} {token : Token} (hq : Quiet short t)
    (h : Reads t tokens rest) (hm : token ∈ tokens) : token.Harmless short := by
  obtain ⟨s, r, hs, hn⟩ := h.exists_next hm
  exact Token.harmless_of_next (hq.of_infix hs.isInfix) hn

/-! ## References -/

/-- **The owner of an adapter is a class name**: name characters and namespace separators. -/
def Adapter.Named (a : Adapter) : Prop := ∀ c ∈ a.owner, Text.isNamePart c = true ∨ c = '\\'

/-- Both adapters of a registry have class names. -/
structure Registry.Named (r : Registry) : Prop where
  wrapper : r.wrapper.Named
  helper : r.helper.Named

theorem Adapter.sealed_opening {a : Adapter} (h : a.Named) : Sealed short a.opening := by
  have howner : Sealed short a.owner := by
    refine sealed_of_not_mem fun hmem => ?_
    rcases h '<' hmem with hc | hc
    · exact absurd hc (by decide)
    · cases hc
  exact ((sealed_word _).append howner).append (sealed_word _)

theorem FrameVar.sealed_code (v : FrameVar) (depth : Nat) : Sealed short (v.code depth) := by
  have hletter : Sealed short v.suffix := by
    cases v <;> exact sealed_word _
  exact ((sealed_word _).append (sealed_decimal depth)).append hletter

theorem sealed_joinPath {names : List Text} (h : ∀ name ∈ names, Sealed short name) :
    Sealed short (joinPath names) := by
  unfold joinPath
  induction names with
  | nil => exact sealed_nil
  | cons name names ih =>
    have hname : Sealed short name := h name List.mem_cons_self
    have hnames := ih fun n hn => h n (List.mem_cons_of_mem _ hn)
    cases names with
    | nil =>
      rw [List.intercalate_singleton]
      exact hname
    | cons next names =>
      rw [List.intercalate_cons_cons]
      exact (hname.append (sealed_word _)).append hnames

theorem sealed_indexCode {keys : List Text} (h : ∀ key ∈ keys, Sealed short key) :
    Sealed short (indexCode keys) := by
  refine sealed_flatMap fun key hkey => ?_
  exact ((sealed_word _).append (h key hkey)).append (sealed_word _)

section Names

variable {names : List Text} (hn : ∀ name ∈ names, Sealed short name)
include hn

theorem IsPath.sealed {path : Text} (h : IsPath names path) : Sealed short path := by
  obtain ⟨parts, hparts, rfl⟩ := h
  exact sealed_joinPath fun name hm => hn name (hparts hm)

theorem Root.MadeOf.sealed_code {root : Root} (h : root.MadeOf names) : Sealed short root.code := by
  have hslash : Sealed short "\\" := sealed_word _
  cases root with
  | data => exact sealed_word "$V"
  | superglobal name =>
    change Sealed short (if name = "GLOBALS" then "$GLOBALS" else "$_" ++ name)
    split
    · exact sealed_word _
    · exact (sealed_word _).append (hn name h)
  | frame depth var => exact var.sealed_code depth
  | constant path => exact hslash.append (IsPath.sealed hn h)
  | classConstant owner name =>
    exact ((hslash.append (IsPath.sealed hn h.1)).append (sealed_word _)).append (hn name h.2)

theorem sealed_indexed {root : Root} {keys : List Text} (hroot : root.MadeOf names)
    (hkeys : keys ⊆ names) : Sealed short (root.code ++ indexCode keys) :=
  (hroot.sealed_code hn).append (sealed_indexCode fun key hk => hn key (hkeys hk))

/-- **A reference made of sealed names is sealed.** -/
theorem Reference.MadeOf.sealed_code {r : Registry} (hr : r.Named) {target : Reference}
    (h : target.MadeOf names) : Sealed short (target.code r) := by
  have hslash : Sealed short "\\" := sealed_word _
  have harrow : Sealed short ")->" := sealed_word _
  cases target with
  | word text => exact hn text h
  | self => exact sealed_word "$this"
  | selfMethod method => exact (sealed_word _).append (hn method h)
  | value root keys => exact sealed_indexed hn h.1 h.2
  | wrapped root keys method =>
    have hopening : Sealed short r.wrapper.opening := Adapter.sealed_opening hr.wrapper
    have hvalue := hopening.append (sealed_indexed hn h.1 h.2.1)
    rw [← List.append_assoc] at hvalue
    exact (hvalue.append harrow).append (hn method h.2.2)
  | objectMethod root keys method =>
    exact ((sealed_indexed hn h.1 h.2.1).append (sealed_word _)).append (hn method h.2.2)
  | helper depth method =>
    have hopening : Sealed short r.helper.opening := Adapter.sealed_opening hr.helper
    have hvar : ∀ v : FrameVar, Sealed short (v.code depth) := fun v => v.sealed_code depth
    have hcomma : Sealed short "," := sealed_word _
    have hfront := ((hopening.append (hvar .index)).append hcomma).append (hvar .size)
    have hback := ((hfront.append hcomma).append (hvar .key)).append hcomma
    exact ((hback.append (hvar .value)).append harrow).append (hn method h)
  | construct name => exact hn name h
  | function path => exact hslash.append (IsPath.sealed hn h)
  | staticMethod owner method =>
    exact ((hslash.append (IsPath.sealed hn h.1)).append (sealed_word _)).append (hn method h.2)

end Names

/-! ## Expressions -/

theorem Chain.named_mem_tokens {c : Chain} {name : Text} (h : name ∈ c.names) :
    Token.named name ∈ c.tokens := by
  obtain ⟨depth, names⟩ := c
  refine List.mem_append_right _ ?_
  rcases names with - | ⟨first, later⟩
  · cases h
  · rcases List.mem_cons.1 h with rfl | h
    · exact List.mem_cons_self
    · refine List.mem_cons_of_mem _ (List.mem_flatMap.2 ⟨name, h, ?_⟩)
      simp

theorem sealed_sign {sign : Option Text} {value : Value} (h : SignFits sign value) :
    Sealed short (sign.getD []) := by
  cases sign with
  | none => exact sealed_nil
  | some text =>
    have htame : ∀ word ∈ [['!'], ['~'], ['+'], ['-']], tame word = true := by decide
    exact sealed_of_tame (htame text (h text rfl).1)

theorem sealed_jointCode {op : Token} (h : op.Harmless short) (hb : op.isBinary = true)
    (left : Terms) (sign : Option Text) (right : Value) :
    Sealed short (jointCode left op sign right) := by
  have hfixed : op.kind.isFixed = true := by
    unfold Token.isBinary at hb
    unfold Token.Kind.isFixed
    split at hb <;> simp_all
  have hspace : Sealed short " " := sealed_word _
  unfold jointCode
  split
  · exact sealed_word _
  · rw [List.append_assoc]
    exact hspace.append (h.operator hfixed)

theorem sealed_quotedCode {t : Text} (h : Sealed short t) : Sealed short (quotedCode t) := by
  unfold quotedCode
  split
  · exact h.of_escapes (escapes_guardDollars _)
  · exact h

/-- Every token of a list starts no host script. -/
def AllHarmless (short : Bool) (tokens : List Token) : Prop :=
  ∀ token ∈ tokens, token.Harmless short

theorem allHarmless_append {a b : List Token} :
    AllHarmless short (a ++ b) ↔ AllHarmless short a ∧ AllHarmless short b := List.forall_mem_append

theorem allHarmless_cons {token : Token} {tokens : List Token} :
    AllHarmless short (token :: tokens) ↔ token.Harmless short ∧ AllHarmless short tokens :=
  List.forall_mem_cons

theorem Chain.Denotes.sealed_of_tokens {s : Scope} (hr : s.registry.Named) {c : Chain}
    (ht : AllHarmless short c.tokens) {called : Bool} {target : Reference}
    (h : c.Denotes s called target) : Sealed short (target.code s.registry) :=
  h.madeOf.sealed_code (fun _ hm => (ht _ (named_mem_tokens hm)).word rfl) hr

mutual

/-- The code of a value is sealed. -/
theorem Value.sealed_code {s : Scope} (hr : s.registry.Named) : ∀ {value : Value},
    value.WellFormed s → AllHarmless short value.tokens → Sealed short (value.code s.registry)
  | .number _, _, ht => (ht _ List.mem_cons_self).word rfl
  | .quoted _, _, ht => sealed_quotedCode ((ht _ List.mem_cons_self).word rfl)
  | .name _ _, hw, ht => hw.sealed_of_tokens hr ht
  | .call _ _ args, hw, ht => by
    obtain ⟨hchain, hgroup⟩ := allHarmless_append.1 ht
    have hargs := Items.sealed_code hr hw.2.2 (allHarmless_append.1 (allHarmless_cons.1 hgroup).2).1
    have htarget := hw.1.sealed_of_tokens hr hchain
    exact ((htarget.append (sealed_word _)).append hargs).append (sealed_word _)
  | .paren inner, hw, ht => by
    have hinner := Expr.sealed_code hr hw (allHarmless_append.1 (allHarmless_cons.1 ht).2).1
    exact ((sealed_word _).append hinner).append (sealed_word _)
  | .literal _ items, hw, ht => by
    have hitems := Items.sealed_code hr hw.2 (allHarmless_append.1 (allHarmless_cons.1 ht).2).1
    exact ((sealed_word _).append hitems).append (sealed_word _)
  | .index value _ key, hw, ht => by
    obtain ⟨htv, hgroup⟩ := allHarmless_append.1 ht
    have hvalue := Value.sealed_code hr hw.1 htv
    have hkey := Expr.sealed_code hr hw.2.2 (allHarmless_append.1 (allHarmless_cons.1 hgroup).2).1
    exact ((hvalue.append (sealed_word _)).append hkey).append (sealed_word _)
  | .method value name args, hw, ht => by
    obtain ⟨htv, hbehind⟩ := allHarmless_append.1 ht
    obtain ⟨hname, hgroup⟩ := allHarmless_cons.1 (allHarmless_cons.1 hbehind).2
    have hvalue := Value.sealed_code hr hw.1 htv
    have hargs := Items.sealed_code hr hw.2.2.2.2
      (allHarmless_append.1 (allHarmless_cons.1 hgroup).2).1
    have hopening : Sealed short s.registry.wrapper.opening := Adapter.sealed_opening hr.wrapper
    have harrow : Sealed short ")->" := sealed_word _
    exact (((((hopening.append hvalue).append harrow).append (hname.word rfl)).append
      (sealed_word _)).append hargs).append (sealed_word _)

/-- The code of terms is sealed. -/
theorem Terms.sealed_code {s : Scope} (hr : s.registry.Named) : ∀ {terms : Terms},
    terms.WellFormed s → AllHarmless short terms.tokens → Sealed short (terms.code s.registry)
  | .one _ _, hw, ht =>
    (sealed_sign hw.1).append (Value.sealed_code hr hw.2 (allHarmless_append.1 ht).2)
  | .more left op sign value, hw, ht => by
    obtain ⟨htl, hbehind⟩ := allHarmless_append.1 ht
    obtain ⟨hop, hright⟩ := allHarmless_cons.1 hbehind
    have hleft := Terms.sealed_code hr hw.1 htl
    have hvalue := Value.sealed_code hr hw.2.2.2 (allHarmless_append.1 hright).2
    exact ((hleft.append (sealed_jointCode hop hw.2.1 left sign value)).append
      (sealed_sign hw.2.2.1)).append hvalue

/-- **The code of an expression is sealed.** -/
theorem Expr.sealed_code {s : Scope} (hr : s.registry.Named) : ∀ {e : Expr},
    e.WellFormed s → AllHarmless short e.tokens → Sealed short (e.code s.registry)
  | .plain _, hw, ht => Terms.sealed_code hr hw ht
  | .ternary test yes no, hw, ht => by
    obtain ⟨htt, hbehind⟩ := allHarmless_append.1 ht
    obtain ⟨hty, hlast⟩ := allHarmless_append.1 (allHarmless_cons.1 hbehind).2
    have htest := Terms.sealed_code hr hw.1 htt
    have hyes := Expr.sealed_code hr hw.2.1.2 hty
    have hno := Expr.sealed_code hr hw.2.2.2 (allHarmless_cons.1 hlast).2
    have hcolon : Sealed short " : (" := sealed_word _
    exact ((((htest.append (sealed_word _)).append hyes).append hcolon).append hno).append
      (sealed_word _)

/-- The code of the parts of a group is sealed. -/
theorem Items.sealed_code {s : Scope} (hr : s.registry.Named) : ∀ {items : Items},
    items.WellFormed s → AllHarmless short items.tokens → Sealed short (items.code s.registry)
  | .empty, _, _ => sealed_nil
  | .item before value, hw, ht => by
    obtain ⟨htb, hbehind⟩ := allHarmless_append.1 ht
    have hbefore := Items.sealed_code hr hw.1 htb
    have hvalue := Expr.sealed_code hr hw.2 (allHarmless_append.1 hbehind).2
    have hcomma : Sealed short ", " := sealed_word _
    cases before with
    | empty => exact hvalue
    | item _ _ => exact (hbefore.append hcomma).append hvalue
    | pair _ _ _ => exact (hbefore.append hcomma).append hvalue
  | .pair before key value, hw, ht => by
    obtain ⟨htb, hbehind⟩ := allHarmless_append.1 ht
    obtain ⟨htk, hlast⟩ := allHarmless_append.1 (allHarmless_append.1 hbehind).2
    have hbefore := Items.sealed_code hr hw.1 htb
    have hkey := Expr.sealed_code hr hw.2.1 htk
    have hvalue := Expr.sealed_code hr hw.2.2 (allHarmless_cons.1 hlast).2
    have harrow : Sealed short " => " := sealed_word _
    have hcomma : Sealed short ", " := sealed_word _
    cases before with
    | empty => exact (hkey.append harrow).append hvalue
    | item _ _ => exact (((hbefore.append hcomma).append hkey).append harrow).append hvalue
    | pair _ _ _ => exact (((hbefore.append hcomma).append hkey).append harrow).append hvalue

end

/-! ## Statements -/

namespace Statement

/-- The body of a statement is sealed if its expression is. -/
theorem sealed_body {r : Registry} {s : Statement}
    (h : ∀ e, s.value? = some e → Sealed short (e.code r)) : Sealed short (s.body r) := by
  cases s with
  | echo value => exact h value rfl
  | loop frame array =>
    have ha : Sealed short (FrameVar.array.code frame) := FrameVar.sealed_code .array frame
    have hi : Sealed short (FrameVar.index.code frame) := FrameVar.sealed_code .index frame
    have hs : Sealed short (FrameVar.size.code frame) := FrameVar.sealed_code .size frame
    have hk : Sealed short (FrameVar.key.code frame) := FrameVar.sealed_code .key frame
    have hv : Sealed short (FrameVar.value.code frame) := FrameVar.sealed_code .value frame
    have hassign := (ha.append (sealed_word "=")).append (h array rfl)
    have hguard := ((hassign.append (sealed_word ";if (is_array(")).append ha).append
      (sealed_word ") and !empty(")
    have hsize := ((hguard.append ha).append (sealed_word ")) \x7b")).append hs
    have hcount := ((hsize.append (sealed_word "=count(")).append ha).append (sealed_word ");")
    have hindex := (hcount.append hi).append (sealed_word "=-1;foreach(")
    have hkey := ((hindex.append ha).append (sealed_word " as ")).append hk
    have hvalue := ((hkey.append (sealed_word "=>")).append hv).append (sealed_word ") \x7b ++")
    exact (hvalue.append hi).append (sealed_word ";")
  | branch test =>
    exact ((sealed_word _).append (h test rfl)).append (sealed_word _)
  | elseIf test =>
    exact ((sealed_word _).append (h test rfl)).append (sealed_word _)
  | loopElse => exact sealed_word "\x7d\x7d else \x7b"
  | branchElse => exact sealed_word "\x7d else \x7b"
  | endLoop => exact sealed_word "\x7d\x7d"
  | endBranch => exact sealed_word "\x7d"

/-- **A statement starts host script.** -/
theorem fires_code (r : Registry) (m : Mark) (s : Statement) : Fires short (s.code r m) := by
  have hdelimiter : ∀ u : Text, Fires short (s.delimiter ++ " " ++ u) := by
    intro u
    cases s <;> cases short <;> exact nofun
  unfold code
  simp only [List.append_assoc]
  rw [← List.append_assoc]
  exact hdelimiter _

/-- **Host script starts in a statement only where the statement starts.** -/
theorem code_eq {r : Registry} {m : Mark} {s : Statement} (hbody : Sealed short (s.body r))
    (hmark : Quiet short m.code) : ∃ tail, s.code r m = '<' :: tail ∧ Sealed short tail := by
  obtain ⟨word, hword, htame⟩ : ∃ word, s.delimiter = '<' :: word ∧ tame word = true := by
    cases s with
    | echo value => exact ⟨"?=", rfl, by decide⟩
    | _ => exact ⟨"?php", rfl, by decide⟩
  refine ⟨word ++ " " ++ s.body r ++ " " ++ m.comment ++ " ?>", ?_, ?_⟩
  · unfold code
    rw [hword]
    rfl
  · have hspace : Sealed short " " := sealed_word _
    have hfront := ((sealed_of_tame htame).append hspace).append hbody
    exact ((hfront.append hspace).append (Mark.sealed_comment hmark)).append (sealed_word _)

end Statement

/-- **A tag of a quiet text** is a statement whose body is sealed. -/
theorem sealed_body_of_readStatement {r : Registry} (hr : r.Named) {blocks after : List Block}
    {line : Nat} {command : Command} {t rest : Text} {s : Statement} (hq : Quiet short t)
    (h : readStatement r blocks line command t = .ok (some ((s, after), rest))) :
    Sealed short (s.body r) := by
  obtain ⟨-, -, hvalue⟩ := change_of_readStatement h
  refine Statement.sealed_body fun e he => ?_
  obtain ⟨rest', hfills⟩ := hvalue e he
  have hscope : (⟨r, Block.loops blocks⟩ : Scope).registry.Named := hr
  exact Expr.sealed_code hscope hfills.wellFormed fun _ hm => hfills.reads.harmless hq hm

end Stencil
