import Stencil.Proofs.Host.Scanner
import Stencil.Proofs.Template.Segments

/-!
# Proofs/Host/Closed — every statement is closed for the host

Whatever a tag holds, the host reads its statement as one piece of script: names are words, a quoted
text ends where it ended in the tag, operators keep their blanks, and every bracket that is opened
is closed in its turn.  So the only comment of a statement is its mark, and the script ends at the
last two characters (`events_of_statement`).
-/

namespace Stencil

open Script

/-! ## Tokens -/

namespace Text

theorem ne_of_isNamePart {c d : Char} (hc : isNamePart c = true) (hd : isNamePart d = false) :
    c ≠ d := by
  rintro rfl
  rw [hc] at hd
  cases hd

/-- A character of a name is read as itself and is no bracket. -/
theorem inert_of_isNamePart {c : Char} (h : isNamePart c = true) :
    isInert c = true ∧ side? c = none := by
  have hspecial : (['?', '/', '#', '\'', '"', '(', ')', '[', ']'].all
      fun d => !isNamePart d) = true := by decide
  have hall : ∀ d ∈ ['?', '/', '#', '\'', '"', '(', ')', '[', ']'], c ≠ d := fun d hd =>
    ne_of_isNamePart h (by simpa using List.all_eq_true.1 hspecial d hd)
  simp only [List.forall_mem_cons] at hall
  obtain ⟨h1, h2, h3, h4, h5, h6, h7, h8, h9, -⟩ := hall
  simp [isInert, side?, h1, h2, h3, h4, h5, h6, h7, h8, h9]

end Text

namespace Token

/-- The characters of a number. -/
def isNumberPart (c : Char) : Bool :=
  Text.isDigit c || c == '.' || c == 'e' || c == 'E' || c == '+' || c == '-'

theorem isNumberPart_of_mem_number {c : Char} {t : Text} (h : c ∈ (number t).1) :
    isNumberPart c = true := by
  have hdigits : ∀ {t : Text}, c ∈ t.takeWhile Text.isDigit → isNumberPart c = true := by
    intro t hm
    have hc : Text.isDigit c = true := List.all_eq_true.1 List.all_takeWhile c hm
    simp [isNumberPart, hc]
  unfold number at h
  rcases List.mem_append.1 h with h | h
  · rcases List.mem_append.1 h with h | h
    · exact hdigits h
    · unfold fraction at h
      split at h
      · rcases List.mem_cons.1 h with rfl | h
        · rfl
        · exact hdigits h
      · cases h
  · unfold exponent at h
    split at h
    · split at h
      · next e s d t hcond =>
        simp only [Bool.and_eq_true, Bool.or_eq_true, beq_iff_eq] at hcond
        obtain ⟨⟨he, hs⟩, hd⟩ := hcond
        simp only [List.mem_cons] at h
        rcases h with rfl | rfl | rfl | h
        · rcases he with rfl | rfl <;> rfl
        · rcases hs with rfl | rfl <;> rfl
        · simp [isNumberPart, hd]
        · exact hdigits h
      · cases h
    · cases h

theorem inert_of_isNumberPart {c : Char} (h : isNumberPart c = true) :
    isInert c = true ∧ side? c = none := by
  have hne : ∀ d : Char, isNumberPart d = false → c ≠ d := by
    rintro d hd rfl
    rw [h] at hd
    cases hd
  simp [isInert, side?, hne '?' (by decide), hne '/' (by decide), hne '#' (by decide),
    hne '\'' (by decide), hne '"' (by decide), hne '(' (by decide), hne ')' (by decide),
    hne '[' (by decide), hne ']' (by decide)]

/-- **A token that is closed in generated code**: a name is a word of name characters, a number is
closed, a quoted text ends with its quote, and an operator is closed between its blanks. -/
structure Settled (token : Token) : Prop where
  name : token.kind = .name → ∀ c ∈ token.text, Text.isNamePart c = true
  number : token.kind = .number → Closed token.text
  quoted : token.kind = .quoted → ∃ quote body, (quote = '"' ∨ quote = '\'') ∧
    QuotedBody quote body ∧ token.text = quote :: body
  operator : token.isBinary = true → Closed (" " ++ token.text ++ " ")

/-- **Every token that is read is settled.** -/
theorem settled_of_next {t rest : Text} {token : Token} (h : next t = .ok (token, rest)) :
    token.Settled := by
  have htable : ∀ p ∈ fixed, (p.2 ≠ .name ∧ p.2 ≠ .number ∧ p.2 ≠ .quoted) ∧
      (isBinary ⟨p.2, p.1.toList⟩ = true → steady (" " ++ p.1.toList ++ " ") = true ∧
        nest [] ((" " ++ p.1.toList ++ " " : Text).filterMap side?) = some []) := by decide
  obtain ⟨c, t, rfl⟩ := exists_cons_of_next h
  rcases next_cases h with
    ⟨-, hk⟩ | ⟨-, hk⟩ | ⟨hc, rfl⟩ | ⟨-, rfl⟩ | ⟨hc, b, hb, rfl⟩ | ⟨p, hp, rfl⟩
  · cases token
    cases hk
    exact ⟨nofun, nofun, nofun, nofun⟩
  · cases token
    cases hk
    exact ⟨nofun, nofun, nofun, nofun⟩
  · refine ⟨fun _ d hd => ?_, nofun, nofun, nofun⟩
    rcases List.mem_cons.1 hd with rfl | hd
    · exact Text.isNamePart_of_isNameStart hc
    · exact List.all_eq_true.1 List.all_takeWhile d hd
  · refine ⟨nofun, fun _ => ?_, nofun, nofun⟩
    exact closed_of_forall fun d hd => inert_of_isNumberPart (isNumberPart_of_mem_number hd)
  · exact ⟨nofun, nofun, fun _ => ⟨c, b, hc, quotedBody_of_closeQuote hb, rfl⟩, nofun⟩
  · obtain ⟨⟨hname, hnumber, hquoted⟩, hop⟩ := htable p hp
    exact ⟨fun hk => absurd hk hname, fun hk => absurd hk hnumber, fun hk => absurd hk hquoted,
      fun hk => moves_word _ (hop hk).1 (hop hk).2⟩

end Token

theorem Reads.settled {t rest : Text} {tokens : List Token} {token : Token}
    (h : Reads t tokens rest) (hm : token ∈ tokens) : token.Settled := by
  obtain ⟨s, r, -, hn⟩ := h.exists_next hm
  exact Token.settled_of_next hn

/-! ## References -/

/-- A word of the host: only name characters. -/
def IsWord (name : Text) : Prop := ∀ c ∈ name, Text.isNamePart c = true

theorem IsWord.closed {name : Text} (h : IsWord name) : Closed name :=
  closed_of_forall fun c hc => Text.inert_of_isNamePart (h c hc)

theorem Adapter.moves_opening {a : Adapter} (h : a.Named) : Moves [] a.opening [.paren] := by
  have howner : Closed a.owner := by
    refine closed_of_forall fun c hc => ?_
    rcases h c hc with hc | rfl
    · exact Text.inert_of_isNamePart hc
    · decide
  have hslash : Closed "\\" := moves_word _
  exact Moves.append (hslash.append howner) (moves_word "::o(")

theorem FrameVar.closed_code (v : FrameVar) (depth : Nat) : Closed (v.code depth) := by
  have hletter : Closed v.suffix := by
    cases v <;> exact moves_word _
  have hfront : Closed "$L" := moves_word _
  exact (hfront.append (closed_decimal depth)).append hletter

/-- The code of a key: a name in double quotes, between square brackets. -/
theorem IsWord.closed_index {key : Text} (h : IsWord key) : Closed ("[\"" ++ key ++ "\"]") := by
  have hbody : QuotedBody '"' (key ++ ['"']) := by
    induction key with
    | nil => exact .close
    | cons c key ih =>
      have hc : Text.isNamePart c = true := h c List.mem_cons_self
      exact .char (Text.ne_of_isNamePart hc (by decide)) (Text.ne_of_isNamePart hc (by decide))
        (ih fun d hd => h d (List.mem_cons_of_mem _ hd))
  have hquoted : Closed ('"' :: (key ++ ['"'])) := closed_quoted (.inl rfl) hbody
  have hcode := hquoted.squares
  simpa using hcode

theorem closed_indexCode {keys : List Text} (h : ∀ key ∈ keys, IsWord key) :
    Closed (indexCode keys) := closed_flatMap fun key hkey => (h key hkey).closed_index

theorem closed_joinPath {names : List Text} (h : ∀ name ∈ names, IsWord name) :
    Closed (joinPath names) := by
  unfold joinPath
  induction names with
  | nil => exact closed_nil
  | cons name names ih =>
    have hname : Closed name := (h name List.mem_cons_self).closed
    have hnames := ih fun n hn => h n (List.mem_cons_of_mem _ hn)
    have hslash : Closed ['\\'] := moves_word _
    cases names with
    | nil =>
      rw [List.intercalate_singleton]
      exact hname
    | cons next names =>
      rw [List.intercalate_cons_cons]
      exact (hname.append hslash).append hnames

section Names

variable {names : List Text} (hn : ∀ name ∈ names, IsWord name)
include hn

theorem IsPath.closed {path : Text} (h : IsPath names path) : Closed path := by
  obtain ⟨parts, hparts, rfl⟩ := h
  exact closed_joinPath fun name hm => hn name (hparts hm)

theorem Root.MadeOf.closed_code {root : Root} (h : root.MadeOf names) : Closed root.code := by
  have hslash : Closed "\\" := moves_word _
  cases root with
  | data => exact moves_word "$V"
  | superglobal name =>
    change Closed (if name = "GLOBALS" then "$GLOBALS" else "$_" ++ name)
    have hfront : Closed "$_" := moves_word _
    split
    · exact moves_word _
    · exact hfront.append (hn name h).closed
  | frame depth var => exact var.closed_code depth
  | constant path => exact hslash.append (IsPath.closed hn h)
  | classConstant owner name =>
    have hcolons : Closed "::" := moves_word _
    exact ((hslash.append (IsPath.closed hn h.1)).append hcolons).append (hn name h.2).closed

theorem closed_indexed {root : Root} {keys : List Text} (hroot : root.MadeOf names)
    (hkeys : keys ⊆ names) : Closed (root.code ++ indexCode keys) :=
  (hroot.closed_code hn).append (closed_indexCode fun key hk => hn key (hkeys hk))

/-- **A reference made of names is closed.** -/
theorem Reference.MadeOf.closed_code {r : Registry} (hr : r.Named) {target : Reference}
    (h : target.MadeOf names) : Closed (target.code r) := by
  have hslash : Closed "\\" := moves_word _
  have hcolons : Closed "::" := moves_word _
  have harrow : Closed "->" := moves_word _
  have hcall : Moves [.paren] ")->" [] := moves_word _
  cases target with
  | word text => exact (hn text h).closed
  | self => exact moves_word "$this"
  | selfMethod method =>
    have hself : Closed "$this->" := moves_word _
    exact hself.append (hn method h).closed
  | value root keys => exact closed_indexed hn h.1 h.2
  | wrapped root keys method =>
    have hvalue := (closed_indexed hn h.1 h.2.1).inside [.paren]
    have hall := (((Adapter.moves_opening hr.wrapper).append hvalue).append hcall).append
      (hn method h.2.2).closed
    rw [← List.append_assoc] at hall
    exact hall
  | objectMethod root keys method =>
    exact ((closed_indexed hn h.1 h.2.1).append harrow).append (hn method h.2.2).closed
  | helper depth method =>
    have hvar : ∀ v : FrameVar, Moves [.paren] (v.code depth) [.paren] := fun v =>
      (v.closed_code depth).inside [.paren]
    have hcomma : Moves [.paren] "," [.paren] := moves_word _
    have hfront := (((Adapter.moves_opening hr.helper).append (hvar .index)).append hcomma).append
      (hvar .size)
    have hback := (((hfront.append hcomma).append (hvar .key)).append hcomma).append (hvar .value)
    exact (hback.append hcall).append (hn method h).closed
  | construct name => exact (hn name h).closed
  | function path => exact hslash.append (IsPath.closed hn h)
  | staticMethod owner method =>
    exact ((hslash.append (IsPath.closed hn h.1)).append hcolons).append (hn method h.2).closed

end Names

/-! ## Expressions -/

theorem closed_sign {sign : Option Text} {value : Value} (h : SignFits sign value) :
    Closed (sign.getD []) := by
  cases sign with
  | none => exact closed_nil
  | some text =>
    have hsigns : ∀ word ∈ [['!'], ['~'], ['+'], ['-']], steady word = true ∧
        nest [] (word.filterMap side?) = some [] := by decide
    obtain ⟨hsteady, hnest⟩ := hsigns text (h text rfl).1
    exact moves_word text hsteady hnest

theorem closed_jointCode {op : Token} (h : op.Settled) (hb : op.isBinary = true) (left : Terms)
    (sign : Option Text) (right : Value) : Closed (jointCode left op sign right) := by
  unfold jointCode
  split
  · exact moves_word _
  · exact h.operator hb

theorem closed_quotedCode {t : Text} (h : (⟨.quoted, t⟩ : Token).Settled) :
    Closed (quotedCode t) := by
  obtain ⟨quote, body, hquote, hbody, rfl⟩ := h.quoted rfl
  rcases hquote with rfl | rfl
  · exact closed_quoted (.inl rfl) hbody.guardDollars
  · exact closed_quoted (.inr rfl) hbody

/-- Every token of a list is settled. -/
def AllSettled (tokens : List Token) : Prop := ∀ token ∈ tokens, token.Settled

theorem allSettled_append {a b : List Token} :
    AllSettled (a ++ b) ↔ AllSettled a ∧ AllSettled b := List.forall_mem_append

theorem allSettled_cons {token : Token} {tokens : List Token} :
    AllSettled (token :: tokens) ↔ token.Settled ∧ AllSettled tokens := List.forall_mem_cons

theorem Chain.Denotes.closed_of_tokens {s : Scope} (hr : s.registry.Named) {c : Chain}
    (ht : AllSettled c.tokens) {called : Bool} {target : Reference}
    (h : c.Denotes s called target) : Closed (target.code s.registry) :=
  h.madeOf.closed_code (fun _ hm => (ht _ (named_mem_tokens hm)).name rfl) hr

mutual

/-- The code of a value is closed. -/
theorem Value.closed_code {s : Scope} (hr : s.registry.Named) : ∀ {value : Value},
    value.WellFormed s → AllSettled value.tokens → Closed (value.code s.registry)
  | .number _, _, ht => (ht _ List.mem_cons_self).number rfl
  | .quoted _, _, ht => closed_quotedCode (ht _ List.mem_cons_self)
  | .name _ _, hw, ht => hw.closed_of_tokens hr ht
  | .call _ _ args, hw, ht => by
    obtain ⟨hchain, hgroup⟩ := allSettled_append.1 ht
    have htarget := hw.1.closed_of_tokens hr hchain
    have hargs := Items.closed_code hr hw.2.2 (allSettled_append.1 (allSettled_cons.1 hgroup).2).1
    have hall := htarget.append hargs.parens
    rw [← List.append_assoc, ← List.append_assoc] at hall
    exact hall
  | .paren inner, hw, ht =>
    (Expr.closed_code hr hw (allSettled_append.1 (allSettled_cons.1 ht).2).1).parens
  | .literal _ items, hw, ht =>
    (Items.closed_code hr hw.2 (allSettled_append.1 (allSettled_cons.1 ht).2).1).squares
  | .index value _ key, hw, ht => by
    obtain ⟨htv, hgroup⟩ := allSettled_append.1 ht
    have hvalue := Value.closed_code hr hw.1 htv
    have hkey := Expr.closed_code hr hw.2.2 (allSettled_append.1 (allSettled_cons.1 hgroup).2).1
    have hall := hvalue.append hkey.squares
    rw [← List.append_assoc, ← List.append_assoc] at hall
    exact hall
  | .method value name args, hw, ht => by
    obtain ⟨htv, hbehind⟩ := allSettled_append.1 ht
    obtain ⟨hname, hgroup⟩ := allSettled_cons.1 (allSettled_cons.1 hbehind).2
    have hvalue := (Value.closed_code hr hw.1 htv).inside [.paren]
    have hargs := Items.closed_code hr hw.2.2.2.2
      (allSettled_append.1 (allSettled_cons.1 hgroup).2).1
    have harrow : Moves [.paren] ")->" [] := moves_word _
    have hwrapped := ((Adapter.moves_opening hr.wrapper).append hvalue).append harrow
    have hmethod : Closed name := IsWord.closed (hname.name rfl)
    have hall := (hwrapped.append hmethod).append hargs.parens
    rw [← List.append_assoc, ← List.append_assoc] at hall
    exact hall

/-- The code of terms is closed. -/
theorem Terms.closed_code {s : Scope} (hr : s.registry.Named) : ∀ {terms : Terms},
    terms.WellFormed s → AllSettled terms.tokens → Closed (terms.code s.registry)
  | .one _ _, hw, ht =>
    (closed_sign hw.1).append (Value.closed_code hr hw.2 (allSettled_append.1 ht).2)
  | .more left op sign value, hw, ht => by
    obtain ⟨htl, hbehind⟩ := allSettled_append.1 ht
    obtain ⟨hop, hright⟩ := allSettled_cons.1 hbehind
    have hleft := Terms.closed_code hr hw.1 htl
    have hvalue := Value.closed_code hr hw.2.2.2 (allSettled_append.1 hright).2
    exact ((hleft.append (closed_jointCode hop hw.2.1 left sign value)).append
      (closed_sign hw.2.2.1)).append hvalue

/-- **The code of an expression is closed.** -/
theorem Expr.closed_code {s : Scope} (hr : s.registry.Named) : ∀ {e : Expr},
    e.WellFormed s → AllSettled e.tokens → Closed (e.code s.registry)
  | .plain _, hw, ht => Terms.closed_code hr hw ht
  | .ternary test yes no, hw, ht => by
    obtain ⟨htt, hbehind⟩ := allSettled_append.1 ht
    obtain ⟨hty, hlast⟩ := allSettled_append.1 (allSettled_cons.1 hbehind).2
    have htest := Terms.closed_code hr hw.1 htt
    have hyes := Expr.closed_code hr hw.2.1.2 hty
    have hno := (Expr.closed_code hr hw.2.2.2 (allSettled_cons.1 hlast).2).inside [.paren]
    have hquestion : Closed " ? " := moves_word _
    have hcolon : Moves [] " : (" [.paren] := moves_word _
    have hfront := (htest.append hquestion).append hyes
    exact ((Moves.append hfront hcolon).append hno).append (moves_word ")")

/-- The code of the parts of a group is closed. -/
theorem Items.closed_code {s : Scope} (hr : s.registry.Named) : ∀ {items : Items},
    items.WellFormed s → AllSettled items.tokens → Closed (items.code s.registry)
  | .empty, _, _ => closed_nil
  | .item before value, hw, ht => by
    obtain ⟨htb, hbehind⟩ := allSettled_append.1 ht
    have hbefore := Items.closed_code hr hw.1 htb
    have hvalue := Expr.closed_code hr hw.2 (allSettled_append.1 hbehind).2
    have hcomma : Closed ", " := moves_word _
    cases before with
    | empty => exact hvalue
    | item _ _ => exact (hbefore.append hcomma).append hvalue
    | pair _ _ _ => exact (hbefore.append hcomma).append hvalue
  | .pair before key value, hw, ht => by
    obtain ⟨htb, hbehind⟩ := allSettled_append.1 ht
    obtain ⟨htk, hlast⟩ := allSettled_append.1 (allSettled_append.1 hbehind).2
    have hbefore := Items.closed_code hr hw.1 htb
    have hkey := Expr.closed_code hr hw.2.1 htk
    have hvalue := Expr.closed_code hr hw.2.2 (allSettled_cons.1 hlast).2
    have harrow : Closed " => " := moves_word _
    have hcomma : Closed ", " := moves_word _
    cases before with
    | empty => exact (hkey.append harrow).append hvalue
    | item _ _ => exact (((hbefore.append hcomma).append hkey).append harrow).append hvalue
    | pair _ _ _ => exact (((hbefore.append hcomma).append hkey).append harrow).append hvalue

end

/-! ## Statements -/

namespace Statement

/-- **The body of a statement is closed if its expression is.** -/
theorem closed_body {r : Registry} {s : Statement}
    (h : ∀ e, s.value? = some e → Closed (e.code r)) : Closed (s.body r) := by
  cases s with
  | echo value => exact h value rfl
  | loop frame array =>
    have ha : Closed (FrameVar.array.code frame) := FrameVar.closed_code .array frame
    have hi : Closed (FrameVar.index.code frame) := FrameVar.closed_code .index frame
    have hs : Closed (FrameVar.size.code frame) := FrameVar.closed_code .size frame
    have hk : Closed (FrameVar.key.code frame) := FrameVar.closed_code .key frame
    have hv : Closed (FrameVar.value.code frame) := FrameVar.closed_code .value frame
    have hequals : Closed "=" := moves_word _
    have hassign := (ha.append hequals).append (h array rfl)
    have htest : Moves [] ";if (is_array(" [.paren, .paren] := moves_word _
    have hand : Moves [.paren, .paren] ") and !empty(" [.paren, .paren] := moves_word _
    have hbrace : Moves [.paren, .paren] ")) \x7b" [] := moves_word _
    have hguard := ((((Moves.append hassign htest).append (ha.inside _)).append hand).append
      (ha.inside _)).append hbrace
    have hcount : Moves [] "=count(" [.paren] := moves_word _
    have hcounted : Moves [.paren] ");" [] := moves_word _
    have hsize := (((hguard.append hs).append hcount).append (ha.inside _)).append hcounted
    have heach : Moves [] "=-1;foreach(" [.paren] := moves_word _
    have has : Moves [.paren] " as " [.paren] := moves_word _
    have harrow : Moves [.paren] "=>" [.paren] := moves_word _
    have hhead := ((((hsize.append hi).append heach).append (ha.inside _)).append has).append
      (hk.inside _)
    have hstart : Moves [.paren] ") \x7b ++" [] := moves_word _
    have hvalue := ((hhead.append harrow).append (hv.inside _)).append hstart
    exact (hvalue.append hi).append (moves_word ";")
  | branch test =>
    have hopen : Moves [] "if (" [.paren] := moves_word _
    exact (hopen.append ((h test rfl).inside _)).append (moves_word ") \x7b")
  | elseIf test =>
    have hopen : Moves [] "\x7d else if (" [.paren] := moves_word _
    exact (hopen.append ((h test rfl).inside _)).append (moves_word ") \x7b")
  | loopElse => exact moves_word "\x7d\x7d else \x7b"
  | branchElse => exact moves_word "\x7d else \x7b"
  | endLoop => exact moves_word "\x7d\x7d"
  | endBranch => exact moves_word "\x7d"

/-- The code of a statement behind its delimiter. -/
def tail (r : Registry) (m : Mark) (s : Statement) : Text :=
  " " ++ s.body r ++ " " ++ m.comment ++ " ?>"

theorem code_eq_delimiter_tail (r : Registry) (m : Mark) (s : Statement) :
    s.code r m = s.delimiter ++ s.tail r m := by
  unfold code tail
  simp only [List.append_assoc]

/-- **A statement with a closed body**: its brackets, its mark, and the end of the script. -/
theorem events_tail {r : Registry} {s : Statement} (h : Closed (s.body r)) (m : Mark) :
    ∃ sides, Script.nest [] sides = some [] ∧
      events .code (s.tail r m) = sides.map .bracket ++
        [.startsBlock (m.comment ++ " ?>"), .endsBlock " ?>", .finish []] := by
  have hblank : Closed " " := moves_word _
  obtain ⟨sides, hsides, hnest⟩ := (hblank.append h).append hblank
  refine ⟨sides, hnest, ?_⟩
  unfold tail
  rw [List.append_assoc, hsides, events_comment]
  rfl

end Statement

theorem closed_body_of_readStatement {r : Registry} (hr : r.Named) {blocks after : List Block}
    {line : Nat} {command : Command} {t rest : Text} {s : Statement}
    (h : readStatement r blocks line command t = .ok (some ((s, after), rest))) :
    Closed (s.body r) := by
  obtain ⟨-, -, hvalue⟩ := change_of_readStatement h
  refine Statement.closed_body fun e he => ?_
  obtain ⟨rest', hfills⟩ := hvalue e he
  have hscope : (⟨r, Block.loops blocks⟩ : Scope).registry.Named := hr
  exact Expr.closed_code hscope hfills.wellFormed fun _ hm => hfills.reads.settled hm

/-- **The statements of a body.**  In the body of a template that compiles, the host reads each
statement behind its delimiter as code with nested brackets, then as one comment that is the mark,
and comes to the end of the script at the last two characters. -/
theorem events_of_statement (c : Compiler) (source out : Text) (hnamed : c.registry.Named)
    (hok : c.compile source = .ok out) :
    ∃ segments, c.segments source = .ok segments ∧
      out = segments.flatMap (Segment.code c.registry) ∧
      ∀ text line s, Segment.tag text line s ∈ segments →
        ∃ tail sides, (Segment.tag text line s).code c.registry = s.delimiter ++ tail ∧
          nest [] sides = some [] ∧
          events .code tail = sides.map .bracket ++
            [.startsBlock (Mark.comment ⟨line, text⟩ ++ " ?>"), .endsBlock " ?>", .finish []] := by
  obtain ⟨segments, hsegments, rfl⟩ := Compiler.compile_eq_ok_iff.1 hok
  obtain ⟨-, hscan⟩ := Compiler.segments_eq_ok_iff.1 hsegments
  refine ⟨segments, hsegments, rfl, ?_⟩
  intro text line s hmem
  obtain ⟨front, back, hsplit⟩ := List.append_of_mem hmem
  obtain ⟨blocks, -, hfits⟩ := fits_of_scan hscan hsplit
  have hbody : Closed (s.body c.registry) := by
    cases hfits with
    | tag _ _ _ hread => exact closed_body_of_readStatement hnamed hread
  obtain ⟨sides, hnest, hevents⟩ := Statement.events_tail hbody ⟨line, text⟩
  exact ⟨_, sides, Statement.code_eq_delimiter_tail _ _ _, hnest, hevents⟩

/-- A quoted text that holds the end of a comment, the end of script and a bracket. -/
theorem events_of_quoted_ends :
    ∃ out tail sides, (Compiler.mk .standard false).compile "[= x + '*/ ?>(' ]" = .ok out ∧
      out = "<?=" ++ tail ∧ nest [] sides = some [] ∧
      events .code tail = sides.map .bracket ++
        [.startsBlock (Mark.comment ⟨1, "[= x + '*/ ?>(' ]"⟩ ++ " ?>"), .endsBlock " ?>",
          .finish []] := by
  let shown : Expr := .plain (.more (.one none (.name ⟨0, ["x"]⟩ (.value .data ["x"])))
    ⟨.plus, "+"⟩ none (.quoted "'*/ ?>('"))
  have hok : (Compiler.mk .standard false).segments "[= x + '*/ ?>(' ]" =
      .ok [.plain [], .tag "[= x + '*/ ?>(' ]" 1 (.echo shown), .plain []] := by
    with_unfolding_all rfl
  have hout := Compiler.compile_eq_ok_iff.2 ⟨_, hok, rfl⟩
  have hnamed : Registry.standard.Named :=
    ⟨fun c hc => .inl (List.all_eq_true.1 (by decide) c hc),
      fun c hc => .inl (List.all_eq_true.1 (by decide) c hc)⟩
  obtain ⟨segments, hsegments, -, htags⟩ := events_of_statement _ _ _ hnamed hout
  rw [hok] at hsegments
  cases hsegments
  obtain ⟨tail, sides, hcode, hnest, hevents⟩ := htags _ 1 (.echo shown) (.tail _ (.head _))
  refine ⟨_, tail, sides, hout, ?_, hnest, hevents⟩
  rw [List.flatMap_cons, List.flatMap_cons, List.flatMap_singleton, hcode]
  exact List.append_nil _

end Stencil
