import Mathlib.Data.List.Infix
import Stencil.Diagnostic.Report
import Stencil.Proofs.Json.Spelling
import Stencil.Proofs.Text.Lines

/-!
# Proofs/Diagnostic/Html — an HTML report has no markup but its own

    <b>title</b> display in <b>file</b> on line <b>line</b><br><code>tag</code>

Whatever the values of a report hold, its angle brackets are those of the fixed markup, it has no
quotes, and each of its ampersands starts an entity (`Html.Sound`).  So it can be read back: cut at
the markup (`Html.cut`), taken apart at the labels and decoded, it tells the facts that it was made
of (`read?_html`).
-/

namespace Stencil

namespace Html

/-! ## Entities -/

/-- The characters that are written as entities. -/
def specials : List Char := ['&', '<', '>', '"', '\'']

/-- The entities of a report. -/
def entities : List Text := ["&amp;", "&lt;", "&gt;", "&quot;", "&#039;"]

/-- A text with its entities decoded. -/
def decode : Text → Text
  | '&' :: 'a' :: 'm' :: 'p' :: ';' :: t => '&' :: decode t
  | '&' :: 'l' :: 't' :: ';' :: t => '<' :: decode t
  | '&' :: 'g' :: 't' :: ';' :: t => '>' :: decode t
  | '&' :: 'q' :: 'u' :: 'o' :: 't' :: ';' :: t => '"' :: decode t
  | '&' :: '#' :: '0' :: '3' :: '9' :: ';' :: t => '\'' :: decode t
  | c :: t => c :: decode t
  | [] => []

theorem forall_mem_specials {p : Char → Prop} :
    (∀ c ∈ specials, p c) ↔ p '&' ∧ p '<' ∧ p '>' ∧ p '"' ∧ p '\'' := by
  simp [specials]

theorem decode_char {c : Char} (hc : c ≠ '&') (t : Text) : decode (c :: t) = c :: decode t := by
  rw [decode] <;> simp [hc]

theorem escapeChar_plain {c : Char} (h : c ∉ specials) : Diagnostic.escapeChar c = [c] := by
  simp only [specials, List.mem_cons, List.not_mem_nil, or_false, not_or] at h
  simp [Diagnostic.escapeChar, h]

theorem decode_escapeChar (c : Char) (t : Text) :
    decode (Diagnostic.escapeChar c ++ t) = c :: decode t := by
  by_cases hc : c ∈ specials
  · simp only [specials, List.mem_cons, List.not_mem_nil, or_false] at hc
    rcases hc with rfl | rfl | rfl | rfl | rfl <;> rfl
  · rw [escapeChar_plain hc]
    refine decode_char ?_ t
    rintro rfl
    exact hc (by decide)

/-- **Decoding undoes escaping**, on every text. -/
theorem decode_escapeHtml (t : Text) : decode (Diagnostic.escapeHtml t) = t := by
  induction t with
  | nil => rfl
  | cons c t ih =>
    rw [Diagnostic.escapeHtml, List.flatMap_cons, decode_escapeChar]
    exact congrArg (c :: ·) ih

theorem decode_comp_escapeHtml : decode ∘ Diagnostic.escapeHtml = id := funext decode_escapeHtml

/-- A text without ampersands says what it is. -/
theorem decode_eq_self {t : Text} (h : '&' ∉ t) : decode t = t := by
  induction t with
  | nil => rfl
  | cons c t ih =>
    rw [List.mem_cons, not_or] at h
    rw [decode_char (Ne.symm h.1), ih h.2]

/-! ## Markup -/

/-- The fixed markup of a report. -/
inductive Markup
  | bold
  | boldEnd
  | lineBreak
  | code
  | codeEnd
  deriving DecidableEq, Repr

/-- How markup is written. -/
def Markup.text : Markup → Text
  | bold => "<b>"
  | boldEnd => "</b>"
  | lineBreak => "<br>"
  | code => "<code>"
  | codeEnd => "</code>"

/-- All of the markup. -/
def Markup.all : List Markup := [bold, boldEnd, lineBreak, code, codeEnd]

/-- **Every ampersand starts an entity.** -/
def Refers (t : Text) : Prop :=
  ∀ s, s <:+ t → s.head? = some '&' → ∃ e ∈ entities, e <+: s

theorem refers_iff {t : Text} :
    Refers t ↔ ∀ s ∈ t.tails, s.head? = some '&' → ∃ e ∈ entities, e <+: s := by
  simp only [Refers, List.mem_tails]

instance (t : Text) : Decidable (Refers t) := decidable_of_iff _ refers_iff.symm

/-- **An escaped text**: no angle brackets, no quotes, and its ampersands start entities. -/
structure Escaped (t : Text) : Prop where
  less : '<' ∉ t
  greater : '>' ∉ t
  unquoted : '"' ∉ t ∧ '\'' ∉ t
  refers : Refers t

theorem escaped_iff {t : Text} :
    Escaped t ↔ '<' ∉ t ∧ '>' ∉ t ∧ ('"' ∉ t ∧ '\'' ∉ t) ∧ Refers t :=
  ⟨fun h => ⟨h.less, h.greater, h.unquoted, h.refers⟩, fun h => ⟨h.1, h.2.1, h.2.2.1, h.2.2.2⟩⟩

instance (t : Text) : Decidable (Escaped t) := decidable_of_iff _ escaped_iff.symm

/-- **A text of a report**: its angle brackets are those of markup, it has no quotes, and its
ampersands start entities. -/
structure Sound (t : Text) : Prop where
  opens : ∀ s, s <:+ t → s.head? = some '<' → ∃ m ∈ Markup.all, m.text <+: s
  closes : ∀ s, s <+: t → s.getLast? = some '>' → ∃ m ∈ Markup.all, m.text <:+ s
  unquoted : '"' ∉ t ∧ '\'' ∉ t
  refers : Refers t

theorem sound_iff {t : Text} : Sound t ↔
    (∀ s ∈ t.tails, s.head? = some '<' → ∃ m ∈ Markup.all, m.text <+: s) ∧
      (∀ s ∈ t.inits, s.getLast? = some '>' → ∃ m ∈ Markup.all, m.text <:+ s) ∧
      ('"' ∉ t ∧ '\'' ∉ t) ∧ Refers t := by
  simp only [List.mem_tails, List.mem_inits]
  exact ⟨fun h => ⟨h.opens, h.closes, h.unquoted, h.refers⟩,
    fun h => ⟨h.1, h.2.1, h.2.2.1, h.2.2.2⟩⟩

instance (t : Text) : Decidable (Sound t) := decidable_of_iff _ sound_iff.symm

/-- What starts in a text that was put together starts in one of its parts. -/
theorem suffix_append_cases {a b s : Text} {c : Char} (hs : s <:+ a ++ b) (hc : s.head? = some c) :
    s <:+ b ∨ ∃ front, front <:+ a ∧ front.head? = some c ∧ front <+: s := by
  rcases List.suffix_or_suffix_of_suffix hs (List.suffix_append a b) with hs' | ⟨front, rfl⟩
  · exact .inl hs'
  cases front with
  | nil => exact .inl (List.suffix_refl _)
  | cons d front =>
    exact .inr ⟨d :: front, List.suffix_append_self_iff.1 hs, hc, List.prefix_append _ _⟩

theorem Refers.append {a b : Text} (ha : Refers a) (hb : Refers b) : Refers (a ++ b) := by
  intro s hs hc
  rcases suffix_append_cases hs hc with hs | ⟨front, hfront, hc, hs⟩
  · exact hb s hs hc
  · obtain ⟨e, he, hprefix⟩ := ha front hfront hc
    exact ⟨e, he, hprefix.trans hs⟩

namespace Escaped

theorem append {a b : Text} (ha : Escaped a) (hb : Escaped b) : Escaped (a ++ b) := by
  refine ⟨?_, ?_, ?_, ha.refers.append hb.refers⟩ <;> simp only [List.mem_append, not_or]
  · exact ⟨ha.less, hb.less⟩
  · exact ⟨ha.greater, hb.greater⟩
  · exact ⟨⟨ha.unquoted.1, hb.unquoted.1⟩, ha.unquoted.2, hb.unquoted.2⟩

/-- A text without special characters is its own escaped form. -/
theorem of_plain {t : Text} (h : ∀ c ∈ specials, c ∉ t) : Escaped t := by
  refine ⟨h _ (by decide), h _ (by decide), ⟨h _ (by decide), h _ (by decide)⟩, fun s hs hc => ?_⟩
  exact absurd (hs.subset (List.mem_of_head? hc)) (h _ (by decide))

/-- **Escaping escapes every text.** -/
theorem escapeHtml (t : Text) : Escaped (Diagnostic.escapeHtml t) := by
  induction t with
  | nil => decide
  | cons c t ih =>
    have hspecial : ∀ c ∈ specials, Escaped (Diagnostic.escapeChar c) :=
      forall_mem_specials.2 (by decide)
    have hc : Escaped (Diagnostic.escapeChar c) := by
      by_cases hc : c ∈ specials
      · exact hspecial c hc
      · rw [escapeChar_plain hc]
        exact of_plain fun d hd hmem => hc (List.mem_singleton.1 hmem ▸ hd)
    exact hc.append ih

/-- A number is written in digits. -/
theorem decimal (n : Nat) : Escaped (Text.decimal n) := by
  refine of_plain fun c hc hmem => ?_
  have hdigits : ∀ c ∈ specials, Text.isDigit c = false := forall_mem_specials.2 (by decide)
  exact absurd (Json.isDigit_of_mem_decimal hmem) (by rw [hdigits c hc]; exact Bool.false_ne_true)

theorem sound {t : Text} (h : Escaped t) : Sound t :=
  ⟨fun _ hs hc => absurd (hs.subset (List.mem_of_head? hc)) h.less,
    fun _ hs hc => absurd (hs.subset (List.mem_of_getLast? hc)) h.greater, h.unquoted, h.refers⟩

end Escaped

/-- **Texts of a report one behind the other.** -/
theorem Sound.append {a b : Text} (ha : Sound a) (hb : Sound b) : Sound (a ++ b) := by
  refine ⟨fun s hs hc => ?_, fun s hs hc => ?_, ?_, ha.refers.append hb.refers⟩
  · rcases suffix_append_cases hs hc with hs | ⟨front, hfront, hc, hs⟩
    · exact hb.opens s hs hc
    · obtain ⟨m, hm, hprefix⟩ := ha.opens front hfront hc
      exact ⟨m, hm, hprefix.trans hs⟩
  · rcases List.prefix_or_prefix_of_prefix hs (List.prefix_append a b) with hs' | ⟨back, rfl⟩
    · exact ha.closes s hs' hc
    rcases List.eq_nil_or_concat' back with rfl | ⟨front, d, rfl⟩
    · rw [List.append_nil] at hc ⊢
      exact ha.closes a (List.prefix_refl a) hc
    · rw [← List.append_assoc, List.getLast?_concat] at hc
      obtain ⟨m, hm, hmarkup⟩ := hb.closes (front ++ [d]) ((List.prefix_append_right_inj a).1 hs)
        (List.getLast?_concat.trans hc)
      exact ⟨m, hm, hmarkup.trans (List.suffix_append _ _)⟩
  · simp only [List.mem_append, not_or]
    exact ⟨⟨ha.unquoted.1, hb.unquoted.1⟩, ha.unquoted.2, hb.unquoted.2⟩

/-! ## Cutting at the markup -/

/-- Pieces of markup, each with the text behind it. -/
abbrev Pieces := List (Markup × Text)

/-- A text in front of pieces, as it is written. -/
def render (t : Text) (pieces : Pieces) : Text := t ++ pieces.flatMap fun (m, s) => m.text ++ s

/-- **A text cut at its markup**: the text before the first piece, and the pieces. -/
def cut : Text → Text × Pieces
  | '<' :: 'b' :: '>' :: t => ([], (.bold, (cut t).1) :: (cut t).2)
  | '<' :: '/' :: 'b' :: '>' :: t => ([], (.boldEnd, (cut t).1) :: (cut t).2)
  | '<' :: 'b' :: 'r' :: '>' :: t => ([], (.lineBreak, (cut t).1) :: (cut t).2)
  | '<' :: 'c' :: 'o' :: 'd' :: 'e' :: '>' :: t => ([], (.code, (cut t).1) :: (cut t).2)
  | '<' :: '/' :: 'c' :: 'o' :: 'd' :: 'e' :: '>' :: t => ([], (.codeEnd, (cut t).1) :: (cut t).2)
  | c :: t => (c :: (cut t).1, (cut t).2)
  | [] => ([], [])

theorem cut_markup (m : Markup) (t : Text) :
    cut (m.text ++ t) = ([], (m, (cut t).1) :: (cut t).2) := by
  cases m <;> rfl

/-- Text without markup stays in front of what follows. -/
theorem cut_append {s : Text} (h : '<' ∉ s) (t : Text) :
    cut (s ++ t) = (s ++ (cut t).1, (cut t).2) := by
  induction s with
  | nil => rfl
  | cons c s ih =>
    rw [List.mem_cons, not_or] at h
    rw [List.cons_append, cut, ih h.2]
    · rfl
    all_goals exact fun _ hc => absurd hc.symm h.1

/-- **What is written in pieces is cut into them** if their texts are escaped. -/
theorem cut_render {t : Text} {pieces : Pieces} (ht : Escaped t) (h : ∀ p ∈ pieces, Escaped p.2) :
    cut (render t pieces) = (t, pieces) := by
  induction pieces generalizing t with
  | nil =>
    rw [render, List.flatMap_nil, cut_append ht.less]
    exact congrArg (·, []) (List.append_nil t)
  | cons p pieces ih =>
    have hbehind := ih (h p List.mem_cons_self) fun q hq => h q (List.mem_cons_of_mem p hq)
    rw [render] at hbehind
    rw [render, List.flatMap_cons, cut_append ht.less, List.append_assoc, cut_markup, hbehind,
      List.append_nil]

/-- **What is written in pieces has no markup but theirs** if their texts are escaped. -/
theorem sound_render {t : Text} {pieces : Pieces} (ht : Escaped t)
    (h : ∀ p ∈ pieces, Escaped p.2) : Sound (render t pieces) := by
  have hmarkup : ∀ m ∈ Markup.all, Sound m.text := by decide
  refine ht.sound.append ?_
  induction pieces with
  | nil => decide
  | cons p pieces ih =>
    have hp : Sound p.1.text := hmarkup _ (by cases p.1 <;> decide)
    exact (hp.append (h p List.mem_cons_self).sound).append
      (ih fun q hq => h q (List.mem_cons_of_mem p hq))

/-! ## Reading a report -/

/-- What a report tells. -/
structure Facts where
  title : Text
  shown : Text
  file : Option Text
  line : Option Nat
  tag : Option Text
  deriving DecidableEq, Repr

/-- Where a report is read: what was shown so far, the text at hand, and the pieces behind it. -/
structure Reading where
  shown : Text
  text : Text
  pieces : Pieces

/-- The value in bold behind a label, if it comes next. -/
def Reading.bold (q : Reading) (label : Text) : Option Text × Reading :=
  match q.pieces, Text.dropSuffix? label q.text with
  | (.bold, value) :: (.boldEnd, text) :: pieces, some before =>
    (some value, ⟨q.shown ++ before, text, pieces⟩)
  | _, _ => (none, q)

/-- The value in a line of code, if it comes next. -/
def Reading.code (q : Reading) : Option Text :=
  match q.pieces with
  | (.lineBreak, _) :: (.code, value) :: _ => some value
  | _ => none

/-- **The facts that a report tells.** -/
def read? (t : Text) : Option Facts :=
  match (cut t).2 with
  | (.bold, title) :: (.boldEnd, text) :: pieces =>
    let (file, q) := Reading.bold ⟨[], text, pieces⟩ " in "
    let (line, q) := q.bold " on line "
    some {
      title := decode title
      shown := decode (q.shown ++ q.text).tail
      file := file.map decode
      line := line.map Text.digitsValue
      tag := q.code.map decode }
  | _ => none

/-- A value in bold behind its label, in front of text and pieces; the label stands in the text
before it. -/
def labelled (label : Text) (value : Option Text) (behind : Text × Pieces) : Text × Pieces :=
  match value with
  | none => behind
  | some value => (label, (.bold, value) :: (.boldEnd, behind.1) :: behind.2)

/-- No value in bold is read where none comes, or where the label does not end the text. -/
theorem Reading.bold_eq_none {q : Reading} {label : Text}
    (h : q.pieces.head?.map Prod.fst ≠ some .bold ∨ Text.dropSuffix? label q.text = none) :
    q.bold label = (none, q) := by
  unfold Reading.bold
  split
  · next hpieces hbefore =>
    rw [hpieces, hbefore] at h
    simp at h
  · rfl

/-- **A value is read behind its label**, and what was shown before the label is kept. -/
theorem Reading.bold_labelled (label : Text) (value : Option Text) (behind : Text × Pieces)
    (shown s : Text) (h : value = none →
      behind.2.head?.map Prod.fst ≠ some .bold ∨ Text.dropSuffix? label (s ++ behind.1) = none) :
    ∃ shown' s', shown' ++ s' = shown ++ s ∧
      Reading.bold ⟨shown, s ++ (labelled label value behind).1, (labelled label value behind).2⟩
        label = (value, ⟨shown', s' ++ behind.1, behind.2⟩) := by
  cases value with
  | none => exact ⟨shown, s, rfl, Reading.bold_eq_none (h rfl)⟩
  | some value =>
    refine ⟨shown ++ s, [], List.append_nil _, ?_⟩
    simp only [labelled, Reading.bold, Text.dropSuffix?_append_self, List.nil_append]

end Html

namespace Diagnostic

open Html

/-- What there is to tell about a diagnostic. -/
def facts (d : Diagnostic) : Facts :=
  ⟨d.family.title, d.display, d.file, d.line, d.tag.map Text.trim⟩

/-- The pieces of a report that show its tag. -/
def tagPieces (d : Diagnostic) : Pieces :=
  match d.tag with
  | none => []
  | some tag => [(.lineBreak, []), (.code, escapeHtml (Text.trim tag)), (.codeEnd, [])]

/-- The text and the pieces of a report from its line on. -/
def linePieces (d : Diagnostic) : Text × Pieces :=
  labelled " on line " (d.line.map Text.decimal) ([], d.tagPieces)

/-- The text and the pieces of a report from its file on. -/
def filePieces (d : Diagnostic) : Text × Pieces :=
  labelled " in " (d.file.map escapeHtml) d.linePieces

/-- The pieces of a report. -/
def pieces (d : Diagnostic) : Pieces :=
  (.bold, d.family.title) :: (.boldEnd, ' ' :: escapeHtml d.display ++ d.filePieces.1) ::
    d.filePieces.2

theorem html_eq_render (d : Diagnostic) : d.html = render [] d.pieces := by
  obtain ⟨code, message, line, tag, file⟩ := d
  have hmarkup : Markup.bold.text = "<b>" ∧ Markup.boldEnd.text = "</b>" ∧
      Markup.lineBreak.text = "<br>" ∧ Markup.code.text = "<code>" ∧
      Markup.codeEnd.text = "</code>" := ⟨rfl, rfl, rfl, rfl, rfl⟩
  unfold html
  cases file <;> cases line <;> cases tag <;>
    simp [render, pieces, filePieces, linePieces, tagPieces, labelled, hmarkup]

/-- All texts of a report are escaped from its file on. -/
theorem escaped_filePieces (d : Diagnostic) :
    Escaped d.filePieces.1 ∧ ∀ p ∈ d.filePieces.2, Escaped p.2 := by
  have hlabelled : ∀ {label value} {behind : Text × Pieces}, Escaped label →
      (∀ v ∈ value, Escaped v) → (Escaped behind.1 ∧ ∀ p ∈ behind.2, Escaped p.2) →
      Escaped (labelled label value behind).1 ∧
        ∀ p ∈ (labelled label value behind).2, Escaped p.2 := by
    intro label value behind hlabel hvalue hbehind
    cases value with
    | none => exact hbehind
    | some value =>
      simp only [labelled, List.forall_mem_cons]
      exact ⟨hlabel, hvalue value rfl, hbehind⟩
  have hnil : Escaped [] := by decide
  have htag : ∀ p ∈ d.tagPieces, Escaped p.2 := by
    unfold tagPieces
    split
    · exact nofun
    · simp only [List.forall_mem_cons]
      exact ⟨hnil, .escapeHtml _, hnil, nofun⟩
  have hline : ∀ v ∈ d.line.map Text.decimal, Escaped v := by
    intro v hv
    obtain ⟨n, -, rfl⟩ := Option.map_eq_some_iff.1 hv
    exact .decimal n
  have hfile : ∀ v ∈ d.file.map escapeHtml, Escaped v := by
    intro v hv
    obtain ⟨file, -, rfl⟩ := Option.map_eq_some_iff.1 hv
    exact .escapeHtml file
  exact hlabelled (by decide) hfile (hlabelled (by decide) hline ⟨hnil, htag⟩)

theorem plain_title (d : Diagnostic) : ∀ c ∈ specials, c ∉ d.family.title := by
  cases d.family <;> exact forall_mem_specials.2 (by decide)

/-- **All texts of a report are escaped.** -/
theorem escaped_of_mem_pieces {d : Diagnostic} : ∀ p ∈ d.pieces, Escaped p.2 := by
  obtain ⟨htext, hpieces⟩ := d.escaped_filePieces
  have hblank : Escaped [' '] := by decide
  have hshown : Escaped (' ' :: escapeHtml d.display) := hblank.append (.escapeHtml d.display)
  simp only [pieces, List.forall_mem_cons]
  exact ⟨.of_plain d.plain_title, hshown.append htext, hpieces⟩

/-- **A report tells its facts.** -/
theorem read?_html (d : Diagnostic) : read? d.html = some d.facts := by
  have hcut : cut d.html = ([], d.pieces) := by
    rw [html_eq_render, cut_render (by decide) escaped_of_mem_pieces]
  have htag : d.tagPieces.head?.map Prod.fst ≠ some .bold := by
    unfold tagPieces
    split <;> simp
  -- Without a file, what comes first in bold is a line, and its label is another one.
  have hother : d.linePieces.2.head?.map Prod.fst ≠ some .bold ∨
      Text.dropSuffix? " in " (' ' :: escapeHtml d.display ++ d.linePieces.1) = none := by
    unfold linePieces labelled
    split
    · exact .inl htag
    · right
      simp [Text.dropSuffix?, Text.dropPrefix?]
  obtain ⟨shown, s, hshown, hfile⟩ := Reading.bold_labelled " in " (d.file.map escapeHtml)
    d.linePieces [] (' ' :: escapeHtml d.display) fun _ => hother
  obtain ⟨shown', s', hshown', hline⟩ := Reading.bold_labelled " on line "
    (d.line.map Text.decimal) ([], d.tagPieces) shown s fun _ => .inl htag
  have hdecode : decode (shown' ++ s').tail = d.display := by
    rw [hshown', hshown, List.nil_append, List.tail_cons, decode_escapeHtml]
  have htitle : decode d.family.title = d.family.title :=
    decode_eq_self (d.plain_title _ (by decide))
  have hvalue : Text.digitsValue ∘ Text.decimal = id :=
    funext fun n => Nat.ofDigitChars_toDigits (by decide) (by decide)
  have hcode : (Reading.code ⟨shown', s', d.tagPieces⟩).map decode = d.tag.map Text.trim := by
    unfold tagPieces
    cases d.tag with
    | none => rfl
    | some tag => exact congrArg some (decode_escapeHtml _)
  rw [read?, hcut]
  simp only [pieces, filePieces, hfile]
  simp only [linePieces, hline, List.append_nil, hdecode, htitle, Option.map_map,
    decode_comp_escapeHtml, hvalue, Option.map_id, id, hcode]
  rfl

/-- **An HTML report cannot be injected into, and it loses nothing**, for every diagnostic: its
angle brackets are those of its markup, it has no quotes, and its ampersands start entities; cut at
the markup and decoded, it gives back its title, what is shown, the file, the line and the trimmed
tag.  Decoding undoes escaping on every text. -/
theorem html_sound_readable (d : Diagnostic) :
    Sound d.html ∧ read? d.html = some d.facts ∧ ∀ t, decode (escapeHtml t) = t :=
  ⟨html_eq_render d ▸ sound_render (by decide) escaped_of_mem_pieces, read?_html d,
    decode_escapeHtml⟩

end Diagnostic

end Stencil
