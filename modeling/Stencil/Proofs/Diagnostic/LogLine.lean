import Stencil.Diagnostic.Report
import Stencil.Proofs.Expr.Accounts
import Stencil.Proofs.Template.Location
import Stencil.Proofs.Token.Ahead

/-!
# Proofs/Diagnostic/LogLine — which reports take more than one line of the log

    title: [code] message in file on line n near `tag`
                  └──┬──┘                         └┬┘
                     └─ texts that were read ──────┘
                     └─ preview, owner of an adapter

A log line writes the message and the trimmed tag as they are, so it has a line feed exactly if one
of them has (`feed_mem_logLine_iff`).  A text that was read and named by the message stands inside
the tag, and a line feed in it has something in front of it, the opener, and something behind it, so
trimming does not reach it (`Text.Broken.feed_mem_trim`).  All other line feeds are those of the
preview of what is ahead and those in the owner of an adapter (`Compiler.BreaksLog`); these are all
the reports with a line feed (`logLine_breaks_iff`).
-/

namespace Stencil

/-! ## Trimming -/

/-- **Trimming keeps what stands between characters that are no blanks.** -/
theorem Text.mem_trim_between {a b : Text} (ha : ∃ c ∈ a, isBlank c = false)
    (hb : ∃ c ∈ b, isBlank c = false) (d : Char) : d ∈ trim (a ++ d :: b) := by
  obtain ⟨x, hx, hx'⟩ := ha
  obtain ⟨y, hy, hy'⟩ := hb
  have hend : ∀ t : Text, trimEnd (t ++ d :: b) = t ++ d :: trimEnd b := by
    intro t
    have hextend := trimStart_extend (trimStart_ne_nil (List.mem_reverse.2 hy) hy') (d :: t.reverse)
    simp only [trimStart] at hextend
    simp [trimEnd, hextend]
  rw [trim, trimStart_extend (trimStart_ne_nil hx hx'), hend]
  exact List.mem_append_right _ List.mem_cons_self

/-- A line feed inside a broken text, with something in front of the text. -/
theorem Text.Broken.feed_mem_trim {t : Text} (h : t.Broken) {front : Text}
    (hfront : ∃ c ∈ front, isBlank c = false) (back : Text) :
    '\n' ∈ trim (front ++ t ++ back) := by
  obtain ⟨a, b, rfl, c, hc, hblank⟩ := h
  obtain ⟨d, hd, hd'⟩ := hfront
  have hsplit : front ++ (a ++ '\n' :: b) ++ back = (front ++ a) ++ '\n' :: (b ++ back) := by simp
  rw [hsplit]
  exact mem_trim_between ⟨d, List.mem_append_left _ hd, hd'⟩
    ⟨c, List.mem_append_left _ hc, hblank⟩ _

/-! ## The log line -/

namespace Diagnostic

/-- **A log line has a line feed exactly if the message or the trimmed tag has one**, for a file
whose name has none. -/
theorem feed_mem_logLine_iff (d : Diagnostic) (hfile : ∀ f ∈ d.file, '\n' ∉ f) :
    '\n' ∈ d.logLine ↔ '\n' ∈ d.message ∨ ∃ t ∈ d.tag, '\n' ∈ Text.trim t := by
  have htitle : '\n' ∉ d.family.title := by cases d.family <;> decide
  have hlabel : '\n' ∉ d.code.label := by cases d.code <;> decide
  have hdecimal := Text.feed_not_mem_decimal
  unfold logLine display
  cases hf : d.file <;> cases d.line <;> cases d.tag <;> simp_all

end Diagnostic

/-! ## Where a reader of a tag stops -/

/-- **A template stops in a tag**: behind segments that were all read, the reader of the tag at the
next opener gives `stuck`, and `e` is the report about it. -/
def Compiler.StopsAt (c : Compiler) (source : Text) (stuck : Stuck) (e : Diagnostic) : Prop :=
  ∃ segments q o command,
    Passes c.registry (.first (Source.normalize source)) segments q ∧
    Opener.find? q.ahead = some o ∧ o.backslashes = 0 ∧ Command.ofChar? o.command = some command ∧
    readStatement c.registry q.blocks (q.line + o.before.newlines) command o.rest = .error stuck ∧
    e = locate (o.text ++ o.rest) (q.line + o.before.newlines) stuck

/-- **What makes a report break the log**: a tag over several lines, a preview over several lines,
or the owner of the adapter that lacks a method. -/
inductive Compiler.BreaksLog (c : Compiler) (source : Text) (e : Diagnostic) : Prop
  | tag {t : Text} (ht : e.tag = some t) (hfeed : '\n' ∈ Text.trim t)
  | preview {stuck : Stuck} (hstops : c.StopsAt source stuck e) (hcode : e.code = .noToken)
      (hfeed : '\n' ∈ stuck.rest.take Token.previewLength)
  | wrapper (hcode : e.code = .noWrapperMethod) (hfeed : '\n' ∈ c.registry.wrapper.owner)
  | helper (hcode : e.code = .noHelperMethod) (hfeed : '\n' ∈ c.registry.helper.owner)

/-- The name of a host tag is of one line. -/
theorem HostTag.feed_not_mem_of_at? {short : Bool} {t tag : Text} (h : at? short t = some tag) :
    '\n' ∉ tag := by
  unfold at? at h
  split at h
  · split at h
    · cases h
      decide
    split at h
    · cases h
      decide
    · split at h
      · cases h
        decide
      · cases h
    · cases h
  · cases h

/-- The owner that a fault names is that of the adapter of its code. -/
theorem Fault.mem_owner?_iff {r : Registry} {f : Fault} (h : f.OwnedBy r) {owner : Text} :
    owner ∈ f.owner? ↔ f.code = .noWrapperMethod ∧ owner = r.wrapper.owner ∨
      f.code = .noHelperMethod ∧ owner = r.helper.owner := by
  cases f with
  | noWrapperMethod method name near =>
    obtain rfl : name = r.wrapper.owner := h
    simp [owner?, code, eq_comm]
  | noHelperMethod method name =>
    obtain rfl : name = r.helper.owner := h
    simp [owner?, code, eq_comm]
  | _ => simp [owner?, code]

section Located

variable {c : Compiler} {source : Text} {stuck : Stuck} {e : Diagnostic}

/-- **A template that does not compile** stops in a tag, or its report has no tag and a message of
one line. -/
theorem stopsAt_or_plain (h : c.compile source = .error e) :
    e.file = none ∧ ((∃ stuck, c.StopsAt source stuck e) ∨
      e.tag = none ∧ (e.code = .hostTag ∨ e.code = .unclosedBlock) ∧ '\n' ∉ e.message) := by
  rcases compile_error_read h with
    ⟨tag, line, hfind, rfl⟩ | ⟨segments, q, hpasses, ⟨o, hfind, hread⟩ | ⟨b, -, rfl⟩⟩
  · obtain ⟨front, rest, -, hat, -⟩ := HostTag.find?_cases hfind
    refine ⟨rfl, .inr ⟨rfl, .inl rfl, ?_⟩⟩
    change '\n' ∉ (Fault.hostTag tag).message
    simpa [Fault.feed_mem_message_iff, Fault.named, Fault.owner?] using
      HostTag.feed_not_mem_of_at? hat
  · obtain ⟨hplain, command, stuck, hcommand, hstuck, rfl⟩ := stuck_of_readSegment hread
    refine ⟨rfl, .inl ⟨stuck, segments, q, o, command, hpasses, hfind, hplain, hcommand, ?_, rfl⟩⟩
    exact hstuck
  · refine ⟨rfl, .inr ⟨rfl, .inr rfl, ?_⟩⟩
    change '\n' ∉ (Fault.unclosedBlock b.kind.symbol).message
    cases b.kind <;> decide

namespace Compiler.StopsAt

theorem code (h : c.StopsAt source stuck e) : e.code = stuck.fault.code := by
  obtain ⟨_, _, _, _, -, -, -, -, -, rfl⟩ := h
  rfl

theorem message (h : c.StopsAt source stuck e) : e.message = stuck.fault.message := by
  obtain ⟨_, _, _, _, -, -, -, -, -, rfl⟩ := h
  rfl

/-- **A report about a tag accounts for its line feeds**: the preview is what was ahead, and of all
other texts that it names, those of more than one line stand in its tag. -/
theorem accounts (h : c.StopsAt source stuck e) :
    stuck.fault.OwnedBy c.registry ∧
    (e.code = .noToken → stuck.fault = .noToken (stuck.rest.take Token.previewLength)) ∧
    (e.code ≠ .noToken → ∀ t ∈ stuck.fault.named, '\n' ∈ t → c.BreaksLog source e) := by
  rw [h.code]
  obtain ⟨segments, q, o, command, -, -, -, -, hread, rfl⟩ := h
  obtain ⟨howner, hpreview, hnamed⟩ := readStatement_accounts _ _ _ _ _ stuck hread
  refine ⟨howner, hpreview, fun hcode t ht hfeed => ?_⟩
  obtain ⟨passed, hpassed, hbroken⟩ := hnamed hcode t ht hfeed
  have hopener : ∃ d ∈ o.text, Text.isBlank d = false :=
    ⟨'[', by simp [Opener.text, Opener.textWith], by decide⟩
  have hupTo : Text.upTo (o.text ++ o.rest) stuck.rest = o.text ++ passed := by
    rw [hpassed, ← List.append_assoc, Text.upTo_append]
  refine .tag rfl ?_
  rw [hupTo]
  exact hbroken.feed_mem_trim hopener _

end Compiler.StopsAt

/-- A message of more than one line breaks the log for one of the four reasons. -/
theorem breaksLog_of_message (hstops : c.StopsAt source stuck e) (hfeed : '\n' ∈ e.message) :
    c.BreaksLog source e := by
  obtain ⟨howner, hpreview, hnamed⟩ := hstops.accounts
  rw [hstops.message, Fault.feed_mem_message_iff] at hfeed
  rcases hfeed with ⟨t, ht, hfeed⟩ | ⟨owner, hmem, hfeed⟩
  · by_cases hcode : e.code = .noToken
    · rw [hpreview hcode] at ht
      exact .preview hstops hcode (List.mem_singleton.1 ht ▸ hfeed)
    · exact hnamed hcode t ht hfeed
  · rw [Fault.mem_owner?_iff howner, ← hstops.code] at hmem
    rcases hmem with ⟨hcode, rfl⟩ | ⟨hcode, rfl⟩
    · exact .wrapper hcode hfeed
    · exact .helper hcode hfeed

/-- Each of the four reasons shows in the message or in the tag. -/
theorem feed_mem_of_breaksLog (h : c.compile source = .error e) (hbreaks : c.BreaksLog source e) :
    '\n' ∈ e.message ∨ ∃ t ∈ e.tag, '\n' ∈ Text.trim t := by
  -- A missing method is reported about a tag, and its fault names the owner.
  have howner : ∀ owner : Text, '\n' ∈ owner →
      (e.code = .noWrapperMethod ∧ owner = c.registry.wrapper.owner ∨
        e.code = .noHelperMethod ∧ owner = c.registry.helper.owner) → '\n' ∈ e.message := by
    intro owner hfeed hmem
    rcases (stopsAt_or_plain h).2 with ⟨stuck, hstops⟩ | ⟨-, hcode, -⟩
    · rw [hstops.code, ← Fault.mem_owner?_iff hstops.accounts.1] at hmem
      rw [hstops.message, Fault.feed_mem_message_iff]
      exact .inr ⟨owner, hmem, hfeed⟩
    · rcases hcode with hcode | hcode <;> rw [hcode] at hmem <;> simp at hmem
  cases hbreaks with
  | tag ht hfeed => exact .inr ⟨_, ht, hfeed⟩
  | preview hstops hcode hfeed =>
    left
    rw [hstops.message, Fault.feed_mem_message_iff, hstops.accounts.2.1 hcode]
    exact .inl ⟨_, List.mem_singleton_self _, hfeed⟩
  | wrapper hcode hfeed => exact .inl (howner _ hfeed (.inl ⟨hcode, rfl⟩))
  | helper hcode hfeed => exact .inl (howner _ hfeed (.inr ⟨hcode, rfl⟩))

end Located

/-- **Which reports take more than one line of the log**, for every registry, setting and template:
those whose tag is of more than one line, those of a text that is no token with a line feed in its
preview, and those of a missing method whose adapter has an owner with a line feed in its name; with
a file or without one. -/
theorem logLine_breaks_iff (c : Compiler) (source : Text) (e : Diagnostic)
    (h : c.compile source = .error e) :
    ('\n' ∈ e.logLine ↔ c.BreaksLog source e) ∧
    ∀ file : Text, '\n' ∉ file → ('\n' ∈ (e.withFile file).logLine ↔ c.BreaksLog source e) := by
  obtain ⟨hnone, hcases⟩ := stopsAt_or_plain h
  have hreasons : '\n' ∈ e.message ∨ (∃ t ∈ e.tag, '\n' ∈ Text.trim t) ↔ c.BreaksLog source e := by
    refine ⟨?_, feed_mem_of_breaksLog h⟩
    rintro (hfeed | ⟨t, ht, hfeed⟩)
    · rcases hcases with ⟨stuck, hstops⟩ | ⟨-, -, hplain⟩
      · exact breaksLog_of_message hstops hfeed
      · exact absurd hfeed hplain
    · exact .tag ht hfeed
  refine ⟨?_, fun file hfile => ?_⟩
  · rw [e.feed_mem_logLine_iff (by simp [hnone]), hreasons]
  · rw [Diagnostic.feed_mem_logLine_iff _ (by simpa [Diagnostic.withFile, hnone] using hfile)]
    exact hreasons

/-- A quoted text over two lines, which the message and the tag both show. -/
theorem logLine_breaks_quoted :
    ∃ e, (Compiler.mk .standard false).compile "[= 'x\ny' 1]" = .error e ∧ e.code = .unexpected ∧
      (Compiler.mk .standard false).BreaksLog "[= 'x\ny' 1]" e ∧
      ∀ file : Text, '\n' ∉ file → '\n' ∈ (e.withFile file).logLine := by
  have herror : (Compiler.mk .standard false).compile "[= 'x\ny' 1]" =
      .error ⟨.unexpected, "Unexpected `'x\ny' 1`", some 2, some "[= 'x\ny' 1]", none⟩ := by
    with_unfolding_all rfl
  have hbreaks : (Compiler.mk .standard false).BreaksLog "[= 'x\ny' 1]"
      ⟨.unexpected, "Unexpected `'x\ny' 1`", some 2, some "[= 'x\ny' 1]", none⟩ :=
    .tag rfl (by decide)
  obtain ⟨-, hfile⟩ := logLine_breaks_iff _ _ _ herror
  exact ⟨_, herror, rfl, hbreaks, fun file hfeed => (hfile file hfeed).2 hbreaks⟩

/-- **A log line may be split by its tag**: two names, each on a line of its own. -/
theorem logLine_two_names :
    ¬ ∀ (c : Compiler) (source : Text) (e : Diagnostic), c.compile source = .error e →
      '\n' ∉ e.logLine := by
  intro hclaim
  have herror : (Compiler.mk .standard false).compile "[= a\nb ]" =
      .error ⟨.unexpected, "Unexpected `a b`", some 2, some "[= a\nb ]", none⟩ := by
    with_unfolding_all rfl
  exact hclaim _ _ _ herror (by decide)

end Stencil
