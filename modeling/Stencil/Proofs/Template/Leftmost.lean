import Stencil.Proofs.Template.Search
import Stencil.Proofs.Token.Pattern

/-!
# Proofs/Template/Leftmost — the first opener is the leftmost match of a pattern

    text      a [ 0 ]   <!-- [ \\ =  …        pattern   (<!--\s*)?  [  \*  and one of = @ ? : / *
    search                   ▲                       the bracket first, then what stands before it
    matching            ▲                            from the left

A search goes from bracket to bracket and looks back for an HTML comment start; a pattern is matched
from the left, comment start first.  The two agree: a comment start and blanks hold no bracket, so
where the one bracket is behind the other, so are the matches, and the start of a match tells all of
its parts (`Match.eq_of_before`).  So the first opener is the leftmost match, with the comment start
if there is one, and there is none only where nothing matches (`find?_leftmost`).
-/

namespace Stencil

namespace Opener

open Pattern

/-! ## The pattern -/

/-- An HTML comment start, and blanks. -/
def htmlPattern : Pattern := seq (word "<!--") (many (one Text.isBlank))

/-- Backslashes, of which there may be none. -/
def backslashPattern : Pattern := many (one (· == '\\'))

/-- The character of a command. -/
def commandPattern : Pattern := one fun c => "=@?:/*".toList.contains c

/-- **The pattern of an opener.** -/
def pattern : Pattern :=
  seq htmlPattern.optional (seq (one (· == '[')) (seq backslashPattern commandPattern))

theorem mem_htmlPattern_iff {html : Text} :
    html ∈ htmlPattern.optional.language ↔ IsHtmlLead html := by
  have hstart : html ∈ htmlPattern.language ↔
      ∃ blanks, html = htmlOpen ++ blanks ∧ ∀ c ∈ blanks, Text.isBlank c = true := by
    simp only [htmlPattern, mem_seq, mem_many_one]
    constructor
    · rintro ⟨_, rfl, blanks, hblanks, rfl⟩
      exact ⟨blanks, rfl, hblanks⟩
    · rintro ⟨blanks, rfl, hblanks⟩
      exact ⟨htmlOpen, rfl, blanks, hblanks, rfl⟩
  rw [mem_optional, hstart, IsHtmlLead, or_comm]

theorem mem_backslashPattern_iff {b : Text} :
    b ∈ backslashPattern.language ↔ b = List.replicate b.length '\\' := by
  simp only [backslashPattern, mem_many_one, beq_iff_eq, List.eq_replicate_iff, true_and]

theorem mem_commandPattern_iff {c : Char} :
    [c] ∈ commandPattern.language ↔ isCommandChar c = true := by
  have hclass : [c] ∈ commandPattern.language ↔ "=@?:/*".toList.contains c = true :=
    ⟨fun ⟨_, hd, hc⟩ => (List.cons.inj hc).1 ▸ hd, fun hc => ⟨c, hc, rfl⟩⟩
  have hcommands : "=@?:/*".toList = ['=', '@', '?', ':', '/', '*'] := by decide
  rw [hclass, isCommandChar, hcommands]
  simp only [List.contains_cons, List.contains_nil, Bool.or_false, Bool.or_assoc]

/-! ## Matches -/

/-- **A match of the pattern in a text**: how it cuts the text into parts. -/
@[ext] structure Match (t : Text) where
  before : Text
  /-- The optional part, or nothing. -/
  html : Text
  backslashes : Text
  command : Char
  after : Text
  whole : before ++ (html ++ '[' :: (backslashes ++ command :: after)) = t
  html_mem : html ∈ htmlPattern.optional.language
  backslashes_mem : backslashes ∈ backslashPattern.language
  command_mem : [command] ∈ commandPattern.language

namespace Match

variable {t : Text}

/-- The text that matches. -/
def text (m : Match t) : Text := m.html ++ '[' :: (m.backslashes ++ [m.command])

/-- Where a match starts, in bytes. -/
def start (m : Match t) : Nat := m.before.size

/-- Where a match stops, in bytes. -/
def stop (m : Match t) : Nat := m.start + m.text.size

/-- **A match that is leftmost**: every other one starts behind its start. -/
def IsLeftmost (m : Match t) : Prop := ∀ m' : Match t, m' = m ∨ m.start < m'.start

/-- **A match that takes the optional part** if it stands there: a match without has no comment start
and blanks before it. -/
def TakesHtml (m : Match t) : Prop :=
  m.html = [] → ∀ front w, m.before = front ++ w → w ∉ htmlPattern.language

theorem append_text (m : Match t) : m.before ++ (m.text ++ m.after) = t := by
  rw [text, List.append_assoc, List.cons_append, List.append_assoc]
  exact m.whole

/-- **The text of a match matches.** -/
theorem text_mem (m : Match t) : m.text ∈ pattern.language :=
  mem_seq.2 ⟨_, m.html_mem, _, mem_seq_one.2 ⟨'[', _, rfl,
    mem_seq.2 ⟨_, m.backslashes_mem, _, m.command_mem, rfl⟩, rfl⟩, rfl⟩

/-- **There is a match where a part of the text matches.** -/
theorem nonempty_iff : Nonempty (Match t) ↔ ∃ w, w <:+: t ∧ w ∈ pattern.language := by
  constructor
  · rintro ⟨m⟩
    exact ⟨m.text, ⟨m.before, m.after, (List.append_assoc _ _ _).trans m.append_text⟩, m.text_mem⟩
  · rintro ⟨w, ⟨front, back, rfl⟩, hw⟩
    obtain ⟨html, hhtml, _, hbracket, rfl⟩ := mem_seq.1 hw
    obtain ⟨b, _, hb, htail, rfl⟩ := mem_seq_one.1 hbracket
    obtain ⟨backslashes, hbackslashes, _, ⟨c, hc, rfl⟩, rfl⟩ := mem_seq.1 htail
    obtain rfl := beq_iff_eq.1 hb
    refine ⟨⟨front, html, backslashes, c, back, ?_, hhtml, hbackslashes, ⟨c, hc, rfl⟩⟩⟩
    simp only [List.append_assoc, List.cons_append, List.nil_append]

/-- An opener starts where a match starts. -/
theorem startsOpener (m : Match t) : StartsOpener (m.text ++ m.after) := by
  refine ⟨m.html, m.backslashes.length, m.command, m.after, mem_htmlPattern_iff.1 m.html_mem,
    mem_commandPattern_iff.1 m.command_mem, ?_⟩
  rw [← mem_backslashPattern_iff.1 m.backslashes_mem, text]
  simp only [List.append_assoc, List.cons_append, List.nil_append]

/-- **The start of a match tells the match**: the comment start and the blanks end at the bracket,
and the backslashes end at the command. -/
theorem eq_of_before {m m' : Match t} (h : m.before = m'.before) : m = m' := by
  have hcut := List.append_cancel_left (h ▸ m.whole.trans m'.whole.symm)
  obtain ⟨hhtml, htail⟩ := Text.append_cons_inj
    (not_mem_of_isHtmlLead (mem_htmlPattern_iff.1 m.html_mem))
    (not_mem_of_isHtmlLead (mem_htmlPattern_iff.1 m'.html_mem)) hcut
  rw [mem_backslashPattern_iff.1 m.backslashes_mem, mem_backslashPattern_iff.1 m'.backslashes_mem]
    at htail
  have hread := congrArg (fun u => bracket? ('[' :: u)) htail
  simp only [bracket?_eq_some (mem_commandPattern_iff.1 m.command_mem),
    bracket?_eq_some (mem_commandPattern_iff.1 m'.command_mem), Option.some.injEq,
    Prod.mk.injEq] at hread
  obtain ⟨hlength, hcommand, hafter⟩ := hread
  refine Match.ext h hhtml ?_ hcommand hafter
  rw [mem_backslashPattern_iff.1 m.backslashes_mem, hlength,
    ← mem_backslashPattern_iff.1 m'.backslashes_mem]

/-! ## What a search finds -/

/-- The match at the first opener. -/
def ofFind? {o : Opener} (h : find? t = some o) : Match t where
  before := o.before
  html := o.html
  backslashes := List.replicate o.backslashes '\\'
  command := o.command
  after := o.rest
  whole := by
    rw [← find?_append h, Opener.text, textWith]
    simp only [List.append_assoc, List.cons_append, List.nil_append]
  html_mem := mem_htmlPattern_iff.2 (isHtmlLead_of_find? h)
  backslashes_mem := mem_backslashPattern_iff.2 (by rw [List.length_replicate])
  command_mem := mem_commandPattern_iff.2 (isCommandChar_of_find? h)

/-- **No match starts before the first opener.** -/
theorem before_prefix {o : Opener} (h : find? t = some o) (m : Match t) :
    (ofFind? h).before <+: m.before := by
  rcases List.prefix_or_prefix_of_prefix ⟨_, (ofFind? h).whole⟩ ⟨_, m.whole⟩ with
    hle | ⟨more, hmore⟩
  · exact hle
  by_cases hnil : more = []
  · rw [← hmore, hnil, List.append_nil]
  · have hahead := m.append_text.trans (ofFind? h).append_text.symm
    rw [← hmore, List.append_assoc] at hahead
    have hstarts := m.startsOpener
    rw [List.append_cancel_left hahead] at hstarts
    exact absurd hstarts (not_startsOpener_before h hmore.symm hnil)

/-- **The match at the first opener is leftmost.** -/
theorem isLeftmost_ofFind? {o : Opener} (h : find? t = some o) : (ofFind? h).IsLeftmost := by
  intro m
  obtain ⟨more, hmore⟩ := before_prefix h m
  by_cases hnil : more = []
  · rw [hnil, List.append_nil] at hmore
    exact .inl (eq_of_before hmore.symm)
  · rw [start, start, ← hmore, Text.size_append]
    exact .inr (Nat.lt_add_of_pos_right (Text.size_pos hnil))

/-- At most one match is leftmost. -/
theorem IsLeftmost.eq {m m' : Match t} (hm : m.IsLeftmost) (hm' : m'.IsLeftmost) : m = m' := by
  rcases hm m' with heq | hlt
  · exact heq.symm
  · exact (hm' m).resolve_right (Nat.lt_asymm hlt)

/-- **A leftmost match takes the optional part**: with it, the match would start further left. -/
theorem IsLeftmost.takesHtml {m : Match t} (hm : m.IsLeftmost) : m.TakesHtml := by
  intro hhtml front w hbefore hw
  have hwhole : front ++ (w ++ '[' :: (m.backslashes ++ m.command :: m.after)) = t := by
    rw [← List.append_assoc, ← hbefore]
    exact (congrArg (fun html => m.before ++ (html ++ _)) hhtml).symm.trans m.whole
  rcases hm { m with before := front, html := w, whole := hwhole, html_mem := .inl hw } with
    heq | hlt
  · obtain ⟨_, rfl, _, -, hnil⟩ := mem_seq.1 hw
    cases hnil.trans ((congrArg Match.html heq).trans hhtml)
  · rw [start, start, hbefore, Text.size_append] at hlt
    exact absurd hlt (Nat.not_lt.2 (Nat.le_add_right _ _))

end Match

/-- **Nothing is found only where nothing matches.** -/
theorem find?_eq_none_iff {t : Text} : find? t = none ↔ ¬ Nonempty (Match t) := by
  constructor
  · rintro h ⟨m⟩
    exact not_startsOpener_of_find?_none h m.append_text.symm m.startsOpener
  · intro h
    by_contra hne
    obtain ⟨o, ho⟩ := Option.ne_none_iff_exists'.1 hne
    exact h ⟨Match.ofFind? ho⟩

/-! ## In bytes -/

/-- **The numbers of an opener measure a match**: its start, its parts and its stop. -/
structure InBytes.Measures {t : Text} (found : InBytes) (m : Match t) : Prop where
  literal : found.literal = m.start
  html : found.html = m.html.size
  backslashes : found.backslashes = m.backslashes.size
  command : [found.command] = Text.utf8 [m.command]
  stop : found.literal + found.size = m.stop

/-- The numbers of an opener are told by the match. -/
theorem InBytes.Measures.eq {t : Text} {found found' : InBytes} {m : Match t}
    (h : found.Measures m) (h' : found'.Measures m) : found = found' := by
  obtain ⟨literal, html, backslashes, command⟩ := found
  obtain ⟨literal', html', backslashes', command'⟩ := found'
  rw [InBytes.mk.injEq]
  exact ⟨h.literal.trans h'.literal.symm, h.html.trans h'.html.symm,
    h.backslashes.trans h'.backslashes.symm, (List.cons.inj (h.command.trans h'.command.symm)).1⟩

theorem measures_inBytes {t : Text} {o : Opener} (h : find? t = some o) :
    o.inBytes.Measures (Match.ofFind? h) where
  literal := rfl
  html := rfl
  backslashes := (Text.size_replicate (by decide) _).symm
  command := (Text.utf8_cons_of_lt
    (InBytes.lt_of_isCommandChar (isCommandChar_of_find? h)) []).symm
  stop := congrArg (o.before.size + ·) (InBytes.size_inBytes o (isCommandChar_of_find? h))

/-- **The first opener is the leftmost match of the pattern**: nothing is found only if no part of
the text matches, and what is found measures the leftmost match, which takes the optional part where
it can.  A search by bytes finds the same. -/
theorem find?_leftmost (t : Text) :
    InBytes.find? t = some ((find? t).map inBytes) ∧
    (find? t = none ↔ ∀ w, w <:+: t → w ∉ pattern.language) ∧
    ∀ found, (find? t).map inBytes = some found ↔
      ∃ m : Match t, m.IsLeftmost ∧ m.TakesHtml ∧ found.Measures m := by
  refine ⟨InBytes.find?_eq t, ?_, fun found => ⟨?_, ?_⟩⟩
  · simp only [find?_eq_none_iff, Match.nonempty_iff, not_exists, not_and]
  · intro h
    obtain ⟨o, ho, rfl⟩ := Option.map_eq_some_iff.1 h
    have hleftmost := Match.isLeftmost_ofFind? ho
    exact ⟨_, hleftmost, hleftmost.takesHtml, measures_inBytes ho⟩
  · rintro ⟨m, hm, -, hfound⟩
    obtain ⟨o, ho⟩ := Option.ne_none_iff_exists'.1 fun h => find?_eq_none_iff.1 h ⟨m⟩
    obtain rfl := hm.eq (Match.isLeftmost_ofFind? ho)
    exact Option.map_eq_some_iff.2 ⟨o, ho, (measures_inBytes ho).eq hfound⟩

example : find? "[0] <!-- [\\x <!--\u00a0\n[\\\\= " =
    some ⟨"[0] <!-- [\\x ", "<!--\u00a0\n", 2, '=', " "⟩ := by decide +kernel

end Opener

end Stencil
