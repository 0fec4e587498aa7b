import Stencil.Proofs.Host.Safety
import Stencil.Proofs.Text.Offset
import Stencil.Proofs.Template.Segments

/-!
# Proofs/Template/Search — what a scan looks for, by bytes

    bytes   … 3C 21 2D 2D 20 5B 5C 3D …
    text    …  <  !  -  -     [  \  = …         literal, HTML start, backslashes, command

A scan looks for four things: an opener, the end of a comment, the end of an excerpt, and a host tag.
Each is looked for in the bytes, by a probe that sees the bytes from an offset on and cuts the text
at that offset if it has to know what stands before or behind it.  All four start with a character of
one byte, so no probe cuts within a character (`Opener.InBytes.find?_eq`, `excerptSize_eq`, `HostTag.seek?_eq`),
and what is found is what is found character by character.
-/

namespace Stencil

/-! ## Openers -/

/-- A tag opener and what stands before it, counted in bytes. -/
structure Opener.InBytes where
  /-- The text before it. -/
  literal : Nat
  /-- The HTML comment start and the blanks after it, or nothing. -/
  html : Nat
  backslashes : Nat
  command : UInt8

def Opener.inBytes (o : Opener) : Opener.InBytes :=
  ⟨o.before.size, o.html.size, o.backslashes, Text.byte o.command⟩

namespace Opener.InBytes

/-- The size of the opener. -/
def size (found : InBytes) : Nat := found.html + 1 + found.backslashes + 1

/-- The bytes of the command characters. -/
def commands : Bytes := Text.utf8 "=@?:/*"

/-- The bracket, backslashes and command that start bytes: the number of backslashes, and the
command. -/
def bracket? : Bytes → Option (Nat × UInt8)
  | [] => none
  | b :: after =>
    if b = Text.byte '[' then
      match after.dropWhile (· == Text.byte '\\') with
      | [] => none
      | command :: _ =>
        if commands.contains command then some ((after.takeWhile (· == Text.byte '\\')).length, command)
        else none
    else none

/-- The probe for an opener in a text, which cuts the text before the bracket. -/
def probe (text : Text) (pos : Nat) (bytes : Bytes) : Option (Option InBytes) :=
  match bracket? bytes with
  | none => some none
  | some (backslashes, command) =>
    (text.front? pos).map fun front =>
      let before := Text.trimEnd front
      let literal := if htmlOpen.isSuffixOf before then before.size - htmlOpen.size else pos
      some ⟨literal, pos - literal, backslashes, command⟩

/-- The first opener of a text. -/
def find? (text : Text) : Option (Option InBytes) := Bytes.seek (probe text) 0 text.utf8

theorem contains_commands {d : Char} {b : UInt8}
    (hb : ∀ c : Char, c.toNat < 0x80 → (b = Text.byte c ↔ d = c)) :
    commands.contains b = isCommandChar d := by
  have hbyte : ∀ c : Char, c.toNat < 0x80 → (b == Text.byte c) = (d == c) := fun c hc =>
    Bool.eq_iff_iff.2 (beq_iff_eq.trans ((hb c hc).trans beq_iff_eq.symm))
  have hcommands : commands = [Text.byte '=', Text.byte '@', Text.byte '?',
    Text.byte ':', Text.byte '/', Text.byte '*'] := by decide
  rw [hcommands]
  simp only [List.contains_cons, List.contains_nil, Bool.or_false, isCommandChar]
  rw [hbyte _ (by decide), hbyte _ (by decide), hbyte _ (by decide), hbyte _ (by decide),
    hbyte _ (by decide), hbyte _ (by decide)]
  simp only [Bool.or_assoc]

theorem lt_of_isCommandChar {c : Char} (h : isCommandChar c = true) : c.toNat < 0x80 := by
  simp only [isCommandChar, Bool.or_eq_true, beq_iff_eq] at h
  rcases h with ((((rfl | rfl) | rfl) | rfl) | rfl) | rfl <;> decide

/-- **The bracket is found in the bytes as in the text.** -/
theorem bracket?_utf8 (t : Text) :
    bracket? t.utf8 =
      (Opener.bracket? t).map fun (n, c, _) => (n, Text.byte c) := by
  cases t with
  | nil => rfl
  | cons d t =>
    by_cases hd : d = '['
    · subst hd
      obtain ⟨htake, hdrop⟩ := Text.span_utf8 (c := '\\') (by decide) t
      rw [Text.utf8_cons_of_lt (by decide), bracket?, if_pos rfl, Opener.bracket?, htake, hdrop]
      cases t.dropWhile (· == '\\') with
      | nil => rfl
      | cons c rest =>
        obtain ⟨b, bs, hutf8, hb⟩ := Text.first_utf8 c rest
        rw [hutf8]
        dsimp only
        rw [contains_commands hb]
        split
        · next hc => rw [(hb c (lt_of_isCommandChar hc)).2 rfl]; rfl
        · rfl
    · obtain ⟨b, bs, hutf8, hb⟩ := Text.first_utf8 d t
      rw [hutf8, bracket?, if_neg fun h => hd ((hb '[' (by decide)).1 h), Opener.bracket?]
      · rfl
      · rintro t' ⟨⟩
        exact hd rfl

theorem looksForShort_probe (text : Text) : Bytes.LooksForShort (probe text) := by
  intro pos b bs hb
  have hbracket : b ≠ Text.byte '[' := by
    rintro rfl
    exact Text.not_le_byte (by decide) hb
  rw [probe, bracket?, if_neg hbracket]

/-- The HTML comment start before a bracket, by bytes. -/
theorem size_splitHtml (t : Text) :
    (if htmlOpen.isSuffixOf (Text.trimEnd t) then (Text.trimEnd t).size - htmlOpen.size
      else t.size) = (Opener.splitHtml t).1.size := by
  unfold Opener.splitHtml
  extract_lets trimmed
  split
  · next hsuffix =>
    obtain ⟨x, hx⟩ := List.isSuffixOf_iff_suffix.1 hsuffix
    have hsplit : trimmed ++ (t.reverse.takeWhile Text.isBlank).reverse = t := by
      rw [show trimmed = (t.reverse.dropWhile Text.isBlank).reverse from rfl, ← List.reverse_append,
        List.takeWhile_append_dropWhile, List.reverse_reverse]
    have hx : x ++ htmlOpen = trimmed := hx
    have htake : (t.splitAt (trimmed.length - htmlOpen.length)).1 = x := by
      rw [← hsplit, ← hx, List.length_append, Nat.add_sub_cancel, List.splitAt_eq, List.append_assoc,
        List.take_left]
    rw [htake, show Text.trimEnd t = x ++ htmlOpen from hx.symm, Text.size_append,
      Nat.add_sub_cancel]
  · rfl

/-- **Openers are found by bytes.** -/
theorem find?_eq (t : Text) : find? t = some ((Opener.find? t).map Opener.inBytes) := by
  have hseek : ∀ ahead front, Bytes.seek (probe (front ++ ahead)) front.size ahead.utf8 =
      some ((Opener.search? ahead).map fun found =>
        ⟨(Opener.splitHtml (front ++ found.1)).1.size, (Opener.splitHtml (front ++ found.1)).2.size,
          found.2.1, Text.byte found.2.2.1⟩) := by
    intro ahead
    induction ahead with
    | nil => exact fun _ => rfl
    | cons c ahead ih =>
      intro front
      rw [Bytes.seek_utf8_cons (looksForShort_probe _), probe, bracket?_utf8, Opener.search?]
      cases Opener.bracket? (c :: ahead) with
      | some found =>
        obtain ⟨n, command, rest⟩ := found
        simp only [Option.map_some, Text.front?_size, size_splitHtml, List.append_nil]
        have hsize := congrArg Text.size (Opener.splitHtml_append front)
        rw [Text.size_append] at hsize
        rw [← hsize, Nat.add_sub_cancel_left]
      | none =>
        have hnext := ih (front ++ [c])
        rw [List.append_assoc, Text.size_append, Text.size_cons, Text.size_nil] at hnext
        simp only [Option.map_none, Option.map_map]
        refine hnext.trans (congrArg some (Option.map_congr fun found _ => ?_))
        simp only [Function.comp_apply, List.append_assoc, List.cons_append, List.nil_append]
  have hwhole := hseek t []
  rw [List.nil_append] at hwhole
  rw [find?, Opener.find?, Option.map_map]
  exact hwhole

/-- The bytes of an opener are its own. -/
theorem size_inBytes (o : Opener) (h : isCommandChar o.command = true) : o.inBytes.size = o.text.size := by
  have hcommand : o.command.utf8Size = 1 := by
    have hsize := Text.size_cons_of_lt (lt_of_isCommandChar h) []
    rw [Text.size_cons, Text.size_nil] at hsize
    exact hsize
  rw [size, Opener.inBytes, Opener.text, Opener.textWith, Text.size_append, Text.size_cons,
    Text.size_append, Text.size_replicate (by decide), Text.size_cons, Text.size_nil, hcommand]
  rw [show '['.utf8Size = 1 from rfl, Nat.add_assoc, Nat.add_assoc]

end Opener.InBytes

/-! ## The end of an excerpt -/

/-- The probe for the end of an excerpt: behind a closing bracket, or before a line feed. -/
def excerptProbe (pos : Nat) : Bytes → Option (Option Nat)
  | [] => some none
  | b :: _ => some (if b = Text.byte ']' then some (pos + 1) else if b = Text.byte '\n' then some pos else none)

/-- How much of the text ahead an excerpt quotes, in bytes. -/
def excerptSize (t : Text) : Nat := ((Bytes.seek excerptProbe 0 t.utf8).join).getD t.size

theorem looksForShort_excerptProbe : Bytes.LooksForShort excerptProbe := by
  intro pos b bs hb
  have hne : ∀ c : Char, c.toNat < 0x80 → b ≠ Text.byte c := by
    rintro c hc rfl
    exact Text.not_le_byte hc hb
  rw [excerptProbe, if_neg (hne _ (by decide)), if_neg (hne _ (by decide))]

theorem excerptSize_eq (t : Text) : excerptSize t = (excerptEnd t).size := by
  have hseek : ∀ pos, ((Bytes.seek excerptProbe pos t.utf8).join).getD (pos + t.size) =
      pos + (excerptEnd t).size := by
    induction t with
    | nil => exact fun _ => rfl
    | cons d t ih =>
      intro pos
      obtain ⟨b, bs, hutf8, hb⟩ := Text.first_utf8 d t
      have hclose : b = Text.byte ']' ↔ d = ']' := hb ']' (by decide)
      have hfeed : b = Text.byte '\n' ↔ d = '\n' := hb '\n' (by decide)
      have hprobe : excerptProbe pos (Text.utf8 (d :: t)) =
          some (if d = ']' then some (pos + 1) else if d = '\n' then some pos else none) := by
        rw [hutf8, excerptProbe]
        simp only [hclose, hfeed]
      rw [Bytes.seek_utf8_cons looksForShort_excerptProbe, hprobe, excerptEnd]
      by_cases hd : d = ']'
      · simp only [hd]
        rfl
      by_cases hn : d = '\n'
      · simp only [if_neg hd, if_pos hn]
        rfl
      · simp only [if_neg hd, if_neg hn, Text.size_cons, ← Nat.add_assoc]
        exact ih _
  have hwhole := hseek 0
  rwa [Nat.zero_add, Nat.zero_add] at hwhole

/-! ## Host tags -/

namespace HostTag

/-- The host tag whose `<?` stands before a text, which is cut behind its third byte if a word of
that size ends there. -/
def behind? (short : Bool) (after : Text) : Option (Option Text) :=
  if short then some (some "<?")
  else if after.head? = some '=' then some (some "<?=")
  else
    match after.front? 3 with
    | none => some none
    | some word =>
      if word.map Char.toLower = "php" then
        (after.back? 3).map fun rest => if rest.head?.any Text.isBlank then some "<?php" else none
      else some none

/-- The probe for a host tag in a text, which gives its line. -/
def probe (short : Bool) (text : Text) (pos : Nat) (bytes : Bytes) : Option (Option (Text × Nat)) :=
  if (Text.utf8 "<?").isPrefixOf bytes then
    (text.back? (pos + 2)).bind fun after => (text.front? pos).bind fun front =>
      (behind? short after).map fun tag => tag.map fun tag => (tag, 1 + front.newlines)
  else some none

/-- The first host tag of a text. -/
def seek? (short : Bool) (text : Text) : Option (Option (Text × Nat)) :=
  Bytes.seek (probe short text) 0 text.utf8

/-- A letter of `php`, in either case, has one byte. -/
theorem lt_of_toLower {c d : Char} (h : c.toLower = d) (hd : d.toNat < 0x80) : c.toNat < 0x80 := by
  unfold Char.toLower at h
  split at h
  · next hupper =>
    have hle : c.toNat ≤ 'Z'.toNat := hupper.2
    exact Nat.lt_of_le_of_lt hle (by decide)
  · rwa [h]

theorem eq_of_map_toLower {word : Text} (h : word.map Char.toLower = "php") :
    word.size = 3 ∧ ∃ a b c, word = [a, b, c] := by
  obtain ⟨a, word, rfl, ha, h⟩ := List.map_eq_cons_iff.1 h
  obtain ⟨b, word, rfl, hb, h⟩ := List.map_eq_cons_iff.1 h
  obtain ⟨c, word, rfl, hc, h⟩ := List.map_eq_cons_iff.1 h
  obtain rfl := List.map_eq_nil_iff.1 h
  rw [Text.size_cons_of_lt (lt_of_toLower ha (by decide)),
    Text.size_cons_of_lt (lt_of_toLower hb (by decide)),
    Text.size_cons_of_lt (lt_of_toLower hc (by decide))]
  exact ⟨rfl, a, b, c, rfl⟩

/-- What stands behind a `<?` that is no tag of two or three characters. -/
theorem at?_long {after : Text} (h : after.head? ≠ some '=') :
    at? false ('<' :: '?' :: after) =
      match after with
      | a :: b :: c :: d :: _ =>
        if [a, b, c].map Char.toLower = "php" ∧ Text.isBlank d then some "<?php" else none
      | _ => none := by
  unfold at?
  simp only [Bool.false_eq_true, if_false]
  split
  · exact absurd rfl h
  · rfl
  · next hlong => split <;> first | rfl | exact absurd rfl (hlong _ _ _ _ _)

/-- **A host tag behind its `<?`.** -/
theorem behind?_eq (short : Bool) (after : Text) :
    behind? short after = some (at? short ('<' :: '?' :: after)) := by
  unfold behind?
  cases short with
  | true => rfl
  | false =>
  simp only [Bool.false_eq_true, if_false]
  by_cases heq : after.head? = some '='
  · obtain ⟨r, rfl⟩ : ∃ r, after = '=' :: r := by
      cases after with
      | nil => cases heq
      | cons c r => exact ⟨r, congrArg (· :: r) (Option.some.inj heq)⟩
    rfl
  rw [if_neg heq, at?_long heq]
  by_cases hphp : ∃ word rest, after = word ++ rest ∧ word.map Char.toLower = "php"
  · obtain ⟨word, rest, rfl, hword⟩ := hphp
    obtain ⟨hsize, a, b, c, rfl⟩ := eq_of_map_toLower hword
    rw [← hsize, Text.front?_size, Text.back?_size]
    dsimp only
    rw [if_pos hword]
    cases rest with
    | nil => rfl
    | cons d rest => exact congrArg some (if_congr (and_iff_right hword).symm rfl rfl)
  · have hnone : at? false ('<' :: '?' :: after) = none := by
      rw [at?_long heq]
      split
      · next a b c d rest _ => exact if_neg fun h => hphp ⟨[a, b, c], d :: rest, rfl, h.1⟩
      · rfl
    rw [← at?_long heq, hnone]
    cases hfront : after.front? 3 with
    | none => rfl
    | some word =>
      obtain ⟨back, hback⟩ := Text.prefix_of_front? hfront
      exact if_neg fun h => hphp ⟨word, back, hback, h⟩

theorem looksForShort_probe (short : Bool) (text : Text) :
    Bytes.LooksForShort (probe short text) := by
  intro pos b bs hb
  have hword : some (if (Text.utf8 "<?").isPrefixOf (b :: bs) then some pos else none) = some none :=
    Text.looksForShort_wordProbe (c := '<') (by decide) "?" pos b bs hb
  unfold probe
  split
  · next hprefix =>
    rw [if_pos hprefix] at hword
    cases hword
  · rfl

theorem probe_eq (short : Bool) (front ahead : Text) :
    probe short (front ++ ahead) front.size ahead.utf8 =
      some ((at? short ahead).map fun tag => (tag, 1 + front.newlines)) := by
  rw [probe, Text.isPrefixOf_utf8]
  split
  · next hprefix =>
    obtain ⟨after, rfl⟩ := List.isPrefixOf_iff_prefix.1 hprefix
    have hback : (front ++ ("<?".toList ++ after)).back? (front.size + 2) = some after := by
      rw [← List.append_assoc, show front.size + 2 = Text.size (front ++ "<?".toList) by
        rw [Text.size_append]; rfl, Text.back?_size]
    rw [hback, Text.front?_size, Option.bind_some, Option.bind_some, behind?_eq]
    rfl
  · next hprefix =>
    have hnone : at? short ahead = none := by
      unfold at?
      split
      · exact absurd (List.isPrefixOf_iff_prefix.2 ⟨_, rfl⟩) hprefix
      · rfl
    rw [hnone]
    rfl

/-- **Host tags are found by bytes.** -/
theorem seek?_eq (short : Bool) (t : Text) : seek? short t = some (find? short 1 t) := by
  have hseek : ∀ ahead front, Bytes.seek (probe short (front ++ ahead)) front.size ahead.utf8 =
      some (find? short (1 + front.newlines) ahead) := by
    intro ahead
    induction ahead with
    | nil => exact fun _ => rfl
    | cons c ahead ih =>
      intro front
      have hnext := ih (front ++ [c])
      have hline : 1 + Text.newlines (front ++ [c]) =
          if c = '\n' then 1 + front.newlines + 1 else 1 + front.newlines := by
        rw [Text.newlines_append, ← Nat.add_assoc]
        split
        · next hc =>
          rw [hc]
          rfl
        · next hc => exact congrArg (1 + front.newlines + ·) (List.count_cons_of_ne hc)
      rw [List.append_assoc, Text.size_append, Text.size_cons, Text.size_nil, hline] at hnext
      rw [Bytes.seek_utf8_cons (looksForShort_probe short _), probe_eq, find?]
      cases at? short (c :: ahead) with
      | some tag => rfl
      | none => exact hnext
  have hwhole := hseek t []
  rwa [List.nil_append] at hwhole

end HostTag

end Stencil
