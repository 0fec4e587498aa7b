import Stencil.Cursor
import Stencil.Proofs.Artifact.Stem

/-!
# Proofs/Text/Offset — places in a text by bytes

    text    f   ü   r   [   =           offset 2 is no edge: it lies within the `ü`
    bytes   66  C3BC 72 5B  3D

An offset counts bytes, and only at an edge, where a character starts or the text ends, can a text be
cut (`isEdge_iff`).  What looks for a place goes through the bytes one by one (`Bytes.seek`).  It
finds edges only if it looks for bytes below `0x80`: such a byte is a character of its own and never
part of a longer one, so the search goes from character to character (`seek_utf8_cons`).
-/

namespace Stencil

namespace Text

/-! ## Edges -/

@[simp] theorem splitBytes_zero (t : Text) : splitBytes 0 t = ([], t) := by
  cases t with
  | nil => rfl
  | cons c t => rw [splitBytes, if_neg (Nat.not_le.2 c.utf8Size_pos)]

/-- **A text put together comes apart** at the size of its front. -/
@[simp] theorem splitBytes_size (a b : Text) : splitBytes a.size (a ++ b) = (a, b) := by
  induction a with
  | nil => exact splitBytes_zero b
  | cons c a ih =>
    rw [List.cons_append, size_cons, splitBytes, if_pos (Nat.le_add_right _ _),
      Nat.add_sub_cancel_left, ih]

theorem size_pos {t : Text} (h : t ≠ []) : 0 < t.size := by
  cases t with
  | nil => exact absurd rfl h
  | cons c t => exact Nat.add_pos_left c.utf8Size_pos _

/-- Whether an offset is an edge of a text: the characters up to it fill all of its bytes. -/
def isEdge (t : Text) (n : Nat) : Bool := (splitBytes n t).1.size == n

/-- **An edge is where the text can be cut.** -/
theorem isEdge_iff {t : Text} {n : Nat} : t.isEdge n = true ↔ ∃ a b, t = a ++ b ∧ a.size = n := by
  constructor
  · intro h
    exact ⟨_, _, (splitBytes_append n t).symm, beq_iff_eq.1 h⟩
  · rintro ⟨a, b, rfl, rfl⟩
    rw [isEdge, splitBytes_size, beq_self_eq_true]

theorem isEdge_size (a b : Text) : isEdge (a ++ b) a.size = true := isEdge_iff.2 ⟨a, b, rfl, rfl⟩

/-- A part in front of the text is kept in front. -/
theorem splitBytes_add (a t : Text) (n : Nat) :
    splitBytes (size a + n) (a ++ t) = (a ++ (splitBytes n t).1, (splitBytes n t).2) := by
  induction a with
  | nil => rw [size_nil, Nat.zero_add, List.nil_append, List.nil_append]
  | cons c a ih =>
    have hrest : c.utf8Size + size a + n - c.utf8Size = size a + n := by omega
    rw [List.cons_append, size_cons, splitBytes, if_pos (by omega), hrest, ih]
    rfl

theorem isEdge_add (a t : Text) (n : Nat) : isEdge (a ++ t) (size a + n) = isEdge t n := by
  rw [isEdge, splitBytes_add, size_append, isEdge, Bool.eq_iff_iff, beq_iff_eq, beq_iff_eq,
    Nat.add_left_cancel_iff]

/-- All of a text fits into more bytes than it has. -/
theorem splitBytes_of_size_le {t : Text} {n : Nat} (h : t.size ≤ n) : splitBytes n t = (t, []) := by
  induction t generalizing n with
  | nil => rfl
  | cons c t ih =>
    rw [size_cons] at h
    rw [splitBytes, if_pos (by omega), ih (by omega)]

/-- **A move to an edge, or beyond the end**, ends there, or at the end. -/
theorem size_splitBytes {t : Text} {n : Nat} (h : t.isEdge n = true ∨ t.size ≤ n) :
    (splitBytes n t).1.size = min n t.size := by
  rcases h with hedge | hbeyond
  · have hsize := beq_iff_eq.1 hedge
    have hsum := congrArg size (splitBytes_append n t)
    rw [size_append] at hsum
    omega
  · rw [splitBytes_of_size_le hbeyond, Nat.min_eq_right hbeyond]

/-- The text up to an offset, which has to be an edge. -/
def front? (t : Text) (n : Nat) : Option Text :=
  if t.isEdge n then some (splitBytes n t).1 else none

/-- The text from an offset on, which has to be an edge. -/
def back? (t : Text) (n : Nat) : Option Text :=
  if t.isEdge n then some (splitBytes n t).2 else none

@[simp] theorem front?_size (a b : Text) : front? (a ++ b) a.size = some a := by
  rw [front?, if_pos (isEdge_size a b), splitBytes_size]

theorem prefix_of_front? {t front : Text} {n : Nat} (h : t.front? n = some front) :
    ∃ back, t = front ++ back := by
  unfold front? at h
  split at h
  · cases h
    exact ⟨_, (splitBytes_append n t).symm⟩
  · cases h

@[simp] theorem back?_size (a b : Text) : back? (a ++ b) a.size = some b := by
  rw [back?, if_pos (isEdge_size a b), splitBytes_size]

/-! ## Blanks -/

theorem takeWhile_append_trimStart (t : Text) : t.takeWhile isBlank ++ trimStart t = t :=
  List.takeWhile_append_dropWhile

/-- The size of the leading blanks. -/
theorem size_sub_trimStart (t : Text) : t.size - (trimStart t).size = size (t.takeWhile isBlank) := by
  have hsum := congrArg size (takeWhile_append_trimStart t)
  rw [size_append] at hsum
  omega

/-! ## Bytes of characters -/

/-- The byte of a character that has one. -/
def byte (c : Char) : UInt8 := UInt8.ofNat c.toNat

theorem toNat_byte {c : Char} (h : c.toNat < 0x80) : (byte c).toNat = c.toNat :=
  UInt8.toNat_ofNat_of_lt' (Nat.lt_trans h (by decide))

theorem not_le_byte {c : Char} (h : c.toNat < 0x80) : ¬ 0x80 ≤ byte c := by
  rw [UInt8.le_iff_toNat_le, toNat_byte h]
  exact Nat.not_le.2 h

/-- A character of one byte. -/
theorem utf8_cons_of_lt {c : Char} (h : c.toNat < 0x80) (t : Text) :
    utf8 (c :: t) = byte c :: utf8 t := by
  have hc : String.utf8EncodeChar c = [byte c] := if_pos (Nat.le_of_lt_succ h)
  rw [utf8, List.flatMap_cons, hc]
  rfl

theorem size_cons_of_lt {c : Char} (h : c.toNat < 0x80) (t : Text) : size (c :: t) = size t + 1 := by
  rw [← length_utf8, utf8_cons_of_lt h, List.length_cons, length_utf8]

theorem size_replicate {c : Char} (h : c.toNat < 0x80) (n : Nat) :
    size (List.replicate n c) = n := by
  induction n with
  | zero => rfl
  | succ n ih => rw [List.replicate_succ, size_cons_of_lt h, ih]

theorem le_ofNat_add {m n : Nat} (h : 0x80 ≤ n) (hn : n + m < 256) :
    0x80 ≤ UInt8.ofNat (m + n) := by
  have hsum : m + n < UInt8.size := Nat.add_comm m n ▸ hn
  rw [UInt8.le_iff_toNat_le, UInt8.toNat_ofNat_of_lt' hsum]
  exact Nat.le_trans h (Nat.le_add_left n m)

/-- **A longer character has no byte that is a character.** -/
theorem le_of_mem_utf8EncodeChar {c : Char} (h : 0x80 ≤ c.toNat) {b : UInt8}
    (hb : b ∈ String.utf8EncodeChar c) : 0x80 ≤ b := by
  have hmod : ∀ n k, 0 < k → n % k < k := fun n k => Nat.mod_lt n
  unfold String.utf8EncodeChar at hb
  extract_lets v at hb
  have hv : ¬ v ≤ 127 := Nat.not_le.2 h
  rw [if_neg hv] at hb
  split at hb
  · have h1 := hmod (v / 64) 32 (by decide)
    have h2 := hmod v 64 (by decide)
    simp only [List.mem_cons, List.not_mem_nil, or_false] at hb
    rcases hb with rfl | rfl <;> exact le_ofNat_add (by decide) (by omega)
  split at hb
  · have h1 := hmod (v / 4096) 16 (by decide)
    have h2 := hmod (v / 64) 64 (by decide)
    have h3 := hmod v 64 (by decide)
    simp only [List.mem_cons, List.not_mem_nil, or_false] at hb
    rcases hb with rfl | rfl | rfl <;> exact le_ofNat_add (by decide) (by omega)
  · have h1 := hmod (v / 262144) 8 (by decide)
    have h2 := hmod (v / 4096) 64 (by decide)
    have h3 := hmod (v / 64) 64 (by decide)
    have h4 := hmod v 64 (by decide)
    simp only [List.mem_cons, List.not_mem_nil, or_false] at hb
    rcases hb with rfl | rfl | rfl | rfl <;> exact le_ofNat_add (by decide) (by omega)

theorem exists_utf8_cons (c : Char) (t : Text) :
    ∃ b bs, String.utf8EncodeChar c = b :: bs ∧ utf8 (c :: t) = b :: (bs ++ utf8 t) := by
  have hne : String.utf8EncodeChar c ≠ [] := by
    intro h
    have hsize := String.length_utf8EncodeChar c
    rw [h] at hsize
    exact absurd hsize (Nat.ne_of_lt c.utf8Size_pos)
  obtain ⟨b, bs, h⟩ := List.exists_cons_of_ne_nil hne
  refine ⟨b, bs, h, ?_⟩
  rw [utf8, List.flatMap_cons, h]
  rfl

/-- **A text starts with a byte of its first character**, which tells the characters of one byte
apart. -/
theorem first_utf8 (d : Char) (t : Text) :
    ∃ b bs, utf8 (d :: t) = b :: bs ∧ ∀ c : Char, c.toNat < 0x80 → (b = byte c ↔ d = c) := by
  by_cases hd : d.toNat < 0x80
  · refine ⟨_, _, utf8_cons_of_lt hd t, fun c hc => ⟨fun h => ?_, fun h => h ▸ rfl⟩⟩
    have hnat := congrArg UInt8.toNat h
    rw [toNat_byte hd, toNat_byte hc] at hnat
    exact Char.toNat_inj.1 hnat
  · obtain ⟨b, bs, hchar, hutf8⟩ := exists_utf8_cons d t
    have hb : 0x80 ≤ b := le_of_mem_utf8EncodeChar (Nat.not_lt.1 hd) (hchar ▸ List.mem_cons_self)
    exact ⟨b, _, hutf8, fun c hc =>
      ⟨fun h => absurd (h ▸ hb) (not_le_byte hc), fun h => absurd (h ▸ hc) hd⟩⟩

/-- **A run of a character of one byte** is a run of its byte. -/
theorem span_utf8 {c : Char} (hc : c.toNat < 0x80) (t : Text) :
    ((utf8 t).takeWhile (· == byte c)).length = (t.takeWhile (· == c)).length ∧
      (utf8 t).dropWhile (· == byte c) = utf8 (t.dropWhile (· == c)) := by
  induction t with
  | nil => exact ⟨rfl, rfl⟩
  | cons d t ih =>
    by_cases hd : d = c
    · subst hd
      simp only [utf8_cons_of_lt hc, List.takeWhile_cons, List.dropWhile_cons, beq_self_eq_true,
        if_true, List.length_cons, ih, and_self]
    · obtain ⟨b, bs, hutf8, hb⟩ := first_utf8 d t
      have hbyte : (b == byte c) = false := beq_eq_false_iff_ne.2 fun h => hd ((hb c hc).1 h)
      simp only [hutf8, List.takeWhile_cons, List.dropWhile_cons, hbyte, beq_eq_false_iff_ne.2 hd,
        Bool.false_eq_true, if_false, List.length_nil, and_self]

end Text

/-! ## Going through bytes -/

namespace Bytes

/-- **What a probe finds first** in bytes from an offset on.  A probe sees its offset and the bytes
from there, and gives nothing itself if it cuts a text where there is no edge. -/
def seek {α : Type} (probe : Nat → Bytes → Option (Option α)) (pos : Nat) :
    Bytes → Option (Option α)
  | [] => some none
  | b :: bs =>
    match probe pos (b :: bs) with
    | none => none
    | some (some found) => some (some found)
    | some none => seek probe (pos + 1) bs

/-- A probe that looks for characters of one byte. -/
def LooksForShort {α : Type} (probe : Nat → Bytes → Option (Option α)) : Prop :=
  ∀ pos b bs, 0x80 ≤ b → probe pos (b :: bs) = some none

section Seek

variable {α : Type} {probe : Nat → Bytes → Option (Option α)} (hshort : LooksForShort probe)

include hshort

/-- Nothing is found within longer characters. -/
theorem seek_append {front : Bytes} (hfront : ∀ b ∈ front, 0x80 ≤ b) (pos : Nat) (bs : Bytes) :
    seek probe pos (front ++ bs) = seek probe (pos + front.length) bs := by
  induction front generalizing pos with
  | nil => rfl
  | cons b front ih =>
    rw [List.cons_append, seek, hshort pos b _ (hfront b List.mem_cons_self)]
    dsimp only
    rw [ih fun b' hb' => hfront b' (List.mem_cons_of_mem _ hb'), List.length_cons, Nat.add_assoc,
      Nat.add_comm 1]

/-- **The search goes from character to character.** -/
theorem seek_utf8_cons (pos : Nat) (c : Char) (t : Text) :
    seek probe pos (Text.utf8 (c :: t)) =
      match probe pos (Text.utf8 (c :: t)) with
      | none => none
      | some (some found) => some (some found)
      | some none => seek probe (pos + c.utf8Size) (Text.utf8 t) := by
  obtain ⟨b, bs, hc, hutf8⟩ := Text.exists_utf8_cons c t
  have hsize : bs.length + 1 = c.utf8Size := by
    rw [← String.length_utf8EncodeChar, hc, List.length_cons]
  rw [hutf8, seek]
  split
  · rfl
  · rfl
  · by_cases hlt : c.toNat < 0x80
    · have hone : String.utf8EncodeChar c = [_] := if_pos (Nat.le_of_lt_succ hlt)
      have hnil : bs = [] := (List.cons.inj (hc.symm.trans hone)).2
      subst hnil
      rw [← hsize]
      rfl
    · have hlong : ∀ b' ∈ bs, 0x80 ≤ b' := fun b' hb' =>
        Text.le_of_mem_utf8EncodeChar (Nat.not_lt.1 hlt) (hc ▸ List.mem_cons_of_mem _ hb')
      rw [seek_append hshort hlong, ← hsize, Nat.add_assoc, Nat.add_comm 1]

end Seek

/-! ## Words -/

/-- The probe for a word, which gives its offset. -/
def wordProbe (word : Bytes) (pos : Nat) (bytes : Bytes) : Option (Option Nat) :=
  some (if word.isPrefixOf bytes then some pos else none)

/-- The offset of the first occurrence of a word. -/
def find? (word bytes : Bytes) : Option Nat := (seek (wordProbe word) 0 bytes).join

end Bytes

namespace Text

theorem isPrefixOf_utf8 (s t : Text) : (utf8 s).isPrefixOf (utf8 t) = s.isPrefixOf t := by
  rw [Bool.eq_iff_iff, List.isPrefixOf_iff_prefix, List.isPrefixOf_iff_prefix]
  refine ⟨prefix_of_utf8, ?_⟩
  rintro ⟨rest, rfl⟩
  rw [utf8_append]
  exact List.prefix_append _ _

theorem looksForShort_wordProbe {c : Char} (h : c.toNat < 0x80) (word : Text) :
    Bytes.LooksForShort (Bytes.wordProbe (utf8 (c :: word))) := by
  intro pos b bs hb
  have hne : (byte c == b) = false := by
    refine beq_eq_false_iff_ne.2 ?_
    rintro rfl
    exact not_le_byte h hb
  rw [Bytes.wordProbe, utf8_cons_of_lt h, List.isPrefixOf_cons_cons, hne]
  rfl

/-- **A word is found where the text breaks**, if it starts with a character of one byte. -/
theorem find?_utf8 {c : Char} (h : c.toNat < 0x80) (word t : Text) :
    Bytes.find? (utf8 (c :: word)) (utf8 t) =
      (breakOn? (c :: word) t).map fun (front, _) => front.size := by
  have hseek : ∀ pos, Bytes.seek (Bytes.wordProbe (utf8 (c :: word))) pos (utf8 t) =
      some ((breakOn? (c :: word) t).map fun (front, _) => pos + front.size) := by
    induction t with
    | nil => exact fun _ => rfl
    | cons d t ih =>
      intro pos
      rw [Bytes.seek_utf8_cons (looksForShort_wordProbe h word), Bytes.wordProbe, isPrefixOf_utf8,
        breakOn?]
      split
      · next hnone => cases hnone
      · next found hfound =>
        split at hfound
        · cases hfound
          next hprefix => rw [if_pos hprefix]; rfl
        · cases hfound
      · next hnone =>
        split at hnone
        · cases hnone
        · next hprefix =>
          rw [if_neg hprefix, ih, Option.map_map]
          refine congrArg some (Option.map_congr fun found _ => ?_)
          exact Nat.add_assoc _ _ _
  rw [Bytes.find?, hseek]
  cases breakOn? (c :: word) t with
  | none => rfl
  | some found => exact congrArg some (Nat.zero_add _)

end Text

/-! ## Cursors -/

namespace Cursor

/-- Moves over `n` bytes, which have to be whole characters of the text ahead. -/
def pass? (c : Cursor) (n : Nat) : Option (Text × Cursor) :=
  if c.rest.isEdge n then some (c.advance n) else none

/-- The text between two offsets, which have to be edges in order. -/
def slice? (c : Cursor) (first last : Nat) : Option Text :=
  if first ≤ last ∧ c.text.isEdge first ∧ c.text.isEdge last then some (c.slice first last)
  else none

/-- The cursor behind `passed`, with `rest` ahead. -/
def behind (passed rest : Text) : Cursor :=
  ⟨passed ++ rest, rest, passed.size, 1 + passed.newlines⟩

theorem move_behind (passed front rest : Text) :
    (behind passed (front ++ rest)).move front rest = behind (passed ++ front) rest := by
  simp only [move, behind, List.append_assoc, Text.size_append, Text.newlines_append, Nat.add_assoc]

/-- **Whole characters are passed.** -/
theorem pass?_eq {c : Cursor} {front rest : Text} {n : Nat} (hrest : c.rest = front ++ rest)
    (hn : n = front.size) : c.pass? n = some (front, c.move front rest) := by
  rw [hn, pass?, advance, hrest, if_pos (Text.isEdge_size front rest), Text.splitBytes_size]

theorem pass?_behind {t front rest : Text} {n : Nat} (ht : t = front ++ rest) (hn : n = front.size)
    (passed : Text) :
    (behind passed t).pass? n = some (front, behind (passed ++ front) rest) := by
  rw [← move_behind, ← ht]
  exact pass?_eq ht hn

/-- All that is ahead is passed. -/
theorem pass?_behind_size (passed t : Text) :
    (behind passed t).pass? t.size = some (t, behind (passed ++ t) []) :=
  pass?_behind (List.append_nil t).symm rfl passed

/-- **A cut between two edges** gives what lies between them. -/
theorem slice?_eq {c : Cursor} {a b d : Text} (h : c.text = a ++ (b ++ d)) :
    c.slice? a.size (a.size + b.size) = some b := by
  have hlast : c.text.isEdge (a.size + b.size) = true := by
    rw [h, ← List.append_assoc, ← Text.size_append]
    exact Text.isEdge_size _ _
  rw [slice?, if_pos ⟨Nat.le_add_right _ _, h ▸ Text.isEdge_size a _, hlast⟩, slice, h,
    Text.splitBytes_size, Nat.add_sub_cancel_left, Text.splitBytes_size]

/-- **A cursor has passed** some of the text that was ahead. -/
def Passes (c c' : Cursor) : Prop := ∃ front rest, c.rest = front ++ rest ∧ c' = c.move front rest

namespace Passes

variable {c c' c'' : Cursor}

theorem refl (c : Cursor) : c.Passes c := ⟨[], c.rest, rfl, rfl⟩

theorem trans (h : c.Passes c') (k : c'.Passes c'') : c.Passes c'' := by
  obtain ⟨front, rest, hrest, rfl⟩ := h
  obtain ⟨front', rest', hrest', rfl⟩ := k
  refine ⟨front ++ front', rest', ?_, ?_⟩
  · rw [List.append_assoc, ← hrest']
    exact hrest
  · simp only [move, Text.size_append, Text.newlines_append, Nat.add_assoc]

theorem offset_le (h : c.Passes c') : c.offset ≤ c'.offset := by
  obtain ⟨front, rest, -, rfl⟩ := h
  exact Nat.le_add_right _ _

/-- A cursor that stands at an edge passes to an edge. -/
theorem behind {passed rest : Text} (h : (Cursor.behind passed rest).Passes c') :
    ∃ front rest', rest = front ++ rest' ∧ c' = Cursor.behind (passed ++ front) rest' := by
  obtain ⟨front, rest', hrest, rfl⟩ := h
  obtain rfl : rest = front ++ rest' := hrest
  exact ⟨front, rest', rfl, move_behind _ _ _⟩

end Passes

/-- **A cursor that passes bytes goes forward** by as many. -/
theorem passes_of_pass? {c c' : Cursor} {n : Nat} {passed : Text}
    (h : c.pass? n = some (passed, c')) : c.Passes c' ∧ c'.offset = c.offset + n := by
  unfold pass? at h
  split at h
  · next hedge =>
    cases h
    exact ⟨⟨_, _, (Text.splitBytes_append n c.rest).symm, rfl⟩,
      congrArg (c.offset + ·) (beq_iff_eq.1 hedge)⟩
  · cases h

/-- Moves over leading blanks. -/
def passBlanks? (c : Cursor) : Option Cursor :=
  (c.pass? (c.rest.size - (Text.trimStart c.rest).size)).map Prod.snd

theorem passBlanks?_eq (c : Cursor) : c.passBlanks? = some c.skipBlanks :=
  congrArg (Option.map Prod.snd) (pass?_eq (Text.takeWhile_append_trimStart c.rest).symm
    (Text.size_sub_trimStart c.rest))

theorem passBlanks?_behind (passed t : Text) :
    (behind passed t).passBlanks? =
      some (behind (passed ++ t.takeWhile Text.isBlank) (Text.trimStart t)) := by
  rw [passBlanks?_eq, ← move_behind, Text.takeWhile_append_trimStart]
  rfl

theorem passes_skipBlanks (c : Cursor) : c.Passes c.skipBlanks :=
  ⟨_, _, (Text.takeWhile_append_trimStart c.rest).symm, rfl⟩

end Cursor

end Stencil
