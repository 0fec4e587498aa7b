import Stencil.Proofs.Artifact.Stem
import Stencil.Proofs.Text.Lines

/-!
# Proofs/Artifact/Header — a stamped header reads back

    <?php /* Tplus version date time path size */ ?>

The first line of an artifact holds no line feed of its own, so it is told from the body.  Its
fields are separated by blanks: the version, the date and the time hold none, and the size is what
stands behind the last one, so the path may hold as many as it likes (`HeaderInfo.parse?_stamp`).  A
file is accepted if nine bytes behind the stem declare its size (`Header.accepts_take_iff`): an
artifact that is stamped has the size that it declares, so it is fresh (`Header.accepts_of_stamp`).
-/

namespace Stencil

/-! ## Sizes -/

namespace Text

theorem toByteArray_utf8 (t : Text) :
    (⟨(utf8 t).toArray⟩ : ByteArray) = (String.ofList t).toByteArray := by
  rw [String.toByteArray_ofList, List.utf8Encode]
  apply ByteArray.ext
  rw [List.data_toByteArray]
  rfl

/-- A text reads back from its bytes. -/
theorem ofUtf8?_utf8 (t : Text) : ofUtf8? (utf8 t) = some t := by
  have hvalid : (String.ofList t).toByteArray.IsValidUTF8 := (String.ofList t).isValidUTF8
  unfold ofUtf8? String.fromUTF8?
  rw [toByteArray_utf8, dif_pos hvalid]
  change some (String.ofList t).toList = some t
  rw [String.toList_ofList]

/-- Bytes that read as a text are its bytes. -/
theorem utf8_of_ofUtf8? {b : Bytes} {t : Text} (h : ofUtf8? b = some t) : utf8 t = b := by
  obtain ⟨s, hs, rfl⟩ := Option.map_eq_some_iff.1 h
  unfold String.fromUTF8? at hs
  split at hs
  · next hvalid =>
    rw [← Option.some.inj hs]
    have hbytes := toByteArray_utf8 (String.fromUTF8 ⟨b.toArray⟩ hvalid).toList
    rw [String.ofList_toList] at hbytes
    exact congrArg (fun a : ByteArray => a.data.toList) hbytes
  · cases hs

theorem decimal_ne_nil (n : Nat) : decimal n ≠ [] := Nat.toDigits_ne_nil

/-- A number that is filled up reads back, if 64 bits are enough for it. -/
theorem number64?_padZeros {n : Nat} (h : n < Nat.pow 2 64) (width : Nat) :
    number64? (padZeros width (decimal n)) = some n := by
  have hdigits : ∀ c ∈ padZeros width (decimal n), isDigit c = true := fun c hc =>
    isDigit_of_mem_padZeros hc
  have hne : padZeros width (decimal n) ≠ [] := fun hnil =>
    decimal_ne_nil n (List.append_eq_nil_iff.1 hnil).2
  have hvalue : digitsValue (padZeros width (decimal n)) = n := ofDigitChars_padZeros width n
  obtain ⟨c, t, hcons⟩ := List.exists_cons_of_ne_nil hne
  have hplus : c ≠ '+' := by
    rintro rfl
    rw [hcons] at hdigits
    exact absurd (hdigits '+' List.mem_cons_self) (by decide)
  rw [hcons] at hdigits hvalue ⊢
  have hsome : (c :: t).all isDigit = true := List.all_eq_true.2 hdigits
  unfold number64?
  split
  · next rest hsign => exact absurd (List.cons.inj hsign).1 hplus
  · dsimp only
    rw [hsome, hvalue, if_pos h]
    rfl

/-- The size counts the characters where each is one byte. -/
theorem size_eq_length {t : Text} (h : ∀ c ∈ t, c.utf8Size = 1) : t.size = t.length := by
  induction t with
  | nil => rfl
  | cons c t ih =>
    rw [size_cons, h c List.mem_cons_self, ih fun d hd => h d (List.mem_cons_of_mem c hd),
      List.length_cons, Nat.add_comm]

theorem utf8Size_of_isDigit {c : Char} (h : isDigit c = true) : c.utf8Size = 1 := by
  rw [isDigit, Bool.and_eq_true, decide_eq_true_iff, decide_eq_true_iff] at h
  exact Char.utf8Size_eq_one_iff.2 (UInt32.le_trans h.2 (by decide))

/-- A number that is not too long is filled up to its width. -/
theorem size_padZeros {width n : Nat} (h : n < Nat.pow 10 width) (hwidth : 0 < width) :
    (padZeros width (decimal n)).size = width := by
  have hlength : (decimal n).length ≤ width :=
    (Nat.length_toDigits_le_iff (by decide) hwidth).2 h
  rw [size_eq_length fun c hc => utf8Size_of_isDigit (isDigit_of_mem_padZeros hc), padZeros,
    List.length_append, List.length_replicate]
  omega

end Text

/-! ## Fields -/

namespace HeaderInfo

theorem splitLast?_append_cons {back : Text} (h : ' ' ∉ back) (front : Text) :
    splitLast? (front ++ ' ' :: back) = some (front, back) := by
  have hall : ∀ c ∈ back.reverse, (c != ' ') = true := by
    intro c hc
    rw [bne_iff_ne]
    rintro rfl
    exact h (List.mem_reverse.1 hc)
  have hreverse : (front ++ ' ' :: back).reverse = back.reverse ++ ' ' :: front.reverse := by simp
  have hdrop : (front ++ ' ' :: back).reverse.dropWhile (· != ' ') = ' ' :: front.reverse := by
    rw [hreverse, List.dropWhile_append_of_pos hall, List.dropWhile_cons_of_neg (by decide)]
  have htake : (front ++ ' ' :: back).reverse.takeWhile (· != ' ') = back.reverse := by
    rw [hreverse, List.takeWhile_append_of_pos hall, List.takeWhile_cons_of_neg (by decide),
      List.append_nil]
  rw [splitLast?, hdrop, htake]
  simp

end HeaderInfo

namespace Header

/-- The first line of an artifact of a size. -/
def firstLine (h : Header) (total : Nat) : Text :=
  h.stem ++ Text.padZeros sizeWidth (Text.decimal total) ++ closing

theorem stamp_eq_ok_iff {h : Header} {body artifact : Text} :
    h.stamp body = .ok artifact ↔ h.totalSize body ≤ maxSize ∧
      artifact = h.firstLine (h.totalSize body) ++ '\n' :: body := by
  have hartifact : h.stem ++ Text.padZeros sizeWidth (Text.decimal (h.totalSize body)) ++ closing ++
      ['\n'] ++ body = h.firstLine (h.totalSize body) ++ '\n' :: body :=
    List.append_assoc ..
  simp only [stamp]
  split
  · next hsize => simp [Nat.not_le.2 hsize]
  · next hsize => rw [hartifact, Except.ok.injEq, eq_comm, and_iff_right (Nat.le_of_not_lt hsize)]

/-- **What is accepted**: a file that goes on behind the stem with a number of nine bytes, which is
the size of the file. -/
theorem accepts_take_iff {h : Header} {file : Bytes} :
    h.accepts (file.take h.checkLength) file.length = true ↔
      ∃ field rest, file = Text.utf8 h.stem ++ Text.utf8 field ++ rest ∧
        field.size = sizeWidth ∧ Text.number64? field = some file.length := by
  have hstem : (Text.utf8 h.stem).length = h.stem.size := Text.length_utf8 _
  unfold accepts
  simp only [Bool.and_eq_true, beq_iff_eq]
  constructor
  · rintro ⟨⟨hlength, hfront⟩, hsize⟩
    obtain ⟨field, hfield, hnumber⟩ := Option.bind_eq_some_iff.1 hsize
    have hback := Text.utf8_of_ofUtf8? hfield
    refine ⟨field, file.drop h.checkLength, ?_, ?_, hnumber⟩
    · rw [hback, ← hfront, List.take_append_drop, List.take_append_drop]
    · rw [← Text.length_utf8, hback, List.length_drop, hlength, checkLength, Nat.add_sub_cancel_left]
  · rintro ⟨field, rest, hfile, hwidth, hnumber⟩
    have htake : file.take h.checkLength = Text.utf8 h.stem ++ Text.utf8 field := by
      rw [hfile]
      refine List.take_left' ?_
      rw [List.length_append, Text.length_utf8, Text.length_utf8, hwidth, checkLength]
    rw [htake, List.take_left' hstem, List.drop_left' hstem, Text.ofUtf8?_utf8, List.length_append,
      Text.length_utf8, Text.length_utf8, hwidth, checkLength]
    exact ⟨⟨rfl, rfl⟩, hnumber⟩

/-- A size that can be declared takes nine bytes. -/
theorem size_total {total : Nat} (hfits : total ≤ maxSize) :
    (Text.padZeros sizeWidth (Text.decimal total)).size = sizeWidth :=
  Text.size_padZeros (Nat.lt_of_le_of_lt hfits (by decide)) (by decide)

/-- A size that can be declared reads back. -/
theorem number64?_total {total : Nat} (hfits : total ≤ maxSize) :
    Text.number64? (Text.padZeros sizeWidth (Text.decimal total)) = some total :=
  Text.number64?_padZeros (Nat.lt_of_le_of_lt hfits (by decide)) _

/-- **An artifact has the size that it declares.** -/
theorem size_of_stamp {h : Header} {body artifact : Text} (hstamp : h.stamp body = .ok artifact) :
    artifact.size = h.totalSize body := by
  obtain ⟨hfits, rfl⟩ := stamp_eq_ok_iff.1 hstamp
  have hfeed : '\n'.utf8Size = 1 := by decide
  simp only [firstLine, Text.size_append, Text.size_cons, size_total hfits, hfeed]
  rw [totalSize, checkLength]
  omega

/-- **What is stamped is accepted**, with its own size. -/
theorem accepts_of_stamp {header : Header} {body artifact : Text}
    (h : header.stamp body = .ok artifact) :
    header.accepts ((Text.utf8 artifact).take header.checkLength) (Text.utf8 artifact).length =
      true := by
  obtain ⟨hfits, hartifact⟩ := stamp_eq_ok_iff.1 h
  refine accepts_take_iff.2 ⟨Text.padZeros sizeWidth (Text.decimal (header.totalSize body)),
    Text.utf8 (closing ++ '\n' :: body), ?_, size_total hfits, ?_⟩
  · rw [← Text.utf8_append, ← Text.utf8_append, hartifact, firstLine]
    simp only [List.append_assoc]
  · rw [Text.length_utf8, size_of_stamp h]
    exact number64?_total hfits

theorem firstLine_make (version path : Text) (time : Instant) (zone : Zone) (total : Nat) :
    (make version time path zone).firstLine total = opening ++ (version ++ ' ' ::
      ((Date.ofDay (zone.second time / 86400 + Date.epochDay)).text ++ ' ' ::
        (Instant.clock (zone.second time) ++ ' ' :: (path ++ ' ' ::
          Text.padZeros sizeWidth (Text.decimal total)))) ++ closing) := by
  have hfields : ∀ front version date clock path size back : Text,
      front ++ version ++ " " ++ (date ++ ' ' :: clock) ++ " " ++ path ++ " " ++ size ++ back =
        front ++ (version ++ ' ' :: (date ++ ' ' :: (clock ++ ' ' :: (path ++ ' ' :: size))) ++
          back) := by
    simp
  rw [firstLine, make, Zone.text, Instant.text_eq]
  exact hfields ..

theorem feed_not_mem_firstLine {version path : Text} (hversion : '\n' ∉ version)
    (hpath : '\n' ∉ path) (time : Instant) (zone : Zone) (total : Nat) :
    '\n' ∉ (make version time path zone).firstLine total := by
  have hopening : '\n' ∉ opening := by decide
  have hclosing : '\n' ∉ closing := by decide
  have hdate := Date.not_mem_text (c := '\n') rfl (by decide) (by decide)
    (Date.ofDay (zone.second time / 86400 + Date.epochDay))
  have hclock := Instant.not_mem_clock (c := '\n') rfl (by decide) (zone.second time)
  have hsize : '\n' ∉ Text.padZeros sizeWidth (Text.decimal total) := Text.not_mem_padZeros rfl
  have hblank : ∀ {t : Text}, '\n' ∉ t → '\n' ∉ ' ' :: t := fun h =>
    List.not_mem_cons_of_ne_of_not_mem (by decide) h
  rw [firstLine_make]
  exact List.not_mem_append hopening (List.not_mem_append (List.not_mem_append hversion
    (hblank (List.not_mem_append hdate (hblank (List.not_mem_append hclock
      (hblank (List.not_mem_append hpath (hblank hsize)))))))) hclosing)

theorem getLast?_firstLine (h : Header) (total : Nat) :
    (h.firstLine total).getLast? = some '>' := by
  rw [firstLine, List.getLast?_append]
  rfl

/-- The first line of an artifact is its header, the others are those of the body. -/
theorem lines_firstLine {version path : Text} (hversion : '\n' ∉ version) (hpath : '\n' ∉ path)
    (time : Instant) (zone : Zone) (total : Nat) (body : Text) :
    Text.lines ((make version time path zone).firstLine total ++ '\n' :: body) =
      (make version time path zone).firstLine total :: Text.lines body :=
  Text.lines_append_feed (feed_not_mem_firstLine hversion hpath time zone total)
    (getLast?_firstLine _ total) (by decide) body

end Header

namespace HeaderInfo

/-- A line is read field by field. -/
theorem parse?_of_fields {line rest fields version t date t' clock t'' path digits : Text}
    {size : Nat} (hopening : Text.dropPrefix? Header.opening line = some rest)
    (hclosing : Text.dropSuffix? Header.closing rest = some fields)
    (hversion : Text.breakOn? " " fields = some (version, t))
    (hdate : Text.breakOn? " " t = some (date, t'))
    (hclock : Text.breakOn? " " t' = some (clock, t''))
    (hlast : splitLast? t'' = some (path, digits)) (hwidth : digits.size = Header.sizeWidth)
    (hnumber : Text.number64? digits = some size) :
    parse? line = some ⟨version, date ++ " " ++ clock, path, size⟩ := by
  simp only [parse?, hopening, hclosing, hversion, hdate, hclock, hlast, hwidth, hnumber,
    Option.bind_eq_bind, Option.bind_some, if_true]
  rfl

/-- **A header reads back**: its version, the time in its two parts, the path of its template with
whatever blanks it holds, and the size. -/
theorem parse?_make {version : Text} (hversion : ' ' ∉ version) (path : Text) (time : Instant)
    (zone : Zone) {total : Nat} (htotal : total ≤ Header.maxSize) :
    parse? ((Header.make version time path zone).firstLine total) =
      some ⟨version, zone.text time, path, total⟩ := by
  have hblank : (" " : Text) = [' '] := by decide
  have hbreak : ∀ {front : Text}, ' ' ∉ front → ∀ rest,
      Text.breakOn? " " (front ++ ' ' :: rest) = some (front, rest) := by
    intro front hfront rest
    rw [hblank, Text.breakOn?_append_cons hfront]
  have hjoin : ∀ s t : Text, s ++ " " ++ t = s ++ ' ' :: t := by
    intro s t
    rw [hblank, List.append_assoc, List.singleton_append]
  have hread := parse?_of_fields (Text.dropPrefix?_append_self _ _)
    (Text.dropSuffix?_append_self _ _) (hbreak hversion _)
    (hbreak (Date.blank_not_mem_text (Date.ofDay (zone.second time / 86400 + Date.epochDay))) _)
    (hbreak (Instant.blank_not_mem_clock (zone.second time)) _)
    (splitLast?_append_cons (Text.not_mem_padZeros rfl) path) (Header.size_total htotal)
    (Header.number64?_total htotal)
  rw [hjoin] at hread
  rw [Header.firstLine_make, Zone.text, Instant.text_eq]
  exact hread

/-- **The first line of an artifact tells its version, its time, its template and its size.**  The
version holds no blank, as one ends it, and like the path no line feed; of the path nothing else is
asked, so it may hold blanks, numbers that look like a size, and the end of a header. -/
theorem parse?_stamp (version path body : Text) (time : Instant) (zone : Zone)
    (hblank : ' ' ∉ version) (hversion : '\n' ∉ version) (hpath : '\n' ∉ path)
    (hfits : (Header.make version time path zone).totalSize body ≤ Header.maxSize) :
    ∃ artifact line, (Header.make version time path zone).stamp body = .ok artifact ∧
      (Text.lines artifact).head? = some line ∧
      parse? line = some ⟨version, zone.text time, path, artifact.size⟩ := by
  have hstamp := Header.stamp_eq_ok_iff.2 ⟨hfits, rfl⟩
  have hlines := Header.lines_firstLine hversion hpath time zone
    ((Header.make version time path zone).totalSize body) body
  refine ⟨_, _, hstamp, congrArg List.head? hlines, ?_⟩
  rw [Header.size_of_stamp hstamp]
  exact parse?_make hblank path time zone hfits

/-- A template of the last second before 1970 at a path with blanks, a size and the end of a
header, by clocks that are two hours ahead. -/
theorem parse?_stamp_crowded_path :
    let header := Header.make "1.1.2" (-1) "/my  views/000000042 */ ?> " ⟨fun _ => 7200⟩
    ' ' ∉ ("1.1.2" : Text) ∧ '\n' ∉ ("1.1.2" : Text) ∧
      '\n' ∉ ("/my  views/000000042 */ ?> " : Text) ∧ header.totalSize "a\nb" ≤ Header.maxSize ∧
      ∃ artifact line, header.stamp "a\nb" = .ok artifact ∧
        (Text.lines artifact).head? = some line ∧
        parse? line = some ⟨"1.1.2", "1970-01-01 01:59:59", "/my  views/000000042 */ ?> ",
          artifact.size⟩ := by
  intro header
  have hblank : ' ' ∉ ("1.1.2" : Text) := by decide
  have hversion : '\n' ∉ ("1.1.2" : Text) := by decide
  have hpath : '\n' ∉ ("/my  views/000000042 */ ?> " : Text) := by decide
  have hfits : header.totalSize "a\nb" ≤ Header.maxSize := by decide +kernel
  have htime : Zone.text ⟨fun _ => 7200⟩ (-1) = "1970-01-01 01:59:59" := by decide +kernel
  have hread := parse?_stamp _ _ _ (-1) ⟨fun _ => 7200⟩ hblank hversion hpath hfits
  rw [htime] at hread
  exact ⟨hblank, hversion, hpath, hfits, hread⟩

end HeaderInfo

end Stencil
