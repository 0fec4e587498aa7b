import Stencil.Artifact.Header
import Stencil.Proofs.Artifact.Calendar

/-!
# Proofs/Artifact/Stem — a stem tells the second of its template

    instant ──zone──▸ second on the clocks ──▸ date · time of day ──▸ text

The text of an instant gives back its second: numbers are read back from their digits, the parts are
separated by characters that they do not hold, and a date gives back its day (`Date.toDay`).  So
two files that start with stems agree only if the clocks showed one second, and then from the paths
on (`Header.stem_append_eq_iff`).  As the calendar leaves no choice, this holds whatever gives the
days their dates (`Header.makeBy_eq_iff`).

Whether the second on the clocks tells the second itself is up to the zone (`Zone.TellsApart`): it
does as long as clocks only go forward.
-/

namespace Stencil

/-! ## Separated texts -/

namespace Text

/-- **A text cut twice at a separator**: at the same place, or the one front goes on behind the
other. -/
theorem append_cons_eq_iff {c : Char} {a b s t : Text} :
    a ++ c :: s = b ++ c :: t ↔
      (a = b ∧ s = t) ∨ (∃ m, a = b ++ c :: m ∧ t = m ++ c :: s) ∨
        ∃ m, b = a ++ c :: m ∧ s = m ++ c :: t := by
  constructor
  · intro h
    rcases List.append_eq_append_iff.1 h with ⟨m, rfl, hm⟩ | ⟨m, rfl, hm⟩
    · cases m with
      | nil => exact .inl ⟨(List.append_nil _).symm, (List.cons.inj hm).2⟩
      | cons d m =>
        obtain ⟨rfl, rfl⟩ := List.cons.inj hm
        exact .inr (.inr ⟨m, rfl, rfl⟩)
    · cases m with
      | nil => exact .inl ⟨List.append_nil _, (List.cons.inj hm).2.symm⟩
      | cons d m =>
        obtain ⟨rfl, rfl⟩ := List.cons.inj hm
        exact .inr (.inl ⟨m, rfl, rfl⟩)
  · rintro (⟨rfl, rfl⟩ | ⟨m, rfl, rfl⟩ | ⟨m, rfl, rfl⟩)
    · rfl
    · rw [List.append_assoc, List.cons_append]
    · rw [List.append_assoc, List.cons_append]

/-- A separator that the fronts do not hold ends them in the same place. -/
theorem append_cons_inj {c : Char} {a b s t : Text} (ha : c ∉ a) (hb : c ∉ b)
    (h : a ++ c :: s = b ++ c :: t) : a = b ∧ s = t := by
  rcases append_cons_eq_iff.1 h with hsame | ⟨m, rfl, -⟩ | ⟨m, rfl, -⟩
  · exact hsame
  · exact absurd (List.mem_append_right _ List.mem_cons_self) ha
  · exact absurd (List.mem_append_right _ List.mem_cons_self) hb

/-- A separator that the backs do not hold ends the fronts in the same place. -/
theorem cons_append_inj {c : Char} {a b s t : Text} (hs : c ∉ s) (ht : c ∉ t)
    (h : a ++ c :: s = b ++ c :: t) : a = b ∧ s = t := by
  have hreverse := congrArg List.reverse h
  simp only [List.reverse_append, List.reverse_cons, List.append_assoc, List.singleton_append]
    at hreverse
  obtain ⟨hback, hfront⟩ := append_cons_inj (by simpa using hs) (by simpa using ht) hreverse
  exact ⟨List.reverse_inj.1 hfront, List.reverse_inj.1 hback⟩

/-- A text whose UTF-8 form starts another one is a prefix of its text. -/
theorem prefix_of_utf8 {s t : Text} (h : utf8 s <+: utf8 t) : s <+: t := by
  obtain ⟨rest, hrest⟩ := h
  refine List.isPrefix_of_utf8Encode_append_eq_utf8Encode rest.toByteArray ?_
  rw [List.utf8Encode, List.utf8Encode, ← List.toByteArray_append]
  exact congrArg _ hrest

/-! ## Numbers -/

/-- Zeros in front of the digits of a number do not change it. -/
theorem ofDigitChars_padZeros (width n : Nat) :
    Nat.ofDigitChars 10 (padZeros width (decimal n)) 0 = n := by
  rw [padZeros, Nat.ofDigitChars_append, Nat.ofDigitChars_replicate_zero, Nat.mul_zero]
  exact Nat.ofDigitChars_toDigits (by decide) (by decide)

theorem padZeros_decimal_inj (width : Nat) {m n : Nat}
    (h : padZeros width (decimal m) = padZeros width (decimal n)) : m = n := by
  rw [← ofDigitChars_padZeros width m, h, ofDigitChars_padZeros]

theorem isDigit_of_mem_padZeros {width n : Nat} {c : Char}
    (h : c ∈ padZeros width (decimal n)) : c.isDigit = true := by
  rcases List.mem_append.1 h with h | h
  · rw [List.eq_of_mem_replicate h]
    rfl
  · exact Nat.isDigit_of_mem_toDigits (by decide) (by decide) h

/-- A character that is no digit does not occur in a number. -/
theorem not_mem_padZeros {width n : Nat} {c : Char} (hc : c.isDigit = false) :
    c ∉ padZeros width (decimal n) := by
  intro h
  rw [isDigit_of_mem_padZeros h] at hc
  cases hc

end Text

/-! ## The texts of dates -/

namespace Date

theorem twoDigits_inj {m n : Nat} (h : twoDigits m = twoDigits n) : m = n :=
  Text.padZeros_decimal_inj 2 h

theorem filter_isDigit_yearText (y : Int) :
    (yearText y).filter Char.isDigit = Text.padZeros 4 (Text.decimal y.natAbs) := by
  have hdigits : (Text.padZeros 4 (Text.decimal y.natAbs)).filter Char.isDigit =
      Text.padZeros 4 (Text.decimal y.natAbs) :=
    List.filter_eq_self.2 fun c hc => Text.isDigit_of_mem_padZeros hc
  unfold yearText
  simp only
  split
  · exact hdigits
  · split <;> exact hdigits

theorem minus_mem_yearText (y : Int) : '-' ∈ yearText y ↔ y < 0 := by
  have hdigits : '-' ∉ Text.padZeros 4 (Text.decimal y.natAbs) := Text.not_mem_padZeros rfl
  unfold yearText
  simp only
  split
  · next hneg => simp [hneg]
  · next hneg => split <;> simp [hneg, hdigits]

/-- The digits of a year give back how far it is, and its sign in which direction. -/
theorem yearText_inj {y z : Int} (h : yearText y = yearText z) : y = z := by
  have hsign : y < 0 ↔ z < 0 := by rw [← minus_mem_yearText, h, minus_mem_yearText]
  have habs : y.natAbs = z.natAbs := by
    refine Text.padZeros_decimal_inj 4 ?_
    rw [← filter_isDigit_yearText, h, filter_isDigit_yearText]
  omega

/-- **The text of a date gives the date back.** -/
theorem text_inj {d d' : Date} (h : d.text = d'.text) : d = d' := by
  have hdash : ∀ n, '-' ∉ twoDigits n := fun n => Text.not_mem_padZeros rfl
  have hsplit : ∀ d : Date, d.text =
      (yearText d.year ++ '-' :: twoDigits d.month) ++ '-' :: twoDigits d.day := by
    intro d
    rw [text, List.append_assoc, List.append_assoc, List.append_assoc, List.append_assoc]
    rfl
  rw [hsplit, hsplit] at h
  obtain ⟨hfront, hday⟩ := Text.cons_append_inj (hdash _) (hdash _) h
  obtain ⟨hyear, hmonth⟩ := Text.cons_append_inj (hdash _) (hdash _) hfront
  cases d
  cases d'
  rw [mk.injEq]
  exact ⟨yearText_inj hyear, twoDigits_inj hmonth, twoDigits_inj hday⟩

/-- A date is made of digits and signs. -/
theorem not_mem_text {c : Char} (hdigit : c.isDigit = false) (hminus : c ≠ '-') (hplus : c ≠ '+')
    (d : Date) : c ∉ d.text := by
  have hdigits : ∀ width n, c ∉ Text.padZeros width (Text.decimal n) := fun _ _ =>
    Text.not_mem_padZeros hdigit
  have hyear : c ∉ yearText d.year := by
    unfold yearText
    simp only
    split
    · exact List.not_mem_cons_of_ne_of_not_mem hminus (hdigits 4 _)
    · split
      · exact List.not_mem_cons_of_ne_of_not_mem hplus (hdigits 4 _)
      · exact hdigits 4 _
  have hdash : c ∉ ['-'] := fun h => hminus (List.mem_singleton.1 h)
  exact List.not_mem_append (List.not_mem_append (List.not_mem_append (List.not_mem_append
    hyear hdash) (hdigits 2 _)) hdash) (hdigits 2 _)

theorem blank_not_mem_text (d : Date) : ' ' ∉ d.text :=
  not_mem_text rfl (by decide) (by decide) d

end Date

/-! ## Instants -/

namespace Instant

/-- **The second of an instant** starts not after it and ends after it. -/
theorem second_eq_iff {i : Instant} {s : Int} :
    i.second = s ↔ ofSecond s ≤ i ∧ i < ofSecond (s + 1) := by
  rw [second, ofSecond, ofSecond, Int.ediv_eq_iff_of_pos (by decide), Int.add_mul, Int.one_mul]

/-- The day of an instant, counted from the first of March of the year 0. -/
def day (i : Instant) : Int := second i / 86400 + Date.epochDay

/-- The time of day of a second. -/
def clock (s : Int) : Text :=
  let inDay := (s % 86400).toNat
  Date.twoDigits (inDay / 3600) ++ ':' :: (Date.twoDigits (inDay / 60 % 60) ++
    ':' :: Date.twoDigits (inDay % 60))

theorem text_eq (i : Instant) :
    text i = (Date.ofDay (second i / 86400 + Date.epochDay)).text ++ ' ' :: clock (second i) := by
  simp only [text, clock, List.append_assoc]
  rfl

/-- A time of day is made of digits and colons. -/
theorem not_mem_clock {c : Char} (hdigit : c.isDigit = false) (hcolon : c ≠ ':') (s : Int) :
    c ∉ clock s := by
  have hdigits : ∀ n, c ∉ Date.twoDigits n := fun n => Text.not_mem_padZeros hdigit
  simp [clock, hdigits, hcolon]

theorem blank_not_mem_clock (s : Int) : ' ' ∉ clock s := not_mem_clock rfl (by decide) s

/-- The time of day gives back the second of the day. -/
theorem mod_day_of_clock {s t : Int} (h : clock s = clock t) : s % 86400 = t % 86400 := by
  have hcolon : ∀ n, ':' ∉ Date.twoDigits n := fun n => Text.not_mem_padZeros rfl
  obtain ⟨hhour, hrest⟩ := Text.append_cons_inj (hcolon _) (hcolon _) h
  obtain ⟨hminute, hsecond⟩ := Text.append_cons_inj (hcolon _) (hcolon _) hrest
  have := Date.twoDigits_inj hhour
  have := Date.twoDigits_inj hminute
  have := Date.twoDigits_inj hsecond
  omega

/-- **Where the text of an instant is followed by a blank, it tells the second.** -/
theorem second_of_text {i j : Instant} {s t : Text} (h : text i ++ ' ' :: s = text j ++ ' ' :: t) :
    second i = second j := by
  rw [text_eq, text_eq, List.append_assoc, List.append_assoc, List.cons_append,
    List.cons_append] at h
  obtain ⟨hdate, hrest⟩ :=
    Text.append_cons_inj (Date.blank_not_mem_text _) (Date.blank_not_mem_text _) h
  obtain ⟨hclock, -⟩ := Text.append_cons_inj (blank_not_mem_clock _) (blank_not_mem_clock _) hrest
  have hday := congrArg Date.toDay (Date.text_inj hdate)
  rw [Date.toDay_ofDay, Date.toDay_ofDay] at hday
  have hinDay := mod_day_of_clock hclock
  omega

end Instant

/-! ## Clocks -/

namespace Zone

variable {zone : Zone}

/-- The second that the clocks of a zone show. -/
def second (zone : Zone) (i : Instant) : Int := (zone.shown i).second

@[simp] theorem shown_utc (i : Instant) : utc.shown i = i := by
  rw [shown, utc, Instant.ofSecond, Int.zero_mul, Int.add_zero]

@[simp] theorem second_utc (i : Instant) : utc.second i = i.second := by rw [second, shown_utc]

end Zone

/-! ## Stems -/

namespace Header

variable {version path path' rest rest' : Text} {i j : Instant} {zone zone' : Zone}

/-- **Two files that start with the stems of templates** of the same version agree if clocks showed
the same second for the templates, and all from the paths on is the same. -/
theorem stem_append_eq_iff :
    (make version i path zone).stem ++ rest = (make version j path' zone').stem ++ rest' ↔
      zone.second i = zone'.second j ∧ path ++ ' ' :: rest = path' ++ ' ' :: rest' := by
  have hblank : (" " : Text) = [' '] := by decide
  have hwords : ∀ (time : Instant) (zone : Zone) (p s : Text),
      (make version time p zone).stem ++ s =
        (opening ++ version ++ [' ']) ++ ((zone.shown time).text ++ ' ' :: (p ++ ' ' :: s)) := by
    intro time zone p s
    rw [make, hblank, List.append_assoc, List.append_assoc, List.append_assoc, List.append_assoc]
    rfl
  rw [hwords, hwords, List.append_cancel_left_eq, Zone.second, Zone.second]
  constructor
  · intro h
    have hsecond := Instant.second_of_text h
    rw [Instant.text_eq, Instant.text_eq (zone'.shown j), hsecond, List.append_cancel_left_eq] at h
    exact ⟨hsecond, (List.cons.inj h).2⟩
  · rintro ⟨hsecond, hrest⟩
    rw [Instant.text_eq, Instant.text_eq (zone'.shown j), hsecond, hrest]

/-- **A stem tells the second on the clocks and the path of its template.** -/
theorem stem_make_inj :
    (make version i path zone).stem = (make version j path' zone').stem ↔
      zone.second i = zone'.second j ∧ path = path' := by
  rw [← List.append_cancel_right_eq (make version i path zone).stem [], stem_append_eq_iff,
    List.append_cancel_right_eq]

/-- The header for a template, with the date that the days are given by `dates`. -/
def makeBy (dates : Int → Date) (version : Text) (time : Instant) (path : Text) : Header :=
  ⟨opening ++ version ++ ' ' :: ((dates time.day).text ++ ' ' ::
    (Instant.clock time.second ++ ' ' :: (path ++ [' '])))⟩

/-- **Whatever dates the days by the calendar** makes the same headers. -/
theorem makeBy_eq_make {first last : Int} {dates : Int → Date}
    (hdates : Date.Dates first last dates) {time : Instant}
    (htime : first ≤ time.day ∧ time.day ≤ last) (version path : Text) :
    makeBy dates version time path = make version time path := by
  have hblank : (" " : Text) = [' '] := by decide
  rw [makeBy, hdates.eq_ofDay htime.1 htime.2, make, Zone.text, Zone.shown_utc, Instant.text_eq,
    hblank, Instant.day]
  simp only [List.append_assoc, List.cons_append, List.nil_append]

/-- **The time in a header is true to the second.**  Let the days from `first` to `last` be dated by
the calendar: on these days the headers of two instants are equal exactly if some whole second holds
both. -/
theorem makeBy_eq_iff {first last : Int} {dates : Int → Date}
    (hdates : Date.Dates first last dates) {i j : Instant}
    (hi : first ≤ i.day ∧ i.day ≤ last) (hj : first ≤ j.day ∧ j.day ≤ last)
    (version path : Text) :
    (makeBy dates version i path = make version i path ∧
      makeBy dates version j path = make version j path) ∧
    (makeBy dates version i path = makeBy dates version j path ↔
      ∃ s : Int, (Instant.ofSecond s ≤ i ∧ i < Instant.ofSecond (s + 1)) ∧
        Instant.ofSecond s ≤ j ∧ j < Instant.ofSecond (s + 1)) := by
  have hmake := makeBy_eq_make hdates hi version path
  have hmake' := makeBy_eq_make hdates hj version path
  refine ⟨⟨hmake, hmake'⟩, ?_⟩
  rw [hmake, hmake', mk.injEq, stem_make_inj, and_iff_left rfl, Zone.second_utc, Zone.second_utc]
  constructor
  · intro h
    exact ⟨i.second, Instant.second_eq_iff.1 rfl, Instant.second_eq_iff.1 h.symm⟩
  · rintro ⟨s, hi, hj⟩
    rw [Instant.second_eq_iff.2 hi, Instant.second_eq_iff.2 hj]

/-- The last nanosecond before 1970 shares its header with the start of its second, and not with the
start of 1970. -/
theorem makeBy_eq_iff_before_epoch :
    let first := Date.toDay ⟨-262143, 1, 1⟩
    let last := Date.toDay ⟨262142, 12, 31⟩
    let header : Instant → Header := fun time => makeBy Date.ofDay "1.1.2" time "/a b"
    Date.Dates first last Date.ofDay ∧
      (∀ time ∈ ([-1, -1000000000, 0] : List Instant), first ≤ time.day ∧ time.day ≤ last) ∧
      (header (-1)).stem = "<?php /* Tplus 1.1.2 1969-12-31 23:59:59 /a b ".toList ∧
      header (-1) = header (-1000000000) ∧ header (-1) ≠ header 0 := by
  intro first last header
  have hdates : Date.Dates first last Date.ofDay := Date.dates_ofDay (by decide) (by decide)
  have htime : ∀ time ∈ ([-1, -1000000000, 0] : List Instant), first ≤ time.day ∧ time.day ≤ last :=
    by decide
  have hlast := htime (-1) (by decide)
  refine ⟨hdates, htime, by decide, ?_, fun h => ?_⟩
  · exact (makeBy_eq_iff hdates hlast (htime _ (by decide)) _ _).2.2 ⟨-1, by decide, by decide⟩
  · obtain ⟨s, hs, hs'⟩ := (makeBy_eq_iff hdates hlast (htime 0 (by decide)) _ _).2.1 h
    have hbefore : Instant.second (-1) = Instant.second 0 :=
      (Instant.second_eq_iff.2 hs).trans (Instant.second_eq_iff.2 hs').symm
    exact absurd hbefore (by decide)

end Header

end Stencil
