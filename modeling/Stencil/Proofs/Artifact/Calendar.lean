import Mathlib.Tactic.IntervalCases
import Mathlib.Tactic.Ring
import Stencil.Artifact.Calendar

/-!
# Proofs/Artifact/Calendar — the dates of the days

    … 1969-12-31 ──next──▸ 1970-01-01 ──next──▸ 1970-01-02 …

The Gregorian calendar is given by its leap years and the lengths of its months (`Date.next`), in
both directions and without end.  The date of a day runs through it: one day later stands the next
date (`Date.ofDay_succ`), so there is no other way to date the days from 1970 on and back
(`Date.Dates.eq_ofDay`).  A date gives its day back (`Date.toDay_ofDay`), hence no two days share
one.
-/

namespace Stencil

namespace Date

/-! ## The calendar -/

/-- A year with a day more: every fourth one, but of the full centuries only every fourth one. -/
def isLeap (year : Int) : Bool := year % 4 == 0 && (year % 100 != 0 || year % 400 == 0)

/-- The number of days of a month. -/
def monthLength (year : Int) (month : Nat) : Nat :=
  if month = 2 then if isLeap year then 29 else 28
  else if month = 4 ∨ month = 6 ∨ month = 9 ∨ month = 11 then 30
  else 31

/-- A date that the calendar has. -/
structure Valid (d : Date) : Prop where
  month_pos : 1 ≤ d.month
  month_le : d.month ≤ 12
  day_pos : 1 ≤ d.day
  day_le : d.day ≤ monthLength d.year d.month

/-- **The date of the next day.** -/
def next (d : Date) : Date :=
  if d.day < monthLength d.year d.month then ⟨d.year, d.month, d.day + 1⟩
  else if d.month < 12 then ⟨d.year, d.month + 1, 1⟩
  else ⟨d.year + 1, 1, 1⟩

/-- **A way to date the days** from a first to a last one, counted from the first of March of the
year 0: the first of January 1970 is dated so, and from one day to the next goes the next date. -/
structure Dates (first last : Int) (f : Int → Date) : Prop where
  first_le : first ≤ epochDay
  le_last : epochDay ≤ last
  epoch : f epochDay = ⟨1970, 1, 1⟩
  valid : ∀ n, first ≤ n → n ≤ last → (f n).Valid
  succ : ∀ n, first ≤ n → n < last → f (n + 1) = (f n).next

theorem monthLength_january (year : Int) : monthLength year 1 = 31 := rfl

theorem monthLength_february (year : Int) :
    monthLength year 2 = if isLeap year then 29 else 28 := rfl

/-- Counted from March, the months before February start at these days. -/
theorem monthLength_march {month : Nat} (h : month < 10) (year : Int) :
    monthLength year (month + 3) = (153 * (month + 1) + 2) / 5 - (153 * month + 2) / 5 := by
  interval_cases month <;> rfl

/-! ## Days and dates

Years start in March here, so that the day a leap year adds is the last one. -/

/-- The days before the first of March of a year. -/
def daysBefore (year : Int) : Int := 365 * year + year / 4 - year / 100 + year / 400

/-- **The day of a date**, counted from the first of March of the year 0. -/
def toDay (d : Date) : Int :=
  let year := if d.month < 3 then d.year - 1 else d.year
  let month := if d.month < 3 then d.month + 9 else d.month - 3
  daysBefore year + ((153 * month + 2) / 5 + d.day - 1 : Nat)

theorem toDay_january (year : Int) (day : Nat) : toDay ⟨year, 1, day⟩ =
    daysBefore (year - 1) + ((153 * 10 + 2) / 5 + day - 1 : Nat) := rfl

theorem toDay_february (year : Int) (day : Nat) : toDay ⟨year, 2, day⟩ =
    daysBefore (year - 1) + ((153 * 11 + 2) / 5 + day - 1 : Nat) := rfl

theorem toDay_march (year : Int) (month day : Nat) : toDay ⟨year, month + 3, day⟩ =
    daysBefore year + ((153 * month + 2) / 5 + day - 1 : Nat) := by
  simp [toDay]

/-- The date of a day of a year, both counted from March. -/
def ofYear (year : Int) (inYear : Nat) : Date :=
  let month := (5 * inYear + 2) / 153
  let day := inYear - (153 * month + 2) / 5 + 1
  if month < 10 then ⟨year, month + 3, day⟩ else ⟨year + 1, month - 9, day⟩

/-- The days before a year, from its cycle, century, span and turn. -/
theorem daysBefore_eq {cycle year : Int} {century span turn : Nat} (hcentury : century ≤ 3)
    (hspan : span ≤ 24) (hturn : turn ≤ 3)
    (h : year = cycle * 400 + ((century * 100 + span * 4 + turn : Nat) : Int)) :
    daysBefore year = 146097 * cycle + 36524 * century + 1461 * span + 365 * turn := by
  have hfour : year / 4 = 100 * cycle + 25 * century + span := by omega
  have hhundred : year / 100 = 4 * cycle + century := by omega
  have hcycle : year / 400 = cycle := by omega
  rw [daysBefore]
  omega

/-- The last year of a span ends in a leap year, but in the last span of a century only if that is
the last one of its cycle. -/
theorem isLeap_of_span {cycle year : Int} {century span : Nat} (hspan : span ≤ 24)
    (hcentury : span = 24 → century = 3)
    (h : year = cycle * 400 + ((century * 100 + span * 4 + 3 : Nat) : Int)) :
    isLeap (year + 1) = true := by
  have hfour : (year + 1) % 4 = 0 := by omega
  rw [isLeap, hfour]
  by_cases hlast : span = 24
  · have hcycle : (year + 1) % 400 = 0 := by
      rw [h, hlast, hcentury hlast]
      omega
    rw [hcycle]
    simp
  · have hhundred : (year + 1) % 100 = span * 4 + 4 := by omega
    have hne : (year + 1) % 100 ≠ 0 := by omega
    simp [hne]

/-- **The parts of a day**: its cycle, century, span of four years, year and day of the year.  A
span has its last day only if it is not the last of its century, or the century is the last of its
cycle. -/
theorem exists_parts (n : Int) : ∃ (cycle : Int) (century span turn inYear : Nat),
    ofDay n = ofYear (cycle * 400 + ((century * 100 + span * 4 + turn : Nat) : Int)) inYear ∧
      n = 146097 * cycle + 36524 * century + 1461 * span + 365 * turn + inYear ∧
      (century ≤ 3 ∧ span ≤ 24 ∧ turn ≤ 3 ∧ inYear < 366) ∧
      (inYear = 365 → turn = 3 ∧ (span = 24 → century = 3)) := by
  unfold ofDay
  simp only
  generalize hcycle : n / 146097 = cycle
  generalize hinCycle : (n % 146097).toNat = inCycle
  have hn : n = 146097 * cycle + inCycle ∧ inCycle < 146097 := by omega
  generalize hcentury : min (inCycle / 36524) 3 = century
  generalize hinCentury : inCycle - century * 36524 = inCentury
  have hcycles : inCycle = 36524 * century + inCentury ∧ century ≤ 3 ∧ inCentury ≤ 36524 := by
    omega
  have hlastDay : inCentury = 36524 → century = 3 := by omega
  clear hinCentury hcentury hcycle hinCycle
  generalize hspan : inCentury / 1461 = span
  generalize hinSpan : inCentury % 1461 = inSpan
  have hspans : inCentury = 1461 * span + inSpan ∧ inSpan < 1461 ∧ span ≤ 24 := by
    clear hlastDay
    omega
  clear hspan hinSpan
  generalize hturn : min (inSpan / 365) 3 = turn
  generalize hinYear : inSpan - turn * 365 = inYear
  have hturns : inSpan = 365 * turn + inYear ∧ turn ≤ 3 ∧ inYear < 366 := by
    clear hlastDay
    omega
  have hlastYear : inYear = 365 → turn = 3 := by omega
  clear hturn hinYear
  refine ⟨cycle, century, span, turn, inYear, rfl, ?_, ?_, fun hlast => ?_⟩
  · clear hlastDay hlastYear
    omega
  · exact ⟨hcycles.2.1, hspans.2.2, hturns.2.1, hturns.2.2⟩
  · refine ⟨hlastYear hlast, fun hspan => hlastDay ?_⟩
    rw [hlastYear hlast] at hturns
    omega

/-- **A day is a day of a year**, the last one only if the year ends in a leap year. -/
theorem exists_ofYear (n : Int) : ∃ (year : Int) (inYear : Nat), ofDay n = ofYear year inYear ∧
    n = daysBefore year + inYear ∧ inYear < 366 ∧ (inYear = 365 → isLeap (year + 1) = true) := by
  obtain ⟨_, _, _, _, inYear, hdate, hn, ⟨hcentury, hspan, hturn, hinYear⟩, hlast⟩ :=
    exists_parts n
  refine ⟨_, inYear, hdate, ?_, hinYear, fun h => ?_⟩
  · rw [daysBefore_eq hcentury hspan hturn rfl]
    exact hn
  · obtain ⟨rfl, hcycle⟩ := hlast h
    exact isLeap_of_span hspan hcycle rfl

/-- **The month of a day of a year**, counted from March. -/
theorem month_of_inYear {inYear month : Nat} (hmonth : (5 * inYear + 2) / 153 = month)
    (hinYear : inYear < 366) :
    (153 * month + 2) / 5 ≤ inYear ∧ inYear < (153 * (month + 1) + 2) / 5 ∧ month < 12 := by
  omega

/-- **The date of a day gives the day back.** -/
theorem toDay_ofDay (n : Int) : (ofDay n).toDay = n := by
  obtain ⟨year, inYear, hdate, hn, hinYear, -⟩ := exists_ofYear n
  rw [hdate]
  unfold ofYear
  simp only
  generalize hmonth : (5 * inYear + 2) / 153 = month
  have hmonths := month_of_inYear hmonth hinYear
  clear hmonth hdate
  split
  · have hmarch : ¬ month + 3 < 3 := by omega
    simp only [toDay, hmarch, if_false, Nat.add_sub_cancel]
    omega
  · have hjanuary : month - 9 < 3 := by omega
    have hback : month - 9 + 9 = month := by omega
    simp only [toDay, hjanuary, if_true, hback, Int.add_sub_cancel]
    omega

/-- **The date of a day is one of the calendar.** -/
theorem valid_ofDay (n : Int) : (ofDay n).Valid := by
  obtain ⟨year, inYear, hdate, -, hinYear, hleap⟩ := exists_ofYear n
  rw [hdate]
  unfold ofYear
  simp only
  generalize hmonth : (5 * inYear + 2) / 153 = month
  obtain ⟨hstart, hend, hlt⟩ := month_of_inYear hmonth hinYear
  clear hmonth
  split
  · next hmarch =>
    have hlength := monthLength_march hmarch year
    exact ⟨by simp, Nat.add_le_add_right (Nat.le_of_lt_succ hmarch) 3, by simp, by simp only; omega⟩
  · obtain rfl | rfl : month = 10 ∨ month = 11 := by omega
    · refine ⟨by simp, by simp, by simp, ?_⟩
      simp only [Nat.reduceSub, monthLength_january]
      omega
    · refine ⟨by simp, by simp, by simp, ?_⟩
      simp only [Nat.reduceSub, monthLength_february]
      split
      · omega
      · next hshort =>
        have hne : inYear ≠ 365 := fun h => hshort (hleap h)
        omega

/-! ## The next day -/

/-- A year has a day more for each fourth, a day less for each century, and one more for each
cycle. -/
theorem yearLength_eq (year : Int) :
    (if isLeap year then 366 else 365 : Int) = 365 + (if year % 4 = 0 then 1 else 0) -
      (if year % 100 = 0 then 1 else 0) + (if year % 400 = 0 then 1 else 0) := by
  have hcentury : year % 400 = 0 → year % 100 = 0 := by omega
  have hfour : year % 100 = 0 → year % 4 = 0 := by omega
  unfold isLeap
  by_cases h400 : year % 400 = 0
  · simp [h400, hcentury h400, hfour (hcentury h400)]
  · by_cases h100 : year % 100 = 0
    · simp [h400, h100, hfour h100]
    · by_cases h4 : year % 4 = 0 <;> simp [h400, h100, h4]

/-- A year is a day longer if it ends in a leap year. -/
theorem daysBefore_succ (year : Int) :
    daysBefore (year + 1) = daysBefore year + if isLeap (year + 1) then 366 else 365 := by
  have hfour : (year + 1) / 4 = year / 4 + if (year + 1) % 4 = 0 then 1 else 0 := by
    split <;> omega
  have hhundred : (year + 1) / 100 = year / 100 + if (year + 1) % 100 = 0 then 1 else 0 := by
    split <;> omega
  have hcycle : (year + 1) / 400 = year / 400 + if (year + 1) % 400 = 0 then 1 else 0 := by
    split <;> omega
  rw [daysBefore, hfour, hhundred, hcycle, daysBefore, yearLength_eq]
  ring

theorem daysBefore_le {year year' : Int} (h : year ≤ year') :
    daysBefore year ≤ daysBefore year' := by
  unfold daysBefore
  omega

/-- A day is a day of one year only. -/
theorem daysBefore_lt {year year' : Int} {inYear : Nat} (h : year < year') (hlt : inYear < 366)
    (hlast : inYear = 365 → isLeap (year + 1) = true) :
    daysBefore year + inYear < daysBefore year' := by
  have hle := daysBefore_le (Int.add_one_le_of_lt h)
  rw [daysBefore_succ] at hle
  split at hle
  · omega
  · next hshort =>
    have hne : inYear ≠ 365 := fun h => hshort (hlast h)
    omega

/-- **The date of a day of a month**, counted from March. -/
theorem ofYear_eq {month day : Nat} (hday : 1 ≤ day)
    (hlength : day ≤ (153 * (month + 1) + 2) / 5 - (153 * month + 2) / 5) (year : Int) :
    ofYear year ((153 * month + 2) / 5 + day - 1) =
      if month < 10 then ⟨year, month + 3, day⟩ else ⟨year + 1, month - 9, day⟩ := by
  have hmonth : (5 * ((153 * month + 2) / 5 + day - 1) + 2) / 153 = month := by omega
  have hback : (153 * month + 2) / 5 + day - 1 - (153 * month + 2) / 5 + 1 = day := by omega
  simp only [ofYear, hmonth, hback]

/-- **A date is a day of a year**, the last one only if the year ends in a leap year. -/
theorem Valid.exists_ofYear {d : Date} (h : d.Valid) : ∃ (year : Int) (inYear : Nat),
    d = ofYear year inYear ∧ d.toDay = daysBefore year + inYear ∧ inYear < 366 ∧
      (inYear = 365 → isLeap (year + 1) = true) := by
  obtain ⟨year, month, day⟩ := d
  obtain ⟨hpos, hle, hday, hlength⟩ := h
  simp only at hpos hle hday hlength
  by_cases hmonth : month < 3
  · obtain rfl | rfl : month = 1 ∨ month = 2 := by omega
    · rw [monthLength_january] at hlength
      refine ⟨year - 1, (153 * 10 + 2) / 5 + day - 1, ?_, toDay_january .., by omega, by omega⟩
      rw [ofYear_eq hday (by omega), if_neg (by decide), Int.sub_add_cancel]
    · rw [monthLength_february] at hlength
      have hlong : day ≤ 29 := hlength.trans (by split <;> decide)
      refine ⟨year - 1, (153 * 11 + 2) / 5 + day - 1, ?_, toDay_february .., by omega,
        fun hlast => ?_⟩
      · rw [ofYear_eq hday (by omega), if_neg (by decide), Int.sub_add_cancel]
      · rw [Int.sub_add_cancel]
        by_contra hshort
        rw [if_neg hshort] at hlength
        omega
  · obtain ⟨month, rfl⟩ := Nat.exists_eq_add_of_le' (Nat.le_of_not_lt hmonth)
    have hmarch : month < 10 := by omega
    rw [monthLength_march hmarch] at hlength
    refine ⟨year, (153 * month + 2) / 5 + day - 1, ?_, toDay_march .., by omega, by omega⟩
    rw [ofYear_eq hday hlength, if_pos hmarch]

/-- **The day of a date gives the date back.** -/
theorem Valid.ofDay_toDay {d : Date} (h : d.Valid) : ofDay d.toDay = d := by
  obtain ⟨year, inYear, hdate, hday, hlt, hlast⟩ := h.exists_ofYear
  obtain ⟨year', inYear', hdate', hday', hlt', hlast'⟩ := Date.exists_ofYear d.toDay
  have hyear : year = year' := by
    rcases Int.lt_trichotomy year year' with hbefore | hsame | hafter
    · have := daysBefore_lt hbefore hlt hlast
      omega
    · exact hsame
    · have := daysBefore_lt hafter hlt' hlast'
      omega
  have hinYear : inYear = inYear' := by
    rw [hday, hyear] at hday'
    omega
  rw [hdate', hyear.symm, hinYear.symm, ← hdate]

theorem Valid.next {d : Date} (h : d.Valid) : d.next.Valid := by
  have hfirst : ∀ year month, 1 ≤ monthLength year month := by
    intro year month
    unfold monthLength
    split
    · split <;> decide
    · split <;> decide
  obtain ⟨hpos, hle, hday, hlength⟩ := h
  unfold Date.next
  split
  · next hlt => exact ⟨hpos, hle, Nat.le_add_left 1 _, hlt⟩
  · split
    · next hlt => exact ⟨Nat.le_add_left 1 _, hlt, Nat.le_refl 1, hfirst _ _⟩
    · exact ⟨Nat.le_refl 1, by simp, Nat.le_refl 1, hfirst _ _⟩

/-- **The next date is that of the next day.** -/
theorem Valid.toDay_next {d : Date} (h : d.Valid) : d.next.toDay = d.toDay + 1 := by
  obtain ⟨year, month, day⟩ := d
  obtain ⟨hpos, hle, hday, hlength⟩ := h
  simp only at hpos hle hday hlength
  unfold Date.next
  simp only
  split
  · simp only [toDay]
    omega
  · next hlast =>
    have hend : day = monthLength year month := Nat.le_antisymm hlength (Nat.le_of_not_lt hlast)
    by_cases hmonth : month < 3
    · obtain rfl | rfl : month = 1 ∨ month = 2 := by omega
      · rw [hend, monthLength_january, if_pos (by decide), toDay_february, toDay_january]
        omega
      · -- The year that starts in March ends with February.
        have hyear := daysBefore_succ (year - 1)
        have hmarch : toDay ⟨year, 2 + 1, 1⟩ = _ := toDay_march year 0 1
        rw [Int.sub_add_cancel] at hyear
        rw [hend, if_pos (by decide), hmarch, toDay_february, hyear, monthLength_february]
        by_cases hleap : isLeap year = true
        · rw [if_pos hleap, if_pos hleap]
          omega
        · rw [if_neg hleap, if_neg hleap]
          omega
    · obtain ⟨month, rfl⟩ := Nat.exists_eq_add_of_le' (Nat.le_of_not_lt hmonth)
      have hmarch : month < 10 := by omega
      rw [monthLength_march hmarch] at hend
      rw [toDay_march]
      split
      · rw [Nat.add_right_comm, toDay_march]
        omega
      · obtain rfl : month = 9 := by omega
        rw [toDay_january, Int.add_sub_cancel]
        omega

/-- **One day later stands the next date.** -/
theorem ofDay_succ (n : Int) : ofDay (n + 1) = (ofDay n).next := by
  have hvalid := valid_ofDay n
  rw [← hvalid.next.ofDay_toDay, hvalid.toDay_next, toDay_ofDay]

/-- The dates of the days run through the calendar. -/
theorem dates_ofDay {first last : Int} (hfirst : first ≤ epochDay) (hlast : epochDay ≤ last) :
    Dates first last ofDay :=
  ⟨hfirst, hlast, by decide, fun n _ _ => valid_ofDay n, fun n _ _ => ofDay_succ n⟩

/-- **There is no other way to date the days.** -/
theorem Dates.eq_ofDay {first last n : Int} {f : Int → Date} (h : Dates first last f)
    (hfirst : first ≤ n) (hlast : n ≤ last) : f n = ofDay n := by
  have hday : ∀ n, first ≤ n → n ≤ last → (f n).toDay = n := by
    intro n
    -- The dates are known from 1970 on, and from there back.
    induction n using Int.inductionOn' (b := epochDay) with
    | zero =>
      intro _ _
      rw [h.epoch]
      decide
    | succ n hn ih =>
      intro _ hlast
      have hfirst := h.first_le.trans hn
      have hlt := Int.lt_of_add_one_le hlast
      rw [h.succ n hfirst hlt, (h.valid n hfirst hlt.le).toDay_next, ih hfirst hlt.le]
    | pred n hn ih =>
      intro hfirst hlast
      have hle := hn.trans h.le_last
      have hnext := (h.valid (n - 1) hfirst hlast).toDay_next
      rw [← h.succ (n - 1) hfirst (by omega), Int.sub_add_cancel, ih (by omega) hle] at hnext
      omega
  rw [← (h.valid n hfirst hlast).ofDay_toDay, hday n hfirst hlast]

end Date

end Stencil
