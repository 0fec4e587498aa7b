import Stencil.Text.Basic

/-!
# Artifact/Calendar — instants as dates

An instant is a number of nanoseconds from the start of 1970, in either direction.  It falls into a
day of the Gregorian calendar, extended to all years, and a second of that day.  Days are counted
from the first of March of the year 0, so that the day a leap year adds is the last of its year,
century and cycle of 400 years; `Date.ofDay` takes off whole cycles, centuries, spans of four years
and years, in this order.

Clocks show local time.  How far they are ahead of the calendar is up to the zone, and need not stay
the same: where they are set back, two instants show the same date and time of day.
-/

namespace Stencil

/-- Nanoseconds since the start of 1970. -/
abbrev Instant := Int

/-- A day of the calendar. -/
structure Date where
  year : Int
  month : Nat
  day : Nat
  deriving DecidableEq, Repr

namespace Date

/-- The number of days from the first of March of the year 0 to the start of 1970. -/
def epochDay : Int := 719468

/-- The date of a day, counted from the first of March of the year 0. -/
def ofDay (n : Int) : Date :=
  let cycle := n / 146097
  let inCycle := (n % 146097).toNat
  let century := min (inCycle / 36524) 3
  let inCentury := inCycle - century * 36524
  let span := inCentury / 1461
  let inSpan := inCentury % 1461
  let turn := min (inSpan / 365) 3
  let inYear := inSpan - turn * 365
  let year := cycle * 400 + ((century * 100 + span * 4 + turn : Nat) : Int)
  let month := (5 * inYear + 2) / 153
  let day := inYear - (153 * month + 2) / 5 + 1
  if month < 10 then ⟨year, month + 3, day⟩ else ⟨year + 1, month - 9, day⟩

/-- A year: four digits from 0 to 9999, else a sign and at least four digits. -/
def yearText (y : Int) : Text :=
  let digits := Text.padZeros 4 (Text.decimal y.natAbs)
  if y < 0 then '-' :: digits
  else if 9999 < y then '+' :: digits
  else digits

/-- A number of at least two digits. -/
def twoDigits (n : Nat) : Text := Text.padZeros 2 (Text.decimal n)

/-- A date as year, month and day. -/
def text (d : Date) : Text :=
  yearText d.year ++ "-" ++ twoDigits d.month ++ "-" ++ twoDigits d.day

end Date

namespace Instant

/-- The whole second in which an instant falls. -/
def second (i : Instant) : Int := i / 1000000000

/-- The instant at the start of a second. -/
def ofSecond (s : Int) : Instant := s * 1000000000

/-- An instant as date and time of day, where clocks are not ahead. -/
def text (i : Instant) : Text :=
  let s := second i
  let date := Date.ofDay (s / 86400 + Date.epochDay)
  let inDay := (s % 86400).toNat
  date.text ++ " " ++ Date.twoDigits (inDay / 3600) ++ ":" ++ Date.twoDigits (inDay / 60 % 60)
    ++ ":" ++ Date.twoDigits (inDay % 60)

end Instant

/-- **A time zone**: how many seconds its clocks are ahead, in every second. -/
structure Zone where
  ahead : Int → Int

namespace Zone

/-- The zone in which clocks are never ahead. -/
def utc : Zone := ⟨fun _ => 0⟩

/-- The instant that clocks would be right at if they were not ahead. -/
def shown (zone : Zone) (i : Instant) : Instant := i + Instant.ofSecond (zone.ahead i.second)

/-- **An instant as date and time of day**, as the clocks of a zone show it. -/
def text (zone : Zone) (i : Instant) : Text := (zone.shown i).text

end Zone

end Stencil
