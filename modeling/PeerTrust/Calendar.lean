/-
  `Calendar` — the proleptic Gregorian calendar as a count of days.

  Day `0` is the first of January of year `1`, so a date and its day number
  determine each other inside the years `1 … 9999` that this library uses.
  Everything here is arithmetic on `ℕ`; clock readings and offsets from UTC are
  the business of `Instant`.
-/
namespace PeerTrust

/-- A date of the proleptic Gregorian calendar. -/
structure CivilDate where
  year : Nat
  month : Nat
  day : Nat
deriving DecidableEq, Repr

namespace Calendar

/-! ### Lengths of years and months -/

/-- Every fourth year is a leap year, of the full centuries only every fourth. -/
def isLeap (year : Nat) : Bool :=
  year % 4 == 0 && (year % 100 != 0 || year % 400 == 0)

/-- The number of days of a month; a month outside `1 … 12` has none. -/
def daysInMonth (year month : Nat) : Nat :=
  match month with
  | 1 | 3 | 5 | 7 | 8 | 10 | 12 => 31
  | 4 | 6 | 9 | 11 => 30
  | 2 => if isLeap year then 29 else 28
  | _ => 0

/-- The days of all years before `year`, counted from year `1`. -/
def daysBeforeYear (year : Nat) : Nat :=
  let y := year - 1
  y * 365 + y / 4 - y / 100 + y / 400

/-- The days of the months of `year` that come before `month`. -/
def daysBeforeMonth (year month : Nat) : Nat :=
  (List.range (month - 1)).foldl (fun days i => days + daysInMonth year (i + 1)) 0

/-! ### Day numbers -/

/-- The date exists in the calendar, in one of the years `1 … 9999`. -/
def isValid (d : CivilDate) : Bool :=
  1 ≤ d.year && d.year ≤ 9999 && 1 ≤ d.month && d.month ≤ 12 &&
    1 ≤ d.day && d.day ≤ daysInMonth d.year d.month

/-- The number of days between the first of January of year `1` and the date. -/
def dayNumber (d : CivilDate) : Nat :=
  daysBeforeYear d.year + daysBeforeMonth d.year d.month + (d.day - 1)

/-- The year that a day number lies in. The cycle of 400 years has 146097 days,
a century 36524 and a group of four years 1461; the last day of a cycle or group
belongs to its last year, which the two minima say. -/
def yearOfDayNumber (n : Nat) : Nat :=
  let cycle := n / 146097
  let inCycle := n % 146097
  let century := min (inCycle / 36524) 3
  let inCentury := inCycle - century * 36524
  let group := inCentury / 1461
  let inGroup := inCentury % 1461
  let year := min (inGroup / 365) 3
  cycle * 400 + century * 100 + group * 4 + year + 1

/-- Walks the months of `year` from `month` on, with `left` days still to place. -/
def placeInYear (year : Nat) : Nat → Nat → Nat → CivilDate
  | 0, month, left => ⟨year, month, left + 1⟩
  | fuel + 1, month, left =>
    let length := daysInMonth year month
    if left < length then ⟨year, month, left + 1⟩
    else placeInYear year fuel (month + 1) (left - length)

/-- The date with the given day number. -/
def dateOfDayNumber (n : Nat) : CivilDate :=
  let year := yearOfDayNumber n
  placeInYear year 11 1 (n - daysBeforeYear year)

end Calendar
end PeerTrust
