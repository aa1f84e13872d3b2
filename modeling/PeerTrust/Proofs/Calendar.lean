/-
  `Proofs.Calendar` — the days of the years `1 … 9999`, counted and named.

  Main statement: the day numbers below `dayCount` are those of the dates that exist
  (`lt_dayCount_iff`), and a day number leads to a date that has it (`dateOfDayNumber_spec`).

  A day number is taken apart from the largest unit on: cycles of 400 years, centuries, groups of
  four years, years (`exists_yearParts`). Each unit may have one day more than its parts of equal
  length make up, and that day belongs to the last part; with the parts known, the days before
  the year are linear in them (`daysBeforeYear_of_parts`). Inside a year the months are walked,
  and the walk keeps the number of days that lie before its month (`placeInYear_spec`).
-/
import Mathlib.Order.Monotone.Basic
import Mathlib.Tactic.SplitIfs
import PeerTrust.Calendar

namespace PeerTrust.Calendar

variable {n year month left : Nat} {d : CivilDate}

/-- The days of the years `1 … 9999`. -/
def dayCount : Nat := 3652059

/-! ### Years -/

/-- The number of days of a year. -/
def yearLength (year : Nat) : Nat := if isLeap year then 366 else 365

theorem isLeap_iff (year : Nat) :
    isLeap year = true ↔ year % 4 = 0 ∧ (year % 100 ≠ 0 ∨ year % 400 = 0) := by
  simp [isLeap]

theorem daysBeforeYear_eq (year : Nat) :
    daysBeforeYear year =
      (year - 1) * 365 + (year - 1) / 4 - (year - 1) / 100 + (year - 1) / 400 := rfl

/-- **The years follow each other.** -/
theorem daysBeforeYear_succ (h : 1 ≤ year) :
    daysBeforeYear (year + 1) = daysBeforeYear year + yearLength year := by
  obtain ⟨before, rfl⟩ := Nat.exists_eq_add_of_le' h
  have hcentury : before / 100 ≤ before / 4 := Nat.div_le_div_left (by decide) (by decide)
  rw [daysBeforeYear_eq, daysBeforeYear_eq, Nat.add_sub_cancel, Nat.add_sub_cancel,
    Nat.succ_div, Nat.succ_div, Nat.succ_div, yearLength]
  -- a quotient grows exactly in a year that its divisor divides, which is what the leap rule asks
  simp only [isLeap_iff, Nat.dvd_iff_mod_eq_zero]
  split_ifs <;> omega

theorem daysBeforeYear_mono : Monotone daysBeforeYear := by
  refine monotone_nat_of_le_succ fun year => ?_
  cases year with
  | zero => exact Nat.le_refl _
  | succ before =>
    rw [daysBeforeYear_succ (Nat.le_add_left 1 before)]
    exact Nat.le_add_right _ _

/-- The year is the one of these parts: a year of a group of four, in a century of a cycle. -/
def yearOfParts (cycle century group year : Nat) : Nat :=
  cycle * 400 + century * 100 + group * 4 + year + 1

/-- **The days before a year are linear in its parts.** -/
theorem daysBeforeYear_of_parts (cycle : Nat) {century group : Nat} (hcentury : century ≤ 3)
    (hgroup : group ≤ 24) (hyear : year ≤ 3) :
    daysBeforeYear (yearOfParts cycle century group year) =
      cycle * 146097 + century * 36524 + group * 1461 + year * 365 := by
  rw [daysBeforeYear_eq]
  unfold yearOfParts
  omega

/-- **A day number has parts.** What is left is the day of the year, counted from `0`. It is the
366th day only at the end of a group of four years, and not at the end of a century unless that
is the end of a cycle. -/
theorem exists_yearParts (n : Nat) :
    ∃ cycle century group year left, yearOfDayNumber n = yearOfParts cycle century group year ∧
      century ≤ 3 ∧ group ≤ 24 ∧ year ≤ 3 ∧
      n = cycle * 146097 + century * 36524 + group * 1461 + year * 365 + left ∧
      (left < 365 ∨ left = 365 ∧ year = 3 ∧ (group = 24 → century = 3)) := by
  let inCycle := n % 146097
  let century := min (inCycle / 36524) 3
  let inCentury := inCycle - century * 36524
  let inGroup := inCentury % 1461
  let year := min (inGroup / 365) 3
  have hcentury : century = min (inCycle / 36524) 3 := rfl
  have hinCycle : inCycle = n % 146097 := rfl
  have hinCentury : inCentury = inCycle - century * 36524 := rfl
  have hinGroup : inGroup = inCentury % 1461 := rfl
  have hyear : year = min (inGroup / 365) 3 := rfl
  refine ⟨n / 146097, century, inCentury / 1461, year, inGroup - year * 365, rfl, ?_⟩
  -- the parts are names from here on, each known by its equation alone
  clear_value inCycle century inCentury inGroup year
  omega

/-- **The year of a day number** starts with it or before, and ends behind it. -/
theorem yearOfDayNumber_bounds (n : Nat) :
    1 ≤ yearOfDayNumber n ∧ daysBeforeYear (yearOfDayNumber n) ≤ n ∧
      n < daysBeforeYear (yearOfDayNumber n) + yearLength (yearOfDayNumber n) := by
  obtain ⟨cycle, century, group, year, left, hparts, hcentury, hgroup, hyear, hn, hleft⟩ :=
    exists_yearParts n
  have hbefore := daysBeforeYear_of_parts cycle hcentury hgroup hyear
  have hpositive : 1 ≤ yearOfParts cycle century group year := Nat.le_add_left 1 _
  rw [hparts, hbefore, yearLength]
  refine ⟨hpositive, by omega, ?_⟩
  rcases hleft with hleft | ⟨rfl, rfl, hlast⟩
  · split_ifs <;> omega
  · -- the year ends a group of four, so it is a leap year unless it ends only a century
    have hleap : isLeap (yearOfParts cycle century group 3) = true := by
      rw [isLeap_iff]
      unfold yearOfParts
      omega
    rw [if_pos hleap]
    omega

/-! ### Months -/

theorem daysBeforeMonth_succ (year : Nat) (h : 1 ≤ month) :
    daysBeforeMonth year (month + 1) = daysBeforeMonth year month + daysInMonth year month := by
  obtain ⟨before, rfl⟩ := Nat.exists_eq_add_of_le' h
  unfold daysBeforeMonth
  rw [Nat.add_sub_cancel, Nat.add_sub_cancel, List.range_succ, List.foldl_append]
  rfl

/-- **The months make up the year.** -/
theorem daysBeforeMonth_thirteen (year : Nat) : daysBeforeMonth year 13 = yearLength year := by
  have hmonths : daysBeforeMonth year 13 = 337 + daysInMonth year 2 := by
    unfold daysBeforeMonth
    simp only [List.range, List.range.loop, List.foldl, daysInMonth]
    omega
  rw [hmonths, yearLength]
  show 337 + (if isLeap year then 29 else 28) = _
  split_ifs <;> rfl

theorem daysBeforeMonth_le (year : Nat) (h : 1 ≤ month) (hlast : month ≤ 12) :
    daysBeforeMonth year month + daysInMonth year month ≤ yearLength year := by
  have hmono : ∀ later, daysBeforeMonth year (month + 1) ≤
      daysBeforeMonth year (month + 1 + later) := by
    intro later
    induction later with
    | zero => exact Nat.le_refl _
    | succ later ih =>
      have hlater : 1 ≤ month + 1 + later := by omega
      rw [← Nat.add_assoc, daysBeforeMonth_succ year hlater]
      exact Nat.le_add_right_of_le ih
  have hyear := hmono (12 - month)
  rw [show month + 1 + (12 - month) = 13 by omega, daysBeforeMonth_thirteen] at hyear
  rw [← daysBeforeMonth_succ year h]
  exact hyear

/-- **The walk over the months** ends in a month that has the day, as many days into the year as
it started with. -/
theorem placeInYear_spec {fuel : Nat} (hfuel : fuel + month = 12) (hmonth : 1 ≤ month)
    (hleft : daysBeforeMonth year month + left < yearLength year) :
    ∃ d, placeInYear year fuel month left = d ∧ d.year = year ∧ 1 ≤ d.month ∧ d.month ≤ 12 ∧
      1 ≤ d.day ∧ d.day ≤ daysInMonth year d.month ∧
      daysBeforeMonth year d.month + (d.day - 1) = daysBeforeMonth year month + left := by
  -- the fuel is the number of months behind this one, so it runs out in December
  induction fuel generalizing month left with
  | zero =>
    obtain rfl : month = 12 := by omega
    have hlast := daysBeforeMonth_succ year hmonth
    rw [daysBeforeMonth_thirteen] at hlast
    refine ⟨⟨year, 12, left + 1⟩, rfl, rfl, hmonth, Nat.le_refl 12, Nat.le_add_left 1 _, ?_, rfl⟩
    show left + 1 ≤ daysInMonth year 12
    omega
  | succ fuel ih =>
    unfold placeInYear
    by_cases hhere : left < daysInMonth year month
    · refine ⟨⟨year, month, left + 1⟩, if_pos hhere, rfl, hmonth, ?_, Nat.le_add_left 1 _,
        hhere, rfl⟩
      show month ≤ 12
      omega
    · have hnext := daysBeforeMonth_succ year hmonth
      have hfuel' : fuel + (month + 1) = 12 := by omega
      have hleft' : daysBeforeMonth year (month + 1) + (left - daysInMonth year month) <
          yearLength year := by omega
      obtain ⟨d, hd, hyear, hfirst, hlast, hday, hlength, hsum⟩ :=
        ih hfuel' (Nat.le_add_left 1 month) hleft'
      refine ⟨d, (if_neg hhere).trans hd, hyear, hfirst, hlast, hday, hlength, ?_⟩
      omega

/-! ### Dates -/

theorem isValid_iff : isValid d = true ↔ (1 ≤ d.year ∧ d.year ≤ 9999) ∧
    (1 ≤ d.month ∧ d.month ≤ 12) ∧ 1 ≤ d.day ∧ d.day ≤ daysInMonth d.year d.month := by
  simp [isValid, and_assoc]

theorem dayCount_eq : daysBeforeYear 10000 = dayCount := by
  decide

/-- **Every day of the calendar has a date,** which exists and has its number. -/
theorem dateOfDayNumber_spec (h : n < dayCount) :
    isValid (dateOfDayNumber n) = true ∧ dayNumber (dateOfDayNumber n) = n := by
  obtain ⟨hpositive, hbefore, hbehind⟩ := yearOfDayNumber_bounds n
  have hyear : yearOfDayNumber n ≤ 9999 := by
    by_contra hlater
    have hmono := daysBeforeYear_mono (show 10000 ≤ yearOfDayNumber n by omega)
    rw [dayCount_eq] at hmono
    omega
  rw [dateOfDayNumber]
  generalize yearOfDayNumber n = year at *
  have hfirst : daysBeforeMonth year 1 = 0 := rfl
  have hleft : daysBeforeMonth year 1 + (n - daysBeforeYear year) < yearLength year := by omega
  have hfuel : 11 + 1 = 12 := rfl
  obtain ⟨d, hd, hyearOf, hmonth, hlast, hday, hlength, hsum⟩ :=
    placeInYear_spec hfuel (Nat.le_refl 1) hleft
  subst hyearOf
  rw [hd, isValid_iff, dayNumber]
  exact ⟨⟨⟨hpositive, hyear⟩, ⟨hmonth, hlast⟩, hday, hlength⟩, by omega⟩

/-- **Every date that exists is a day of the calendar.** -/
theorem dayNumber_lt (h : isValid d = true) : dayNumber d < dayCount := by
  obtain ⟨⟨hpositive, hyear⟩, ⟨hmonth, hlast⟩, hday, hlength⟩ := isValid_iff.mp h
  have hinYear := daysBeforeMonth_le d.year hmonth hlast
  have hsucc := daysBeforeYear_succ hpositive
  have hmono := daysBeforeYear_mono (show d.year + 1 ≤ 10000 by omega)
  rw [dayCount_eq] at hmono
  rw [dayNumber]
  omega

/-- **The days of the calendar are the days that have a date.** -/
theorem lt_dayCount_iff : n < dayCount ↔ ∃ d, isValid d = true ∧ dayNumber d = n := by
  refine ⟨fun h => ⟨_, dateOfDayNumber_spec h⟩, ?_⟩
  rintro ⟨d, hvalid, rfl⟩
  exact dayNumber_lt hvalid

end PeerTrust.Calendar
