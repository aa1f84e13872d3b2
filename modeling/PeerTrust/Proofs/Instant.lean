/-
  `Proofs.Instant` — what a clock reading denotes, against the count of days and their dates.

  A reading denotes a moment of UTC: its wall clock less its offset, counted in microseconds
  (`Reading.utcMicros`). The moment need not lie inside the calendar, and the reading has an
  instant exactly if it does (`Reading.toUtc?_eq_some_iff`, `Reading.toUtc?_eq_none_iff`). Inside
  the calendar are exactly the moments that have a date of the years `1 … 9999` and a time of day
  (`exists_microsOf_iff`). Readings of one moment therefore have one instant or none together, and
  readings with instants are ordered as their moments are.
-/
import PeerTrust.Instant
import PeerTrust.Proofs.Calendar

namespace PeerTrust

open Calendar

/-! ### Instants in order -/

/-- Instants are ordered as their microseconds are. -/
instance : LinearOrder Instant where
  le a b := a ≤ b
  lt a b := a < b
  le_refl a := Nat.le_refl a.micros
  le_trans _ _ _ := Nat.le_trans
  lt_iff_le_not_ge _ _ := Nat.lt_iff_le_and_not_ge
  le_antisymm := by
    rintro ⟨m, hm⟩ ⟨n, hn⟩ hle hge
    obtain rfl : m = n := Nat.le_antisymm hle hge
    rfl
  le_total a b := Nat.le_total a.micros b.micros
  toDecidableLE := inferInstance
  toDecidableLT := inferInstance
  toDecidableEq := inferInstance

/-! ### Moments and dates -/

namespace Instant

/-- The microseconds from the start of year `1` to a time of day, which is given in microseconds
itself. -/
def microsOf (d : CivilDate) (time : Nat) : Int := (dayNumber d * microsPerDay + time : Nat)

/-- **The moments inside the calendar** are those from the start of year `1` on and before the
start of year `10000`. -/
def InCalendar (n : Int) : Prop :=
  (daysBeforeYear 1 * microsPerDay : Nat) ≤ n ∧ n < (daysBeforeYear 10000 * microsPerDay : Nat)

instance (n : Int) : Decidable (InCalendar n) := inferInstanceAs (Decidable (_ ∧ _))

theorem inCalendar_iff {n : Int} : InCalendar n ↔ 0 ≤ n ∧ n < calendarSpan := by
  have hfirst : daysBeforeYear 1 * microsPerDay = 0 := rfl
  have hlast : daysBeforeYear 10000 * microsPerDay = calendarSpan := by
    rw [dayCount_eq]
    rfl
  rw [InCalendar, hfirst, hlast]
  exact Iff.rfl

/-- **A moment lies inside the calendar** exactly if it is a time of day on a date that exists. -/
theorem exists_microsOf_iff {n : Int} :
    (∃ d time, isValid d = true ∧ time < microsPerDay ∧ microsOf d time = n) ↔ InCalendar n := by
  have hday : 0 < microsPerDay := by decide
  have hspan : calendarSpan = dayCount * microsPerDay := rfl
  rw [inCalendar_iff, hspan]
  constructor
  · rintro ⟨d, time, hvalid, htime, rfl⟩
    have hnext : dayNumber d + 1 ≤ dayCount := dayNumber_lt hvalid
    have hbound := Nat.mul_le_mul_right microsPerDay hnext
    rw [Nat.succ_mul] at hbound
    unfold microsOf
    omega
  · rintro ⟨hnonneg, hlt⟩
    obtain ⟨m, rfl⟩ := Int.eq_ofNat_of_zero_le hnonneg
    have hdays : m / microsPerDay < dayCount := (Nat.div_lt_iff_lt_mul hday).mpr (by omega)
    obtain ⟨hvalid, hnumber⟩ := dateOfDayNumber_spec hdays
    refine ⟨_, m % microsPerDay, hvalid, Nat.mod_lt m hday, ?_⟩
    rw [microsOf, hnumber, Nat.div_add_mod']

theorem ofMicros?_eq_some_iff {n : Int} {t : Instant} :
    ofMicros? n = some t ↔ (t.micros : Int) = n := by
  have hbound := t.micros_lt
  unfold ofMicros?
  by_cases h : 0 ≤ n ∧ n.toNat < calendarSpan
  · rw [dif_pos h, Option.some.injEq, Instant.mk.injEq]
    omega
  · rw [dif_neg h]
    refine iff_of_false nofun ?_
    omega

theorem ofMicros?_eq_none_iff {n : Int} : ofMicros? n = none ↔ ¬InCalendar n := by
  rw [inCalendar_iff]
  unfold ofMicros?
  by_cases h : 0 ≤ n ∧ n.toNat < calendarSpan
  · rw [dif_pos h]
    refine iff_of_false nofun ?_
    omega
  · rw [dif_neg h]
    refine iff_of_true rfl ?_
    omega

end Instant

/-! ### Readings -/

namespace Reading

variable {r s : Reading} {t u : Instant}

/-- **The moment of UTC that a reading denotes,** inside the calendar or not, in microseconds from
the start of year `1`. A reading without an offset counts as UTC. -/
def utcMicros (r : Reading) : Int := r.wall.micros - r.offset.getD 0

theorem toUtc?_eq_ofMicros? (r : Reading) : r.toUtc? = Instant.ofMicros? r.utcMicros := by
  obtain ⟨wall, offset⟩ := r
  cases offset with
  | some offset => rfl
  | none =>
    have hmicros : (wall.micros : Int) = utcMicros ⟨wall, none⟩ := (Int.sub_zero _).symm
    exact (Instant.ofMicros?_eq_some_iff.mpr hmicros).symm

/-- **The instant of a reading is its moment.** -/
theorem toUtc?_eq_some_iff : r.toUtc? = some t ↔ (t.micros : Int) = r.utcMicros := by
  rw [toUtc?_eq_ofMicros?, Instant.ofMicros?_eq_some_iff]

/-- **A reading has no instant** exactly if its moment lies outside the calendar. -/
theorem toUtc?_eq_none_iff : r.toUtc? = none ↔ ¬Instant.InCalendar r.utcMicros := by
  rw [toUtc?_eq_ofMicros?, Instant.ofMicros?_eq_none_iff]

/-- Readings of one moment have one instant, or none of them has any. -/
theorem toUtc?_congr (h : r.utcMicros = s.utcMicros) : r.toUtc? = s.toUtc? := by
  rw [toUtc?_eq_ofMicros?, toUtc?_eq_ofMicros?, h]

theorem lt_iff_of_toUtc? (hr : r.toUtc? = some t) (hs : s.toUtc? = some u) :
    t < u ↔ r.utcMicros < s.utcMicros := by
  rw [← toUtc?_eq_some_iff.mp hr, ← toUtc?_eq_some_iff.mp hs]
  exact Int.ofNat_lt.symm

theorem eq_iff_of_toUtc? (hr : r.toUtc? = some t) (hs : s.toUtc? = some u) :
    t = u ↔ r.utcMicros = s.utcMicros := by
  rw [← toUtc?_eq_some_iff.mp hr, ← toUtc?_eq_some_iff.mp hs, Int.ofNat_inj, Instant.mk.injEq]

end Reading
end PeerTrust
