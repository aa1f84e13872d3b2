/-
  `Instant` — absolute points of time, and clock readings that denote them.

  An `Instant` counts the microseconds since the first moment of year `1` in
  UTC and never leaves the years `1 … 9999`: the bound is part of the type.
  A `Reading` is what a caller writes down: a wall clock, with or without its
  offset from UTC. `Reading.toUtc?` is the only way from one to the other, so
  whatever is decided on instants cannot depend on how a reading was written.
-/
import PeerTrust.Calendar
import PeerTrust.Text.Digits

namespace PeerTrust

/-! ### Instants -/

/-- The microseconds of one day. -/
def microsPerDay : Nat := 86400000000

/-- The microseconds of the years `1 … 9999`. -/
def calendarSpan : Nat := 3652059 * microsPerDay

/-- A point of time in UTC, in microseconds since the start of year `1`. -/
structure Instant where
  micros : Nat
  micros_lt : micros < calendarSpan
deriving DecidableEq

namespace Instant

/-- The instant a number of microseconds after the start of year `1`, if it lies
inside the calendar. -/
def ofMicros? (n : Int) : Option Instant :=
  if h : 0 ≤ n ∧ n.toNat < calendarSpan then some ⟨n.toNat, h.2⟩ else none

instance : LE Instant := ⟨fun a b => a.micros ≤ b.micros⟩
instance : LT Instant := ⟨fun a b => a.micros < b.micros⟩
instance (a b : Instant) : Decidable (a ≤ b) := inferInstanceAs (Decidable (a.micros ≤ b.micros))
instance (a b : Instant) : Decidable (a < b) := inferInstanceAs (Decidable (a.micros < b.micros))

/-- The first moment of year `1`. -/
def origin : Instant := ⟨0, by decide⟩

/-- The date and clock of the instant, `YYYY-MM-DD`, a separator and
`HH:MM:SS`; the six digits of the microseconds follow only if one is not zero. -/
def clockText (separator : String) (t : Instant) : String :=
  let date := Calendar.dateOfDayNumber (t.micros / microsPerDay)
  let seconds := t.micros % microsPerDay / 1000000
  let micros := t.micros % 1000000
  Text.paddedDecimal 4 date.year ++ "-" ++ Text.paddedDecimal 2 date.month ++ "-" ++
    Text.paddedDecimal 2 date.day ++ separator ++
    Text.paddedDecimal 2 (seconds / 3600) ++ ":" ++
    Text.paddedDecimal 2 (seconds / 60 % 60) ++ ":" ++ Text.paddedDecimal 2 (seconds % 60) ++
    (if micros = 0 then "" else "." ++ Text.paddedDecimal 6 micros)

/-- ISO 8601 text of an instant, with the offset of UTC. -/
def isoText (t : Instant) : String := t.clockText "T" ++ "+00:00"

end Instant

/-! ### Readings of a clock -/

/-- What a clock shows, with the clock's offset from UTC in microseconds if it is
known. `wall` is the instant that the clock would denote if it showed UTC. -/
structure Reading where
  wall : Instant
  offset : Option Int
deriving DecidableEq

namespace Reading

/-- The reading of a clock that shows UTC. -/
def ofInstant (t : Instant) : Reading := ⟨t, some 0⟩

/-- **The instant that a reading denotes.** A reading without an offset counts
as UTC. There is none if the offset leads out of the calendar. -/
def toUtc? (r : Reading) : Option Instant :=
  match r.offset with
  | none => some r.wall
  | some offset => Instant.ofMicros? (r.wall.micros - offset)

/-- A clock that shows UTC denotes the instant it shows. -/
@[simp] theorem toUtc?_ofInstant (t : Instant) : (ofInstant t).toUtc? = some t := by
  have hmicros : (t.micros : Int) - 0 = t.micros := by omega
  simp only [ofInstant, toUtc?, Instant.ofMicros?, hmicros, Int.toNat_natCast]
  rw [dif_pos ⟨by omega, t.micros_lt⟩]

/-- The text of an offset: a sign, hours and minutes, and seconds if there are any,
with six digits of microseconds only if one is not zero. -/
def offsetText (offset : Int) : String :=
  let seconds := offset.natAbs / 1000000
  let micros := offset.natAbs % 1000000
  (if offset < 0 then "-" else "+") ++ Text.paddedDecimal 2 (seconds / 3600) ++ ":" ++
    Text.paddedDecimal 2 (seconds / 60 % 60) ++
    (if seconds % 60 = 0 ∧ micros = 0 then "" else ":" ++ Text.paddedDecimal 2 (seconds % 60)) ++
    (if micros = 0 then "" else "." ++ Text.paddedDecimal 6 micros)

/-- The text of a reading with a chosen separator between date and clock. -/
def textWith (separator : String) (r : Reading) : String :=
  r.wall.clockText separator ++
    match r.offset with
    | none => ""
    | some offset => offsetText offset

/-- ISO 8601 text of a reading. -/
def isoText (r : Reading) : String := r.textWith "T"

/-! ### Reading ISO 8601 text -/

/-- A field of two decimal digits. -/
def twoDigits? : List Char → Option (Nat × List Char)
  | a :: b :: rest =>
    match Text.readDigits? 10 [a, b] with
    | some n => some (n, rest)
    | none => none
  | _ => none

/-- The instant of a date and a time of day, if both exist. -/
def wallOf? (date : CivilDate) (hour minute second micro : Nat) : Option Instant :=
  if Calendar.isValid date && hour < 24 && minute < 60 && second < 60 then
    Instant.ofMicros?
      (Calendar.dayNumber date * microsPerDay +
        ((hour * 60 + minute) * 60 + second) * 1000000 + micro : Nat)
  else none

/-- A fraction of a second: a point and at most six digits, or nothing. -/
def fraction? (cs : List Char) : Option (Nat × List Char) :=
  match cs with
  | '.' :: rest =>
    let digits := rest.takeWhile Char.isDigit
    if digits.length ≤ 6 then
      (Text.readDecimal? digits).map fun n =>
        (n * Nat.pow 10 (6 - digits.length), rest.dropWhile Char.isDigit)
    else none
  | _ => some (0, cs)

/-- An offset: nothing, `Z`, or a sign and `HH:MM`, with `:SS` and a fraction if they
follow. -/
def offset? (cs : List Char) : Option (Option Int) :=
  let signed (sign : Int) (rest : List Char) : Option (Option Int) := do
    let (hours, rest) ← twoDigits? rest
    let (minutes, rest) ← match rest with
      | ':' :: rest => twoDigits? rest
      | _ => none
    let (seconds, micros, rest) ← match rest with
      | ':' :: rest => do
        let (seconds, rest) ← twoDigits? rest
        let (micros, rest) ← fraction? rest
        some (seconds, micros, rest)
      | _ => some (0, 0, rest)
    if rest.isEmpty && hours < 24 && minutes < 60 && seconds < 60 then
      some (some (sign * (((hours * 60 + minutes) * 60 + seconds) * 1000000 + micros : Nat)))
    else none
  match cs with
  | [] => some none
  | ['Z'] => some (some 0)
  | '+' :: rest => signed 1 rest
  | '-' :: rest => signed (-1) rest
  | _ => none

/-- **Reads `YYYY-MM-DDTHH:MM:SS`** with an optional fraction and an optional offset. -/
def ofIso? (text : String) : Option Reading := do
  let cs := text.toList
  let year ← Text.readDecimal? (cs.take 4)
  let .cons '-' rest := cs.drop 4 | none
  let (month, rest) ← twoDigits? rest
  let .cons '-' rest := rest | none
  let (day, rest) ← twoDigits? rest
  let .cons separator rest := rest | none
  if separator ≠ 'T' ∧ separator ≠ ' ' then none
  let (hour, rest) ← twoDigits? rest
  let .cons ':' rest := rest | none
  let (minute, rest) ← twoDigits? rest
  let .cons ':' rest := rest | none
  let (second, rest) ← twoDigits? rest
  let (micro, rest) ← fraction? rest
  let offset ← offset? rest
  let wall ← wallOf? ⟨year, month, day⟩ hour minute second micro
  some ⟨wall, offset⟩

end Reading
end PeerTrust
