/-
  `Expiry` — how far away a date of expiry is, in words.

  The distance is a whole number of days, taken toward the past: an expiry that
  lies one microsecond back is already a full day in the past, and one that
  lies ahead by less than a day is today.
-/
import PeerTrust.Instant

namespace PeerTrust.Expiry

/-- The days from `reference` to `expiry`, rounded toward the past. -/
def dayDistance (expiry reference : Instant) : Int :=
  Int.fdiv ((expiry.micros : Int) - reference.micros) microsPerDay

/-- The number of years nearest to a number of days, a year having 365. No
number of days lies halfway between two years, since 365 is odd. -/
def nearestYears (days : Int) : Int := (2 * days + 365) / 730

/-- The words for a distance in days. A distance of more than a year is also
given in years. -/
def phrase (days : Int) : String :=
  if days < -1 then "Expired " ++ toString days.natAbs ++ " days ago"
  else if days = -1 then "Expired yesterday"
  else if days = 0 then "Expires today"
  else if days = 1 then "Expires tomorrow"
  else if days > 365 then
    "Expires in " ++ toString days ++ " days (" ++ toString (nearestYears days) ++ " years)"
  else "Expires in " ++ toString days ++ " days"

/-- **The state of an expiry as seen from a reference instant.** -/
def describe (expiry reference : Instant) : String :=
  phrase (dayDistance expiry reference)

end PeerTrust.Expiry
