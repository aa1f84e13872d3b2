/-
  `Clock` — questions about clock readings, which have an answer only inside the
  calendar.
-/
import PeerTrust.Expiry
import PeerTrust.Failure

namespace PeerTrust

/-- **The instant of a reading,** or the failure that there is none. -/
def Reading.instant (r : Reading) : Except Failure Instant :=
  match r.toUtc? with
  | some t => .ok t
  | none => .error .outOfCalendar

/-- The instant of a value, which has to be a clock reading. -/
def Value.instant : Value → Except Failure Instant
  | .dateTime r => r.instant
  | _ => .error .noSuchAttribute

/-- **The state of an expiry as seen from a reference.** A reference that counts as
absent is the present instant, and is not looked at before the expiry. -/
def Expiry.ofValues (now : Instant) (expiry reference : Value) : Except Failure String := do
  let t ← expiry.instant
  return describe t (← if reference.isTruthy then reference.instant else .ok now)

/-- **The certificate is valid at a reading.** -/
def Certificate.validAtValue (c : Certificate) (v : Value) : Except Failure Bool := do
  return c.validAt (← v.instant)

end PeerTrust
