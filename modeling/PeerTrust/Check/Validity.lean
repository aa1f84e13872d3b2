/-
  `Check.Validity` — every certificate is inside its validity window.

  The certificates are looked at from the leaf on, and the first one outside its
  window is reported. A clock reading that carries no offset can be placed
  inside a window but cannot be compared with its ends.
-/
import PeerTrust.Check.Context

namespace PeerTrust

namespace Chain

/-- The first certificate of a list whose window does not hold the instant, with
its depth. -/
def outsideFrom? (t : Instant) (depth : Nat) : List Certificate → Option (Nat × Certificate)
  | [] => none
  | c :: rest => if c.validAt t then outsideFrom? t (depth + 1) rest else some (depth, c)

/-- **The certificate nearest to the leaf whose window does not hold the instant.** -/
def outside? (chain : Chain) (t : Instant) : Option (Nat × Certificate) :=
  outsideFrom? t 0 chain.toList

end Chain

namespace CheckContext

/-- The verdict on a certificate outside its window, which names its subject: it is not valid
yet, or no longer. -/
def rejectOutside (ctx : CheckContext) (t : Instant) (depth : Nat) (c : Certificate) :
    Traced Unit := do
  let subject ← .ofExcept c.subject.read
  let notYet : Bool := t < c.notBefore
  .report
    (if notYet then .notYetValid ctx.target depth subject c.notBefore
      else .noLongerValid ctx.target depth subject c.notAfter t)
  .fail (.trust (.expired (.str ctx.target) notYet (.str ctx.peerIdentity)))

/-- **Checks the validity windows** at the reference of the context. -/
def checkValidity (ctx : CheckContext) : Traced Unit :=
  match ctx.reference.toUtc? with
  | none => .fail .outOfCalendar
  | some t =>
    match ctx.chain.outside? t with
    | none => return ()
    | some (depth, c) =>
      if ctx.reference.offset.isNone then .fail .mixedReadings
      else ctx.rejectOutside t depth c

end CheckContext
end PeerTrust
