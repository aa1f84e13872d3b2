/-
  `Check.Context` — what the checks of one evaluation look at.

  The context is fixed before the first check runs. A check is an action that
  ends without a value or with a failure; a verdict against the peer is a
  `TrustError`.
-/
import PeerTrust.Chain
import PeerTrust.Journal

namespace PeerTrust

/-- How an observer answers a call with a peer's identity. -/
abbrev Reaction := String → Except Failure Unit

/-- Who is told about accepted self-signed certificates; an object that cannot
be called fails when it is told. -/
inductive Observer
  | callable (react : Reaction)
  | uncallable

/-- What the checks look at. -/
structure CheckContext where
  chain : Chain
  target : String
  peerIdentity : String
  policy : Policy
  reference : Reading
  roots : Option RootSet
  observer : Option Observer

namespace Observer

/-- Tells an observer about an identity. -/
def tell (observer : Option Observer) (identity : String) : Traced Unit :=
  match observer with
  | none => return ()
  | some (.callable react) => do
    .note (.observed identity)
    .ofExcept (react identity)
  | some .uncallable => .fail .misuse

end Observer

/-- **Puts the acceptance of a self-signed certificate on record,** and then tells
the observer. -/
def recordSelfSigned (identity : String) (target : Option String) (observer : Option Observer) :
    Traced Unit := do
  .report (.selfSignedAccepted identity target)
  Observer.tell observer identity

end PeerTrust
