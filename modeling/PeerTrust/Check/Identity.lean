/-
  `Check.Identity` — the claimed identity covers the target.
-/
import PeerTrust.Check.Context
import PeerTrust.Identity

namespace PeerTrust.CheckContext

/-- **Checks that the claimed identity covers the target.** -/
def checkIdentity (ctx : CheckContext) : Traced Unit :=
  if Identity.covers ctx.peerIdentity ctx.target then return ()
  else do
    .report (.identityMismatch ctx.target ctx.peerIdentity)
    .fail (.trust (.identityMismatch (.str ctx.peerIdentity) (.str ctx.target)))

end PeerTrust.CheckContext
