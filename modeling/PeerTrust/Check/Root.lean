/-
  `Check.Root` — the last certificate is a trusted root.

  A chain of one certificate that is no trusted root passes if the policy
  accepts self-signed certificates. The acceptance is put on record, and it is
  the observer's last chance to object.
-/
import PeerTrust.Check.Context

namespace PeerTrust.CheckContext

/-- The last certificate of the chain is a trusted root. -/
def hasTrustedRoot (ctx : CheckContext) : Bool :=
  match ctx.roots with
  | some roots => roots.contains ctx.chain.root
  | none => false

/-- **Checks that the root is trusted,** or that an exception is granted. -/
def checkRoot (ctx : CheckContext) : Traced Unit :=
  if ctx.hasTrustedRoot then return ()
  else if ctx.chain.isAlone && ctx.policy.acceptSelfSigned then
    recordSelfSigned ctx.peerIdentity (some ctx.target) ctx.observer
  else do
    let subject ← .ofExcept ctx.chain.root.subject.read
    .report (.rootNotFound ctx.target subject)
    .fail (.trust
      (.rootNotTrusted (.str ctx.peerIdentity) (.str ctx.target) ctx.chain.isAlone))

end PeerTrust.CheckContext
