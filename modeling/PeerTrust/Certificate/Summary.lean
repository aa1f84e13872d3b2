/-
  `Certificate.Summary` — what a certificate says, as texts.
-/
import PeerTrust.Identity

namespace PeerTrust

/-- The fields of a certificate that are of interest to a reader. -/
structure Summary where
  subject : String
  commonName : Option String
  issuer : String
  notBefore : Instant
  notAfter : Instant
  expiryStatus : String
  hostNames : List String
  xmppAddresses : List String

/-- **The summary of a certificate** as seen from an instant. The alternative names
are read twice, once for the hosts and once for the addresses. -/
def Certificate.summarize (c : Certificate) (now : Instant) : Traced Summary := do
  let subject ← .ofExcept c.subject.read
  let commonName ← .ofExcept c.commonName?
  let issuer ← .ofExcept c.issuer.read
  let hostNames ← c.hostNames
  let addresses ← c.xmppAddresses
  return ⟨subject.render, commonName, issuer.render, c.notBefore, c.notAfter,
    Expiry.describe c.notAfter now, hostNames, addresses⟩

end PeerTrust
