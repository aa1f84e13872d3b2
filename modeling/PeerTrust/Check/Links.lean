/-
  `Check.Links` — every certificate is issued and signed by the next one.

  The links of a chain are looked at from the root down, since a link says
  something about a certificate only if its issuer is established. The link that
  is reported is therefore the faulty one nearest to the root.
-/
import PeerTrust.Check.Context

namespace PeerTrust

/-- A certificate of a chain and the next one. -/
structure Link where
  depth : Nat
  certificate : Certificate
  issuer : Certificate

/-- The issuer is named, and its key verifies the signature. -/
def Link.isSound (l : Link) : Bool :=
  l.certificate.issuedBy l.issuer && l.certificate.signedWith l.issuer

namespace Chain

/-- The links from a given depth on, leaf first. -/
def linksFrom (depth : Nat) (certificate : Certificate) : List Certificate → List Link
  | [] => []
  | issuer :: rest => ⟨depth, certificate, issuer⟩ :: linksFrom (depth + 1) issuer rest

/-- The links of a chain, leaf first. -/
def links (chain : Chain) : List Link := linksFrom 0 chain.leaf chain.issuers

/-- **The faulty link nearest to the root.** -/
def fault? (chain : Chain) : Option Link := chain.links.reverse.find? fun l => !l.isSound

end Chain

namespace CheckContext

/-- **Checks that the chain is linked and signed.** The names of a link are looked
at before its signature, and a name that cannot be read ends the check. -/
def checkLinks (ctx : CheckContext) : Traced Unit :=
  match ctx.chain.fault? with
  | none => return ()
  | some l => do
    if ← .ofExcept (l.certificate.askIssuedBy l.issuer) then
      .report (.signatureMismatch ctx.target l.depth l.issuer.subject)
      .fail (.trust (.signature (.str ctx.peerIdentity) (.str ctx.target)))
    else
      .report (.issuerMismatch ctx.target l.depth l.certificate.issuer l.issuer.subject)
      .fail (.trust (.chainLinkage (.str ctx.peerIdentity) (.str ctx.target)))

end CheckContext
end PeerTrust
