/-
  `Chain` — the certificates that a peer presents, leaf first.

  A chain is never empty: its leaf is a field of its own. Certificates come in
  many forms (`Value`), and `Value.presentedCertificate` and `Value.presentedChain`
  are the ways in. Each form of one certificate leads to that certificate, except
  for an encoding that looks like armor.
-/
import PeerTrust.Failure

namespace PeerTrust

/-! ### Certificates in the forms in which they are passed -/

namespace Value

/-- The certificate that a text presents; the text has to be ASCII. -/
def certificateOfText (isAscii : Bool) (content : Content) : Except Failure Certificate :=
  if isAscii then content.certificate.mapError ReadFault.failure else .error .textNotAscii

/-- **Decodes a certificate** from an object of a library, from octets or from a text. -/
def decodeCertificate : Value → Except Failure Certificate
  | .certificate .library c | .certificate .tls c => .ok c
  | .str s => certificateOfText (Text.isAscii s) (Content.ofText s)
  | .armor lead c => certificateOfText (Text.isAscii lead) (Content.ofText lead ++ Armor.write c)
  | .bytes content => certificateOfText true content
  | v => .error (.wrongClass v .certificate)

/-- **The certificate that a value presents,** which may have been decoded before. -/
def presentedCertificate : Value → Except Failure Certificate
  | .certificate .peer c => .ok c
  | v => v.decodeCertificate

/-- The encoding in literal octets or a literal text, which has to be ASCII. -/
def literalEncoding (v : Value) : Except Failure Octets :=
  let read (octets : Octets) : Except Failure Octets :=
    match Encoded.read? octets with
    | some der => .ok der
    | none => .error .unreadableCertificate
  match v with
  | .str s => if Text.isAscii s then read (Text.utf8 s) else .error .textNotAscii
  | .bytes content =>
    match Content.octets? content with
    | some octets => read octets
    | none => .error .unreadableCertificate
  | v => .error (.wrongClass v .certificate)

end Value

/-- **The forms in which a certificate is handed over:** objects of three kinds, its
encoding, and its armor as octets and as text. -/
def Certificate.forms (c : Certificate) : List Value := [
  .certificate .library c, .certificate .tls c, .certificate .peer c,
  .bytes [.der c], .bytes (Armor.write c), .armor "" c]

/-- Whether the certificate comes back from each form that it can be written in:
an object of the TLS library, armor, its encoding, and an object of the
cryptographic library. -/
def Certificate.comesBack (c : Certificate) : Except Failure (List Bool) :=
  [.certificate .tls c, .armor "" c, .bytes [.der c], .certificate .library c].mapM
    fun v => do return (← Value.decodeCertificate v) == c

/-! ### Issuers -/

namespace Certificate

/-- **Whether the certificate names the other one's subject as its issuer.** Both names have to
be read for that. -/
def askIssuedBy (c issuer : Certificate) : Except Failure Bool := do
  let name ← c.issuer.read
  let subject ← issuer.subject.read
  return name.agrees subject

/-- The certificate is known to name the other one's subject as its issuer. -/
def issuedBy (c issuer : Certificate) : Bool :=
  match c.askIssuedBy issuer with
  | .ok answer => answer
  | .error _ => false

end Certificate

/-! ### Chains -/

/-- A chain of certificates, from the leaf to the root-most certificate. -/
structure Chain where
  leaf : Certificate
  issuers : List Certificate
deriving DecidableEq

namespace Chain

/-- All certificates, leaf first. -/
def toList (chain : Chain) : List Certificate := chain.leaf :: chain.issuers

/-- The chain of a list that is not empty. -/
def ofList? : List Certificate → Option Chain
  | [] => none
  | leaf :: issuers => some ⟨leaf, issuers⟩

/-- The last certificate. -/
def root (chain : Chain) : Certificate := chain.issuers.getLast?.getD chain.leaf

/-- The chain is its leaf alone. -/
def isAlone (chain : Chain) : Bool := chain.issuers.isEmpty

end Chain

/-- **The chain that a value presents:** a list or a tuple of presented certificates. -/
def Value.presentedChain (v : Value) : Except Failure Chain := do
  let items ← match v with
    | .list items | .tuple items => Except.ok items
    | _ => .error (.wrongClass v .chain)
  match Chain.ofList? (← items.mapM Value.presentedCertificate) with
  | some chain => return chain
  | none => .error .emptyChain

/-- **The root set that a value presents,** item by item. -/
def Value.presentedRoots (certificates : Value) (source : Option String) :
    Except Failure RootSet := do
  match certificates.items? with
  | none => .error .misuse
  | some items =>
    let certificates ← items.mapM Value.presentedCertificate
    return RootSet.ofList source certificates

/-- **A value is a member** if it presents a certificate that is one of the roots;
a value that is refused is no member. Other failures to present a certificate are not expected
and left alone. -/
def RootSet.containsValue (roots : RootSet) (v : Value) : Except Failure Bool :=
  match v.presentedCertificate with
  | .ok c => .ok (roots.contains c)
  | .error f => if f.isRefusal then .ok false else .error f

end PeerTrust
