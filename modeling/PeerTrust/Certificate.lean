/-
  `Certificate` — certificates by what they say, not by their octets.

  A certificate is described by its names, keys, validity window, serial number
  and extensions, with a remainder for all else that is in its encoding. Two
  certificates are the same one exactly if all of this agrees, so equality is the
  derived one and plays the role of a fingerprint.

  The names of the holder stand in one of the extensions, and the peer wrote all
  of them. They are decoded together, so a fault in any of them
  (`Extension.fault?`) is one in reading the names; `readAltNames` is the only
  place that decides what it leads to.
-/
import PeerTrust.Encoding.Der
import PeerTrust.Instant
import PeerTrust.Name

namespace PeerTrust

/-! ### Keys -/

/-- The kind of a key pair. -/
inductive KeyKind
  | ed25519
  | p256
  | rsa
  | x25519
deriving DecidableEq, Repr

/-- A key pair: its kind and a label that tells it from others of the kind. -/
structure Key where
  kind : KeyKind
  label : String
deriving DecidableEq, Repr

/-- Keys for key agreement can neither sign nor verify. -/
def Key.canVerify (k : Key) : Bool := k.kind ≠ .x25519

/-! ### Alternative names of the holder -/

/-- One alternative name. All but host names and names of kinds of their own are kept and
never asked for. -/
inductive GeneralName
  | dns (value : String)
  | other (oid : String) (element : Octets)
  | email (value : String)
  | uri (value : String)
  | ip (value : String)
  | directory (name : Name) (legible : name.isLegible = true)
  | registered (oid : String)
deriving DecidableEq, Repr

/-- The identifier of a name that is an XMPP address. -/
def Oid.xmppAddress : String := "1.3.6.1.5.5.7.8.5"

/-- A name that holds an XMPP address, written as a string in UTF-8. -/
def GeneralName.xmpp (address : String) : GeneralName :=
  .other Oid.xmppAddress (Der.Element.write ⟨Der.utf8StringTag, Text.utf8 address⟩)

/-- **The address in the element of an XMPP name:** a string in UTF-8 whose
content is valid. There is none in any other element. -/
def xmppAddressOf? (element : Octets) : Option String :=
  match Der.readElement? element with
  | some (e, _) => if e.tag = Der.utf8StringTag then Text.ofUtf8? e.content else none
  | none => none

/-- The name can be decoded. What a name of a kind of its own holds has to be one element,
whatever is in it. -/
def GeneralName.isDecodable : GeneralName → Bool
  | .other _ element => Der.isElement element
  | _ => true

/-! ### Extensions -/

/-- Why an extension cannot be decoded: its octets are no value of its kind, or there is a name
in it of one of the two kinds that nobody supports. -/
inductive ExtensionDefect
  | malformed
  | unsupportedName
deriving DecidableEq, Repr

/-- What the extension for alternative names holds: names, or octets that cannot be decoded. -/
inductive AltNames
  | listed (names : List GeneralName)
  | undecodable (value : Octets) (defect : ExtensionDefect)
deriving DecidableEq, Repr

/-- **Decodes the alternative names.** A malformed one spoils all. -/
def AltNames.read : AltNames → Except ExtensionDefect (List GeneralName)
  | .listed names => if names.all GeneralName.isDecodable then .ok names else .error .malformed
  | .undecodable _ defect => .error defect

/-- The identifier of the extension for alternative names. -/
def Oid.altNames : String := "2.5.29.17"

/-- An extension: the one for alternative names, or another one, which holds octets and may have
a defect. -/
inductive Extension
  | altNames (content : AltNames)
  | other (oid : String) (value : Octets) (defect : Option ExtensionDefect)
      (distinct : oid ≠ Oid.altNames)
deriving DecidableEq, Repr

namespace Extension

/-- The identifier of an extension. -/
def oid : Extension → String
  | .altNames _ => Oid.altNames
  | .other oid _ _ _ => oid

/-- What keeps an extension from being decoded. -/
def defect? : Extension → Option ExtensionDefect
  | .altNames content =>
    match content.read with
    | .ok _ => none
    | .error defect => some defect
  | .other _ _ defect _ => defect

/-- The alternative names that an extension holds. -/
def altNames? : Extension → Option (List GeneralName)
  | .altNames content => content.read.toOption
  | .other _ _ _ _ => none

/-- The first identifier that comes up again, where some have been seen before. -/
def repeatedAfter? (seen : List String) : List Extension → Option String
  | [] => none
  | e :: rest => if seen.contains e.oid then some e.oid else repeatedAfter? (e.oid :: seen) rest

end Extension

/-- Why the extensions of a certificate cannot be decoded: two of them have one identifier, or
one of them has a defect. -/
inductive ExtensionFault
  | repeated (oid : String)
  | defective (defect : ExtensionDefect)
deriving DecidableEq, Repr

/-- **What keeps extensions from being decoded.** All identifiers are compared before the first
extension is decoded. -/
def Extension.fault? (extensions : List Extension) : Option ExtensionFault :=
  match repeatedAfter? [] extensions with
  | some oid => some (.repeated oid)
  | none => (extensions.findSome? Extension.defect?).map .defective

/-! ### Certificates -/

/-- What was changed after the certificate was signed. -/
inductive Tampering
  | signature
  | algorithm
  | extensions
deriving DecidableEq, Repr

/-- A certificate. `signedBy` is the key that made the signature, and the extensions
are in the order of the encoding. The remainder is what the encoding holds that nothing else
here determines, such as the octets of the signature: nobody reads it, but certificates that
differ in it are not the same. -/
structure Certificate where
  subject : Name
  issuer : Name
  key : Key
  signedBy : Key
  notBefore : Instant
  notAfter : Instant
  serial : Int
  extensions : List Extension
  tampering : Option Tampering
  remainder : Octets := []
deriving DecidableEq

namespace Certificate

/-- The mark that stands for a fingerprint in displays and reports: a described
certificate has no octets to take a digest of. -/
def fingerprintMark : String := "<sha256>"

/-- **The alternative names,** if there is an extension for them. All extensions are decoded
before one of them is looked for. -/
def readAltNames (c : Certificate) : Except ExtensionFault (Option (List GeneralName)) :=
  match Extension.fault? c.extensions with
  | some fault => .error fault
  | none => .ok (c.extensions.findSome? Extension.altNames?)

/-- **The signature of the certificate verifies under the issuer's key.** The
check also asks for identical names, string types included. -/
def signedWith (c issuer : Certificate) : Bool :=
  c.tampering = none && c.signedBy = issuer.key && issuer.key.canVerify &&
    c.issuer = issuer.subject

/-- The instant lies in the validity window, both ends included. -/
def validAt (c : Certificate) (t : Instant) : Bool := c.notBefore ≤ t && t ≤ c.notAfter

/-- The host names among the alternative names, in the order of code points. -/
def dnsNames (names : List GeneralName) : List String :=
  (names.filterMap fun
    | .dns value => some value
    | _ => none).mergeSort Text.inOrder

end Certificate
end PeerTrust
