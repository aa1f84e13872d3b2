/-
  `Certificate.Outline` — the encoding of a certificate, as far as it is known.

  A certificate is described by what it says, and that determines all octets of
  its encoding but those of its key and its signature. An *outline* has the
  octets in their order and leaves a gap for each that is not determined. It is
  what a reader can look for marks in; no certificate is read back from it.
-/
import PeerTrust.Certificate

namespace PeerTrust

/-- The octets of an encoding; `none` is a gap. -/
abbrev Outline := List (Option UInt8)

namespace Outline

/-- Octets that are all known. -/
def known (octets : Octets) : Outline := octets.map some

/-- As many gaps. -/
def gaps (count : Nat) : Outline := List.replicate count none

/-- An element of which the content is an outline. -/
def element (tag : UInt8) (content : Outline) : Outline :=
  some tag :: known (Der.writeLength content.length) ++ content

/-- An element of which the content is known. -/
def knownElement (tag : UInt8) (content : Octets) : Outline := element tag (known content)

/-- A sequence of parts. -/
def sequenceOf (parts : List Outline) : Outline := element Der.sequenceTag parts.flatten

end Outline

open Outline

/-! ### Identifiers -/

namespace Oid

/-- The octets of a number in base 128, each but the last with its highest bit set. -/
def arcOctets (n : Nat) : Octets := higher (n / 128) ++ [UInt8.ofNat (n % 128)]
where
  /-- The octets before the last one. -/
  higher (n : Nat) : Octets :=
    if n = 0 then [] else higher (n / 128) ++ [UInt8.ofNat (128 + n % 128)]

/-- The numbers of an identifier. -/
def arcs (oid : String) : List Nat :=
  (Text.splitOn '.' oid.toList).map fun digits => (Text.readDecimal? digits).getD 0

/-- The octets of an identifier, whose first two numbers share one place. -/
def octets (oid : String) : Octets :=
  match arcs oid with
  | a :: b :: rest => ((a * 40 + b) :: rest).flatMap arcOctets
  | _ => []

/-- The element of an identifier. -/
def outline (oid : String) : Outline := knownElement 0x06 (octets oid)

end Oid

/-! ### Names -/

/-- The octets of an attribute's value in its string type. -/
def Attribute.octets (a : Attribute) : Octets :=
  match a.value, a.stringType with
  | .text s, .bmp => Text.utf16 s
  | .text s, _ => Text.utf8 s
  | .octets o, _ => o

/-- The outline of an attribute. -/
def Attribute.outline (a : Attribute) : Outline :=
  sequenceOf [Oid.outline a.oid, knownElement a.stringType.tag a.octets]

/-- The outline of a name. -/
def Name.outline (n : Name) : Outline :=
  sequenceOf (n.relatives.map fun relative => element 0x31 (relative.flatMap Attribute.outline))

/-! ### Addresses -/

namespace Address

/-- The octets of groups of four hexadecimal digits. -/
def groupOctets (cs : List Char) : Octets :=
  if cs.isEmpty then []
  else
    (Text.splitOn ':' cs).flatMap fun digits =>
      let n := (Text.readDigits? 16 digits).getD 0
      [UInt8.ofNat (n / 256), UInt8.ofNat n]

/-- The octets of an address: four numbers, or eight groups of which a run of zeros
may be left out. -/
def octets (address : String) : Octets :=
  let cs := address.toList
  if cs.contains ':' then
    match Text.seek? [':', ':'] cs with
    | some (front, back) =>
      let front := groupOctets front
      let back := groupOctets back
      front ++ List.replicate (16 - front.length - back.length) 0 ++ back
    | none => groupOctets cs
  else
    (Text.splitOn '.' cs).map fun digits => UInt8.ofNat ((Text.readDecimal? digits).getD 0)

end Address

/-! ### Alternative names -/

/-- The outline of an alternative name. -/
def GeneralName.outline : GeneralName → Outline
  | .other oid value => element 0xA0 (Oid.outline oid ++ knownElement 0xA0 value)
  | .email s => knownElement 0x81 (Text.utf8 s)
  | .dns s => knownElement 0x82 (Text.utf8 s)
  | .directory n _ => element 0xA4 n.outline
  | .uri s => knownElement 0x86 (Text.utf8 s)
  | .ip s => knownElement 0x87 (Address.octets s)
  | .registered oid => knownElement 0x88 (Oid.octets oid)

/-- The outline of what the extension for alternative names holds. -/
def AltNames.outline : AltNames → Outline
  | .listed names => sequenceOf (names.map GeneralName.outline)
  | .undecodable value _ => known value

/-- The outline of an extension. -/
def Extension.outline : Extension → Outline
  | .altNames content => sequenceOf [Oid.outline Oid.altNames, element 0x04 content.outline]
  | .other oid value _ _ => sequenceOf [Oid.outline oid, knownElement 0x04 value]

/-! ### Certificates -/

/-- The octets of a number, which for a positive one start with a bit that is not set. -/
def serialOctets (n : Nat) : Octets :=
  match Der.octetsOfNat n with
  | [] => [0]
  | a :: rest => if a.toNat < 128 then a :: rest else 0 :: a :: rest

/-- The outline of an instant, which has two digits for a year from 1950 to 2049. -/
def Instant.outline (t : Instant) : Outline :=
  let date := Calendar.dateOfDayNumber (t.micros / microsPerDay)
  let seconds := t.micros % microsPerDay / 1000000
  let clock := String.join ([date.month, date.day, seconds / 3600, seconds / 60 % 60,
    seconds % 60].map (Text.paddedDecimal 2)) ++ "Z"
  if 1950 ≤ date.year ∧ date.year < 2050 then
    knownElement 0x17 (Text.utf8 (Text.paddedDecimal 2 date.year ++ clock))
  else knownElement 0x18 (Text.utf8 (Text.paddedDecimal 4 date.year ++ clock))

/-- The outline of the algorithm that a kind of key signs with. -/
def KeyKind.outline : KeyKind → Outline
  | .ed25519 | .x25519 => sequenceOf [Oid.outline "1.3.101.112"]
  | .p256 => sequenceOf [Oid.outline "1.2.840.10045.4.3.2"]
  | .rsa => sequenceOf [Oid.outline "1.2.840.113549.1.1.11", knownElement 0x05 []]

namespace Certificate

/-- The outline of a key. -/
def keyOutline : Outline := gaps 44

/-- The outline of a signature. -/
def signatureOutline : Outline := element Der.bitStringTag (gaps 65)

/-- The number in an encoding that stands for the version of certificates. -/
def versionNumber : UInt8 := 0x02

/-- **The outline of a certificate** with a number for its version, if that is known. -/
def outlineWith (version : Option UInt8) (c : Certificate) : Outline :=
  let algorithm := c.signedBy.kind.outline
  let extensions :=
    if c.extensions.isEmpty then []
    else [element 0xA3 (sequenceOf (c.extensions.map Extension.outline))]
  sequenceOf [
    sequenceOf ([
      known [0xA0, 0x03, 0x02, 0x01] ++ [version],
      knownElement 0x02 (serialOctets c.serial.toNat),
      algorithm,
      c.issuer.outline,
      sequenceOf [c.notBefore.outline, c.notAfter.outline],
      c.subject.outline,
      keyOutline] ++ extensions),
    algorithm,
    signatureOutline]

/-- **The outline of a certificate.** -/
def outline (c : Certificate) : Outline := c.outlineWith (some versionNumber)

end Certificate
end PeerTrust
