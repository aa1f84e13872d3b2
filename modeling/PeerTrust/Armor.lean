/-
  `Armor` — blocks of text that carry an encoding between a first and a last line.

  A block starts with `-----BEGIN label-----`, ends with `-----END label-----` and
  holds letters of base 64 in between, with lines of headers and an empty line
  before them if there are any. Text around blocks is ignored, and so is a block
  that is never ended. One block that is ended but damaged spoils all. Marks are
  found by a search that never goes back, so dashes right before a mark hide it.

  Octets that hold the first line of a certificate's block *anywhere* count as
  armor, and otherwise as an encoding; `Content.certificate?` rests on that
  choice, also for an encoding whose author put that line into a name.
-/
import PeerTrust.Content
import PeerTrust.Encoding.Base64
import PeerTrust.Text.Blank
import PeerTrust.Text.Search

namespace PeerTrust

namespace Armor

/-! ### Marks -/

/-- A mark in a content. -/
def mark (s : String) : Content := Content.ofText s

/-- What the first line of a block starts with. -/
def beginMark : String := "-----BEGIN "

/-- What the last line of a block starts with. -/
def endMark : String := "-----END "

/-- What the first and the last line of a block end with. -/
def dashes : String := "-----"

/-- The first line of a certificate's block. -/
def certificateMark : String := "-----BEGIN CERTIFICATE-----"

/-- The labels of blocks that carry a certificate. -/
def certificateLabels : List String := ["CERTIFICATE", "X509 CERTIFICATE"]

/-! ### Blocks -/

/-- A block: its label and the encoding that it carries. -/
structure Block where
  label : Content
  body : Content

/-- A block as it stands: its two labels, and what is between them. -/
structure RawBlock where
  label : Content
  lastLabel : Content
  payload : Content

/-- The symbol is white space in ASCII. -/
def isBlank : Symbol → Bool
  | .octet o => Text.isBlank (Char.ofNat o.toNat) && o.toNat < 0x80
  | _ => false

/-- The symbol may follow the first line. -/
def isSkipped : Symbol → Bool
  | .octet o => [0x20, 0x09, 0x0A, 0x0D].contains o
  | _ => false

/-- The text of a content in UTF-8. -/
def text? (content : Content) : Option String := (Content.octets? content).bind Text.ofUtf8?

/-- The headers of a payload, before the first empty line, and its letters. -/
def splitHeaders (payload : Content) : Content × Content :=
  match Text.seek? (mark "\n\n") payload with
  | some parts => parts
  | none => (Text.seek? (mark "\r\n\r\n") payload).getD ([], payload)

/-- Each line of headers has a colon. -/
def areHeaders (headers : Content) : Bool :=
  match text? headers with
  | none => false
  | some s =>
    let lines := Text.splitOn '\n' s.toList
    let lines := if lines.getLast? = some [] then lines.dropLast else lines
    lines.all fun line => line.contains ':'

/-- The encoding that letters carry; white space between them does not count. -/
def decodeLetters? (letters : Content) : Option Content :=
  match letters.filter fun s => !isBlank s with
  | [.armored c] => some [.der c]
  | [.armoredMisversioned c] => some [.misversioned c]
  | [.armoredKey key] => some [.armoredKey key]
  | _ => do
    let s ← text? letters
    (Base64.decode? (s.toList.filter fun c => !Text.isBlank c)).map Content.ofOctets

/-- The encoding that a payload carries. -/
def decodePayload? (payload : Content) : Option Content :=
  let (headers, letters) := splitHeaders payload
  if areHeaders headers then decodeLetters? letters else none

/-- **The block whose labels agree** and whose payload can be decoded. -/
def RawBlock.check? (b : RawBlock) : Option Block :=
  if b.label.isEmpty || b.label ≠ b.lastLabel || (text? b.label).isNone then none
  else (decodePayload? b.payload).map fun body => ⟨b.label, body⟩

/-- The first block that is ended, and what follows it. -/
def nextBlock? (content : Content) : Option (RawBlock × Content) := do
  let (_, rest) ← Text.seek? (mark beginMark) content
  let (label, rest) ← Text.seek? (mark dashes) rest
  let (payload, rest) ← Text.seek? (mark endMark) (rest.dropWhile isSkipped)
  let (lastLabel, rest) ← Text.seek? (mark dashes) rest
  some (⟨label, lastLabel, payload⟩, rest)

theorem length_of_nextBlock? {content rest : Content} {b : RawBlock}
    (h : nextBlock? content = some (b, rest)) : rest.length < content.length := by
  simp only [nextBlock?, Option.bind_eq_bind, Option.bind_eq_some_iff] at h
  obtain ⟨⟨_, r₁⟩, h₁, ⟨_, r₂⟩, h₂, ⟨_, r₃⟩, h₃, ⟨_, r₄⟩, h₄, he⟩ := h
  simp only [Option.some.injEq, Prod.mk.injEq] at he
  have e₁ := Text.length_of_seek? (by decide +kernel) h₁
  have e₂ := Text.length_of_seek? (by decide +kernel) h₂
  have e₃ := Text.length_of_seek? (by decide +kernel) h₃
  have e₄ := Text.length_of_seek? (by decide +kernel) h₄
  have e₅ := (List.dropWhile_sublist (l := r₂) isSkipped).length_le
  have := he.2
  subst this
  simp only at e₂ e₃ e₄ e₅
  omega

/-- **All blocks of a content,** or nothing if one of them is damaged. -/
def blocks? (content : Content) : Option (List Block) :=
  match h : nextBlock? content with
  | none => some []
  | some (raw, rest) =>
    have := length_of_nextBlock? h
    match raw.check? with
    | none => none
    | some block => (blocks? rest).map (block :: ·)
termination_by content.length

/-- The block carries a certificate. -/
def Block.isCertificate (b : Block) : Bool :=
  certificateLabels.any fun label => b.label = Content.ofText label

/-- The encodings in the certificate blocks of a content. A block may begin and end
inside the encoding of a certificate. -/
def certificateBodies? (content : Content) : Option (List Content) :=
  (blocks? content.expand).map fun blocks => (blocks.filter Block.isCertificate).map (·.body)

/-! ### Writing armor -/

/-- A block with a label around letters. -/
def writeBlock (label : String) (letters : Symbol) : Content :=
  Content.ofText (beginMark ++ label ++ dashes ++ "\n") ++
    letters :: Content.ofText ("\n" ++ endMark ++ label ++ dashes ++ "\n")

/-- **The block of a certificate.** -/
def write (c : Certificate) : Content := writeBlock "CERTIFICATE" (.armored c)

/-- The block of a certificate without its end. -/
def writeUnended (c : Certificate) : Content :=
  Content.ofText (certificateMark ++ "\n") ++ [.cutArmored c]

end Armor

/-! ### Certificates in contents -/

namespace Content

/-- The certificate that a content encodes, with nothing before or after it. -/
def encodedCertificate : Content → Except ReadFault Certificate
  | [.der c] => .ok c
  | [.misversioned _] => .error .invalidVersion
  | _ => .error .malformed

/-- The content holds the first line of a certificate's block, in its octets or
inside the encoding of a certificate. -/
def holdsArmorMark (content : Content) : Bool :=
  Text.hasRun (Armor.mark Armor.certificateMark) content.expand

/-- The encoding that a content presents: the first certificate block of armor,
otherwise the content itself. -/
def presented? (content : Content) : Option Content :=
  if content.holdsArmorMark then (Armor.certificateBodies? content).bind List.head?
  else some content

/-- **The certificate that a content presents.** -/
def certificate (content : Content) : Except ReadFault Certificate :=
  match content.presented? with
  | some body => body.encodedCertificate
  | none => .error .malformed

/-- **All certificates of armor,** at least one; each block must be sound, and the first one
that is no certificate decides what is at fault. -/
def armoredCertificates (content : Content) : Except ReadFault (List Certificate) :=
  match Armor.certificateBodies? content with
  | none => .error .malformed
  | some bodies => do
    let certificates ← bodies.mapM encodedCertificate
    if certificates.isEmpty then .error .malformed else .ok certificates

/-- The certificates of an archive, which opens with its exact password only; an
archive without a password opens with none or an empty one. -/
def archivedCertificates (password : Option String) : Content → Except ReadFault (List Certificate)
  | [.archive a] =>
    if a.password.getD "" = password.getD "" then
      match a.fault with
      | some fault => .error fault
      | none => .ok (a.certificate.toList ++ a.others)
    else .error .malformed
  | _ => .error .malformed

end Content

/-! ### Literal encodings -/

namespace Encoded

/-- **The octets of the certificate that literal octets present,** read by the
same rules, if they have the outer form of a certificate. -/
def read? (octets : Octets) : Option Octets := do
  let body ← (Content.ofOctets octets).presented?
  let der ← Content.octets? body
  if Der.isCertificate der then some der else none

/-- Cuts letters into lines of 64; at most `fuel` lines. -/
def wrap : Nat → List Char → List Char
  | 0, _ => []
  | fuel + 1, letters =>
    if letters.isEmpty then [] else letters.take 64 ++ '\n' :: wrap fuel (letters.drop 64)

/-- The block of armor that carries a certificate, in lines of 64 letters. -/
def armor (der : Octets) : String :=
  let letters := Base64.encode der
  Armor.certificateMark ++ "\n" ++ String.ofList (wrap letters.length letters) ++
    Armor.endMark ++ "CERTIFICATE" ++ Armor.dashes ++ "\n"

end Encoded
end PeerTrust
