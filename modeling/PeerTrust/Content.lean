/-
  `Content` — what a file or a string of octets holds.

  The encodings of certificates and archives have octets that no description
  determines, so a `Content` is a list of symbols, each either an octet or the
  whole encoding of something. A reader that looks for marks sees through the
  encoding of a certificate (`Content.expand`), since its author may have put a
  mark into it.
-/
import PeerTrust.Certificate.Outline

namespace PeerTrust

/-- Why no certificate is read: there is none, it has a version that no certificates have, or it
comes with a key for an algorithm that nobody knows. -/
inductive ReadFault
  | malformed
  | invalidVersion
  | unknownAlgorithm
deriving DecidableEq, Repr

/-- An archive of certificates under a password; an archive may also hold a key
only, and then has no certificates. What is in it may have a fault that shows once it is open. -/
structure Archive where
  certificate : Option Certificate
  others : List Certificate
  password : Option String
  fault : Option ReadFault
deriving DecidableEq

/-- One symbol of a content: an octet, an octet that is not known, or an encoding as
a whole. `cutDer` is an encoding without its last octet, and `misversioned` one with a
version that no certificates have. `armored`, `armoredMisversioned` and `armoredKey` are
encodings in the letters of base 64, and `cutArmored` is one without its end. -/
inductive Symbol
  | octet (o : UInt8)
  | gap
  | der (c : Certificate)
  | cutDer (c : Certificate)
  | misversioned (c : Certificate)
  | armored (c : Certificate)
  | cutArmored (c : Certificate)
  | armoredMisversioned (c : Certificate)
  | armoredKey (key : String)
  | archive (a : Archive)
deriving DecidableEq

/-- A string of octets, as symbols. -/
abbrev Content := List Symbol

namespace Content

/-- The content that consists of octets. -/
def ofOctets (octets : Octets) : Content := octets.map .octet

/-- The content of a text in UTF-8. -/
def ofText (s : String) : Content := ofOctets (Text.utf8 s)

/-- The octets of a content that holds nothing else. -/
def octets? (content : Content) : Option Octets :=
  content.mapM fun
    | .octet o => some o
    | _ => none

end Content

/-! ### Octets inside encodings -/

/-- The symbol of an octet, or of a gap. -/
def Symbol.ofGap : Option UInt8 → Symbol
  | some o => .octet o
  | none => .gap

/-- The octets of a symbol that are known, as symbols again. The letters of base 64
and archives stay as they are. -/
def Symbol.expand : Symbol → Content
  | .der c => c.outline.map ofGap
  | .cutDer c => c.outline.dropLast.map ofGap
  | .misversioned c => (c.outlineWith none).map ofGap
  | s => [s]

/-- **The content with the encodings of certificates spelled out.** -/
def Content.expand (content : Content) : Content := content.flatMap Symbol.expand

end PeerTrust
