/-
  `Encoding.Der` — elements made of a tag, a length and a content.

  Only what certificates need is here: reading one element with a definite
  length, and writing one.
-/
import PeerTrust.Text.Charset

namespace PeerTrust.Der

/-- One element: its tag and its content. -/
structure Element where
  tag : UInt8
  content : Octets
deriving DecidableEq

/-- The number that octets write, the highest first. -/
def natOfOctets (octets : Octets) : Nat := octets.foldl (fun n o => n * 256 + o.toNat) 0

/-- Reads a length: below 128 in one octet, otherwise a count of octets and the
octets themselves. -/
def readLength? : Octets → Option (Nat × Octets)
  | [] => none
  | o :: rest =>
    let n := o.toNat
    if n < 128 then some (n, rest)
    else
      let count := n - 128
      if count = 0 ∨ rest.length < count then none
      else some (natOfOctets (rest.take count), rest.drop count)

/-- Reads one element and gives the octets after it. -/
def readElement? : Octets → Option (Element × Octets)
  | [] => none
  | tag :: rest => do
    let (length, rest) ← readLength? rest
    if rest.length < length then none
    else some (⟨tag, rest.take length⟩, rest.drop length)

/-- The octets behind the number of a long tag, and that number; the last octet of it is the first
one without the highest bit, and there are at most `fuel` of them. -/
def afterTagNumber? : Nat → Nat → Octets → Option (Nat × Octets)
  | 0, _, _ | _, _, [] => none
  | fuel + 1, n, o :: rest =>
    let n := n * 128 + o.toNat % 128
    if o.toNat < 128 then some (n, rest) else afterTagNumber? fuel n rest

/-- The octets behind a tag. A tag whose five lowest bits are set has its number in up to four
octets behind it, in the shortest form, and only if it does not fit into the five bits. -/
def afterTag? : Octets → Option Octets
  | [] => none
  | tag :: rest =>
    if tag.toNat % 32 = 31 then
      if rest.head? = some 0x80 then none
      else
        match afterTagNumber? 4 0 rest with
        | some (n, rest) => if n < 31 then none else some rest
        | none => none
    else some rest

/-- The octets of a number, the highest first, without leading zeros. -/
def octetsOfNat (n : Nat) : Octets :=
  if _h : n = 0 then [] else octetsOfNat (n / 256) ++ [UInt8.ofNat n]
termination_by n

/-- Writes a length in its shortest form. -/
def writeLength (n : Nat) : Octets :=
  if n < 128 then [UInt8.ofNat n]
  else
    let octets := octetsOfNat n
    UInt8.ofNat (128 + octets.length) :: octets

/-- The octets of an element. -/
def Element.write (e : Element) : Octets := e.tag :: writeLength e.content.length ++ e.content

/-- The octets are one element, with its length in the shortest form and nothing behind it. -/
def isElement (octets : Octets) : Bool :=
  match (afterTag? octets).bind fun rest => (readLength? rest).map (rest, ·) with
  | some (rest, length, content) => content.length = length && writeLength length ++ content = rest
  | none => false

/-- The elements that octets consist of, if nothing is left over; at most `fuel` of them. -/
def readElements? : Nat → Octets → Option (List Element)
  | _, [] => some []
  | 0, _ => none
  | fuel + 1, octets => do
    let (e, rest) ← readElement? octets
    let tail ← readElements? fuel rest
    some (e :: tail)

/-- The tag of a sequence. -/
def sequenceTag : UInt8 := 0x30

/-- The tag of a string of bits. -/
def bitStringTag : UInt8 := 0x03

/-- The tag of a string in UTF-8. -/
def utf8StringTag : UInt8 := 0x0C

/-- **The octets have the outer form of a certificate:** exactly one sequence,
which holds the certified part, the signature algorithm and the signature. -/
def isCertificate (octets : Octets) : Bool :=
  match readElement? octets with
  | some (outer, []) =>
    outer.tag == sequenceTag &&
      match readElements? 4 outer.content with
      | some [certified, algorithm, signature] =>
        certified.tag == sequenceTag && algorithm.tag == sequenceTag &&
          signature.tag == bitStringTag
      | _ => false
  | _ => false

end PeerTrust.Der
