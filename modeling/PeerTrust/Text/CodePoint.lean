/-
  `Text.CodePoint` — the code points of a text.

  Escapes can name a half of a surrogate pair that stands alone, so a text is a
  sequence of code points of which some are halves and no characters. Each of the
  2048 halves has a stand-in: a code point of plane 14 that no character has been
  assigned to. A stand-in that is meant as itself has a mark in front of it, and so
  has the mark. In this way every sequence of code points is spelled by a text.
-/
namespace PeerTrust.Text

/-! ### Code points -/

/-- A code point: a character, or the half of a surrogate pair with the given place. -/
inductive CodePoint
  | character (c : Char)
  | half (place : Fin 2048)
deriving DecidableEq, Repr

/-- The greatest code of a code point. -/
def maxCode : Nat := 0x10FFFF

namespace CodePoint

/-- The code of the first half. -/
def firstHalf : Nat := 0xD800

/-- The code of a code point. -/
def code : CodePoint → Nat
  | .character c => c.toNat
  | .half place => firstHalf + place

/-- **The code point of a code** up to `maxCode`. -/
def ofCode (code : Nat) : CodePoint :=
  if h : firstHalf ≤ code ∧ code - firstHalf < 2048 then .half ⟨code - firstHalf, h.2⟩
  else .character (Char.ofNat code)

/-- The code point is no character. -/
def isHalf : CodePoint → Bool
  | .character _ => false
  | .half _ => true

/-! ### Spelling -/

/-- The code of the stand-in for the first half. -/
def firstStandIn : Nat := 0xE0800

/-- The stand-in for a half. -/
def standIn (place : Fin 2048) : Char := Char.ofNat (firstStandIn + place)

/-- What stands in front of a character that is meant as itself. -/
def mark : Char := Char.ofNat maxCode

/-- The code point of a character without a mark in front of it. -/
def ofUnmarked (c : Char) : CodePoint :=
  if h : firstStandIn ≤ c.toNat ∧ c.toNat - firstStandIn < 2048 then
    .half ⟨c.toNat - firstStandIn, h.2⟩
  else .character c

/-- How a code point is spelled. -/
def spell : CodePoint → List Char
  | .character c => if c = mark ∨ ofUnmarked c ≠ .character c then [mark, c] else [c]
  | .half place => [standIn place]

/-- **The code points that characters spell.** -/
def read : List Char → List CodePoint
  | [] => []
  | [c] => [ofUnmarked c]
  | c :: d :: rest =>
    if c = mark then .character d :: read rest else ofUnmarked c :: read (d :: rest)

end CodePoint

/-! ### Texts -/

/-- The code points of a text. -/
def codePoints (s : String) : List CodePoint := CodePoint.read s.toList

/-- The text with the given code points. -/
def ofCodePoints (points : List CodePoint) : String :=
  String.ofList (points.flatMap CodePoint.spell)

/-- The text holds a half that stands alone, so it cannot be encoded. -/
def holdsHalf (s : String) : Bool := (codePoints s).any CodePoint.isHalf

/-- The first text is not behind the second in the order of code points. -/
def inOrder (s t : String) : Bool :=
  !List.lex ((codePoints t).map CodePoint.code) ((codePoints s).map CodePoint.code)

end PeerTrust.Text
