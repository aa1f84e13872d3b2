/-
  `Text.Charset` — octets as text and text as octets.

  UTF-8 is read part by part: a part is either one character or a longest run
  of octets that starts a character and cannot finish it. What becomes of such a
  run is the caller's choice (`OnMalformed`), so all ways of reading agree on where
  the runs are. ASCII and Latin-1 have parts of one octet.
-/
import PeerTrust.Text.CodePoint
import PeerTrust.Text.Digits

namespace PeerTrust

/-- A sequence of octets. -/
abbrev Octets := List UInt8

namespace Text

/-- The octets of a code point in UTF-8; a half has none. -/
def CodePoint.utf8 : CodePoint → Octets
  | .character c => String.utf8EncodeChar c
  | .half _ => []

/-- The octets of a text in UTF-8. -/
def utf8 (s : String) : Octets := (codePoints s).flatMap CodePoint.utf8

/-! ### The parts of a sequence of octets -/

/-- What a leading octet of UTF-8 announces: how many octets follow it, the
range of the first of them, and the bits that the leading octet contributes. -/
structure Lead where
  following : Nat
  low : Nat
  high : Nat
  bits : Nat

/-- Reads a leading octet of at least `0x80`. The ranges exclude overlong forms,
surrogates and values above `0x10FFFF`. -/
def Lead.ofOctet? (octet : UInt8) : Option Lead :=
  let n := octet.toNat
  if 0xC2 ≤ n ∧ n ≤ 0xDF then some ⟨1, 0x80, 0xBF, n - 0xC0⟩
  else if n = 0xE0 then some ⟨2, 0xA0, 0xBF, 0⟩
  else if n = 0xED then some ⟨2, 0x80, 0x9F, 0xD⟩
  else if 0xE1 ≤ n ∧ n ≤ 0xEF then some ⟨2, 0x80, 0xBF, n - 0xE0⟩
  else if n = 0xF0 then some ⟨3, 0x90, 0xBF, 0⟩
  else if 0xF1 ≤ n ∧ n ≤ 0xF3 then some ⟨3, 0x80, 0xBF, n - 0xF0⟩
  else if n = 0xF4 then some ⟨3, 0x80, 0x8F, 4⟩
  else none

/-- The octet continues a character. -/
def isContinuation (octet : UInt8) : Bool :=
  0x80 ≤ octet.toNat && octet.toNat ≤ 0xBF

/-- One part of octets: a code point, or a run that is none. -/
inductive Part
  | point (p : CodePoint)
  | malformed (run : Octets)
deriving DecidableEq, Repr

/-- A part that is a character. -/
abbrev Part.character (c : Char) : Part := .point (.character c)

/-- **The parts of octets read as UTF-8,** in order. -/
def utf8Parts : Octets → List Part
  | [] => []
  | a :: r =>
    if a.toNat < 0x80 then .character (Char.ofNat a.toNat) :: utf8Parts r
    else
      match Lead.ofOctet? a with
      | none => .malformed [a] :: utf8Parts r
      | some lead =>
        match r with
        | [] => [.malformed [a]]
        | b :: r₁ =>
          if ¬ (lead.low ≤ b.toNat ∧ b.toNat ≤ lead.high) then
            .malformed [a] :: utf8Parts (b :: r₁)
          else
            let value := lead.bits * 64 + (b.toNat - 0x80)
            if lead.following = 1 then .character (Char.ofNat value) :: utf8Parts r₁
            else
              match r₁ with
              | [] => [.malformed [a, b]]
              | c :: r₂ =>
                if ¬ isContinuation c then .malformed [a, b] :: utf8Parts (c :: r₂)
                else
                  let value := value * 64 + (c.toNat - 0x80)
                  if lead.following = 2 then .character (Char.ofNat value) :: utf8Parts r₂
                  else
                    match r₂ with
                    | [] => [.malformed [a, b, c]]
                    | d :: r₃ =>
                      if ¬ isContinuation d then .malformed [a, b, c] :: utf8Parts (d :: r₃)
                      else
                        .character (Char.ofNat (value * 64 + (d.toNat - 0x80))) :: utf8Parts r₃

/-- Joins three runs that would be a half of a surrogate pair in UTF-8. -/
def joinHalves : List Part → List Part
  | .malformed [a] :: .malformed [b] :: .malformed [c] :: rest =>
    if a.toNat = 0xED ∧ 0xA0 ≤ b.toNat ∧ b.toNat ≤ 0xBF ∧ isContinuation c then
      .point (.ofCode (0xD000 + (b.toNat - 0x80) * 64 + (c.toNat - 0x80))) :: joinHalves rest
    else .malformed [a] :: joinHalves (.malformed [b] :: .malformed [c] :: rest)
  | part :: rest => part :: joinHalves rest
  | [] => []

/-! ### Charsets -/

/-- An encoding of text. -/
inductive Charset
  | utf8
  | ascii
  | latin1
deriving DecidableEq, Repr

/-- The parts of octets in an encoding. -/
def Charset.parts (charset : Charset) (octets : Octets) : List Part :=
  match charset with
  | .utf8 => utf8Parts octets
  | .ascii => octets.map fun o =>
      if o.toNat < 0x80 then .character (Char.ofNat o.toNat) else .malformed [o]
  | .latin1 => octets.map fun o => .character (Char.ofNat o.toNat)

/-! ### What becomes of runs that are no character -/

/-- What becomes of a run of octets that is no character. `keepOctets` turns each
octet into a half of a surrogate pair, and `keepHalves` accepts such halves;
`unsuited` is for writing texts only, and `unknown` is no treatment at all. -/
inductive OnMalformed
  | refuse
  | drop
  | replace
  | escape
  | keepOctets
  | keepHalves
  | unsuited
  | unknown
deriving DecidableEq, Repr

/-- Why octets are not read. -/
inductive DecodeFault
  | malformed
  | unsuited
  | unknown
deriving DecidableEq, Repr

/-- The code points in the place of a run. -/
def OnMalformed.treat (onMalformed : OnMalformed) (run : Octets) :
    Except DecodeFault (List CodePoint) :=
  match onMalformed with
  | .refuse | .keepHalves => .error .malformed
  | .drop => .ok []
  | .replace => .ok [.character '\uFFFD']
  | .escape =>
    .ok (run.flatMap fun o => ('\\' :: 'x' :: fixedDigits 16 2 o.toNat).map .character)
  | .keepOctets => .ok (run.map fun o => .ofCode (0xDC00 + o.toNat))
  | .unsuited => .error .unsuited
  | .unknown => .error .unknown

/-- **Reads octets as text.** The treatment matters only if a run needs it. -/
def Charset.decode (charset : Charset) (onMalformed : OnMalformed) (octets : Octets) :
    Except DecodeFault String := do
  let parts := charset.parts octets
  let parts := if charset = .utf8 ∧ onMalformed = .keepHalves then joinHalves parts else parts
  let runs ← parts.mapM fun
    | .point p => .ok [p]
    | .malformed run => onMalformed.treat run
  return ofCodePoints runs.flatten

/-- Reads octets as UTF-8 and refuses all that is not. -/
def ofUtf8? (octets : Octets) : Option String := (Charset.utf8.decode .refuse octets).toOption

/-- All characters of the text are ASCII. -/
def isAscii (s : String) : Bool := s.toList.all fun c => c.toNat < 0x80

/-- The octets of a text in UTF-16 with the high octet first. -/
def utf16 (s : String) : Octets :=
  let unit (n : Nat) : Octets := [UInt8.ofNat (n / 256), UInt8.ofNat (n % 256)]
  (codePoints s).flatMap fun p =>
    let n := p.code
    if n < 0x10000 then unit n
    else unit (0xD800 + (n - 0x10000) / 0x400) ++ unit (0xDC00 + (n - 0x10000) % 0x400)

end Text
end PeerTrust
