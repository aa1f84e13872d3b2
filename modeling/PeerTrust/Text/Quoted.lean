/-
  `Text.Quoted` — texts and octets between quotation marks, on one line.

  Messages and displays quote what a caller passed. The mark is the single
  quote unless the text holds one and no double quote. A backslash, the mark in
  use and everything that is not printable is escaped, so the quoted form shows
  what is there and cannot be mistaken for a longer text.
-/
import PeerTrust.Text.Charset
import PeerTrust.Text.Digits
import PeerTrust.Text.Printable

namespace PeerTrust.Text

/-- The quotation mark for a text that holds the given characters. -/
def quotationMark (cs : List Char) : Char :=
  if cs.contains '\'' && !cs.contains '"' then '"' else '\''

/-- An escape by number, as short as the number allows. -/
def escapeCode (code : Nat) : List Char :=
  if code < 0x100 then '\\' :: 'x' :: fixedDigits 16 2 code
  else if code < 0x10000 then '\\' :: 'u' :: fixedDigits 16 4 code
  else '\\' :: 'U' :: fixedDigits 16 8 code

/-- The characters that stand for `c` inside a text quoted by `mark`. -/
def escapeIn (mark c : Char) : List Char :=
  if c = mark ∨ c = '\\' then ['\\', c]
  else if c = '\n' then ['\\', 'n']
  else if c = '\r' then ['\\', 'r']
  else if c = '\t' then ['\\', 't']
  else if isPrintable c then [c]
  else escapeCode c.toNat

/-- The characters that stand for a code point inside a text quoted by `mark`. -/
def CodePoint.escapeIn (mark : Char) : CodePoint → List Char
  | .character c => Text.escapeIn mark c
  | .half place => escapeCode (CodePoint.half place).code

/-- **A text between quotation marks.** -/
def quoted (s : String) : String :=
  let mark := quotationMark s.toList
  String.ofList (mark :: (codePoints s).flatMap (CodePoint.escapeIn mark) ++ [mark])

/-- Octets between quotation marks: ASCII as it is, all other octets escaped. -/
def quotedOctets (octets : Octets) : String :=
  let cs := octets.map fun o => Char.ofNat o.toNat
  let mark := quotationMark cs
  let escape (c : Char) : List Char :=
    if c.toNat < 0x80 then escapeIn mark c else '\\' :: 'x' :: fixedDigits 16 2 c.toNat
  String.ofList ('b' :: mark :: cs.flatMap escape ++ [mark])

end PeerTrust.Text
