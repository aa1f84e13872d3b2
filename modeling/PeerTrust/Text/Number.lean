/-
  `Text.Number` — numbers as people write them.

  A number may have white space around it and a sign in front, and digits of any
  script count. A whole number in base two, eight or sixteen may begin with the
  sign of its base; in base ten it has at most `maxDigits` digits. A floating
  point number has a point and an exponent if it likes, or is one of the words
  for what is not finite.
-/
import PeerTrust.Decimal.Scientific
import PeerTrust.Text.Blank
import PeerTrust.Text.Digits

namespace PeerTrust.Text

/-! ### Digits of all scripts -/

/-- The zeros of the decimal digits outside ASCII; each is followed by the other
nine digits of its script. -/
def zeros : List Nat := [
  0x660, 0x6f0, 0x7c0, 0x966, 0x9e6, 0xa66, 0xae6, 0xb66, 0xbe6, 0xc66, 0xce6, 0xd66, 0xde6, 0xe50,
  0xed0, 0xf20, 0x1040, 0x1090, 0x17e0, 0x1810, 0x1946, 0x19d0, 0x1a80, 0x1a90, 0x1b50, 0x1bb0,
  0x1c40, 0x1c50, 0xa620, 0xa8d0, 0xa900, 0xa9d0, 0xa9f0, 0xaa50, 0xabf0, 0xff10, 0x104a0, 0x10d30,
  0x11066, 0x110f0, 0x11136, 0x111d0, 0x112f0, 0x11450, 0x114d0, 0x11650, 0x116c0, 0x11730,
  0x118e0, 0x11950, 0x11c50, 0x11d50, 0x11da0, 0x16a60, 0x16ac0, 0x16b50, 0x1d7ce, 0x1d7d8,
  0x1d7e2, 0x1d7ec, 0x1d7f6, 0x1e140, 0x1e2f0, 0x1e950, 0x1fbf0]

/-- A decimal digit of any script as the digit of ASCII; other characters stay. -/
def asciiDigit (c : Char) : Char :=
  match zeros.find? fun start => start ≤ c.toNat && c.toNat < start + 10 with
  | some start => Char.ofNat (c.toNat - start + 48)
  | none => c

/-- The characters of a number without white space around it, its digits in ASCII. -/
def plainNumber (cs : List Char) : List Char := (strip cs).map asciiDigit

/-- A sign, and what follows it. -/
def splitSign : List Char → Int × List Char
  | '-' :: rest => (-1, rest)
  | '+' :: rest => (1, rest)
  | cs => (1, cs)

/-! ### Whole numbers -/

/-- The most digits of a number in base ten. -/
def maxDigits : Nat := 4300

/-- The digits behind the sign of a base, which may be missing. -/
def dropBaseSign (base : Nat) (cs : List Char) : List Char :=
  let signs := match base with
    | 2 => ['b', 'B']
    | 8 => ['o', 'O']
    | 16 => ['x', 'X']
    | _ => []
  match cs with
  | '0' :: c :: rest => if signs.contains c then rest else cs
  | _ => cs

/-- **The whole number that a text writes in a base.** -/
def readWhole? (base : Nat) (cs : List Char) : Option Int :=
  let (sign, rest) := splitSign (plainNumber cs)
  let digits := dropBaseSign base rest
  if digits.isEmpty || (base = 10 && maxDigits < digits.length) then none
  else (readDigits? base digits).map fun n => sign * n

/-! ### Floating point numbers -/

/-- The words for numbers that are not finite. -/
def notFinite : List (String × Float) :=
  [("inf", 1.0 / 0.0), ("infinity", 1.0 / 0.0), ("nan", 0.0 / 0.0)]

/-- An exponent: a letter, a sign that may be missing, and digits; or nothing. -/
def readExponent? : List Char → Option Int
  | [] => some 0
  | e :: rest =>
    if e = 'e' ∨ e = 'E' then
      let (sign, digits) := splitSign rest
      (readDecimal? digits).map fun n => sign * n
    else none

/-- The number with digits before and after a point, of which there has to be one. -/
def readScientific? (cs : List Char) : Option Float := do
  let whole := cs.takeWhile Char.isDigit
  let (fraction, tail) := match cs.dropWhile Char.isDigit with
    | '.' :: rest => (rest.takeWhile Char.isDigit, rest.dropWhile Char.isDigit)
    | rest => ([], rest)
  let mantissa ← readDecimal? (whole ++ fraction)
  let exponent ← readExponent? tail
  some (Decimal.toFloat mantissa (exponent - fraction.length))

/-- **The floating point number that a text writes.** -/
def readFloat? (cs : List Char) : Option Float := do
  let (sign, rest) := splitSign (plainNumber cs)
  let x ← match notFinite.lookup (String.ofList (rest.map Char.toLower)) with
    | some x => some x
    | none => readScientific? rest
  some (if sign < 0 then -x else x)

end PeerTrust.Text
