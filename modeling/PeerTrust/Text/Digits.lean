/-
  `Text.Digits` — unsigned numbers as digits of a fixed width, in base ten and
  base sixteen.

  Dates, escapes and fingerprints all print numbers with leading zeros, and the
  readers of dates and documents need the values of digits.
-/
namespace PeerTrust.Text

/-- The lower-case digit of a value below sixteen. -/
def digitChar (n : Nat) : Char :=
  if n < 10 then Char.ofNat (48 + n) else Char.ofNat (87 + n)

/-- The last `width` digits of `n` in the given base. -/
def fixedDigits (base : Nat) : Nat → Nat → List Char
  | 0, _ => []
  | width + 1, n => fixedDigits base width (n / base) ++ [digitChar (n % base)]

/-- The last `width` decimal digits of `n`, leading zeros included. -/
def paddedDecimal (width n : Nat) : String :=
  String.ofList (fixedDigits 10 width n)

/-- The last `width` hexadecimal digits of `n`, leading zeros included. -/
def paddedHex (width n : Nat) : String :=
  String.ofList (fixedDigits 16 width n)

/-- The value of a decimal digit. -/
def decimalValue? (c : Char) : Option Nat :=
  if '0' ≤ c ∧ c ≤ '9' then some (c.toNat - 48) else none

/-- The value of a hexadecimal digit of either case. -/
def hexValue? (c : Char) : Option Nat :=
  if '0' ≤ c ∧ c ≤ '9' then some (c.toNat - 48)
  else if 'a' ≤ c ∧ c ≤ 'f' then some (c.toNat - 87)
  else if 'A' ≤ c ∧ c ≤ 'F' then some (c.toNat - 55)
  else none

/-- The number written by the digits `cs`, if each has a value below `base`. -/
def readDigits? (base : Nat) (cs : List Char) : Option Nat :=
  cs.foldlM (fun acc c =>
    match hexValue? c with
    | some v => if v < base then some (acc * base + v) else none
    | none => none) 0

/-- The number written by a non-empty run of decimal digits. -/
def readDecimal? (cs : List Char) : Option Nat :=
  if cs.isEmpty then none else readDigits? 10 cs

end PeerTrust.Text
