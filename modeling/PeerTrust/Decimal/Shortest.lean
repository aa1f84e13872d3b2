/-
  `Decimal.Shortest` — the shortest decimal that reads back as a given binary
  floating point number.

  A finite number other than zero is `m · 2 ^ q` with whole `m`. The reals that
  round to it form an interval around it, whose ends belong to it exactly if
  `m` is even. For one digit, two digits and so on up to seventeen, the two
  neighbours of the number on the grid of decimals with that many digits are
  tested; the first grid with a neighbour inside the interval gives the digits,
  and of two neighbours inside it the nearer one. All tests are exact, on
  natural numbers.
-/
import PeerTrust.Text.Digits

namespace PeerTrust.Decimal

/-! ### Fractions and grids -/

/-- A positive fraction. -/
structure Ratio where
  num : Nat
  den : Nat

/-- `m · base ^ e` as a fraction. -/
def Ratio.scaled (m base : Nat) (e : Int) : Ratio :=
  if 0 ≤ e then ⟨m * base.pow e.toNat, 1⟩ else ⟨m, base.pow (-e).toNat⟩

/-- Comparison of fractions. -/
def Ratio.le (x y : Ratio) : Bool := x.num * y.den ≤ y.num * x.den

/-- Strict comparison of fractions. -/
def Ratio.lt (x y : Ratio) : Bool := x.num * y.den < y.num * x.den

/-- The number of decimal digits of a natural number; zero has none. -/
def digitCount (n : Nat) : Nat := if n = 0 then 0 else (Nat.toDigits 10 n).length

/-- The exponent `k` with `10 ^ k ≤ x < 10 ^ (k + 1)`. The quotient of the
lengths of the two parts is off by at most one. -/
def Ratio.magnitude (x : Ratio) : Int :=
  let guess : Int := (digitCount x.num : Int) - digitCount x.den
  if (Ratio.scaled 1 10 guess).le x then guess else guess - 1

/-! ### Binary numbers -/

/-- A positive number `m · 2 ^ q`, with the ends of the interval of reals that
round to it. -/
structure Rounded where
  value : Ratio
  low : Ratio
  high : Ratio
  closed : Bool

/-- Decodes the fields of a finite double that is not zero. The gap below a
power of two is half of the gap above it. -/
def Rounded.ofFields (exponent fraction : Nat) : Rounded :=
  let m := if exponent = 0 then fraction else fraction + Nat.pow 2 52
  let q : Int := if exponent = 0 then -1074 else (exponent : Int) - 1075
  let below : Ratio :=
    if fraction = 0 ∧ 1 < exponent then Ratio.scaled (4 * m - 1) 2 (q - 2)
    else Ratio.scaled (2 * m - 1) 2 (q - 1)
  ⟨Ratio.scaled m 2 q, below, Ratio.scaled (2 * m + 1) 2 (q - 1), m % 2 == 0⟩

/-- The real rounds to the number. -/
def Rounded.contains (r : Rounded) (x : Ratio) : Bool :=
  if r.closed then r.low.le x && x.le r.high else r.low.lt x && x.lt r.high

/-! ### Digits -/

/-- A decimal `0.d₁d₂… · 10 ^ point`, without trailing zeros. -/
structure Digits where
  digits : List Char
  point : Int

/-- The digits of `n · 10 ^ e`. -/
def Digits.ofScaled (n : Nat) (e : Int) : Digits :=
  let all := Nat.toDigits 10 n
  let kept := (all.reverse.dropWhile (· == '0')).reverse
  ⟨kept, e + all.length⟩

/-- The neighbours of a number on the grid of multiples of `10 ^ e` that lie in
its interval, the nearer one first and of two at the same distance the even one. -/
def Rounded.neighbours (r : Rounded) (e : Int) : List Nat :=
  let step := Ratio.scaled 1 10 e
  let below := r.value.num * step.den / (r.value.den * step.num)
  let inside := [below, below + 1].filter fun n =>
    0 < n && r.contains ⟨n * step.num, step.den⟩
  let doubled := 2 * r.value.num * step.den
  let middle := (2 * below + 1) * (r.value.den * step.num)
  if doubled < middle ∨ (doubled = middle ∧ below % 2 = 0) then inside else inside.reverse

/-- **The shortest digits,** trying `count` digits and then more, at most `fuel` times. -/
def Rounded.shortestFrom (r : Rounded) : Nat → Nat → Digits
  | 0, _ => ⟨['0'], 1⟩
  | fuel + 1, count =>
    let e := r.value.magnitude - count + 1
    match r.neighbours e with
    | n :: _ => Digits.ofScaled n e
    | [] => r.shortestFrom fuel (count + 1)

/-- The shortest digits of a number. -/
def Rounded.shortest (r : Rounded) : Digits := r.shortestFrom 17 1

/-! ### Layout -/

/-- Where positional notation ends: it is used while the point lies after
`least < point ≤ most` digits. The exponent of the other notation has a sign
and at least two digits. -/
structure Layout where
  least : Int
  most : Int

/-- The text of digits in a layout; a whole number in positional notation ends in `.0`. -/
def Layout.text (layout : Layout) (d : Digits) : String :=
  let length : Int := d.digits.length
  let zeros (n : Int) : List Char := List.replicate n.toNat '0'
  if layout.least < d.point ∧ d.point ≤ layout.most then
    if d.point ≤ 0 then String.ofList ('0' :: '.' :: zeros (-d.point) ++ d.digits)
    else if length ≤ d.point then
      String.ofList (d.digits ++ zeros (d.point - length) ++ ['.', '0'])
    else
      String.ofList (d.digits.take d.point.toNat ++ '.' :: d.digits.drop d.point.toNat)
  else
    let exponent := d.point - 1
    let shown := toString exponent.natAbs
    let shown := if shown.length < 2 then "0" ++ shown else shown
    let fraction := d.digits.drop 1
    String.ofList (d.digits.take 1 ++ if fraction.isEmpty then [] else '.' :: fraction) ++
      "e" ++ (if exponent < 0 then "-" else "+") ++ shown

/-- **The text of a double:** the shortest digits in a layout, with a sign; the
numbers that are not finite have names. -/
def Layout.floatText (layout : Layout) (x : Float) : String :=
  let bits := x.toBits.toNat
  let sign := if bits / Nat.pow 2 63 = 1 then "-" else ""
  let exponent := bits / Nat.pow 2 52 % 2048
  let fraction := bits % Nat.pow 2 52
  if exponent = 2047 then (if fraction = 0 then sign ++ "inf" else "nan")
  else if exponent = 0 ∧ fraction = 0 then sign ++ "0.0"
  else sign ++ layout.text (Rounded.ofFields exponent fraction).shortest

end PeerTrust.Decimal
