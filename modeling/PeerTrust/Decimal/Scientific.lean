/-
  `Decimal.Scientific` — from decimals to binary floating point numbers.

  A decimal is a natural number times a power of ten. The result is the nearest
  double; numbers beyond the largest double become infinite, and numbers far
  below the smallest one zero, without their powers of ten being computed.
-/
namespace PeerTrust.Decimal

/-- The first exponent of ten at which every positive whole number is infinite. -/
def farExponent : Nat := 400

/-- **The double nearest to `mantissa · 10 ^ exponent`.** -/
def toFloat (mantissa : Nat) (exponent : Int) : Float :=
  if mantissa = 0 then 0.0
  else if (farExponent : Int) < exponent then 1.0 / 0.0
  else if exponent < -((mantissa.log2 : Int) + farExponent) then 0.0
  else if exponent < 0 then Float.ofScientific mantissa true exponent.natAbs
  else Float.ofScientific mantissa false exponent.natAbs

end PeerTrust.Decimal
