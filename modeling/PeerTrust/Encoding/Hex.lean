/-
  `Encoding.Hex` — octets as pairs of hexadecimal digits.
-/
import PeerTrust.Text.Charset
import PeerTrust.Text.Digits

namespace PeerTrust.Hex

/-- The lower-case digits of a sequence of octets. -/
def encode (octets : Octets) : String :=
  String.join (octets.map fun o => Text.paddedHex 2 o.toNat)

/-- The octets that pairs of digits of either case stand for. -/
def decode? : List Char → Option Octets
  | [] => some []
  | a :: b :: rest => do
    let high ← Text.hexValue? a
    let low ← Text.hexValue? b
    let tail ← decode? rest
    some (UInt8.ofNat (high * 16 + low) :: tail)
  | _ => none

end PeerTrust.Hex
