/-
  `Encoding.Base64` — octets as letters, six bits each.

  `decode?` is strict: groups of four letters, padding only at the end, and no
  bits left over in the last letter of a padded group. `decodeLoose?` overlooks
  what is no letter, stops at padding that completes a group, and only insists
  on whole groups.
-/
import PeerTrust.Text.Charset

namespace PeerTrust.Base64

/-- The letter of a value below 64. -/
def letter (n : Nat) : Char :=
  if n < 26 then Char.ofNat (65 + n)
  else if n < 52 then Char.ofNat (71 + n)
  else if n < 62 then Char.ofNat (n - 4)
  else if n = 62 then '+' else '/'

/-- The value of a letter. -/
def value? (c : Char) : Option Nat :=
  if 'A' ≤ c ∧ c ≤ 'Z' then some (c.toNat - 65)
  else if 'a' ≤ c ∧ c ≤ 'z' then some (c.toNat - 71)
  else if '0' ≤ c ∧ c ≤ '9' then some (c.toNat + 4)
  else if c = '+' then some 62
  else if c = '/' then some 63
  else none

/-- The letters of a sequence of octets, padded to groups of four. -/
def encode : Octets → List Char
  | a :: b :: c :: rest =>
    let n := a.toNat * 65536 + b.toNat * 256 + c.toNat
    letter (n / 262144) :: letter (n / 4096 % 64) :: letter (n / 64 % 64) :: letter (n % 64) ::
      encode rest
  | [a, b] =>
    let n := a.toNat * 1024 + b.toNat * 4
    [letter (n / 4096), letter (n / 64 % 64), letter (n % 64), '=']
  | [a] =>
    let n := a.toNat * 16
    [letter (n / 64), letter (n % 64), '=', '=']
  | [] => []

/-- **The octets that letters stand for,** if `encode` could have written them. -/
def decode? : List Char → Option Octets
  | [] => some []
  | [a, b, '=', '='] => do
    let n := (← value? a) * 64 + (← value? b)
    if n % 16 = 0 then some [UInt8.ofNat (n / 16)] else none
  | [a, b, c, '='] => do
    let n := (← value? a) * 4096 + (← value? b) * 64 + (← value? c)
    if n % 4 = 0 then some [UInt8.ofNat (n / 1024), UInt8.ofNat (n / 4)] else none
  | a :: b :: c :: d :: rest => do
    let n := (← value? a) * 262144 + (← value? b) * 4096 + (← value? c) * 64 + (← value? d)
    let tail ← decode? rest
    some (UInt8.ofNat (n / 65536) :: UInt8.ofNat (n / 256) :: UInt8.ofNat n :: tail)
  | _ => none

/-- **The octets that letters among other characters stand for.** `pending` holds the
letters of the group that has begun, in order, and `padding` counts the signs for
padding since the last letter. -/
def decodeLooseFrom? (pending : List Nat) (padding : Nat) : List Char → Option Octets
  | [] => if pending.isEmpty then some [] else none
  | '=' :: rest =>
    if 2 ≤ pending.length then
      if 4 ≤ pending.length + (padding + 1) then some []
      else decodeLooseFrom? pending (padding + 1) rest
    else decodeLooseFrom? pending padding rest
  | c :: rest =>
    match value? c, pending with
    | none, _ => decodeLooseFrom? pending padding rest
    | some n, [] => decodeLooseFrom? [n] 0 rest
    | some n, [a] =>
      (decodeLooseFrom? [a, n] 0 rest).map (UInt8.ofNat (a * 4 + n / 16) :: ·)
    | some n, [a, b] =>
      (decodeLooseFrom? [a, b, n] 0 rest).map (UInt8.ofNat (b * 16 + n / 4) :: ·)
    | some n, _ :: _ :: last :: _ =>
      (decodeLooseFrom? [] 0 rest).map (UInt8.ofNat (last * 64 + n) :: ·)

/-- **The octets that letters stand for,** all other characters overlooked. -/
def decodeLoose? (cs : List Char) : Option Octets := decodeLooseFrom? [] 0 cs

end PeerTrust.Base64
