/-
  `Yaml.Schema.Value` — what scalars stand for under their tags.

  A reader takes any text that can be under its tag, which is more than the form
  that leads to the tag without a word: a tag that was written may stand before
  any text. A text that stands for nothing is a fault, and which one depends on
  how it fails.
-/
import PeerTrust.Encoding.Base64
import PeerTrust.Value
import PeerTrust.Yaml.Fault
import PeerTrust.Yaml.Schema

namespace PeerTrust.Yaml.Schema

/-- A value that exists, or the fault that it does not. -/
def existing (v : Option Value) : Scan Value :=
  match v with
  | some v => .ok v
  | none => .error .impossible

/-! ### Words -/

/-- The truth values that words stand for, in any case. -/
def boolWords : List (String × Bool) := [
  ("yes", true), ("no", false), ("true", true), ("false", false), ("on", true), ("off", false)]

/-- The truth value of a word. -/
def readBool (text : String) : Scan Value :=
  match boolWords.lookup (String.ofList (text.toList.map Char.toLower)) with
  | some b => .ok (.bool b)
  | none => .error .unknownWord

/-! ### Numbers -/

/-- The characters without underscores. -/
def dropUnderscores (cs : List Char) : List Char := cs.filter (· ≠ '_')

/-- A number in base sixty from its parts, the highest first. -/
def sixtieths (parts : List Int) : Int := parts.foldl (fun n part => n * 60 + part) 0

/-- The whole number behind a sign. -/
def magnitude? (cs : List Char) : Option Int :=
  match cs with
  | ['0'] => some 0
  | '0' :: 'b' :: digits => Text.readWhole? 2 digits
  | '0' :: 'x' :: digits => Text.readWhole? 16 digits
  | '0' :: _ => Text.readWhole? 8 cs
  | _ =>
    if cs.contains ':' then ((Text.splitOn ':' cs).mapM (Text.readWhole? 10)).map sixtieths
    else Text.readWhole? 10 cs

/-- **The whole number of a text.** -/
def readWhole (text : String) : Scan Value :=
  match dropUnderscores text.toList with
  | [] => .error .emptyNumber
  | cs =>
    let (sign, rest) := Text.splitSign cs
    if rest.isEmpty then .error .emptyNumber
    else existing ((magnitude? rest).map fun n => .int (sign * n))

/-- The sum of parts in base sixty, the lowest first and each counted `unit` times.
A unit beyond all floating point numbers cannot count a part, not even zero. -/
def sumSixtieths (unit : Nat) (sum : Float) : List Float → Scan Float
  | [] => .ok sum
  | part :: rest =>
    let scale := Decimal.toFloat unit 0
    if scale.isInf then .error .tooLarge
    else sumSixtieths (unit * 60) (sum + part * scale) rest

/-- A part of a floating point number in base sixty, or a whole one. -/
def floatPart (cs : List Char) : Scan Float :=
  match Text.readFloat? cs with
  | some x => .ok x
  | none => .error .impossible

/-- The floating point number behind a sign. -/
def floatMagnitude (cs : List Char) : Scan Float :=
  if cs = ".inf".toList then .ok (1.0 / 0.0)
  else if cs.contains ':' then do
    sumSixtieths 1 0.0 (← (Text.splitOn ':' cs).mapM floatPart).reverse
  else floatPart cs

/-- A floating point number as a value. What is no number is an object of its own. -/
def ofFloat (x : Float) : Value := if x.isNaN then .nan 1 else .float x

/-- **The floating point number of a text.** -/
def readFloat (text : String) : Scan Value :=
  match (dropUnderscores text.toList).map Char.toLower with
  | [] => .error .emptyNumber
  | cs =>
    let (sign, rest) := Text.splitSign cs
    if rest = ".nan".toList then .ok (.nan 0)
    else (floatMagnitude rest).map fun x => ofFloat (if sign < 0 then -x else x)

/-! ### Points of time -/

/-- The microseconds of digits behind a point, of which the first six count. -/
def micros (digits : List Char) : Nat :=
  let kept := digits.take 6
  ((Text.readDigits? 10 kept).getD 0) * Nat.pow 10 (6 - kept.length)

/-- The offset leads less than a day away. -/
def isOffset (seconds : Int) : Bool := seconds.natAbs < 86400

/-- The point of time of fields, if there is one. -/
def TimeFields.value? (t : TimeFields) : Option Value :=
  let date : CivilDate := ⟨t.year, t.month, t.day⟩
  match t.clock with
  | none => if Calendar.isValid date then some (.date date) else none
  | some (hour, minute, second) =>
    if t.offset.all isOffset then
      (Reading.wallOf? date hour minute second (micros t.fraction)).map fun wall =>
        .dateTime ⟨wall, t.offset.map fun seconds => seconds * 1000000⟩
    else none

/-- **The point of time of a text,** a date or a clock reading. -/
def readTime (text : String) : Scan Value :=
  match timeFields? (withoutLineFeed text.toList) with
  | some fields => existing fields.value?
  | none => .error .notATime

/-! ### Octets -/

/-- The octets of a text in base 64, which has to be ASCII. -/
def readOctets (text : String) : Scan Value :=
  if Text.isAscii text then
    (Scan.ofOption (Base64.decodeLoose? text.toList)).map fun o => .bytes (Content.ofOctets o)
  else .malformed

/-! ### All scalars -/

/-- **The readers of scalars by tag.** -/
def readers : List (String × (String → Scan Value)) := [
  (tag "null", fun _ => .ok .null),
  (tag "str", fun text => .ok (.str text)),
  (tag "bool", readBool),
  (tag "int", readWhole),
  (tag "float", readFloat),
  (tag "timestamp", readTime),
  (tag "binary", readOctets)]

end PeerTrust.Yaml.Schema
