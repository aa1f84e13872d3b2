/-
  `Yaml.Schema` — what the form of a text says about it.

  A plain text is a number, a point of time, a truth value, null or one of a few
  signs if it has exactly the form of one, and a text otherwise. Only the form is
  looked at here; what a text stands for is up to the readers of values. A line
  feed at the end of a text does not change its form.
-/
import PeerTrust.Text.Digits
import PeerTrust.Text.Number
import PeerTrust.Text.Search

namespace PeerTrust.Yaml.Schema

/-! ### Tags -/

/-- The tag that asks for the form to decide. -/
def openTag : String := "!"

/-- What the tags of the schema start with. -/
def tagStart : String := "tag:yaml.org,2002:"

/-- The tag of the schema with a name. -/
def tag (name : String) : String := tagStart ++ name

/-! ### Words -/

/-- The words for truth values. -/
def boolForms : List String := [
  "yes", "Yes", "YES", "no", "No", "NO", "true", "True", "TRUE", "false", "False", "FALSE",
  "on", "On", "ON", "off", "Off", "OFF"]

/-- The words for null, beside the empty text. -/
def nullForms : List String := ["~", "null", "Null", "NULL"]

/-- The signs that would be mistaken for those of tags, anchors and aliases. -/
def propertySigns : List String := ["!", "&", "*"]

/-! ### Numbers -/

/-- A digit or an underscore. -/
def isDigitOrUnderscore (c : Char) : Bool := c.isDigit || c = '_'

/-- A part in base sixty: one digit, or two of which the first is below six. -/
def isSixtieth : List Char → Bool
  | [a] => a.isDigit
  | [a, b] => '0' ≤ a && a ≤ '5' && b.isDigit
  | _ => false

/-- A number that starts with a digit other than zero, with digits and underscores. -/
def isPlainWhole : List Char → Bool
  | c :: rest => '1' ≤ c && c ≤ '9' && rest.all isDigitOrUnderscore
  | [] => false

/-- The form of a whole number without a sign: binary, hexadecimal, octal, decimal
or in base sixty. -/
def isMagnitude : List Char → Bool
  | ['0'] => true
  | '0' :: 'b' :: c :: rest => (c :: rest).all fun d => d = '0' || d = '1' || d = '_'
  | '0' :: 'x' :: c :: rest => (c :: rest).all fun d => (Text.hexValue? d).isSome || d = '_'
  | '0' :: rest => rest.all fun d => ('0' ≤ d && d ≤ '7') || d = '_'
  | cs =>
    match Text.splitOn ':' cs with
    | [whole] => isPlainWhole whole
    | head :: parts => isPlainWhole head && parts.all isSixtieth
    | [] => false

/-- **The form of a whole number.** -/
def isWhole (cs : List Char) : Bool := isMagnitude (Text.splitSign cs).2

/-- An exponent with its sign, or nothing. -/
def isExponent : List Char → Bool
  | [] => true
  | e :: sign :: digits =>
    (e = 'e' || e = 'E') && (sign = '+' || sign = '-') && !digits.isEmpty &&
      digits.all Char.isDigit
  | _ => false

/-- Digits and underscores that start with a digit. -/
def isDigits : List Char → Bool
  | c :: rest => c.isDigit && rest.all isDigitOrUnderscore
  | [] => false

/-- The form of a number with a point behind digits, without a sign. The digits may
be in base sixty, and then there is no exponent. -/
def isPointed (cs : List Char) : Bool :=
  match cs.dropWhile (· ≠ '.') with
  | '.' :: rest =>
    let tail := rest.dropWhile isDigitOrUnderscore
    match Text.splitOn ':' (cs.takeWhile (· ≠ '.')) with
    | [whole] => isDigits whole && isExponent tail
    | head :: parts => isDigits head && parts.all isSixtieth && tail.isEmpty
    | [] => false
  | _ => false

/-- The words for infinity and for what is not a number, behind their point. -/
def infinityForms : List String := [".inf", ".Inf", ".INF"]

/-- The words for what is not a number. -/
def nanForms : List String := [".nan", ".NaN", ".NAN"]

/-- **The form of a floating point number.** A number that starts with its point has
no sign. -/
def isFloat (cs : List Char) : Bool :=
  let rest := (Text.splitSign cs).2
  infinityForms.contains (String.ofList rest) || nanForms.contains (String.ofList cs) ||
    match cs with
    | '.' :: after => isDigits (after.takeWhile isDigitOrUnderscore) &&
        isExponent (after.dropWhile isDigitOrUnderscore)
    | _ => isPointed rest

/-! ### Points of time -/

/-- The fields of a point of time, as far as they are written; its offset is in seconds. -/
structure TimeFields where
  year : Nat
  month : Nat
  day : Nat
  clock : Option (Nat × Nat × Nat)
  fraction : List Char
  offset : Option Int

/-- One or two digits. -/
def shortNumber? (cs : List Char) : Option (Nat × List Char) := do
  let digits := (cs.take 2).takeWhile Char.isDigit
  let n ← Text.readDecimal? digits
  some (n, cs.drop digits.length)

/-- Two digits. -/
def twoDigits? (cs : List Char) : Option (Nat × List Char) := do
  let (n, rest) ← shortNumber? cs
  if cs.length = rest.length + 2 then some (n, rest) else none

/-- What follows a character that has to come first. -/
def after? (c : Char) : List Char → Option (List Char)
  | x :: rest => if x = c then some rest else none
  | [] => none

/-- A space or a tab. -/
def isSpaceOrTab (c : Char) : Bool := c = ' ' || c = '\t'

/-- An offset from UTC in seconds, behind blanks, or nothing. -/
def offset? (cs : List Char) : Option (Option Int) :=
  let signed (sign : Int) (rest : List Char) : Option (Option Int) := do
    let (hours, rest) ← shortNumber? rest
    match rest with
    | [] => some (some (sign * (hours * 3600 : Nat)))
    | _ => do
      let (minutes, rest) ← twoDigits? (← after? ':' rest)
      if rest.isEmpty then some (some (sign * (hours * 3600 + minutes * 60 : Nat))) else none
  match cs with
  | [] => some none
  | _ =>
    match cs.dropWhile isSpaceOrTab with
    | ['Z'] => some (some 0)
    | '+' :: rest => signed 1 rest
    | '-' :: rest => signed (-1) rest
    | _ => none

/-- The time of day behind a date, from the separator on. -/
def clockFields? (year month day : Nat) (cs : List Char) : Option TimeFields := do
  let rest ← match cs with
    | c :: rest =>
      if c = 'T' || c = 't' then some rest
      else if isSpaceOrTab c then some (rest.dropWhile isSpaceOrTab) else none
    | [] => none
  let (hour, rest) ← shortNumber? rest
  let (minute, rest) ← twoDigits? (← after? ':' rest)
  let (second, rest) ← twoDigits? (← after? ':' rest)
  let (fraction, rest) := match rest with
    | '.' :: rest => (rest.takeWhile Char.isDigit, rest.dropWhile Char.isDigit)
    | _ => ([], rest)
  some ⟨year, month, day, some (hour, minute, second), fraction, ← offset? rest⟩

/-- **The fields of a point of time:** a date, and a time of day if it follows. -/
def timeFields? (cs : List Char) : Option TimeFields := do
  let year ← if cs.length < 4 then none else Text.readDecimal? (cs.take 4)
  let (month, rest) ← shortNumber? (← after? '-' (cs.drop 4))
  let (day, rest) ← shortNumber? (← after? '-' rest)
  if rest.isEmpty then some ⟨year, month, day, none, [], none⟩
  else clockFields? year month day rest

/-- **The form of a point of time.** A date alone has all its digits. -/
def isTime (cs : List Char) : Bool :=
  match timeFields? cs with
  | some fields => fields.clock.isSome || cs.length = 10
  | none => false

/-! ### The form of a text -/

/-- A text without a line feed at its end. -/
def withoutLineFeed (cs : List Char) : List Char :=
  if cs.getLast? = some '\n' then cs.dropLast else cs

/-- **The tag that follows from the form of a text.** -/
def formTag (text : String) : String :=
  let cs := withoutLineFeed text.toList
  let word := String.ofList cs
  if text.isEmpty || nullForms.contains word then tag "null"
  else if boolForms.contains word then tag "bool"
  else if isFloat cs then tag "float"
  else if isWhole cs then tag "int"
  else if isTime cs then tag "timestamp"
  else if word == "<<" then tag "merge"
  else if word == "=" then tag "value"
  else if propertySigns.contains word then tag "yaml"
  else tag "str"

end PeerTrust.Yaml.Schema
