/-
  `Yaml.Fault` — why a text has no value as a document.

  Most texts that fail are malformed: they break a rule of the format. The other
  faults are of texts that keep all rules and still have no value, such as a date
  beyond the end of its month.
-/
namespace PeerTrust.Yaml

/-- Why a text has no value. -/
inductive Fault
  | malformed
  /-- A number, a date or a character that does not exist. -/
  | impossible
  /-- A number too large for what it is to be: a code beyond 31 bits, or a unit
  beyond all floating point numbers. -/
  | tooLarge
  /-- A word that is no truth value. -/
  | unknownWord
  /-- A number without a digit or a sign. -/
  | emptyNumber
  /-- A text that is no point of time. -/
  | notATime
  /-- A mapping in the place of a point of time. -/
  | mappingAsTime
  /-- Collections too deep inside each other, or a collection that holds itself
  where only an end would do. -/
  | endless
deriving DecidableEq, Repr

/-- The outcome of reading a part of a text. -/
abbrev Scan (α : Type) := Except Fault α

namespace Scan

/-- A part that breaks a rule of the format. -/
def malformed {α : Type} : Scan α := .error .malformed

/-- A part that breaks a rule unless it is there. -/
def ofOption {α : Type} : Option α → Scan α
  | some a => .ok a
  | none => malformed

end Scan
end PeerTrust.Yaml
