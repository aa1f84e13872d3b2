/-
  `Yaml.Token` — the tokens of a document.

  Indentation is made explicit: a block opens with a start token and closes with
  `blockEnd`. A key is marked by `key` before it, also where the text has no
  question mark.

  Where a text cannot be split any further, the tokens end in a `fault`. It has
  no effect unless the reader of the tokens gets that far.
-/
import PeerTrust.Yaml.Fault

namespace PeerTrust.Yaml

/-- A tag as it is written: a handle and a suffix, or a whole tag without a handle. -/
structure WrittenTag where
  handle : Option String
  suffix : String
deriving DecidableEq, Repr

/-- A line with instructions to the reader: a version, a handle and what it stands
for, or something that is not known and ignored. -/
inductive Directive
  | version (major : Nat)
  | handle (name meaning : String)
  | other
deriving DecidableEq, Repr

/-- A token. The flag of a scalar says that it is plain, without quotes and not a block. -/
inductive Token
  | directive (d : Directive)
  | documentStart
  | documentEnd
  | streamEnd
  | blockSequenceStart
  | blockMappingStart
  | blockEnd
  | flowSequenceStart
  | flowSequenceEnd
  | flowMappingStart
  | flowMappingEnd
  | flowEntry
  | blockEntry
  | key
  | value
  | alias (name : String)
  | anchor (name : String)
  | tag (written : WrittenTag)
  | scalar (text : String) (plain : Bool)
  | fault (f : Fault)
deriving DecidableEq, Repr

end PeerTrust.Yaml
