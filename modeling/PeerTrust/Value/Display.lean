/-
  `Value.Display` — values in messages.

  `display` shows a value so that its class can be told: texts are quoted, and
  dates, paths and settings carry the name of their class. `text` shows the
  outermost value plainly and everything inside it by `display`.
-/
import PeerTrust.Decimal.Shortest
import PeerTrust.Name.Text
import PeerTrust.Text.Quoted
import PeerTrust.Value

namespace PeerTrust

/-- Floating point numbers are written positionally from `0.0001` up to below `10 ^ 16`. -/
def floatLayout : Decimal.Layout := ⟨-4, 16⟩

/-- The display of a truth value. -/
def boolText (b : Bool) : String := if b then "True" else "False"

/-- The display of an optional text. -/
def optionalText : Option String → String
  | some s => Text.quoted s
  | none => "None"

/-! ### Settings, certificates and root sets -/

namespace Policy

/-- The fields as messages show them. -/
def fieldTexts (p : Policy) : List String := p.fields.map fun (n, b) => n ++ "=" ++ boolText b

end Policy

/-- The fields of a store's settings as messages show them. -/
def StoreConfig.fieldTexts (s : StoreConfig) : List String := [
  "path=" ++ optionalText s.path,
  "type=<TruststoreType." ++ s.type.text ++ ": '" ++ s.type.text ++ "'>",
  "password=" ++ optionalText s.password,
  "on_load_error=<OnLoadError." ++
    (match s.onLoadError with
      | .refuse => "RAISE"
      | .disableRootCheck => "DISABLE_ROOT_CHECK") ++
    ": '" ++ s.onLoadError.text ++ "'>"]

/-- Fields between the parentheses of a class. -/
def classDisplay (name : String) (fields : List String) : String :=
  name ++ "(" ++ ", ".intercalate fields ++ ")"

/-- The display of a policy. -/
def Policy.display (p : Policy) : String := classDisplay "PolicySet" p.fieldTexts

/-- The display of a store's settings. -/
def StoreConfig.display (s : StoreConfig) : String := classDisplay "TrustStoreConfig" s.fieldTexts

/-- The fields of all settings as messages show them. -/
def Configuration.fieldTexts (c : Configuration) : List String := [
  "hostname=" ++ optionalText c.hostname,
  "policy=" ++ c.policy.display,
  "truststore=" ++ c.store.display]

/-- The display of a certificate: its subject and the mark of its fingerprint. -/
def Certificate.display (c : Certificate) : String :=
  "<PeerCertificate subject=" ++ Text.quoted c.subject.render ++ " sha256=" ++
    Certificate.fingerprintMark ++ ">"

/-- The display of a root set: where it came from and how many roots it has. -/
def RootSet.display (r : RootSet) : String :=
  "<TrustedRootSet source=" ++ optionalText r.source ++ " roots=" ++ toString r.size ++ ">"

/-! ### Dates -/

/-- Numbers without zeros at the end, of which at most `droppable` are dropped. -/
def dropTrailingZeros : Nat → List Nat → List Nat
  | 0, ns => ns
  | droppable + 1, ns =>
    if ns.getLast? = some 0 then dropTrailingZeros droppable ns.dropLast else ns

/-- The display of an offset from UTC in microseconds: its days, which only an offset
to the west has, seconds and microseconds, as far as they are not zero. -/
def offsetDisplay (offset : Int) : String :=
  if offset = 0 then "datetime.timezone.utc"
  else
    let seconds := Int.fdiv offset 1000000
    let fields := [("days", Int.fdiv seconds 86400), ("seconds", Int.fmod seconds 86400),
      ("microseconds", Int.fmod offset 1000000)]
    let inner := (fields.filter fun field => field.2 ≠ 0).map fun (name, n) =>
      name ++ "=" ++ toString n
    classDisplay "datetime.timezone" [classDisplay "datetime.timedelta" inner]

/-- The display of a reading: its fields, seconds and microseconds only if needed. -/
def Reading.display (r : Reading) : String :=
  let date := Calendar.dateOfDayNumber (r.wall.micros / microsPerDay)
  let seconds := r.wall.micros % microsPerDay / 1000000
  let fields := dropTrailingZeros 2
    [date.year, date.month, date.day, seconds / 3600, seconds / 60 % 60, seconds % 60,
      r.wall.micros % 1000000]
  classDisplay "datetime.datetime" (fields.map (fun n => toString n) ++
    match r.offset with
    | some offset => ["tzinfo=" ++ offsetDisplay offset]
    | none => [])

/-- The text of a date, `YYYY-MM-DD`. -/
def CivilDate.text (d : CivilDate) : String :=
  Text.paddedDecimal 4 d.year ++ "-" ++ Text.paddedDecimal 2 d.month ++ "-" ++
    Text.paddedDecimal 2 d.day

/-- The display of a date. -/
def CivilDate.display (d : CivilDate) : String :=
  classDisplay "datetime.date" ([d.year, d.month, d.day].map fun n => toString n)

/-! ### Values -/

namespace Value

/-- The octets of a content that can be shown. -/
def shownOctets (content : Content) : Octets := content.filterMap fun
  | .octet o => some o
  | _ => none

mutual

/-- **The display of a value,** from which its class can be told. -/
def display : Value → String
  | .null => "None"
  | .bool b => boolText b
  | .int n => toString n
  | .float x => floatLayout.floatText x
  | .nan _ => "nan"
  | .str s => Text.quoted s
  | .bytes content => Text.quotedOctets (shownOctets content)
  | .armor lead _ => Text.quoted (lead ++ Armor.certificateMark)
  | .dateTime r => r.display
  | .date d => d.display
  | .path p => classDisplay "PosixPath" [Text.quoted p]
  | .list items => "[" ++ ", ".intercalate (displays items) ++ "]"
  | .tuple [item] => "(" ++ display item ++ ",)"
  | .tuple items => "(" ++ ", ".intercalate (displays items) ++ ")"
  | .dict entries => "\x7b" ++ ", ".intercalate (displayEntries entries) ++ "\x7d"
  | .set [] => "set()"
  | .set members => "\x7b" ++ ", ".intercalate (displays members) ++ "\x7d"
  | .recurring keyed => if keyed then "\x7b...\x7d" else "[...]"
  | .certificate .peer c => c.display
  | .certificate _ c => "<Certificate(subject=<Name(" ++ c.subject.render ++ ")>, ...)>"
  | .policy p => p.display
  | .storeConfig s => s.display
  | .configuration c => classDisplay "Configuration" c.fieldTexts
  | .roots r => r.display
  | .holder _ => "<TrustStoreHolder>"
  | .evaluator _ => "<TrustEvaluator>"
  | .manager _ => "<ServerTrustManager>"
  | .context _ => "<Context>"
  | .copied v => display v

/-- The displays of items. -/
def displays : List Value → List String
  | [] => []
  | v :: rest => display v :: displays rest

/-- The displays of entries, each a key, a colon and a value. -/
def displayEntries : List (Value × Value) → List String
  | [] => []
  | (k, v) :: rest => (display k ++ ": " ++ display v) :: displayEntries rest

end

/-- **The plain text of a value.** -/
def text : Value → String
  | .str s => s
  | .armor lead _ => lead ++ Armor.certificateMark
  | .dateTime r => r.textWith " "
  | .date d => d.text
  | .path p => p
  | .policy p => " ".intercalate p.fieldTexts
  | .storeConfig s => " ".intercalate s.fieldTexts
  | .configuration c => " ".intercalate c.fieldTexts
  | v => v.display

end Value
end PeerTrust
