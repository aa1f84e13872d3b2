/-
  `Configuration.Validation` — from documents to checked settings.

  Each field is read on its own, with a default if it is absent; keys that name
  no field are ignored. All issues of a document are listed, in the order of the
  fields. Reading is lenient about truth values, which may be written as numbers
  and words, and strict about names of choices.
-/
import PeerTrust.Failure
import PeerTrust.Text.CodePoint

namespace PeerTrust

/-- The outcome of reading a field: a value, or the issues found in it. -/
abbrev Checked (α : Type) := Except (List Issue) α

namespace Checked

variable {α : Type}

/-- One issue with the field itself. -/
def issue (kind : IssueKind) : Checked α := .error [⟨[], kind⟩]

/-- Places the issues of a field below its name. -/
def under (name : String) (x : Checked α) : Checked α :=
  x.mapError fun issues => issues.map fun i => { i with location := name :: i.location }

/-- The issues found. -/
def issues : Checked α → List Issue
  | .ok _ => []
  | .error issues => issues

/-- The value if reading all fields found no issue. -/
def whenClean (issues : List Issue) (value : Option α) : Checked α :=
  match issues, value with
  | [], some a => .ok a
  | issues, _ => .error issues

end Checked

/-! ### Single fields -/

namespace Field

/-- The words for a truth value, in lower case. -/
def words : List (String × Bool) := [
  ("0", false), ("off", false), ("f", false), ("false", false), ("n", false), ("no", false),
  ("1", true), ("on", true), ("t", true), ("true", true), ("y", true), ("yes", true)]

/-- A text that can be encoded, as every text outside this library can. -/
def encodable (s : String) : Checked String :=
  if Text.holdsHalf s then Checked.issue .stringUnicode else .ok s

/-- The truth value of a word in any case; only ASCII letters have a case here. -/
def boolOfWord (s : String) : Checked Bool :=
  match words.lookup (String.ofList (s.toList.map Char.toLower)) with
  | some b => .ok b
  | none => Checked.issue .boolParsing

/-- The number fits into a signed word of 64 bits. -/
def fitsWord (n : Int) : Bool := -9223372036854775808 ≤ n && n < 9223372036854775808

/-- The truth value of a whole number. -/
def boolOfWhole (n : Int) : Checked Bool :=
  if n = 0 then .ok false
  else if n = 1 then .ok true
  else Checked.issue .boolParsing

/-- **Reads a truth value:** itself, zero or one, or a word. A number that does not
fit a word is of the wrong type, and so is a double without a whole value; the
least number of a word does not come from a double. -/
def readBool : Value → Checked Bool
  | .bool b => .ok b
  | .int n => if fitsWord n then boolOfWhole n else Checked.issue .boolType
  | .float x =>
    match Value.wholeOfFloat? x with
    | some n =>
      if fitsWord n && fitsWord (-n) then boolOfWhole n else Checked.issue .boolType
    | none => Checked.issue .boolType
  | .str s => do boolOfWord (← encodable s)
  | .armor _ _ => Checked.issue .boolParsing
  | .bytes content =>
    match (Content.octets? content).bind Text.ofUtf8? with
    | some s => boolOfWord s
    | none => Checked.issue .boolParsing
  | _ => Checked.issue .boolType

/-- **Reads a text that may be absent.** -/
def readText : Value → Checked (Option String)
  | .null => .ok none
  | .str s => .ok (some s)
  | .bytes content =>
    match (Content.octets? content).bind Text.ofUtf8? with
    | some s => .ok (some s)
    | none => Checked.issue .stringUnicode
  | _ => Checked.issue .stringType

/-- **Reads the name of a choice,** which has to be exact. -/
def readChoice {α : Type} (ofText? : String → Option α) (names : List String)
    (v : Value) : Checked α := do
  let name? ← match v with
    | .str s => some <$> encodable s
    | .bytes content => pure ((Content.octets? content).bind Text.ofUtf8?)
    | _ => pure none
  match name?.bind ofText? with
  | some a => .ok a
  | none => Checked.issue (.choice names)

/-- The field of a name among entries, read if it is there. -/
def read {α : Type} (entries : List (Value × Value)) (name : String) (reader : Value → Checked α)
    (default : α) : Checked α :=
  match Value.lookup (.str name) entries with
  | some v => (reader v).under name
  | none => .ok default

end Field

/-! ### Settings -/

/-- **Reads a policy from entries.** -/
def Policy.ofEntries (entries : List (Value × Value)) : Checked Policy :=
  let flag (name : String) (default : Bool) := Field.read entries name Field.readBool default
  let chain := flag "verify_chain" true
  let root := flag "verify_root" true
  let identity := flag "check_domain_match" true
  let expiry := flag "check_expiry" true
  let selfSigned := flag "accept_self_signed" false
  Checked.whenClean
    (chain.issues ++ root.issues ++ identity.issues ++ expiry.issues ++ selfSigned.issues)
    (do some ⟨← chain.toOption, ← root.toOption, ← identity.toOption, ← expiry.toOption,
      ← selfSigned.toOption⟩)

/-- **Reads a policy:** a dictionary, or a policy already. -/
def Policy.ofValue : Value → Checked Policy
  | .policy p => .ok p
  | .dict entries => ofEntries entries
  | _ => Checked.issue (.modelType "PolicySet")

/-- **Reads the settings of a store from entries.** -/
def StoreConfig.ofEntries (entries : List (Value × Value)) : Checked StoreConfig :=
  let path := Field.read entries "path" Field.readText none
  let type := Field.read entries "type"
    (Field.readChoice StoreType.ofText? (StoreType.all.map StoreType.text)) .pem
  let password := Field.read entries "password" Field.readText none
  let onLoadError := Field.read entries "on_load_error"
    (Field.readChoice OnLoadError.ofText? (OnLoadError.all.map OnLoadError.text)) .refuse
  Checked.whenClean
    (path.issues ++ type.issues ++ password.issues ++ onLoadError.issues)
    (do some ⟨← path.toOption, ← type.toOption, ← password.toOption, ← onLoadError.toOption⟩)

/-- **Reads the settings of a store:** a dictionary, or such settings already. -/
def StoreConfig.ofValue : Value → Checked StoreConfig
  | .storeConfig s => .ok s
  | .dict entries => ofEntries entries
  | _ => Checked.issue (.modelType "TrustStoreConfig")

/-- **Reads all settings from entries.** -/
def Configuration.ofEntries (entries : List (Value × Value)) : Checked Configuration :=
  let hostname := Field.read entries "hostname" Field.readText none
  let policy := Field.read entries "policy" Policy.ofValue .standard
  let store := Field.read entries "truststore" StoreConfig.ofValue .standard
  Checked.whenClean (hostname.issues ++ policy.issues ++ store.issues)
    (do some ⟨← hostname.toOption, ← policy.toOption, ← store.toOption⟩)

/-- **Reads all settings:** a dictionary, or settings already. -/
def Configuration.ofValue : Value → Checked Configuration
  | .configuration c => .ok c
  | .dict entries => ofEntries entries
  | _ => Checked.issue (.modelType "Configuration")

/-- **The settings of a merged document.** -/
def Configuration.ofDocument : Value → Except Failure Configuration
  | .dict entries => (ofEntries entries).mapError .invalidConfiguration
  | v => .error (.wrongClass v .document)

/-! ### Assignments -/

/-- Names with an underscore in front that an object keeps for itself, and the failure
of assigning to them. -/
def reservedNames : List (String × Failure) := [
  ("__class__", .misuse), ("__dict__", .misuse), ("__weakref__", .noSuchAttribute)]

/-- **Assigns to a field of checked settings,** which cannot be changed. A name with an
underscore in front is no field, and an assignment to it is no matter. -/
def assignField (name : String) : Except Failure Unit :=
  if name.startsWith "_" then (reservedNames.lookup name).elim (.ok ()) .error
  else .error (.invalidFields [⟨[name], .frozen⟩])

end PeerTrust
