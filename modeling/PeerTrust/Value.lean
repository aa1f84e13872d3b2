/-
  `Value` — what a caller may hand over, before anything is known about it.

  Settings come as documents, and arguments may be of the wrong kind; both are
  values here. Scalars and containers make up documents. The other cases are
  certificates in the forms in which libraries pass them around, checked
  settings, root sets, and references to live objects by number. Each operation
  narrows the values it is given and reports by class what it cannot take.
-/
import PeerTrust.Armor
import PeerTrust.Configuration
import PeerTrust.RootSet

namespace PeerTrust

/-- The object that holds a decoded certificate: a certificate of the
cryptographic library, one of the TLS library, or this library's own view. -/
inductive CertificateForm
  | library
  | tls
  | peer
deriving DecidableEq, Repr

/-- A value that a caller hands over. `armor` is a text that holds the block of a
certificate behind a lead. `nan` is an object that is no number although its class
says so; such objects differ from each other, and a number tells them apart.
`recurring` is a list, or with keys a dictionary, that stands inside itself; what it
holds is written out where it stands first. `holder`, `evaluator`, `manager` and
`context` refer to live objects. `copied` is the copy of an object that is equal to
itself only, where it is a key. -/
inductive Value
  | null
  | bool (b : Bool)
  | int (n : Int)
  | float (x : Float)
  | nan (object : Nat)
  | str (s : String)
  | bytes (content : Content)
  | armor (lead : String) (c : Certificate)
  | dateTime (r : Reading)
  | date (d : CivilDate)
  | path (p : String)
  | list (items : List Value)
  | tuple (items : List Value)
  | dict (entries : List (Value × Value))
  | set (members : List Value)
  | recurring (keyed : Bool)
  | certificate (form : CertificateForm) (c : Certificate)
  | policy (p : Policy)
  | storeConfig (s : StoreConfig)
  | configuration (c : Configuration)
  | roots (r : RootSet)
  | holder (id : Nat)
  | evaluator (id : Nat)
  | manager (id : Nat)
  | context (id : Nat)
  | copied (original : Value)

namespace Value

instance : Inhabited Value := ⟨.null⟩

/-- The value of an optional text. -/
def ofText? : Option String → Value
  | some s => .str s
  | none => .null

/-! ### Classes -/

/-- The name of the class of a value. -/
def className : Value → String
  | .null => "NoneType"
  | .bool _ => "bool"
  | .int _ => "int"
  | .float _ | .nan _ => "float"
  | .str _ | .armor _ _ => "str"
  | .bytes _ => "bytes"
  | .dateTime _ => "datetime.datetime"
  | .date _ => "datetime.date"
  | .path _ => "pathlib.PosixPath"
  | .list _ => "list"
  | .tuple _ => "tuple"
  | .dict _ => "dict"
  | .set _ => "set"
  | .recurring keyed => if keyed then "dict" else "list"
  | .certificate .library _ => "cryptography.hazmat.bindings._rust.x509.Certificate"
  | .certificate .tls _ => "OpenSSL.crypto.X509"
  | .certificate .peer _ => "servertrust.certificate.PeerCertificate"
  | .policy _ => "servertrust.models.PolicySet"
  | .storeConfig _ => "servertrust.models.TrustStoreConfig"
  | .configuration _ => "servertrust.models.Configuration"
  | .roots _ => "servertrust.truststore.TrustedRootSet"
  | .holder _ => "servertrust.truststore.TrustStoreHolder"
  | .evaluator _ => "servertrust.evaluator.TrustEvaluator"
  | .manager _ => "servertrust.transport.ServerTrustManager"
  | .context _ => "OpenSSL.SSL.Context"
  | .copied v => v.className

/-- The class of a value as messages write it. -/
def classText (v : Value) : String := "<class '" ++ v.className ++ "'>"

/-! ### Truth, numbers and keys -/

/-- **The value counts as present:** it is not null, false, zero or empty. -/
def isTruthy : Value → Bool
  | .null => false
  | .bool b => b
  | .int n => n ≠ 0
  | .float x => !(x == 0.0)
  | .str s => !s.isEmpty
  | .bytes content => !content.isEmpty
  | .list items | .tuple items | .set items => !items.isEmpty
  | .dict entries => !entries.isEmpty
  | .roots r => r.size ≠ 0
  | .copied v => v.isTruthy
  | _ => true

/-- The whole number that a finite double is equal to. -/
def wholeOfFloat? (x : Float) : Option Int :=
  let bits := x.toBits.toNat
  let exponent : Nat := bits / Nat.pow 2 52 % 2048
  let fraction : Nat := bits % Nat.pow 2 52
  let m : Nat := if exponent = 0 then fraction else fraction + Nat.pow 2 52
  let shift : Int := if exponent = 0 then -1074 else (exponent : Int) - 1075
  let sign : Int := if bits / Nat.pow 2 63 = 1 then -1 else 1
  if exponent = 2047 then none
  else if 0 ≤ shift then some (sign * ((m * Nat.pow 2 shift.toNat : Nat) : Int))
  else
    let unit : Nat := Nat.pow 2 (-shift).toNat
    if m % unit == 0 then some (sign * ((m / unit : Nat) : Int)) else none

/-- The whole number that a value is equal to; truth values count as one and zero. -/
def whole? : Value → Option Int
  | .bool b => some (if b then 1 else 0)
  | .int n => some n
  | .float x => wholeOfFloat? x
  | _ => none

/-- What the form of a key is made of. Equal numbers are the same key whatever their
class, and so are clock readings of one instant; a reading without an offset is
never the same as one with an offset. Objects that are equal to themselves only are
told apart by what they are. -/
inductive KeyPart
  | null
  | whole (n : Int)
  | fraction (bits : UInt64)
  | nan (object : Nat)
  | str (s : String)
  | armor (lead : String) (c : Certificate)
  | bytes (content : Content)
  | dateTime (hasOffset : Bool) (micros : Int)
  | date (d : CivilDate)
  | path (p : String)
  | certificate (form : CertificateForm) (c : Certificate)
  | policy (p : Policy)
  | storeConfig (s : StoreConfig)
  | configuration (c : Configuration)
  | roots (r : RootSet)
  | holder (id : Nat)
  | evaluator (id : Nat)
  | manager (id : Nat)
  | context (id : Nat)
  | tuple (size : Nat)
  | copy
  | collection
deriving DecidableEq

/-- The part that stands for a value that is neither a tuple nor a copy. Collections cannot be
keys, and share one part. -/
def keyPart (v : Value) : KeyPart :=
  match v.whole? with
  | some n => .whole n
  | none =>
    match v with
    | .null => .null
    | .float x => .fraction x.toBits
    | .nan object => .nan object
    | .str s => .str s
    | .armor lead c => .armor lead c
    | .bytes content => .bytes content
    | .dateTime r => .dateTime r.offset.isSome (r.wall.micros - r.offset.getD 0)
    | .date d => .date d
    | .path p => .path p
    | .certificate form c => .certificate form c
    | .policy p => .policy p
    | .storeConfig s => .storeConfig s
    | .configuration c => .configuration c
    | .roots r => .roots r
    | .holder id => .holder id
    | .evaluator id => .evaluator id
    | .manager id => .manager id
    | .context id => .context id
    | _ => .collection

mutual

/-- **The form of a value as a key.** A tuple has its size and then the forms of its items. -/
def keyForm : Value → List KeyPart
  | .tuple items => .tuple items.length :: keyForms items
  | .copied v => .copy :: keyForm v
  | v => [keyPart v]

/-- The forms of items one after the other. -/
def keyForms : List Value → List KeyPart
  | [] => []
  | v :: rest => keyForm v ++ keyForms rest

end

/-- The values are the same key. -/
def sameKey (a b : Value) : Bool := a.keyForm = b.keyForm

mutual

/-- The value can be a key: it is no list, dictionary or set, and holds none in a tuple. -/
def isHashable : Value → Bool
  | .list _ | .dict _ | .set _ | .recurring _ => false
  | .tuple items => allHashable items
  | _ => true

/-- All items can be keys. -/
def allHashable : List Value → Bool
  | [] => true
  | v :: rest => isHashable v && allHashable rest

end

/-! ### Entries of dictionaries -/

/-- What the first entry with the same key has. -/
def lookup {α : Type} (key : Value) : List (Value × α) → Option α
  | [] => none
  | (k, v) :: rest => if k.sameKey key then some v else lookup key rest

/-- Replaces what is at a key, which keeps its place, or adds an entry at the end. -/
def put {α : Type} (key : Value) (a : α) : List (Value × α) → List (Value × α)
  | [] => [(key, a)]
  | (k, b) :: rest => if k.sameKey key then (k, a) :: rest else (k, b) :: put key a rest

/-! ### Copies -/

section Copies

-- which evaluators and managers can be copied depends on what they hold
variable (copies : Value → Bool)

/-- The object can be copied, apart from what it holds. A holder has a lock, and objects of the TLS
library are not made for it. -/
def isCopyable : Value → Bool
  | .certificate .tls _ | .holder _ | .context _ => false
  | .evaluator id => copies (.evaluator id)
  | .manager id => copies (.manager id)
  | _ => true

/-- The object is equal to itself only, so that its copy is another key. -/
def isUnique : Value → Bool
  | .roots _ | .evaluator _ | .manager _ | .copied _ => true
  | _ => false

mutual

/-- A copy of a value as a key, if it can be copied. -/
def copyKey? : Value → Option Value
  | .tuple items => (copyKeys? items).map .tuple
  | v => if v.isCopyable copies then some (if v.isUnique then .copied v else v) else none

/-- Copies of keys. -/
def copyKeys? : List Value → Option (List Value)
  | [] => some []
  | v :: rest => do some ((← copyKey? v) :: (← copyKeys? rest))

end

mutual

/-- **A copy of a value with all that it holds,** keys and values, if all can be copied. -/
def copy? : Value → Option Value
  | .list items => (copyAll? items).map .list
  | .tuple items => (copyAll? items).map .tuple
  | .set members => (copyKeys? copies members).map .set
  | .dict entries => (copyEntries? entries).map .dict
  | v => if v.isCopyable copies then some v else none

/-- Copies of items. -/
def copyAll? : List Value → Option (List Value)
  | [] => some []
  | v :: rest => do some ((← copy? v) :: (← copyAll? rest))

/-- **Copies of entries.** -/
def copyEntries? : List (Value × Value) → Option (List (Value × Value))
  | [] => some []
  | (key, v) :: rest => do some ((← copyKey? copies key, ← copy? v) :: (← copyEntries? rest))

end

end Copies

/-! ### Collections without an end -/

mutual

/-- The value holds a collection that stands inside itself. -/
def isEndless : Value → Bool
  | .recurring _ => true
  | .list items | .tuple items => anyEndless items
  | .dict entries => anyEndlessEntry entries
  | _ => false

/-- One of the items holds a collection that stands inside itself. -/
def anyEndless : List Value → Bool
  | [] => false
  | v :: rest => isEndless v || anyEndless rest

/-- One of the entries holds a collection that stands inside itself. -/
def anyEndlessEntry : List (Value × Value) → Bool
  | [] => false
  | (_, v) :: rest => isEndless v || anyEndlessEntry rest

end

/-! ### Items -/

/-- The fields of a store's settings by name. -/
def storeFields (s : StoreConfig) : List (String × Value) := [
  ("path", ofText? s.path), ("type", .str s.type.text), ("password", ofText? s.password),
  ("on_load_error", .str s.onLoadError.text)]

/-- The fields of all settings by name. -/
def configurationFields (c : Configuration) : List (String × Value) := [
  ("hostname", ofText? c.hostname), ("policy", .policy c.policy),
  ("truststore", .storeConfig c.store)]

/-- The characters of a text, each as a text. -/
def characters (s : String) : List Value :=
  (Text.codePoints s).map fun p => .str (Text.ofCodePoints [p])

/-- A name and a value as a tuple. -/
def pair (field : String × Value) : Value := .tuple [.str field.1, field.2]

/-- **The items of a value that can be gone through:** a text has its characters,
octets have numbers, a dictionary has its keys, a root set has its roots, and
settings have their fields. -/
def items? : Value → Option (List Value)
  | .list items | .tuple items | .set items => some items
  | .dict entries => some (entries.map (·.1))
  | .str s => some (characters s)
  | .armor lead _ => some (characters (lead ++ Armor.certificateMark))
  | .bytes content => some (content.map fun
      | .octet o => .int o.toNat
      | _ => .int 0)
  | .roots r => some (r.anchors.map (.certificate .peer))
  | .policy p => some (p.fields.map fun (name, b) => pair (name, .bool b))
  | .storeConfig s => some ((storeFields s).map pair)
  | .configuration c => some ((configurationFields c).map pair)
  | .copied v => v.items?
  | _ => none

/-- The items of a value that also has a length, which settings do not. -/
def countedItems? : Value → Option (List Value)
  | .policy _ | .storeConfig _ | .configuration _ => none
  | v => v.items?

end Value
end PeerTrust
