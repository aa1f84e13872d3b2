/-
  `Failure.Fields` — errors made from named fields.

  Each kind of error has its own fields, of which some have to be given. Which
  number an error carries follows from its kind, and for two kinds from a field
  that only decides between two numbers.
-/
import PeerTrust.Failure

namespace PeerTrust

/-- Fields by name. -/
abbrev Fields := List (String × Value)

namespace Fields

/-- The field of a name; a field that is not given is null. -/
def get (fields : Fields) (name : String) : Value := (fields.lookup name).getD .null

/-- All given fields are known and all required ones are given. -/
def fit (fields : Fields) (known required : List String) : Bool :=
  fields.all (fun f => known.contains f.1) &&
    required.all fun name => fields.any fun f => f.1 == name

end Fields

namespace TrustErrorKind

/-- All kinds. -/
def all : List TrustErrorKind :=
  [.general, .chainLinkage, .signature, .rootNotTrusted, .identityMismatch, .expired]

/-- The kind of a name. -/
def ofName? (s : String) : Option TrustErrorKind := all.find? fun k => k.name == s

/-- The fields of a kind, in their order. -/
def fieldNames : TrustErrorKind → List String
  | .general => ["message", "openssl_errno", "peer_identity", "target"]
  | .rootNotTrusted => ["peer_identity", "target", "chain_length"]
  | .expired => ["target", "not_yet_valid", "peer_identity"]
  | _ => ["peer_identity", "target"]

/-- The fields of a kind that have to be given. -/
def requiredNames : TrustErrorKind → List String
  | .general => []
  | .expired => ["target"]
  | _ => ["peer_identity"]

/-- The error of a kind from fields that fit. -/
def make (kind : TrustErrorKind) (fields : Fields) : TrustError :=
  let identity := fields.get "peer_identity"
  let target := fields.get "target"
  match kind with
  | .general =>
    TrustError.make .general (fields.get "message") (fields.get "openssl_errno") identity target
  | .chainLinkage => .chainLinkage identity target
  | .signature => .signature identity target
  | .rootNotTrusted =>
    let length := (fields.lookup "chain_length").getD (.int 1)
    .rootNotTrusted identity target (length.whole? == some 1)
  | .identityMismatch => .identityMismatch identity target
  | .expired => .expired target (fields.get "not_yet_valid").isTruthy identity

/-- **The error of a kind from named fields.** -/
def ofFields (kind : TrustErrorKind) (fields : Fields) : Except Failure TrustError :=
  if fields.fit kind.fieldNames kind.requiredNames && (fields.get "openssl_errno").isHashable then
    .ok (kind.make fields)
  else .error .misuse

/-- The error of a kind from values in the order of its fields. -/
def ofValues (kind : TrustErrorKind) (values : List Value) : Except Failure TrustError :=
  if kind.fieldNames.length < values.length then .error .misuse
  else kind.ofFields (kind.fieldNames.zip values)

end TrustErrorKind

/-- **The error of a store from named fields.** -/
def StoreLoadError.ofFields (fields : Fields) : Except Failure StoreLoadError :=
  if fields.fit ["path", "store_type", "reason"] ["path", "store_type"] then
    .ok ⟨fields.get "path", fields.get "store_type", .other (fields.get "reason")⟩
  else .error .misuse

end PeerTrust
