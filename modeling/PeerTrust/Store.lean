/-
  `Store` — trusted roots from files, and a reference to them that can be renewed.

  A store is read as one of three formats. Whatever goes wrong between the type
  that was asked for and the certificates that come out is one kind of failure,
  a `StoreLoadError`, except for a path that no system accepts.

  A `Holder` is the current root set together with the settings it is renewed
  from. Its operations assign the two one after the other, and each has to be
  placed behind what may fail: what is assigned before a failure stays.
-/
import PeerTrust.FileSystem
import PeerTrust.Journal
import PeerTrust.Text.Uppercase

namespace PeerTrust

/-! ### Reading a store -/

namespace StoreType

/-- The certificates of a content in a format; an archive may have none. A password has to be
encoded for an archive. -/
def parse (type : StoreType) (password : Option String) (content : Content) :
    Except Failure (List Certificate) :=
  match type with
  | .pem => content.armoredCertificates.mapError ReadFault.failure
  | .der => (content.encodedCertificate.map fun c => [c]).mapError ReadFault.failure
  | .pkcs12 =>
    if password.any Text.holdsHalf then .error .textNotEncodable
    else (content.archivedCertificates password).mapError ReadFault.failure

end StoreType

namespace RootSet

/-- The content of the file at a path, unless no system accepts the path. -/
def readFile (files : FileSystem) (path : String) : Except Failure Content :=
  if !Path.isEncodable path then .error .textNotEncodable
  else if Path.isImpossible path then .error .impossiblePath
  else (files.read (Path.ofText path)).mapError .system

/-- **The certificates at a path.** Faults of the system, refusals of what is read, and an archive
without certificates are load errors; other failures are not expected and left alone. -/
def readStore (files : FileSystem) (path : String) (type : StoreType)
    (password : Option String) : Except Failure (List Certificate) :=
  let loadError (fault : StoreFault) : Failure := .storeLoad ⟨.str path, .str type.text, fault⟩
  match readFile files path with
  | .error (.system fault) => .error (loadError (.system fault))
  | .error f => .error f
  | .ok content =>
    match type.parse password content with
    | .error f => .error (if f.isRefusal then loadError .unreadable else f)
    | .ok [] => .error (loadError .noCertificates)
    | .ok certificates => .ok certificates

/-- **Loads the roots of a store.** The set's source is the normalised path, and an
error names the path as it was given. -/
def loadFrom (files : FileSystem) (path : String) (type : StoreType)
    (password : Option String) : Traced RootSet :=
  match readStore files path type password with
  | .error f => .fail f
  | .ok certificates => do
    let source := (Path.ofText path).text
    let roots := ofList (some source) certificates
    .report (.rootsLoaded roots.size type source)
    return roots

/-- **Loads the roots that settings describe.** -/
def ofConfig (env : Environment) (config : StoreConfig) : Traced RootSet :=
  loadFrom env.files (config.path.getD env.defaultBundle) config.type config.password

/-- The path of a store as a caller passes it. -/
def pathArgument (env : Environment) : Value → Except Failure String
  | .null => .ok env.defaultBundle
  | .str s | .path s => .ok s
  | .armor lead _ => .ok (lead ++ Armor.certificateMark)
  | v => .error (.wrongClass v .path)

/-- The password of a store as a caller passes it. -/
def passwordArgument : Value → Except Failure (Option String)
  | .null => .ok none
  | .str s => .ok (some s)
  | .armor lead _ => .ok (some (lead ++ Armor.certificateMark))
  | v => .error (.wrongClass v .password)

/-- The value that names a type of store; a text counts in upper case. -/
def typeName : Value → Value
  | .str s => .str (Text.uppercase s)
  | .armor lead _ => .str (Text.uppercase (lead ++ Armor.certificateMark))
  | v => v

/-- The type of store that a value names. -/
def typeArgument? (v : Value) : Option StoreType :=
  match typeName v with
  | .str s => StoreType.ofText? s
  | _ => none

/-- **Loads the roots of a store that a caller describes.** -/
def load (env : Environment) (path type password : Value) : Traced RootSet := do
  let path ← .ofExcept (pathArgument env path)
  let password ← .ofExcept (passwordArgument password)
  match typeArgument? type with
  | none => .fail (.storeLoad ⟨.str path, .str (typeName type).text, .unsupportedType⟩)
  | some type => loadFrom env.files path type password

end RootSet

/-! ### Holders -/

/-- What a holder can be renewed from: nothing, settings, or an object that is no
settings at all, which shows only when it is used. -/
inductive RenewalSource
  | absent
  | settings (config : StoreConfig)
  | unusable
deriving DecidableEq

namespace RenewalSource

/-- The source that a value is. -/
def ofValue : Value → RenewalSource
  | .null => .absent
  | .storeConfig config => .settings config
  | _ => .unusable

/-- The source that a caller asks for; a value that counts as absent asks for none. -/
def asked (v : Value) : Option RenewalSource := if v.isTruthy then some (ofValue v) else none

end RenewalSource

/-- The current roots and what they can be renewed from. -/
structure Holder where
  roots : RootSet
  renewal : RenewalSource
deriving DecidableEq

namespace Holder

instance : Inhabited Holder := ⟨⟨default, .absent⟩⟩

/-- A holder of the roots that settings describe. -/
def ofConfig (env : Environment) (config : StoreConfig) : Traced Holder := do
  let roots ← RootSet.ofConfig env config
  return ⟨roots, .settings config⟩

/-- The root set that a value is. -/
def rootsArgument : Value → Except Failure RootSet
  | .roots r => .ok r
  | v => .error (.wrongClass v .roots)

/-- **Exchanges the roots,** and gives the previous ones. -/
def replace (roots : Value) : Stateful Holder RootSet := do
  let roots ← .ofTraced (.ofExcept (rootsArgument roots))
  let previous := (← .get).roots
  .modify fun h => { h with roots := roots }
  .ofTraced (.report (.rootsReplaced previous roots))
  return previous

/-- **Loads the roots anew,** from another source if one is asked for, and keeps that
source for the next time. -/
def reload (env : Environment) (config : Value) : Stateful Holder RootSet := do
  match (RenewalSource.asked config).getD (← .get).renewal with
  | .absent => .ofTraced (.fail .storeConfigMissing)
  | .unusable => .ofTraced (.fail .noSuchAttribute)
  | .settings config =>
    let roots ← .ofTraced (RootSet.ofConfig env config)
    .modify fun h => { h with renewal := .settings config }
    let _ ← replace (.roots roots)
    return roots

end Holder

/-- Holders by number; a number that was not given out stands for an empty holder. -/
structure Holders where
  cells : List Holder

namespace Holders

/-- No holders. -/
def empty : Holders := ⟨[]⟩

/-- The holder of a number. -/
def get (hs : Holders) (id : Nat) : Holder := hs.cells.getD id default

/-- Changes the holder of a number. -/
def set (hs : Holders) (id : Nat) (h : Holder) : Holders := ⟨hs.cells.set id h⟩

/-- Adds a holder and gives its number. -/
def add (hs : Holders) (h : Holder) : Holders × Nat := (⟨hs.cells ++ [h]⟩, hs.cells.length)

end Holders
end PeerTrust
