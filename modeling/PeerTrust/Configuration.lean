/-
  `Configuration` — settings in their checked form.

  Layers of documents are merged in `Configuration.Layers` and checked field by
  field in `Configuration.Validation`; what comes out has these types, so the
  rest of the library never looks at a document.
-/
import PeerTrust.Policy

namespace PeerTrust

/-- The format of a file with trusted roots. -/
inductive StoreType
  | pem
  | der
  | pkcs12
deriving DecidableEq, Repr

namespace StoreType

/-- The formats in the order in which messages list them. -/
def all : List StoreType := [.pem, .der, .pkcs12]

/-- The name of a format. -/
def text : StoreType → String
  | .pem => "PEM"
  | .der => "DER"
  | .pkcs12 => "PKCS12"

/-- The format with exactly the given name. -/
def ofText? (s : String) : Option StoreType := all.find? fun t => t.text == s

end StoreType

/-- What to do when the trusted roots cannot be loaded. -/
inductive OnLoadError
  | refuse
  | disableRootCheck
deriving DecidableEq, Repr

namespace OnLoadError

/-- The choices in the order in which messages list them. -/
def all : List OnLoadError := [.refuse, .disableRootCheck]

/-- The name of a choice. -/
def text : OnLoadError → String
  | .refuse => "raise"
  | .disableRootCheck => "disable_root_check"

/-- The choice with exactly the given name. -/
def ofText? (s : String) : Option OnLoadError := all.find? fun t => t.text == s

end OnLoadError

/-- Where the trusted roots come from. Without a path the default bundle is used. -/
structure StoreConfig where
  path : Option String
  type : StoreType
  password : Option String
  onLoadError : OnLoadError
deriving DecidableEq, Repr

/-- The default bundle, read as armor; a failure to load it is an error. -/
def StoreConfig.standard : StoreConfig := ⟨none, .pem, none, .refuse⟩

/-- All settings. -/
structure Configuration where
  hostname : Option String
  policy : Policy
  store : StoreConfig
deriving DecidableEq, Repr

/-- The settings of an empty document. -/
def Configuration.standard : Configuration := ⟨none, .standard, .standard⟩

end PeerTrust
