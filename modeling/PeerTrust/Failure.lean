/-
  `Failure` — everything that can go wrong, by cause.

  A `TrustError` is a verdict on a peer; all other failures are about arguments,
  settings and files. The wording of each is in one place, `Failure.message?`,
  and there is none for failures that only a caller's mistake can lead to.
-/
import PeerTrust.Value.Display
import PeerTrust.VerifyCode
import PeerTrust.Yaml.Fault

namespace PeerTrust

/-! ### Verdicts on a peer -/

/-- Why a peer is not trusted. -/
inductive TrustErrorKind
  | general
  | chainLinkage
  | signature
  | rootNotTrusted
  | identityMismatch
  | expired
deriving DecidableEq, Repr

/-- The name of a kind of trust error; reports and verdicts show it. -/
def TrustErrorKind.name : TrustErrorKind → String
  | .general => "TrustError"
  | .chainLinkage => "ChainLinkageError"
  | .signature => "SignatureVerificationError"
  | .rootNotTrusted => "RootNotTrustedError"
  | .identityMismatch => "IdentityMismatchError"
  | .expired => "ExpiredCertificateError"

/-- A verdict against a peer. The fields are what the maker of the error passed;
the checks of this library pass texts and numbers. -/
structure TrustError where
  kind : TrustErrorKind
  reason : Value
  code : Value
  peerIdentity : Value
  target : Value

namespace TrustError

/-- **An error with a message of its own.** The explanation of a known code
follows a text and takes the place of a missing message. -/
def make (kind : TrustErrorKind) (message code peerIdentity target : Value) : TrustError :=
  let reason :=
    match code.whole?.bind VerifyCode.explanation?, message with
    | some explanation, .null => .str explanation
    | some explanation, .str s => .str (s ++ "\n" ++ explanation)
    | _, _ => message
  ⟨kind, reason, code, peerIdentity, target⟩

/-- The text of the error. -/
def message (e : TrustError) : String := e.reason.text

/-- A certificate of the chain does not name the next one as its issuer. -/
def chainLinkage (peerIdentity target : Value) : TrustError :=
  make .chainLinkage (.str ("subject/issuer verification failed of " ++ peerIdentity.text))
    (.int VerifyCode.subjectIssuerMismatch) peerIdentity target

/-- A signature of the chain does not verify. -/
def signature (peerIdentity target : Value) : TrustError :=
  make .signature (.str ("signature verification failed of " ++ peerIdentity.text))
    (.int VerifyCode.signatureFailure) peerIdentity target

/-- The last certificate is no trusted root; `alone` says that it is the only one. -/
def rootNotTrusted (peerIdentity target : Value) (alone : Bool) : TrustError :=
  make .rootNotTrusted (.str ("root certificate not trusted of " ++ peerIdentity.text))
    (.int (if alone then VerifyCode.selfSignedLeaf else VerifyCode.issuerNotFound))
    peerIdentity target

/-- The claimed identity does not match the target. -/
def identityMismatch (peerIdentity target : Value) : TrustError :=
  make .identityMismatch (.str ("target verification failed of " ++ peerIdentity.text))
    (.int VerifyCode.hostnameMismatch) peerIdentity target

/-- A certificate is outside its validity window. -/
def expired (target : Value) (notYetValid : Bool) (peerIdentity : Value) : TrustError :=
  make .expired (.str ("invalid date of " ++ target.text))
    (.int (if notYetValid then VerifyCode.notYetValid else VerifyCode.hasExpired))
    peerIdentity target

/-- The peer presented no certificate at all. -/
def noPeerCertificate (target : String) : TrustError :=
  make .general (.str "remote server presented no certificate") .null .null (.str target)

end TrustError

/-! ### Files -/

/-- Why the system does not give out a file. -/
inductive SystemFault
  | notFound
  | isDirectory
  | notDirectory
  | nameTooLong
deriving DecidableEq, Repr

/-- The system's words for a fault. -/
def SystemFault.text : SystemFault → String
  | .notFound => "No such file or directory"
  | .isDirectory => "Is a directory"
  | .notDirectory => "Not a directory"
  | .nameTooLong => "File name too long"

/-- Why trusted roots cannot be loaded. The words of the readers of the formats
are not repeated; `unreadable` has a mark in their place. -/
inductive StoreFault
  | unsupportedType
  | system (fault : SystemFault)
  | unreadable
  | noCertificates
  | other (reason : Value)

/-- The words for a fault; a reason that counts as absent has none. -/
def StoreFault.text? : StoreFault → Option String
  | .unsupportedType => some "unsupported store type"
  | .system fault => some fault.text
  | .unreadable => some "<parser>"
  | .noCertificates => some "no certificates found"
  | .other reason => if reason.isTruthy then some reason.text else none

/-- Trusted roots cannot be loaded from a path as a type of store. -/
structure StoreLoadError where
  path : Value
  storeType : Value
  fault : StoreFault

/-- The text of the error. -/
def StoreLoadError.message (e : StoreLoadError) : String :=
  "unable to load " ++ e.storeType.text ++ " trust store from " ++ e.path.text ++
    match e.fault.text? with
    | some reason => ": " ++ reason
    | none => ""

/-! ### Settings -/

/-- What is wrong with one field of a document. -/
inductive IssueKind
  | boolType
  | boolParsing
  | stringType
  | stringUnicode
  | choice (options : List String)
  | modelType (name : String)
  | frozen
deriving DecidableEq, Repr

/-- The short name of an issue. -/
def IssueKind.name : IssueKind → String
  | .boolType => "bool_type"
  | .boolParsing => "bool_parsing"
  | .stringType => "string_type"
  | .stringUnicode => "string_unicode"
  | .choice _ => "enum"
  | .modelType _ => "model_type"
  | .frozen => "frozen_instance"

/-- Options between single quotes, the last one behind an `or`. -/
def listOptions : List String → String
  | [] => ""
  | [a] => "'" ++ a ++ "'"
  | [a, b] => "'" ++ a ++ "' or '" ++ b ++ "'"
  | a :: rest => "'" ++ a ++ "', " ++ listOptions rest

/-- The words for an issue. -/
def IssueKind.message : IssueKind → String
  | .boolType => "Input should be a valid boolean"
  | .boolParsing => "Input should be a valid boolean, unable to interpret input"
  | .stringType => "Input should be a valid string"
  | .stringUnicode => "Input should be a valid string, unable to parse raw data as a unicode string"
  | .choice options => "Input should be " ++ listOptions options
  | .modelType name => "Input should be a valid dictionary or instance of " ++ name
  | .frozen => "Instance is frozen"

/-- An issue and where in the document it is. -/
structure Issue where
  location : List String
  kind : IssueKind
deriving DecidableEq, Repr

/-! ### Arguments -/

/-- The part that an argument plays. `document` and `settings` are the two ways
of passing settings: as a dictionary, or already checked. -/
inductive Role
  | certificate
  | chain
  | target
  | hostname
  | policy
  | referenceInstant
  | roots
  | observer
  | document
  | settings
  | path
  | password
  | evaluator
  | context
deriving DecidableEq, Repr

/-- The name of a part in messages. -/
def Role.name : Role → String
  | .certificate => "certificate"
  | .chain => "chain"
  | .target => "target"
  | .hostname => "hostname"
  | .policy => "policy"
  | .referenceInstant => "reference_instant"
  | .roots => "roots"
  | .observer => "audit_observer"
  | .document | .settings => "config"
  | .path => "path"
  | .password => "password"
  | .evaluator => "evaluator"
  | .context => "context"

/-- What a part has to be. -/
def Role.expected : Role → String
  | .certificate => "cryptography Certificate, OpenSSL X509, PEM or DER"
  | .chain => "list"
  | .target | .hostname | .path | .password => "str"
  | .policy => "PolicySet"
  | .referenceInstant => "datetime"
  | .roots => "TrustedRootSet"
  | .observer => "callable"
  | .document => "dict"
  | .settings => "Configuration"
  | .evaluator => "TrustEvaluator"
  | .context => "OpenSSL.SSL.Context"

/-! ### All failures -/

/-- Everything that can go wrong. -/
inductive Failure
  | trust (e : TrustError)
  | storeLoad (e : StoreLoadError)
  | wrongClass (given : Value) (role : Role)
  | invalidHostname (given : Value)
  | emptyTarget
  | emptyChain
  | rootsMissing
  | storeConfigMissing
  | duplicateExtension (oid : String)
  | unsupportedName
  | illegibleName (defect : NameDefect)
  | unreadableCertificate
  | invalidVersion
  | unknownAlgorithm
  | textNotAscii
  | textNotEncodable
  | octetsNotText
  | unknownCharset
  | outOfCalendar
  | mixedReadings
  | tooFewLayers
  | notDictionary (given : Value)
  | invalidConfiguration (issues : List Issue)
  | invalidFields (issues : List Issue)
  | document (fault : Yaml.Fault)
  | impossiblePath
  | system (fault : SystemFault)
  | unknownCheck
  | abstractCheck
  | observerFailed
  | misuse
  | noSuchAttribute
  | noSuchKey

/-- **The words for a failure.** -/
def Failure.message? : Failure → Option String
  | .trust e => some e.message
  | .storeLoad e => some e.message
  | .wrongClass given role =>
    some ("provided an invalid type " ++ given.classText ++ " for " ++ role.name ++
      ", expected " ++ role.expected)
  | .invalidHostname given => some ("provided an invalid hostname " ++ given.display)
  | .emptyTarget => some "provided an empty target hostname"
  | .emptyChain => some "provided an empty certificate chain"
  | .rootsMissing => some "verify_root is enabled but no trusted roots were provided"
  | .storeConfigMissing => some "no trust store configuration available to reload from"
  | .duplicateExtension oid => some ("Duplicate " ++ oid ++ " extension found")
  | .unsupportedName => some "x400Address/EDIPartyName are not supported types"
  | .outOfCalendar => some "date value out of range"
  | .tooFewLayers => some "_deep_merge requires at least two dicts to merge"
  | .notDictionary given =>
    some ("_deep_merge only takes dict arguments, got " ++ given.classText ++ " " ++ given.text)
  | .invalidConfiguration _ => some "invalid servertrust configuration"
  | .observerFailed => some "observer failed"
  | _ => none

/-- **The failure is over a value that is refused,** or over its class. Who calls a reader of a
format expects such failures and no others. -/
def Failure.isRefusal : Failure → Bool
  | .storeLoad _ | .duplicateExtension _ | .unsupportedName | .illegibleName .unlisted
  | .invalidVersion | .unknownAlgorithm | .unknownCharset | .outOfCalendar | .tooFewLayers
  | .notDictionary _ | .invalidConfiguration _ | .system _ | .abstractCheck | .noSuchAttribute
  | .noSuchKey => false
  | .document fault => fault = .impossible || fault = .mappingAsTime
  | _ => true

/-- The failure of a reader that finds no certificate. -/
def ReadFault.failure : ReadFault → Failure
  | .malformed => .unreadableCertificate
  | .invalidVersion => .invalidVersion
  | .unknownAlgorithm => .unknownAlgorithm

/-- **Reads a name,** which fails with its first defect. -/
def Name.read (n : Name) : Except Failure Name :=
  match n.defect? with
  | none => .ok n
  | some defect => .error (.illegibleName defect)

end PeerTrust
