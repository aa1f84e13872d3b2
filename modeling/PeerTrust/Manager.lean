/-
  `Manager` — trust decisions for one host at the end of a TLS handshake.

  During the handshake the TLS library calls back with errors of its own. They
  are kept for diagnosis and never refuse a peer: the decision is made once, by
  `verifyConnection`, with the evaluator and the certificates of the peer.
-/
import PeerTrust.Evaluator

namespace PeerTrust

/-- What the TLS library said about a certificate of the peer. -/
structure Diagnostic where
  certificate : Value
  code : Value
  depth : Value

/-- A host, the evaluator that decides about its peer, and what the TLS library
said so far. -/
structure Manager where
  hostname : String
  evaluator : Evaluator
  diagnostics : List Diagnostic

/-- Whether a TLS context asks the peer for a certificate. -/
inductive VerifyMode
  | none
  | peer
deriving DecidableEq, Repr

/-- The number of a mode. -/
def VerifyMode.number : VerifyMode → Nat
  | .none => 0
  | .peer => 1

namespace Manager

/-- The host name of a manager: a text that is not empty. -/
def hostnameArgument : Value → Except Failure String
  | .armor lead _ => .ok (lead ++ Armor.certificateMark)
  | .str s => if s.isEmpty then .error (.invalidHostname (.str s)) else .ok s
  | v => .error (.invalidHostname v)

/-! ### The handshake -/

/-- No issuers are suggested to the peer. -/
def acceptedIssuers : List Name := []

/-- **Prepares a TLS context,** which asks the peer for a certificate from then on.
Gives the number of the context and its mode. -/
def prepare : Value → Except Failure (Nat × VerifyMode)
  | .context id => .ok (id, .peer)
  | v => .error (.wrongClass v .context)

/-- The number names an error of the TLS library that has an explanation. -/
def isKnownCode (code : Value) : Bool :=
  (code.whole?.bind VerifyCode.explanation?).isSome

/-- **Takes note of a call back,** and always lets the handshake go on. -/
def record (m : Manager) (certificate code depth : Value) : Except Failure (Manager × Bool) :=
  if !code.isHashable then .error .misuse
  else if isKnownCode code then
    .ok ({ m with diagnostics := m.diagnostics ++ [⟨certificate, code, depth⟩] }, true)
  else .ok (m, true)

/-! ### The decision -/

/-- **Decides on a chain** and fails unless it is trusted. -/
def check (env : Environment) (holders : Holders) (m : Manager) (chain reference : Value) :
    Traced Verdict :=
  m.evaluator.demandTrust env holders ⟨chain, .str m.hostname, .null, reference⟩

/-- The certificates of the peer: its chain, or else its certificate alone. There
may be none. -/
def peerCertificates (chain leaf : Value) : Except Failure (Option Value) :=
  if chain.isTruthy then
    match chain.countedItems? with
    | some items => .ok (some (.list items))
    | none => .error .misuse
  else
    match leaf with
    | .null => .ok none
    | leaf => .ok (some (.list [leaf]))

/-- **Decides on the peer of a connection,** given its chain and its certificate. -/
def verifyConnection (env : Environment) (holders : Holders) (m : Manager)
    (chain leaf reference : Value) : Traced Verdict := do
  match ← .ofExcept (peerCertificates chain leaf) with
  | none => .fail (.trust (.noPeerCertificate m.hostname))
  | some certificates => m.check env holders certificates reference

end Manager
end PeerTrust
