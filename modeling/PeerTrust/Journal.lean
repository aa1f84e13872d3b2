/-
  `Journal` — actions that leave a record.

  A `Traced α` is an action that ends with a value or a failure and on the way
  makes reports and calls an observer. The events are kept in order, also those
  that came before a failure. There is no other effect: whatever an action reads
  is an argument of it.

  Reports are told apart by what they report (`Report`); how loud each is, which
  channel it goes to and how it is worded follows from that.

  A `Stateful σ α` is such an action on a state. It gives the state after it in
  any case: a change that was made before a failure is not taken back.
-/
import PeerTrust.Expiry
import PeerTrust.Failure

namespace PeerTrust

/-! ### Reports -/

/-- What is worth a report. -/
inductive Report
  | altNamesIgnored
  | xmppAddressIgnored
  | issuerMismatch (target : String) (depth : Nat) (issuer subject : Name)
  | signatureMismatch (target : String) (depth : Nat) (issuer : Name)
  | rootNotFound (target : String) (root : Name)
  | identityMismatch (target identity : String)
  | notYetValid (target : String) (depth : Nat) (subject : Name) (notBefore : Instant)
  | noLongerValid (target : String) (depth : Nat) (subject : Name) (notAfter seenAt : Instant)
  | selfSignedAccepted (identity : String) (target : Option String)
  | rejected (target : String) (check : CheckName) (error : TrustErrorKind)
  | trusted (target identity : String) (checks : List CheckName)
  | rootsLoaded (count : Nat) (type : StoreType) (path : String)
  | rootsReplaced (before after : RootSet)
  | rootCheckDisabled (error : StoreLoadError)

/-- How loud a report is. -/
inductive Level
  | info
  | warning
deriving DecidableEq, Repr

/-- The name of a level. -/
def Level.name : Level → String
  | .info => "INFO"
  | .warning => "WARNING"

/-- Where a report goes. -/
inductive Channel
  | util
  | chainCheck
  | rootCheck
  | identityCheck
  | validityCheck
  | audit
  | evaluator
  | store
  | config
deriving DecidableEq, Repr

/-- The name of a channel. -/
def Channel.name : Channel → String
  | .util => "servertrust.util"
  | .chainCheck => "servertrust.checks.chain"
  | .rootCheck => "servertrust.checks.root"
  | .identityCheck => "servertrust.checks.identity"
  | .validityCheck => "servertrust.checks.validity"
  | .audit => "servertrust.audit"
  | .evaluator => "servertrust.evaluator"
  | .store => "servertrust.truststore"
  | .config => "servertrust.config"

namespace Report

/-- A decision in favour of a peer and changes of the trusted roots are for
information; everything else is a warning. -/
def level : Report → Level
  | .trusted _ _ _ | .rootsLoaded _ _ _ | .rootsReplaced _ _ => .info
  | _ => .warning

/-- The channel of a report. -/
def channel : Report → Channel
  | .altNamesIgnored | .xmppAddressIgnored => .util
  | .issuerMismatch _ _ _ _ | .signatureMismatch _ _ _ => .chainCheck
  | .rootNotFound _ _ => .rootCheck
  | .identityMismatch _ _ => .identityCheck
  | .notYetValid _ _ _ _ | .noLongerValid _ _ _ _ _ => .validityCheck
  | .selfSignedAccepted _ _ => .audit
  | .rejected _ _ _ | .trusted _ _ _ => .evaluator
  | .rootsLoaded _ _ _ | .rootsReplaced _ _ => .store
  | .rootCheckDisabled _ => .config

/-- The text of a depth in a chain. -/
def atDepth (target : String) (depth : Nat) : String :=
  target ++ " depth " ++ toString depth ++ " "

/-- **The words of a report.** -/
def text : Report → String
  | .altNamesIgnored => "Malformed subjectAltName ignored"
  | .xmppAddressIgnored => "Malformed id-on-xmppAddr value ignored"
  | .issuerMismatch target depth issuer subject =>
    atDepth target depth ++ "issuer " ++ issuer.render ++ " does not match subject " ++
      subject.render
  | .signatureMismatch target depth issuer =>
    atDepth target depth ++ "signature does not verify against " ++ issuer.render
  | .rootNotFound target root =>
    target ++ " root " ++ root.render ++ " (" ++ Certificate.fingerprintMark ++
      ") not found in trusted roots"
  | .identityMismatch target identity =>
    target ++ " does not match certificate identity " ++ identity
  | .notYetValid target depth subject notBefore =>
    atDepth target depth ++ subject.render ++ " not valid before " ++ notBefore.isoText
  | .noLongerValid target depth subject notAfter seenAt =>
    atDepth target depth ++ subject.render ++ " " ++ Expiry.describe notAfter seenAt
  | .selfSignedAccepted identity _ =>
    "Accepting self-signed certificate of remote server: " ++ identity
  | .rejected target check error =>
    target ++ " rejected by " ++ check.text ++ ": " ++ error.name
  | .trusted target identity checks =>
    target ++ " trusted peer " ++ identity ++ " after " ++
      (if checks.isEmpty then "no checks" else ",".intercalate (checks.map CheckName.text))
  | .rootsLoaded count type path =>
    "Loaded " ++ toString count ++ " trusted roots from " ++ type.text ++ " store " ++ path
  | .rootsReplaced before after =>
    "Trusted roots replaced " ++ before.display ++ " -> " ++ after.display
  | .rootCheckDisabled error =>
    error.message ++ "; root certificate checking is DISABLED because " ++
      "truststore.on_load_error is " ++ OnLoadError.text .disableRootCheck

end Report

/-! ### Events and actions -/

/-- An event: a report, or a call of the observer with a peer's identity. -/
inductive Event
  | report (r : Report)
  | observed (identity : String)

/-- An action: the events on its way and its end. -/
structure Traced (α : Type) where
  events : List Event
  outcome : Except Failure α

namespace Traced

variable {α β : Type}

/-- The action that ends with a value at once. -/
protected def pure (a : α) : Traced α := ⟨[], .ok a⟩

/-- One action after another; a failure ends both. -/
protected def bind (x : Traced α) (f : α → Traced β) : Traced β :=
  match x.outcome with
  | .error e => ⟨x.events, .error e⟩
  | .ok a => ⟨x.events ++ (f a).events, (f a).outcome⟩

instance : Monad Traced where
  pure := Traced.pure
  bind := Traced.bind

/-- The action that fails. -/
def fail (e : Failure) : Traced α := ⟨[], .error e⟩

/-- The action that makes one report. -/
def report (r : Report) : Traced Unit := ⟨[.report r], .ok ()⟩

/-- The action that leaves one event. -/
def note (e : Event) : Traced Unit := ⟨[e], .ok ()⟩

/-- The action without events. -/
def ofExcept (x : Except Failure α) : Traced α := ⟨[], x⟩

/-- The reports among the events. -/
def reports (x : Traced α) : List Report := x.events.filterMap fun
  | .report r => some r
  | .observed _ => none

/-- The identities that the observer was called with. -/
def observations (x : Traced α) : List String := x.events.filterMap fun
  | .report _ => none
  | .observed identity => some identity

/-- **Turns a verdict against the peer into a value.** Other failures pass. -/
def catchTrust (x : Traced α) : Traced (Except TrustError α) :=
  match x.outcome with
  | .ok a => ⟨x.events, .ok (.ok a)⟩
  | .error (.trust e) => ⟨x.events, .ok (.error e)⟩
  | .error e => ⟨x.events, .error e⟩

/-- Turns a failure to load trusted roots into a value. Other failures pass. -/
def catchStoreLoad (x : Traced α) : Traced (Except StoreLoadError α) :=
  match x.outcome with
  | .ok a => ⟨x.events, .ok (.ok a)⟩
  | .error (.storeLoad e) => ⟨x.events, .ok (.error e)⟩
  | .error e => ⟨x.events, .error e⟩

instance : LawfulMonad Traced := LawfulMonad.mk' Traced
  (fun x => by
    obtain ⟨events, outcome⟩ := x
    cases outcome <;> simp [Functor.map, Traced.bind, Traced.pure])
  (fun a f => by
    simp [bind, pure, Traced.bind, Traced.pure])
  (fun x f g => by
    obtain ⟨events, outcome⟩ := x
    cases outcome with
    | error e => rfl
    | ok a =>
      simp only [bind, Traced.bind]
      cases (f a).outcome <;> simp [List.append_assoc])

end Traced

/-! ### Actions on a state -/

/-- **An action on a state:** the state after it, and its events and its end. What it has changed
before it fails stays changed. -/
def Stateful (σ α : Type) := σ → σ × Traced α

namespace Stateful

variable {σ α β : Type}

/-- The action that ends with a value at once. -/
protected def pure (a : α) : Stateful σ α := fun s => (s, return a)

/-- One action after another, in the state that the first one leaves; a failure ends both. -/
protected def bind (x : Stateful σ α) (f : α → Stateful σ β) : Stateful σ β := fun s =>
  let (between, first) := x s
  match first.outcome with
  | .error e => (between, ⟨first.events, .error e⟩)
  | .ok a =>
    let (after, second) := f a between
    (after, ⟨first.events ++ second.events, second.outcome⟩)

instance : Monad (Stateful σ) where
  pure := Stateful.pure
  bind := Stateful.bind

/-- The action that reads the state. -/
def get : Stateful σ σ := fun s => (s, return s)

/-- The action that changes the state. -/
def modify (f : σ → σ) : Stateful σ Unit := fun s => (f s, return ())

/-- The action that has nothing to do with the state. -/
def ofTraced (x : Traced α) : Stateful σ α := fun s => (s, x)

end Stateful
end PeerTrust
