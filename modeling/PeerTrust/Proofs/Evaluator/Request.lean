/-
  `Proofs.Evaluator.Request` — what a request asks, and what an evaluation then does.

  `Request.Asks` relates a request to the chain, the target, the policy and the
  clock reading that its values stand for. An evaluation depends on a request
  only through this relation (`evaluate_eq_decide`), and it gives no verdict on a
  request outside of it (`exists_asks_of_evaluate`). What is proved about
  requests therefore holds in whatever forms the certificates are passed.
-/
import PeerTrust.Proofs.Armor
import PeerTrust.Proofs.Check

namespace PeerTrust

open Traced

/-! ### Well-formed requests -/

namespace Request

/-- **What a request asks:** a verdict on a chain for a target, with a policy and a clock
reading of its own if it has them. -/
structure Asks (r : Request) (chain : Chain) (target : String) (override : Option Policy)
    (reading : Option Reading) : Prop where
  chain_eq : r.chain.presentedChain = .ok chain
  target_eq : r.targetText = .ok target
  policy_eq : policyOverride r.policy = .ok override
  reading_eq : referenceReading r.reference = .ok reading

/-- The request that passes the certificates of a chain as objects of one kind. -/
def ofParts (form : CertificateForm) (chain : Chain) (target : String)
    (override : Option Policy) (reading : Option Reading) : Request :=
  ⟨.list (chain.toList.map (.certificate form)), .str target, override.elim .null .policy,
    reading.elim .null .dateTime⟩

theorem mapM_presentedCertificate (form : CertificateForm) (cs : List Certificate) :
    (cs.map (Value.certificate form)).mapM Value.presentedCertificate = .ok cs := by
  induction cs with
  | nil => rfl
  | cons c rest ih =>
    have hc : (Value.certificate form c).presentedCertificate = .ok c := by cases form <;> rfl
    rw [List.map_cons, List.mapM_cons, hc, ih]
    rfl

/-- **Every chain can be asked about,** for every target that is not empty, in every kind of
object and with or without a policy and a reading. -/
theorem asks_ofParts (form : CertificateForm) (chain : Chain) {target : String}
    (htarget : target ≠ "") (override : Option Policy) (reading : Option Reading) :
    (ofParts form chain target override reading).Asks chain target override reading where
  chain_eq := by
    unfold ofParts Value.presentedChain
    simp only [mapM_presentedCertificate, bind, Except.bind]
    rfl
  target_eq := by
    have hempty : target.isEmpty = false := by simpa using htarget
    simp [ofParts, targetText, hempty]
  policy_eq := by cases override <;> rfl
  reading_eq := by cases reading <;> rfl

end Request

/-! ### Failures of requests -/

/-- The failure is about what a request passes: its class, or that it is empty or unreadable. -/
def Failure.concernsRequest : Failure → Bool
  | .wrongClass _ _ | .emptyTarget | .emptyChain | .unreadableCertificate | .invalidVersion
  | .textNotAscii => true
  | _ => false

/-- What fails over what a request passes, fails with that failure. -/
theorem Failure.concernsRequest_of_error {α : Type} {f g : Failure}
    (h : (.error g : Except Failure α) = .error f) (hg : g.concernsRequest = true) :
    f.concernsRequest = true :=
  Except.error.inj h ▸ hg

namespace Value

variable {v : Value} {f : Failure}

/-- **Why a value presents no certificate:** its class is none of those that do, a text is not
ASCII, no certificate can be read from it, or one that has no version of certificates. -/
inductive Refused (v : Value) : Failure → Prop
  | wrongClass : Refused v (.wrongClass v .certificate)
  | notAscii : Refused v .textNotAscii
  | unreadable : Refused v .unreadableCertificate
  | misversioned : Refused v .invalidVersion

theorem Refused.concernsRequest (h : v.Refused f) : f.concernsRequest = true := by
  cases h <;> rfl

theorem refused_of_certificateOfText {isAscii : Bool} {content : Content}
    (h : certificateOfText isAscii content = .error f) : v.Refused f := by
  rw [certificateOfText] at h
  cases isAscii with
  | false =>
    obtain rfl := Except.error.inj h
    exact .notAscii
  | true =>
    rw [if_pos rfl] at h
    cases hread : content.certificate with
    | ok c =>
      rw [hread] at h
      cases h
    | error fault =>
      rw [hread] at h
      obtain rfl := Except.error.inj h
      rcases content.fault_of_certificate hread with rfl | rfl
      · exact .unreadable
      · exact .misversioned

/-- **A value that presents no certificate is refused** for one of these reasons. -/
theorem refused_of_presentedCertificate (h : v.presentedCertificate = .error f) :
    v.Refused f := by
  have hclass : v.decodeCertificate = .error (.wrongClass v .certificate) →
      v.presentedCertificate = v.decodeCertificate → v.Refused f := by
    intro hdecode hsame
    rw [hsame, hdecode] at h
    obtain rfl := Except.error.inj h
    exact .wrongClass
  cases v with
  | certificate form c => cases form <;> cases h
  | str s => exact refused_of_certificateOfText h
  | armor lead c => exact refused_of_certificateOfText h
  | bytes content =>
    have htext : certificateOfText true content = .error f := h
    exact refused_of_certificateOfText htext
  | _ => exact hclass rfl rfl

/-- **A chain that cannot be presented** is of the wrong class, empty, or has a member that is not
a certificate. -/
theorem concernsRequest_of_presentedChain (h : v.presentedChain = .error f) :
    f.concernsRequest = true := by
  have hmembers : ∀ items : List Value, items.mapM presentedCertificate = .error f →
      f.concernsRequest = true := by
    intro items
    induction items with
    | nil => exact nofun
    | cons item rest ih =>
      intro hitems
      rw [List.mapM_cons] at hitems
      rcases bind_eq_error_iff.mp hitems with hitem | ⟨c, -, hitems⟩
      · exact (refused_of_presentedCertificate hitem).concernsRequest
      · rcases bind_eq_error_iff.mp hitems with hrest | ⟨cs, -, hpure⟩
        · exact ih hrest
        · cases hpure
  have hlist : ∀ items : List Value, (Value.list items).presentedChain = .error f →
      f.concernsRequest = true := by
    intro items hitems
    have hbind : (items.mapM presentedCertificate >>= fun cs => _) = .error f := hitems
    rcases bind_eq_error_iff.mp hbind with hfails | ⟨cs, -, hempty⟩
    · exact hmembers items hfails
    · cases hchain : Chain.ofList? cs with
      | some chain =>
        simp only [hchain] at hempty
        cases hempty
      | none =>
        simp only [hchain] at hempty
        exact Failure.concernsRequest_of_error hempty rfl
  cases v with
  | list items => exact hlist items h
  | tuple items => exact hlist items h
  | _ => exact Failure.concernsRequest_of_error h rfl

end Value

namespace Request

variable {r : Request} {f : Failure}

theorem concernsRequest_of_targetText (h : r.targetText = .error f) :
    f.concernsRequest = true := by
  obtain ⟨chain, target, policy, reference⟩ := r
  cases target with
  | str s =>
    cases hempty : s.isEmpty with
    | true =>
      simp only [targetText, hempty, if_true] at h
      exact Failure.concernsRequest_of_error h rfl
    | false =>
      simp only [targetText, hempty, Bool.false_eq_true, if_false] at h
      cases h
  | armor lead c => cases h
  | _ => exact Failure.concernsRequest_of_error h rfl

theorem concernsRequest_of_policyOverride {v : Value} (h : policyOverride v = .error f) :
    f.concernsRequest = true := by
  cases v with
  | null => cases h
  | policy p => cases h
  | _ => exact Failure.concernsRequest_of_error h rfl

theorem concernsRequest_of_referenceReading {v : Value} (h : referenceReading v = .error f) :
    f.concernsRequest = true := by
  cases v with
  | null => cases h
  | dateTime reading => cases h
  | _ => exact Failure.concernsRequest_of_error h rfl

end Request

/-! ### From a request to a decision -/

namespace Evaluator

variable {env : Environment} {holders : Holders} {ev : Evaluator} {r : Request} {chain : Chain}
  {target : String} {override : Option Policy} {reading : Option Reading}

/-- **An evaluation is the decision on what the request asks.** -/
theorem evaluate_eq_decide (h : r.Asks chain target override reading) :
    ev.evaluate env holders r =
      ev.decide (ev.rootsIn holders) (override.getD ev.policy) chain target
        (reading.getD (.ofInstant env.now)) := by
  rw [evaluate, h.target_eq, h.policy_eq, h.reading_eq, h.chain_eq]
  simp only [ofExcept_ok_bind]

/-- **A request that asks nothing fails at once,** before anything is reported, and it fails over
what it passes. -/
theorem exists_asks_or_evaluate_eq_fail (env : Environment) (holders : Holders) (ev : Evaluator)
    (r : Request) :
    (∃ chain target override reading, r.Asks chain target override reading) ∨
      ∃ f, ev.evaluate env holders r = fail f ∧ f.concernsRequest = true := by
  unfold evaluate
  cases htarget : r.targetText with
  | error f => exact Or.inr ⟨f, rfl, Request.concernsRequest_of_targetText htarget⟩
  | ok target =>
    cases hpolicy : Request.policyOverride r.policy with
    | error f => exact Or.inr ⟨f, rfl, Request.concernsRequest_of_policyOverride hpolicy⟩
    | ok override =>
      cases hreading : Request.referenceReading r.reference with
      | error f => exact Or.inr ⟨f, rfl, Request.concernsRequest_of_referenceReading hreading⟩
      | ok reading =>
        cases hchain : r.chain.presentedChain with
        | error f => exact Or.inr ⟨f, rfl, Value.concernsRequest_of_presentedChain hchain⟩
        | ok chain =>
          exact Or.inl ⟨chain, target, override, reading, hchain, htarget, hpolicy, hreading⟩

/-- **A verdict is given only on a well-formed request.** -/
theorem exists_asks_of_evaluate {v : Verdict} (h : (ev.evaluate env holders r).outcome = .ok v) :
    ∃ chain target override reading, r.Asks chain target override reading := by
  refine (exists_asks_or_evaluate_eq_fail env holders ev r).resolve_right ?_
  rintro ⟨f, hf, -⟩
  rw [hf] at h
  cases h

/-- An evaluator has roots at every moment exactly if it has a source of them. -/
theorem rootsIn_ne_none_iff (ev : Evaluator) (holders : Holders) :
    ev.rootsIn holders ≠ none ↔ ev.source ≠ none := by
  rw [rootsIn, ne_eq, Option.map_eq_none_iff]

/-! ### From a decision to its checks -/

/-- What the checks of a decision look at. -/
def contextOf (ev : Evaluator) (roots : Option RootSet) (policy : Policy) (chain : Chain)
    (target identity : String) (t : Instant) : CheckContext :=
  ⟨chain, target, identity, policy, .ofInstant t, roots, ev.observer.map .callable⟩

/-- The observer of the evaluator, if there is one, returns. -/
def ObserverReturns (ev : Evaluator) : Prop :=
  ∀ react, ev.observer = some react → ∀ identity, react identity = .ok ()

theorem returns_of_observerReturns (h : ev.ObserverReturns) :
    Observer.Returns (ev.observer.map .callable) := by
  intro identity
  cases hobserver : ev.observer with
  | none => rfl
  | some react =>
    rw [Option.map_some, Observer.tell, outcome_note_bind, outcome_ofExcept]
    exact h react hobserver identity

variable {roots : Option RootSet} {policy : Policy} {clock : Reading} {identity : String}
  {t : Instant}

/-- What a decision tests first: there are roots, or the policy does not ask for them. -/
theorem verifyRoot_and_isNone_eq_false_iff :
    (policy.verifyRoot && roots.isNone) = false ↔ (policy.verifyRoot = true → roots ≠ none) := by
  cases policy.verifyRoot <;> cases roots <;> simp

/-- **A decision reads the identity and runs the checks.** The roots have to be there if
the policy asks for them, and the reading has to denote an instant. -/
theorem decide_eq_bind (hroots : policy.verifyRoot = true → roots ≠ none)
    (ht : clock.toUtc? = some t) :
    ev.decide roots policy chain target clock =
      chain.leaf.peerIdentity >>= fun identity =>
        (ev.contextOf roots policy chain target identity t).judge := by
  have hguard := verifyRoot_and_isNone_eq_false_iff.mpr hroots
  simp only [decide, hguard, Bool.false_eq_true, if_false, ht, contextOf]

/-- **What a decision that gives a verdict has found:** roots where they are needed, an
instant, and an identity. -/
theorem of_decide_eq_ok {v : Verdict}
    (h : (ev.decide roots policy chain target clock).outcome = .ok v) :
    (policy.verifyRoot = true → roots ≠ none) ∧
      ∃ identity t, clock.toUtc? = some t ∧ chain.leaf.peerIdentity.outcome = .ok identity := by
  unfold decide at h
  by_cases hguard : (policy.verifyRoot && roots.isNone) = true
  · rw [if_pos hguard] at h
    cases h
  · rw [if_neg hguard] at h
    obtain ⟨identity, hidentity, h⟩ := outcome_bind_eq_ok_iff.mp h
    cases ht : clock.toUtc? with
    | none =>
      rw [ht] at h
      cases h
    | some t =>
      exact ⟨verifyRoot_and_isNone_eq_false_iff.mp (Bool.eq_false_iff.mpr hguard), identity,
        t, rfl, hidentity⟩

/-! ### From a request to its checks -/

/-- **An evaluation of a well-formed request reads the identity and runs the checks,** if
the evaluator has the roots that the policy in force asks for. -/
theorem evaluate_eq_bind (hasks : r.Asks chain target override reading)
    (hroots : (override.getD ev.policy).verifyRoot = true → ev.source ≠ none)
    (ht : (reading.getD (.ofInstant env.now)).toUtc? = some t) :
    ev.evaluate env holders r = chain.leaf.peerIdentity >>= fun identity =>
      (ev.contextOf (ev.rootsIn holders) (override.getD ev.policy) chain target identity
        t).judge := by
  rw [evaluate_eq_decide hasks]
  exact decide_eq_bind (fun hp => (ev.rootsIn_ne_none_iff holders).mpr (hroots hp)) ht

theorem outcome_evaluate (hasks : r.Asks chain target override reading)
    (hroots : (override.getD ev.policy).verifyRoot = true → ev.source ≠ none)
    (ht : (reading.getD (.ofInstant env.now)).toUtc? = some t)
    (hidentity : chain.leaf.peerIdentity.outcome = .ok identity) :
    (ev.evaluate env holders r).outcome =
      (ev.contextOf (ev.rootsIn holders) (override.getD ev.policy) chain target identity
        t).judge.outcome := by
  rw [evaluate_eq_bind hasks hroots ht, outcome_bind_of_ok hidentity]

/-- **What an evaluation that gives a verdict has gone through.** The request was well
formed, the roots were there if they were asked for, and the verdict is the one of the
checks, whose events are events of the evaluation. -/
theorem of_evaluate_eq_ok {v : Verdict} (h : (ev.evaluate env holders r).outcome = .ok v) :
    ∃ chain target override reading identity t, r.Asks chain target override reading ∧
      ((override.getD ev.policy).verifyRoot = true → ev.source ≠ none) ∧
      (reading.getD (.ofInstant env.now)).toUtc? = some t ∧
      chain.leaf.peerIdentity.outcome = .ok identity ∧
      (ev.contextOf (ev.rootsIn holders) (override.getD ev.policy) chain target identity
        t).judge.outcome = .ok v ∧
      (ev.contextOf (ev.rootsIn holders) (override.getD ev.policy) chain target identity
        t).judge.events ⊆ (ev.evaluate env holders r).events := by
  obtain ⟨chain, target, override, reading, hasks⟩ := exists_asks_of_evaluate h
  have hdecide := h
  rw [evaluate_eq_decide hasks] at hdecide
  obtain ⟨hneeded, identity, t, ht, hidentity⟩ := of_decide_eq_ok hdecide
  have hroots := fun hp => (ev.rootsIn_ne_none_iff holders).mp (hneeded hp)
  rw [outcome_evaluate hasks hroots ht hidentity] at h
  refine ⟨chain, target, override, reading, identity, t, hasks, hroots, ht, hidentity, h, ?_⟩
  rw [evaluate_eq_bind hasks hroots ht, events_bind_of_ok hidentity]
  exact List.subset_append_right _ _

/-! ### Reaching the checks -/

/-- **The evaluation reaches its checks, in the given context:** the request is well formed,
the roots are there if the policy in force asks for them, the reading denotes an instant, and
the leaf claims an identity. The roots of the context are those of this moment. -/
inductive Reaches (env : Environment) (holders : Holders) (ev : Evaluator) (r : Request) :
    CheckContext → Prop
  | intro {chain : Chain} {target identity : String} {override : Option Policy}
      {reading : Option Reading} {t : Instant} (asks : r.Asks chain target override reading)
      (rooted : (override.getD ev.policy).verifyRoot = true → ev.source ≠ none)
      (clock : (reading.getD (.ofInstant env.now)).toUtc? = some t)
      (claimed : chain.leaf.peerIdentity.outcome = .ok identity) :
      Reaches env holders ev r (ev.contextOf (ev.rootsIn holders) (override.getD ev.policy) chain
        target identity t)

variable {ctx : CheckContext}

/-- **From its checks on, an evaluation is the judgement of their context.** Only the reports
about the identity come before it. -/
theorem Reaches.evaluate_eq (h : ev.Reaches env holders r ctx) :
    (ev.evaluate env holders r).outcome = ctx.judge.outcome ∧
      (ev.evaluate env holders r).events =
        ctx.chain.leaf.peerIdentity.events ++ ctx.judge.events := by
  cases h with
  | intro asks rooted clock claimed =>
    rw [evaluate_eq_bind asks rooted clock]
    exact ⟨outcome_bind_of_ok claimed _, events_bind_of_ok claimed _⟩

/-- The observer of the context is that of the evaluator. -/
theorem Reaches.observer_eq (h : ev.Reaches env holders r ctx) :
    ctx.observer = ev.observer.map .callable := by
  cases h
  rfl

/-- The reference of the context shows UTC. -/
theorem Reaches.exists_reference (h : ev.Reaches env holders r ctx) :
    ∃ t, ctx.reference = .ofInstant t := by
  cases h
  exact ⟨_, rfl⟩

/-- An evaluation that gives a verdict has reached its checks. -/
theorem exists_reaches_of_evaluate {v : Verdict}
    (h : (ev.evaluate env holders r).outcome = .ok v) : ∃ ctx, ev.Reaches env holders r ctx := by
  obtain ⟨chain, target, override, reading, identity, t, hasks, hroots, ht, hidentity, -⟩ :=
    of_evaluate_eq_ok h
  exact ⟨_, .intro hasks hroots ht hidentity⟩

end Evaluator

/-! ### Certificates for instances -/

namespace Sample

/-- A certificate between two common names, valid from the first moment of the calendar for
one day. Keys are told apart by their labels. -/
def certificate (subject issuer key signedBy : String) : Certificate where
  subject := .ofCommonName subject
  issuer := .ofCommonName issuer
  key := ⟨.ed25519, key⟩
  signedBy := ⟨.ed25519, signedBy⟩
  notBefore := .origin
  notAfter := ⟨microsPerDay, by decide⟩
  serial := 1
  extensions := []
  tampering := none

/-- A root that signs itself. -/
def root : Certificate := certificate "Root" "Root" "root" "root"

/-- The root's certificate for a host. -/
def leaf : Certificate := certificate "chat.example.com" "Root" "leaf" "root"

/-- A certificate for the same host that names the root, with another key's signature. -/
def forged : Certificate := certificate "chat.example.com" "Root" "leaf" "mallory"

/-- The root's certificate with a subject that nobody can read. -/
def blurred : Certificate :=
  { root with subject := ⟨[[⟨Oid.commonName, .octets [0xFF], .utf8⟩]]⟩ }

/-- The forged certificate below the root. -/
def forgedChain : Chain := ⟨forged, [root]⟩

/-- The set that holds the root alone. -/
def roots : RootSet := ⟨[root], by simp, none⟩

/-- An empty working directory at the first moment of the calendar. -/
def env : Environment := ⟨.origin, ⟨[], []⟩, "certifi.pem", "home"⟩

/-- A working directory with one file. -/
def withFile (content : Content) : Environment :=
  { env with files := ⟨[], [(["roots.pem"], .file content)]⟩ }

/-- What the checks look at for the host, where a chain claims an identity. There are no roots
and no observer. -/
def context (chain : Chain) (identity : String) : CheckContext :=
  ⟨chain, "chat.example.com", identity, .standard, .ofInstant .origin, none, none⟩

end Sample
end PeerTrust
