/-
  `Proofs.Session.Handshake` — the TLS library has no say in a decision.

  Call backs and earlier decisions leave a session alike (`Session.Alike`): nothing
  changes but what managers remember of the handshake, and no decision reads that. So
  the decision about a connection is that of a manager that remembers nothing, and it
  is the evaluator's verdict on the certificates of the connection, raised if it is
  against the peer (`Traced.DecidedBy`). `Alike.afterCall` is the step, and
  `alike_handshake` carries it through a handshake by induction over the calls.
-/
import PeerTrust.Proofs.Evaluator.Totality
import PeerTrust.Proofs.Session.Step

namespace PeerTrust

open Traced

/-! ### Connections -/

/-- **What a connection tells about its peer:** a chain, if it has one, and a certificate, if it
has one. Either may be there without the other. -/
structure Connection where
  chain : Option (List Value)
  leaf : Option Value
  leaf_ne_null : leaf ≠ some .null

namespace Connection

/-- The chain as a value. -/
def chainValue (peer : Connection) : Value := peer.chain.elim .null .list

/-- The certificate as a value. -/
def leafValue (peer : Connection) : Value := peer.leaf.getD .null

/-- **The certificates of a connection:** its chain unless that is empty, or else its
certificate alone. -/
def certificates (peer : Connection) : List Value :=
  match peer.chain with
  | some (c :: rest) => c :: rest
  | _ => peer.leaf.toList

/-- The certificates that a manager finds are those of the connection. -/
theorem peerCertificates_eq (peer : Connection) :
    Manager.peerCertificates peer.chainValue peer.leafValue =
      .ok (if peer.certificates = [] then none else some (.list peer.certificates)) := by
  obtain ⟨chain, leaf, hleaf⟩ := peer
  have halone : Manager.peerCertificates .null (leaf.getD .null) =
      .ok (if leaf.toList = [] then none else some (.list leaf.toList)) := by
    cases leaf with
    | none => rfl
    | some v =>
      cases v with
      | null => exact absurd rfl hleaf
      | _ => rfl
  cases chain with
  | none => exact halone
  | some items =>
    cases items with
    | nil => exact halone
    | cons c rest => rfl

end Connection

/-! ### Decisions of managers -/

namespace Traced

/-- **The decision is that of an evaluation.** Both leave the same events. A verdict in favour of
the peer comes back, one against it is raised as its error, and a failure of the evaluation is
the failure of the decision. -/
structure DecidedBy (x asked : Traced Verdict) : Prop where
  events_eq : x.events = asked.events
  trusted_iff : ∀ v, x.outcome = .ok v ↔ asked.outcome = .ok v ∧ v.trusted = true
  rejected_iff : ∀ e, x.outcome = .error (.trust e) ↔
    ∃ v, asked.outcome = .ok v ∧ v.trusted = false ∧ v.error = some e
  failed_iff : ∀ f, asked.outcome = .error f ↔ x.outcome = .error f ∧ ∀ e, f ≠ .trust e

end Traced

namespace Evaluator

variable {env : Environment} {holders : Holders} {ev : Evaluator} {r : Request} {v : Verdict}

/-- A verdict is in favour of the peer exactly if it carries no error. -/
theorem trusted_eq_isNone (h : (ev.evaluate env holders r).outcome = .ok v) :
    v.trusted = v.error.isNone := by
  obtain ⟨ctx, hreaches⟩ := exists_reaches_of_evaluate h
  rw [hreaches.evaluate_eq.1] at h
  exact (CheckContext.of_judge_eq_ok h).2

/-- Demanding trust leaves no events of its own. -/
theorem events_demandTrust (env : Environment) (holders : Holders) (ev : Evaluator) (r : Request) :
    (ev.demandTrust env holders r).events = (ev.evaluate env holders r).events := by
  rw [demandTrust]
  cases h : (ev.evaluate env holders r).outcome with
  | error f => rw [events_bind_of_error h]
  | ok v =>
    rw [events_bind_of_ok h]
    cases v.error <;> exact List.append_nil _

/-- **To demand trust is to evaluate,** with a verdict against the peer raised as its error. -/
theorem decidedBy_demandTrust (env : Environment) (holders : Holders) (ev : Evaluator)
    (r : Request) : (ev.demandTrust env holders r).DecidedBy (ev.evaluate env holders r) := by
  have hevents := events_demandTrust env holders ev r
  cases h : (ev.evaluate env holders r).outcome with
  | error f =>
    have hundecided : ∀ e, f ≠ .trust e := fun e he =>
      undecided_evaluate env holders ev r e (by rw [h, he])
    have hdemanded : (ev.demandTrust env holders r).outcome = .error f := by
      rw [demandTrust, outcome_bind_of_error h]
    refine ⟨hevents, ?_, ?_, ?_⟩
    · simp [h, hdemanded]
    · simp [h, hdemanded, hundecided]
    · rw [h, hdemanded]
      exact fun g => ⟨fun hg => ⟨hg, Except.error.inj hg ▸ hundecided⟩, fun hg => hg.1⟩
  | ok v =>
    have hfavour := trusted_eq_isNone h
    rcases answers_demandTrust h with ⟨hnone, hdemanded⟩ | ⟨e, hsome, hdemanded⟩
    · have htrusted : v.trusted = true := by rw [hfavour, hnone]; rfl
      refine ⟨hevents, ?_, ?_, ?_⟩
      · rw [h, hdemanded]
        exact fun w => ⟨fun hw => ⟨hw, Except.ok.inj hw ▸ htrusted⟩, fun hw => hw.1⟩
      · simp [h, hdemanded, htrusted]
      · simp [h, hdemanded]
    · have huntrusted : v.trusted = false := by rw [hfavour, hsome]; rfl
      refine ⟨hevents, ?_, ?_, ?_⟩
      · simp only [h, hdemanded, reduceCtorEq, Except.ok.injEq, false_iff, not_and]
        rintro w rfl
        simp [huntrusted]
      · simp [h, hdemanded, huntrusted, hsome]
      · rintro f
        simp only [h, hdemanded, reduceCtorEq, Except.error.injEq, false_iff, not_and]
        rintro rfl hundecided
        exact hundecided e rfl

end Evaluator

namespace Manager

/-- **The manager that remembers nothing,** for the same host and with the same evaluator. -/
def fresh (m : Manager) : Manager := { m with diagnostics := [] }

/-- A decision does not depend on what the manager remembers. -/
theorem verifyConnection_fresh (env : Environment) (holders : Holders) (m : Manager)
    (chain leaf reference : Value) :
    m.fresh.verifyConnection env holders chain leaf reference =
      m.verifyConnection env holders chain leaf reference :=
  rfl

/-- **A call back changes what is remembered at most,** and lets the handshake go on. -/
theorem fresh_of_record {m after : Manager} {certificate code depth : Value} {goesOn : Bool}
    (h : m.record certificate code depth = .ok (after, goesOn)) :
    after.fresh = m.fresh ∧ goesOn = true := by
  unfold record at h
  by_cases hhashable : code.isHashable = true
  · simp only [hhashable, Bool.not_true, Bool.false_eq_true, if_false] at h
    split at h
    · obtain ⟨rfl, rfl⟩ := Prod.mk.inj (Except.ok.inj h)
      exact ⟨rfl, rfl⟩
    · obtain ⟨rfl, rfl⟩ := Prod.mk.inj (Except.ok.inj h)
      exact ⟨rfl, rfl⟩
  · simp [hhashable] at h

/-- A connection without certificates is refused at once, and the evaluator is not asked. -/
theorem verifyConnection_of_certificates_eq_nil {peer : Connection} (hnone : peer.certificates = [])
    (env : Environment) (holders : Holders) (m : Manager) (reference : Value) :
    m.verifyConnection env holders peer.chainValue peer.leafValue reference =
      .fail (.trust (.noPeerCertificate m.hostname)) := by
  rw [verifyConnection, peer.peerCertificates_eq, if_pos hnone]
  rfl

/-- **A connection with certificates is decided on by the evaluator.** -/
theorem decidedBy_verifyConnection {peer : Connection} (hsome : peer.certificates ≠ [])
    (env : Environment) (holders : Holders) (m : Manager) (reference : Value) :
    (m.verifyConnection env holders peer.chainValue peer.leafValue reference).DecidedBy
      (m.evaluator.evaluate env holders
        ⟨.list peer.certificates, .str m.hostname, .null, reference⟩) := by
  have hchain : peerCertificates peer.chainValue peer.leafValue =
      .ok (some (.list peer.certificates)) := by
    rw [peer.peerCertificates_eq, if_neg hsome]
  have hasks : m.Asks m.evaluator ⟨.list peer.certificates, .str m.hostname, .null, reference⟩
      peer.chainValue peer.leafValue := ⟨rfl, hchain, rfl, rfl⟩
  rw [verifyConnection_eq_demandTrust hasks]
  exact Evaluator.decidedBy_demandTrust _ _ _ _

end Manager

/-! ### Handshakes -/

namespace Session

/-- **What happens to managers during a handshake:** the TLS library calls back, or somebody
asks for a decision. The arguments may be anything. -/
inductive Call
  | callback (manager certificate code depth : Value)
  | connection (manager chain leaf reference : Value)

/-- The session after a call. A call back that fails leaves it as it was, and so does every
decision. -/
def afterCall (s : Session) : Call → Session
  | .callback manager certificate code depth =>
    s.keep (s.recordCallback manager certificate code depth)
  | .connection _ _ _ _ => s

/-- The session after some calls in a row. -/
def handshake (s : Session) (calls : List Call) : Session := calls.foldl afterCall s

/-- **The sessions differ at most in what managers remember** of their handshakes. -/
structure Alike (s t : Session) : Prop where
  env_eq : t.env = s.env
  holders_eq : t.holders = s.holders
  managers_eq : t.managers.map Manager.fresh = s.managers.map Manager.fresh

variable {s t u : Session} {id : Nat} {m : Manager}

theorem Alike.refl (s : Session) : s.Alike s := ⟨rfl, rfl, rfl⟩

theorem Alike.trans (h : s.Alike t) (h' : t.Alike u) : s.Alike u where
  env_eq := h'.env_eq.trans h.env_eq
  holders_eq := h'.holders_eq.trans h.holders_eq
  managers_eq := h'.managers_eq.trans h.managers_eq

theorem managerArgument_eq_ok_iff {v : Value} :
    s.managerArgument v = .ok (id, m) ↔ v = .manager id ∧ s.managers[id]? = some m := by
  cases v with
  | manager other =>
    unfold managerArgument
    cases hfound : s.managers[other]? with
    | none =>
      simp only [hfound, Option.elim_none, reduceCtorEq, Value.manager.injEq, false_iff, not_and]
      rintro rfl hm
      cases hfound.symm.trans hm
    | some found =>
      simp only [hfound, Option.elim_some, Except.ok.injEq, Prod.mk.injEq, Value.manager.injEq]
      refine and_congr_right ?_
      rintro rfl
      rw [hfound, Option.some.injEq]
  | _ => simp [managerArgument]

/-- A manager in the place of one that differs at most in what it remembers. -/
theorem map_fresh_set {managers : List Manager} {after : Manager} (hm : managers[id]? = some m)
    (hfresh : after.fresh = m.fresh) :
    (managers.set id after).map Manager.fresh = managers.map Manager.fresh := by
  obtain ⟨hid, hget⟩ := List.getElem?_eq_some_iff.mp hm
  have hplace : after.fresh = (managers.map Manager.fresh).get ⟨id, by simpa using hid⟩ := by
    rw [List.get_eq_getElem, List.getElem_map, hget, hfresh]
  rw [List.map_set, hplace, List.get_eq_getElem, List.set_getElem_self]

/-- **Alike sessions decide alike.** -/
theorem Alike.verifyConnection_eq (h : s.Alike t) (hm : s.managers[id]? = some m)
    (chain leaf reference : Value) :
    t.verifyConnection (.manager id) chain leaf reference =
      m.fresh.verifyConnection s.env s.holders chain leaf reference := by
  have hfresh : (t.managers.map Manager.fresh)[id]? = some m.fresh := by
    rw [h.managers_eq, List.getElem?_map, hm]
    rfl
  rw [List.getElem?_map] at hfresh
  obtain ⟨now, hnow, hsame⟩ := Option.map_eq_some_iff.mp hfresh
  have hargument : t.managerArgument (.manager id) = .ok (id, now) :=
    managerArgument_eq_ok_iff.mpr ⟨rfl, hnow⟩
  rw [verifyConnection, hargument, ofExcept_ok_bind, h.env_eq, h.holders_eq, ← hsame]
  exact (now.verifyConnection_fresh s.env s.holders chain leaf reference).symm

/-- A call back that returns says that the handshake goes on, and leaves the session alike. -/
theorem of_recordCallback_eq_ok {manager certificate code depth : Value} {goesOn : Bool}
    (h : s.recordCallback manager certificate code depth = .ok (t, goesOn)) :
    s.Alike t ∧ goesOn = true := by
  obtain ⟨⟨id, m⟩, hmanager, h⟩ := bind_eq_ok_iff.mp h
  obtain ⟨⟨now, goes⟩, hrecord, h⟩ := bind_eq_ok_iff.mp h
  obtain ⟨rfl, rfl⟩ := Prod.mk.inj (Except.ok.inj h)
  obtain ⟨-, hm⟩ := managerArgument_eq_ok_iff.mp hmanager
  obtain ⟨hfresh, hgoes⟩ := Manager.fresh_of_record hrecord
  exact ⟨⟨rfl, rfl, map_fresh_set hm hfresh⟩, hgoes⟩

/-- **A call leaves the session alike.** -/
theorem alike_afterCall (s : Session) (call : Call) : s.Alike (s.afterCall call) := by
  cases call with
  | connection manager chain leaf reference => exact .refl s
  | callback manager certificate code depth =>
    rw [afterCall]
    cases h : s.recordCallback manager certificate code depth with
    | error f => exact .refl s
    | ok result => exact (of_recordCallback_eq_ok h).1

/-- **A handshake leaves the session alike.** -/
theorem alike_handshake (s : Session) (calls : List Call) : s.Alike (s.handshake calls) := by
  induction calls generalizing s with
  | nil => exact .refl s
  | cons call rest ih => exact (s.alike_afterCall call).trans (ih (s.afterCall call))

/-- **The decision of a manager about a connection,** after some calls. -/
def decisionAfter (s : Session) (calls : List Call) (id : Nat) (peer : Connection)
    (reference : Value) : Traced Verdict :=
  (s.handshake calls).verifyConnection (.manager id) peer.chainValue peer.leafValue reference

/-- **The decision about a connection is the evaluator's, whatever happened in the handshake.**
After any calls it is, with its events, the decision of a manager that remembers nothing.
Without certificates it is the error that carries the host, and otherwise it is that of the
evaluation of the certificates for the host. So no verdict against the peer ever comes back;
and a call back that returns lets the handshake go on. -/
theorem decisionAfter_eq (hm : s.managers[id]? = some m) (calls : List Call) (peer : Connection)
    (reference : Value) :
    s.decisionAfter calls id peer reference =
        m.fresh.verifyConnection s.env s.holders peer.chainValue peer.leafValue reference ∧
      (peer.certificates = [] →
        s.decisionAfter calls id peer reference =
            .fail (.trust (.noPeerCertificate m.hostname)) ∧
          (TrustError.noPeerCertificate m.hostname).target = .str m.hostname) ∧
      (peer.certificates ≠ [] →
        (s.decisionAfter calls id peer reference).DecidedBy
          (m.evaluator.evaluate s.env s.holders
            ⟨.list peer.certificates, .str m.hostname, .null, reference⟩)) ∧
      (∀ v, (s.decisionAfter calls id peer reference).outcome = .ok v → v.trusted = true) ∧
      ∀ manager certificate code depth after goesOn,
        (s.handshake calls).recordCallback manager certificate code depth =
          .ok (after, goesOn) → goesOn = true := by
  have hfresh : s.decisionAfter calls id peer reference =
      m.fresh.verifyConnection s.env s.holders peer.chainValue peer.leafValue reference :=
    (s.alike_handshake calls).verifyConnection_eq hm _ _ _
  have hdecided := fun hsome : peer.certificates ≠ [] =>
    m.fresh.decidedBy_verifyConnection hsome s.env s.holders reference
  rw [hfresh]
  refine ⟨rfl, fun hnone => ?_, hdecided, fun v hv => ?_, fun _ _ _ _ after goesOn hcall => ?_⟩
  · exact ⟨Manager.verifyConnection_of_certificates_eq_nil hnone _ _ _ _, rfl⟩
  · by_cases hnone : peer.certificates = []
    · rw [Manager.verifyConnection_of_certificates_eq_nil hnone] at hv
      cases hv
    · exact (((hdecided hnone).trusted_iff v).mp hv).2
  · exact (of_recordCallback_eq_ok hcall).2

end Session

/-! ### A noisy handshake with an impostor -/

namespace Sample

/-- A manager for a host that trusts the root. -/
def manager : Manager := ⟨"chat.example.com", ⟨some (.fixed roots), .standard, none⟩, []⟩

/-- A session with that manager. -/
def session : Session := ⟨env, .empty, [], [manager], []⟩

/-- A connection that shows the forged leaf below the root. -/
def impostor : Connection :=
  ⟨some [.certificate .tls forged, .certificate .tls root], none, nofun⟩

/-- The library finds nothing wrong, finds a mismatch of names, and says something that is no
number. An honest peer has been decided on before. -/
def noise : List Session.Call := [
  .callback (.manager 0) (.certificate .tls root) (.int 0) (.int 1),
  .callback (.manager 0) (.certificate .tls forged) (.int VerifyCode.hostnameMismatch) (.int 0),
  .callback (.manager 0) .null (.list []) .null,
  .connection (.manager 0) (.list [.certificate .tls leaf, .certificate .tls root]) .null .null]

end Sample

/-- The manager remembers what the library said, and the impostor is refused for the forged
signature all the same. -/
theorem Session.decisionAfter_eq_of_noise :
    Sample.session.managers[0]? = some Sample.manager ∧
      ((Sample.session.handshake Sample.noise).managers.map fun m => m.diagnostics.length) = [1] ∧
      Sample.impostor.certificates ≠ [] ∧
      ∃ e, e.kind = .signature ∧
        (Sample.session.decisionAfter Sample.noise 0 Sample.impostor .null).outcome =
          .error (.trust e) := by
  have hm : Sample.session.managers[0]? = some Sample.manager := rfl
  have hsome : Sample.impostor.certificates ≠ [] := nofun
  obtain ⟨-, -, hdecided, -⟩ := Session.decisionAfter_eq hm Sample.noise Sample.impostor .null
  refine ⟨hm, by decide, hsome, _, ?_, ((hdecided hsome).rejected_iff _).mpr ⟨_, rfl, rfl, rfl⟩⟩
  rfl

end PeerTrust
