/-
  `Proofs.Evaluator.Audit` — audit records are complete and exact.

  An evaluation that reaches its checks leaves one audit record, and tells its
  observer once and after the record, exactly if it grants the exception for a
  lone certificate; every other evaluation leaves nothing for the audit. The
  conditions are those of `CheckContext.GrantsException`, which mentions neither
  the links nor the identity nor the windows. An observer that objects decides the
  verdict, and one that fails leaves none.

  `Evaluation.audited` says this of one evaluation, whatever its observer does.
  `audit_series` carries it to evaluations in a row and counts their records. Each
  call of a series has an evaluator of its own, so that an observer may answer
  differently each time, and holders of its own, so that roots may change between.
-/
import PeerTrust.Proofs.Audit

namespace PeerTrust

open Traced

/-! ### Observers that object or fail -/

namespace CheckContext

variable {ctx : CheckContext}

/-- **An observer that objects decides the verdict:** it is against the peer, carries that
very error, and the check of the root is the last one that ran. -/
theorem outcome_judge_of_veto (h : ctx.GrantsException) {e : TrustError}
    (hveto : (Observer.tell ctx.observer ctx.peerIdentity).outcome = .error (.trust e)) :
    ∃ before, ctx.judge.outcome = .ok ⟨false, ctx.target, ctx.peerIdentity, ctx.reference,
      before ++ [.root], some e⟩ := by
  obtain ⟨before, after, hchecks, hbefore, -⟩ := h.exists_runAll_eq
  have hroot : (ctx.run .root).outcome = .error (.trust e) := h.outcome_run_root.trans hveto
  have hrun : (ctx.runAll ctx.policy.checks).outcome = .ok (before ++ [.root], some e) := by
    rw [hchecks, outcome_runAll_append fun c hc => (hbefore c hc).1,
      outcome_runAll_cons_of_trust hroot]
    rfl
  exact ⟨before, outcome_judge hrun⟩

/-- **An observer that fails otherwise leaves no verdict:** its failure is that of the
judgement. -/
theorem outcome_judge_of_failure (h : ctx.GrantsException) {f : Failure}
    (hfails : (Observer.tell ctx.observer ctx.peerIdentity).outcome = .error f)
    (hf : ∀ e, f ≠ .trust e) : ctx.judge.outcome = .error f := by
  obtain ⟨before, after, hchecks, hbefore, -⟩ := h.exists_runAll_eq
  have hroot : (ctx.run .root).outcome = .error f := h.outcome_run_root.trans hfails
  have hrun : (ctx.runAll ctx.policy.checks).outcome = .error f := by
    rw [hchecks, outcome_runAll_append fun c hc => (hbefore c hc).1,
      outcome_runAll_cons_of_failure hroot hf]
    rfl
  rw [judge, outcome_bind_of_error hrun]

end CheckContext

/-! ### Evaluations -/

namespace Evaluator

variable {env : Environment} {holders : Holders} {ev : Evaluator} {r : Request}
  {ctx : CheckContext}

theorem Reaches.auditTrail_eq (h : ev.Reaches env holders r ctx) :
    (ev.evaluate env holders r).auditTrail = ctx.judge.auditTrail := by
  rw [auditTrail, h.evaluate_eq.2, List.filter_append]
  have hidentity : ctx.chain.leaf.peerIdentity.events.filter Event.concernsAudit = [] :=
    ctx.chain.leaf.auditTrail_peerIdentity
  rw [hidentity, List.nil_append]
  rfl

/-- **An evaluation that never reaches its checks leaves nothing for the audit.** -/
theorem auditTrail_evaluate_of_not_reaches (h : ∀ ctx, ¬ev.Reaches env holders r ctx) :
    (ev.evaluate env holders r).auditTrail = [] :=
  (keepsTo_evaluate_of_not_reaches h).auditTrail_eq_nil nofun

end Evaluator

/-! ### Series of evaluations -/

/-- One evaluation of a series, with what it may look at. -/
structure Evaluation where
  env : Environment
  holders : Holders
  evaluator : Evaluator
  request : Request

namespace Evaluation

/-- The evaluation. -/
def perform (call : Evaluation) : Traced Verdict :=
  call.evaluator.evaluate call.env call.holders call.request

/-- The evaluation reaches its checks in a context. -/
def Reaches (call : Evaluation) (ctx : CheckContext) : Prop :=
  call.evaluator.Reaches call.env call.holders call.request ctx

/-- The evaluation reaches its checks and grants the exception. -/
def Grants (call : Evaluation) : Prop := ∃ ctx, call.Reaches ctx ∧ ctx.GrantsException

/-- **What an evaluation that reaches its checks leaves for the audit,** and what comes of an
observer that does not return. The record names the identity that the leaf claims and the
target of the request; the observer is told the same identity after the record. -/
structure Audited (call : Evaluation) (ctx : CheckContext) : Prop where
  target_eq : call.request.targetText = .ok ctx.target
  claimed : ctx.chain.leaf.peerIdentity.outcome = .ok ctx.peerIdentity
  roots_eq : ctx.roots = call.evaluator.rootsIn call.holders
  granted : ctx.GrantsException → call.perform.auditTrail =
    .report (.selfSignedAccepted ctx.peerIdentity (some ctx.target)) ::
      call.evaluator.observer.toList.map fun _ => .observed ctx.peerIdentity
  otherwise : ¬ctx.GrantsException → call.perform.auditTrail = []
  vetoed : ctx.GrantsException → ∀ react e, call.evaluator.observer = some react →
    react ctx.peerIdentity = .error (.trust e) →
      ∃ v, call.perform.outcome = .ok v ∧ v.trusted = false ∧ v.error = some e ∧
        v.checks.getLast? = some .root
  failed : ctx.GrantsException → ∀ react f, call.evaluator.observer = some react →
    react ctx.peerIdentity = .error f → (∀ e, f ≠ .trust e) → call.perform.outcome = .error f

variable {call : Evaluation} {ctx : CheckContext}

theorem outcome_tell_eq {react : Reaction} (h : call.Reaches ctx)
    (hreact : call.evaluator.observer = some react) :
    (Observer.tell ctx.observer ctx.peerIdentity).outcome = react ctx.peerIdentity := by
  rw [Evaluator.Reaches.observer_eq h, hreact]
  exact outcome_note_bind _ _

/-- **Every evaluation that reaches its checks is audited.** -/
theorem audited (h : call.Reaches ctx) : call.Audited ctx where
  target_eq := by
    cases h with
    | intro asks rooted clock claimed => exact asks.target_eq
  claimed := by
    cases h with
    | intro asks rooted clock claimed => exact claimed
  roots_eq := by
    cases h
    rfl
  granted hgrants := by
    rw [perform, Evaluator.Reaches.auditTrail_eq h, CheckContext.auditTrail_judge_of_grants hgrants,
      Evaluator.Reaches.observer_eq h]
    cases call.evaluator.observer <;> rfl
  otherwise hnot := by
    rw [perform, Evaluator.Reaches.auditTrail_eq h,
      CheckContext.auditTrail_judge_of_not_grants hnot]
  vetoed hgrants react e hreact hveto := by
    have htold := (outcome_tell_eq h hreact).trans hveto
    obtain ⟨before, hjudge⟩ := CheckContext.outcome_judge_of_veto hgrants htold
    refine ⟨_, (Evaluator.Reaches.evaluate_eq h).1.trans hjudge, rfl, rfl, ?_⟩
    exact List.getLast?_concat
  failed hgrants react f hreact hfails hf := by
    have htold := (outcome_tell_eq h hreact).trans hfails
    have hjudge := CheckContext.outcome_judge_of_failure hgrants htold hf
    exact (Evaluator.Reaches.evaluate_eq h).1.trans hjudge

theorem auditTrail_perform_of_not_grants (h : ¬call.Grants) : call.perform.auditTrail = [] := by
  by_cases hreach : ∃ ctx, call.Reaches ctx
  · obtain ⟨ctx, hctx⟩ := hreach
    exact (audited hctx).otherwise fun hgrants => h ⟨ctx, hctx, hgrants⟩
  · exact Evaluator.auditTrail_evaluate_of_not_reaches fun ctx hctx => hreach ⟨ctx, hctx⟩

open Classical in
/-- **An evaluation leaves one audit record if it grants the exception, and else none.** -/
theorem countP_isAuditRecord_perform (call : Evaluation) :
    call.perform.events.countP Event.isAuditRecord = if decide call.Grants then 1 else 0 := by
  rw [countP_events_eq_countP_auditTrail fun e he => by rw [Event.concernsAudit, he, Bool.true_or]]
  by_cases hgrants : call.Grants
  · obtain ⟨ctx, hctx, hgranted⟩ := id hgrants
    rw [(audited hctx).granted hgranted, decide_eq_true hgrants]
    cases call.evaluator.observer <;> rfl
  · rw [auditTrail_perform_of_not_grants hgrants, decide_eq_false hgrants]
    rfl

open Classical in
/-- **The observer, if there is one, is told as often as there are records.** -/
theorem countP_isObservation_perform (call : Evaluation) :
    call.perform.events.countP Event.isObservation =
      if decide (call.Grants ∧ call.evaluator.observer ≠ none) then 1 else 0 := by
  rw [countP_events_eq_countP_auditTrail fun e he => by rw [Event.concernsAudit, he, Bool.or_true]]
  by_cases hgrants : call.Grants
  · obtain ⟨ctx, hctx, hgranted⟩ := id hgrants
    rw [(audited hctx).granted hgranted]
    cases hobserver : call.evaluator.observer with
    | none => simp [Event.isObservation]
    | some react => simp [Event.isObservation, hgrants]
  · rw [auditTrail_perform_of_not_grants hgrants, decide_eq_false fun h => hgrants h.1]
    rfl

/-- The events of evaluations in a row. -/
def series (calls : List Evaluation) : List Event := calls.flatMap fun call => call.perform.events

/-- What each call leaves once or not at all, a series leaves as often as there are calls that
do. -/
theorem countP_series {p : Event → Bool} {q : Evaluation → Bool}
    (h : ∀ call, call.perform.events.countP p = if q call then 1 else 0) (calls : List Evaluation) :
    (series calls).countP p = calls.countP q := by
  induction calls with
  | nil => rfl
  | cons call rest ih =>
    have hseries : series (call :: rest) = call.perform.events ++ series rest := rfl
    rw [hseries, List.countP_append, List.countP_cons, h, ih, Nat.add_comm]

end Evaluation

/-! ### A lone certificate that is no root -/

namespace Sample

/-- The policy that asks for everything and accepts self-signed certificates. -/
def accepting : Policy := { Policy.standard with acceptSelfSigned := true }

/-- The evaluator that trusts the root, with that policy. -/
def evaluator (observer : Option Reaction) : Evaluator :=
  ⟨some (.fixed roots), accepting, observer⟩

/-- The root's certificate for a host, presented alone. -/
def loneLeaf (observer : Option Reaction) : Evaluation where
  env := env
  holders := .empty
  evaluator := evaluator observer
  request := .ofParts .tls ⟨leaf, []⟩ "chat.example.com" none none

/-- What its checks look at. -/
def loneContext (observer : Option Reaction) : CheckContext :=
  (evaluator observer).contextOf (some roots) accepting ⟨leaf, []⟩ "chat.example.com"
    "chat.example.com" .origin

@[simp] theorem observer_loneLeaf (observer : Option Reaction) :
    (loneLeaf observer).evaluator.observer = observer :=
  rfl

theorem reaches_loneLeaf (observer : Option Reaction) :
    (loneLeaf observer).Reaches (loneContext observer) :=
  .intro (Request.asks_ofParts .tls ⟨leaf, []⟩ (by decide) none none) (fun _ => nofun) rfl rfl

theorem not_anchored_loneContext (observer : Option Reaction) :
    ¬(loneContext observer).Anchored := by
  have habsent : roots.contains leaf ≠ true := by decide
  exact mt (loneContext observer).hasTrustedRoot_iff.mpr habsent

theorem grantsException_loneContext (observer : Option Reaction) :
    (loneContext observer).GrantsException :=
  ⟨rfl, not_anchored_loneContext observer, rfl, rfl⟩

theorem grants_loneLeaf (observer : Option Reaction) : (loneLeaf observer).Grants :=
  ⟨_, reaches_loneLeaf observer, grantsException_loneContext observer⟩

end Sample

/-! ### Exactness -/

namespace Evaluation

open Classical in
/-- **Audit records are complete and exact, over every series of evaluations** with whatever
observers. Each evaluation that reaches its checks leaves what `Audited` says, and each
other one leaves nothing and gives no verdict. So the series has as many records as it has
evaluations that grant the exception, and an observer is told as often as such an evaluation
has one. -/
theorem audit_series (calls : List Evaluation) :
    (∀ call ∈ calls, (∀ ctx, call.Reaches ctx → call.Audited ctx) ∧
      ((∀ ctx, ¬call.Reaches ctx) →
        call.perform.auditTrail = [] ∧ ∀ v, call.perform.outcome ≠ .ok v)) ∧
    (series calls).countP Event.isAuditRecord = calls.countP (fun call => decide call.Grants) ∧
    (series calls).countP Event.isObservation =
      calls.countP fun call => decide (call.Grants ∧ call.evaluator.observer ≠ none) := by
  refine ⟨fun call _ => ⟨fun ctx => audited, fun hnot => ⟨?_, fun v hv => ?_⟩⟩, ?_, ?_⟩
  · exact Evaluator.auditTrail_evaluate_of_not_reaches hnot
  · obtain ⟨ctx, hreaches⟩ := Evaluator.exists_reaches_of_evaluate hv
    exact hnot ctx hreaches
  · exact countP_series countP_isAuditRecord_perform calls
  · exact countP_series countP_isObservation_perform calls

/-- A lone certificate asked about four times: without an observer, and with ones that return,
object and fail. There are four records, and three observers are told. -/
theorem audit_series_of_four_observers :
    let veto : TrustError := .make .general (.str "veto") .null .null .null
    let vetoed := Sample.loneLeaf (some fun _ => .error (.trust veto))
    let failed := Sample.loneLeaf (some fun _ => .error .observerFailed)
    let calls := [Sample.loneLeaf none, Sample.loneLeaf (some fun _ => .ok ()), vetoed, failed]
    (∀ call ∈ calls, call.Grants) ∧ (series calls).countP Event.isAuditRecord = 4 ∧
      (series calls).countP Event.isObservation = 3 ∧
      (∃ v, vetoed.perform.outcome = .ok v ∧ v.trusted = false ∧ v.error = some veto ∧
        v.checks.getLast? = some .root) ∧
      failed.perform.outcome = .error .observerFailed := by
  intro veto vetoed failed calls
  have hgrants : ∀ call ∈ calls, call.Grants := by
    simp only [calls, vetoed, failed, List.forall_mem_cons]
    exact ⟨Sample.grants_loneLeaf _, Sample.grants_loneLeaf _, Sample.grants_loneLeaf _,
      Sample.grants_loneLeaf _, by simp⟩
  obtain ⟨haudited, hrecords, hobservations⟩ := audit_series calls
  have hvetoed := (haudited vetoed (by simp [calls])).1 _ (Sample.reaches_loneLeaf _)
  have hfailed := (haudited failed (by simp [calls])).1 _ (Sample.reaches_loneLeaf _)
  refine ⟨hgrants, ?_, ?_, ?_, ?_⟩
  · rw [hrecords, List.countP_eq_length.mpr (by simpa using hgrants)]
    rfl
  · rw [hobservations]
    simp [calls, vetoed, failed, Sample.grants_loneLeaf]
  · exact hvetoed.vetoed (Sample.grantsException_loneContext _) _ veto rfl rfl
  · exact hfailed.failed (Sample.grantsException_loneContext _) _ _ rfl rfl fun _ => nofun

end Evaluation
end PeerTrust
