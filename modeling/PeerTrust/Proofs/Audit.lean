/-
  `Proofs.Audit` — what an action leaves for the audit.

  The audit trail of an action is its warnings on the audit channel and its calls
  of the observer, in their order. Trails follow actions in sequence, so a trail
  is a matter of single checks: reading an identity leaves none, three of the four
  checks leave none, and the check of the root leaves one exactly if it grants the
  exception for a lone certificate. `auditTrail_judge_of_grants` and its twin carry
  this to the judgement of a context; what the other checks find plays no part.
-/
import PeerTrust.Proofs.Trace

namespace PeerTrust

open Traced

/-! ### Trails -/

namespace Event

/-- The event is an audit record: a warning on the audit channel. -/
def isAuditRecord : Event → Bool
  | .report r => r.channel = .audit && r.level = .warning
  | .observed _ => false

/-- The event is a call of the observer. -/
def isObservation : Event → Bool
  | .report _ => false
  | .observed _ => true

/-- The event is one for the audit. -/
def concernsAudit (e : Event) : Bool := e.isAuditRecord || e.isObservation

end Event

namespace Traced

variable {α β : Type}

/-- **The audit trail of an action:** its events for the audit, in order. -/
def auditTrail (x : Traced α) : List Event := x.events.filter Event.concernsAudit

@[simp] theorem auditTrail_pure (a : α) : (pure a : Traced α).auditTrail = [] := rfl
@[simp] theorem auditTrail_fail (e : Failure) : (fail e : Traced α).auditTrail = [] := rfl

@[simp] theorem auditTrail_catchTrust (x : Traced α) : x.catchTrust.auditTrail = x.auditTrail := by
  rw [auditTrail, events_catchTrust, auditTrail]

theorem auditTrail_bind_of_ok {x : Traced α} {a : α} (h : x.outcome = .ok a) (f : α → Traced β) :
    (x >>= f).auditTrail = x.auditTrail ++ (f a).auditTrail := by
  rw [auditTrail, events_bind_of_ok h, List.filter_append]
  rfl

theorem auditTrail_bind_of_error {x : Traced α} {e : Failure} (h : x.outcome = .error e)
    (f : α → Traced β) : (x >>= f).auditTrail = x.auditTrail := by
  rw [auditTrail, events_bind_of_error h, auditTrail]

/-- **What follows an action without a trail** leaves the trail of the sequence. -/
theorem auditTrail_bind_of_later {x : Traced α} {f : α → Traced β}
    (hf : ∀ a, (f a).auditTrail = []) : (x >>= f).auditTrail = x.auditTrail := by
  cases h : x.outcome with
  | ok a => rw [auditTrail_bind_of_ok h, hf, List.append_nil]
  | error e => exact auditTrail_bind_of_error h f

theorem auditTrail_bind_eq_nil {x : Traced α} {f : α → Traced β} (hx : x.auditTrail = [])
    (hf : ∀ a, (f a).auditTrail = []) : (x >>= f).auditTrail = [] := by
  rw [auditTrail_bind_of_later hf, hx]

/-- Audit records and calls of the observer can be counted in the trail. -/
theorem countP_events_eq_countP_auditTrail {p : Event → Bool}
    (hp : ∀ e, p e = true → e.concernsAudit = true) (x : Traced α) :
    x.events.countP p = x.auditTrail.countP p := by
  rw [auditTrail, List.countP_filter]
  refine List.countP_congr fun e _ => ?_
  simpa using hp e

end Traced

/-- **What keeps to another channel** leaves nothing for the audit. -/
theorem Traced.KeepsTo.auditTrail_eq_nil {α : Type} {x : Traced α} {channel : Channel}
    (h : x.KeepsTo channel) (hother : channel ≠ .audit) : x.auditTrail = [] := by
  rw [auditTrail, List.filter_eq_nil_iff]
  intro e he
  obtain ⟨r, rfl, hr⟩ := h e he
  simp [Event.concernsAudit, Event.isAuditRecord, Event.isObservation, hr, hother]

/-- Reading an identity leaves nothing for the audit. Its warnings go elsewhere. -/
theorem Certificate.auditTrail_peerIdentity (c : Certificate) : c.peerIdentity.auditTrail = [] :=
  c.keepsTo_peerIdentity.auditTrail_eq_nil nofun

/-! ### Single checks -/

/-- **The checks around that of the root:** before it there is at most that of the links. -/
theorem Policy.checks_eq_of_verifyRoot {p : Policy} (h : p.verifyRoot = true) :
    ∃ before after, p.checks = before ++ .root :: after ∧ (∀ c ∈ before, c = .chain) ∧
      ∀ c ∈ after, c ≠ .root := by
  obtain ⟨verifyChain, verifyRoot, checkDomainMatch, checkExpiry, acceptSelfSigned⟩ := p
  obtain rfl : verifyRoot = true := h
  have hafter : ∀ q : Policy, ∀ c ∈ [CheckName.identity, .validity].filter q.enables,
      c ≠ .root := by
    rintro q c hc rfl
    simpa using (List.mem_filter.mp hc).1
  cases verifyChain with
  | true => exact ⟨[.chain], _, rfl, by simp, hafter _⟩
  | false => exact ⟨[], _, rfl, by simp, hafter _⟩

namespace CheckContext

/-- **The exception is granted:** the root is asked for, the chain is no anchored one, and it
is a lone certificate that the policy accepts. The names of the certificate are not part of it. -/
structure GrantsException (ctx : CheckContext) : Prop where
  asked : ctx.policy.verifyRoot = true
  unanchored : ¬ctx.Anchored
  excepted : ctx.Excepted

/-- Where the exception is granted, the check of the root ends as its observer does. -/
theorem GrantsException.outcome_run_root {ctx : CheckContext} (h : ctx.GrantsException) :
    (ctx.run .root).outcome = (Observer.tell ctx.observer ctx.peerIdentity).outcome := by
  rw [run, checkRoot_of_excepted h.unanchored h.excepted, outcome_recordSelfSigned]

/-- **An exception leaves its record, and then what the observer is told.** -/
theorem auditTrail_checkRoot_of_grants {ctx : CheckContext} (h : ctx.GrantsException) :
    ctx.checkRoot.auditTrail =
      .report ctx.exceptionRecord :: (Observer.tell ctx.observer ctx.peerIdentity).auditTrail := by
  rw [checkRoot_of_excepted h.unanchored h.excepted]
  exact auditTrail_bind_of_ok rfl _

/-- **A check that grants no exception leaves nothing for the audit.** Its objection, if it has
one, goes to its own channel. -/
theorem auditTrail_run_of_not_exempted (ctx : CheckContext) {check : CheckName}
    (h : check = .root → ctx.Anchored ∨ ¬ctx.Excepted) : (ctx.run check).auditTrail = [] := by
  have hleaves := ctx.leaves_run check
  rw [auditTrail]
  generalize (ctx.run check).events = events, (ctx.run check).outcome = ends at hleaves
  cases hleaves with
  | silent => rfl
  | stumbled stumbles => rfl
  | unplaced elsewhere => rfl
  | objection loud own =>
    have hother : check.channel ≠ .audit := by cases check <;> decide
    simp [Event.concernsAudit, Event.isAuditRecord, Event.isObservation, own, hother]
  | exempted unanchored excepted =>
    rcases h rfl with hanchored | hnot
    · exact absurd hanchored unanchored
    · exact absurd excepted hnot

/-- No check but that of the root leaves anything. -/
theorem auditTrail_run_of_ne_root (ctx : CheckContext) {check : CheckName}
    (hcheck : check ≠ .root) : (ctx.run check).auditTrail = [] :=
  ctx.auditTrail_run_of_not_exempted fun hroot => absurd hroot hcheck

/-- **Where the exception is not granted, no enabled check leaves anything.** -/
theorem auditTrail_run_of_not_grants {ctx : CheckContext} (h : ¬ctx.GrantsException)
    {check : CheckName} (hcheck : ctx.policy.enables check = true) :
    (ctx.run check).auditTrail = [] := by
  refine ctx.auditTrail_run_of_not_exempted fun hroot => ?_
  subst hroot
  by_cases hanchored : ctx.Anchored
  · exact Or.inl hanchored
  · exact Or.inr fun hexcepted => h ⟨hcheck, hanchored, hexcepted⟩

/-! ### Runs and judgements -/

section Runs

variable {ctx : CheckContext} {check : CheckName} {before rest : List CheckName}

/-- A run whose later checks leave nothing has the trail of its first check, whether or not
that one lets the others run. -/
theorem auditTrail_runAll_cons (h : (ctx.runAll rest).auditTrail = []) :
    (ctx.runAll (check :: rest)).auditTrail = (ctx.run check).auditTrail := by
  rw [runAll, auditTrail_bind_of_later, auditTrail_catchTrust]
  intro result
  cases result with
  | error e => rfl
  | ok _ => exact auditTrail_bind_eq_nil h fun _ => rfl

theorem auditTrail_runAll_eq_nil (h : ∀ c ∈ rest, (ctx.run c).auditTrail = []) :
    (ctx.runAll rest).auditTrail = [] := by
  induction rest with
  | nil => rfl
  | cons check rest ih =>
    obtain ⟨hcheck, hrest⟩ := List.forall_mem_cons.mp h
    rw [auditTrail_runAll_cons (ih hrest), hcheck]

/-- Checks that pass and leave nothing do not show in the trail of a run. -/
theorem auditTrail_runAll_append (hpass : ∀ c ∈ before, (ctx.run c).outcome = .ok ())
    (hquiet : ∀ c ∈ before, (ctx.run c).auditTrail = []) :
    (ctx.runAll (before ++ rest)).auditTrail = (ctx.runAll rest).auditTrail := by
  induction before with
  | nil => rfl
  | cons check before ih =>
    obtain ⟨hcheck, hbefore⟩ := List.forall_mem_cons.mp hpass
    obtain ⟨hnone, hnothing⟩ := List.forall_mem_cons.mp hquiet
    rw [List.cons_append, runAll, auditTrail_bind_of_ok (outcome_catchTrust_of_ok hcheck),
      auditTrail_catchTrust, hnone, List.nil_append, ← ih hbefore hnothing]
    exact auditTrail_bind_of_later fun _ => rfl

end Runs

/-- A chain of one certificate has no links to find a fault in. -/
theorem outcome_checkLinks_of_alone {ctx : CheckContext} (h : ctx.chain.toList.length = 1) :
    ctx.checkLinks.outcome = .ok () := by
  have hnone : ctx.chain.fault? = none := by
    rw [Chain.fault?_eq_none_iff]
    intro i c issuer hadj
    -- a pair of neighbours needs two certificates
    have hsecond := (List.getElem?_eq_some_iff.mp hadj.2).1
    omega
  simp only [checkLinks, hnone]
  rfl

/-- **Where the exception is granted, the checks up to that of the root pass,** and the run
goes on with that check. -/
theorem GrantsException.exists_runAll_eq {ctx : CheckContext} (h : ctx.GrantsException) :
    ∃ before after, ctx.policy.checks = before ++ .root :: after ∧
      (∀ c ∈ before, (ctx.run c).outcome = .ok () ∧ (ctx.run c).auditTrail = []) ∧
      ∀ c ∈ after, c ≠ .root := by
  obtain ⟨before, after, hchecks, hbefore, hafter⟩ := Policy.checks_eq_of_verifyRoot h.asked
  refine ⟨before, after, hchecks, fun c hc => ?_, hafter⟩
  obtain rfl := hbefore c hc
  exact ⟨outcome_checkLinks_of_alone h.excepted.1, ctx.auditTrail_run_of_ne_root nofun⟩

/-- The report of the decision is none for the audit. -/
theorem auditTrail_judge (ctx : CheckContext) :
    ctx.judge.auditTrail = (ctx.runAll ctx.policy.checks).auditTrail := by
  rw [judge]
  refine auditTrail_bind_of_later fun result => ?_
  obtain ⟨checks, error⟩ := result
  cases error with
  | none => rfl
  | some e => cases hlast : checks.getLast? <;> simp only [hlast] <;> rfl

/-- **A judgement that grants the exception leaves its record,** followed by what the observer
is told, and nothing else for the audit. -/
theorem auditTrail_judge_of_grants {ctx : CheckContext} (h : ctx.GrantsException) :
    ctx.judge.auditTrail =
      .report ctx.exceptionRecord :: (Observer.tell ctx.observer ctx.peerIdentity).auditTrail := by
  obtain ⟨before, after, hchecks, hbefore, hafter⟩ := h.exists_runAll_eq
  rw [auditTrail_judge, hchecks, auditTrail_runAll_append (fun c hc => (hbefore c hc).1)
    (fun c hc => (hbefore c hc).2), auditTrail_runAll_cons]
  · exact auditTrail_checkRoot_of_grants h
  · exact auditTrail_runAll_eq_nil fun c hc => ctx.auditTrail_run_of_ne_root (hafter c hc)

/-- **Any other judgement leaves nothing for the audit.** -/
theorem auditTrail_judge_of_not_grants {ctx : CheckContext} (h : ¬ctx.GrantsException) :
    ctx.judge.auditTrail = [] := by
  rw [auditTrail_judge]
  refine auditTrail_runAll_eq_nil fun c hc => ?_
  exact auditTrail_run_of_not_grants h ((ctx.policy.mem_checks_iff c).mp hc)

end CheckContext
end PeerTrust
