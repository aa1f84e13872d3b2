/-
  `Proofs.Evaluator.Monotone` — asking for less never loses trust.

  A policy relaxes another one if it enables only checks that the other enables and
  accepts self-signed certificates wherever the other does. `trusts_of_relaxes` says
  that an evaluation under the relaxed policy, with at least the roots of the other,
  trusts every peer that the other trusts. Read backwards: to enable a check, to stop
  accepting self-signed certificates or to take a root away never turns a rejection
  into an acceptance.

  The two runs may take different ways through the check of the root: what one accepts
  as an exception the other may find among its roots, and then it tells nobody. The
  step is `outcome_run_of_relaxes`, on one check in two contexts; it needs the observer
  only where both tell it, and then both tell it the same.
-/
import PeerTrust.Proofs.Evaluator.Audit

namespace PeerTrust

open Traced

/-! ### Policies and roots that ask for less -/

/-- **The policy relaxes the strict one:** whatever it enables the strict one enables too,
and it accepts self-signed certificates if the strict one does. -/
structure Policy.Relaxes (lenient strict : Policy) : Prop where
  enables : ∀ check, lenient.enables check = true → strict.enables check = true
  accepts : strict.acceptSelfSigned = true → lenient.acceptSelfSigned = true

/-- **The roots cover the fewer ones:** they are there if the fewer are, and hold all of them.
Where there were no roots, any will do. -/
def RootSet.Covers (more fewer : Option RootSet) : Prop :=
  ∀ roots, fewer = some roots → ∃ wider, more = some wider ∧ roots.anchors ⊆ wider.anchors

namespace CheckContext

/-- **The context relaxes the strict one:** the same peer claims the same identity for the same
target at the same time, before the same observer, and the policy and the roots ask for less. -/
structure Relaxes (lenient strict : CheckContext) : Prop where
  chain_eq : lenient.chain = strict.chain
  target_eq : lenient.target = strict.target
  peerIdentity_eq : lenient.peerIdentity = strict.peerIdentity
  reference_eq : lenient.reference = strict.reference
  observer_eq : lenient.observer = strict.observer
  policy : lenient.policy.Relaxes strict.policy
  roots : RootSet.Covers lenient.roots strict.roots

variable {strict lenient : CheckContext} {check : CheckName}

/-! ### One check in two contexts -/

theorem Relaxes.anchored (h : lenient.Relaxes strict) (hanchored : strict.Anchored) :
    lenient.Anchored := by
  obtain ⟨roots, last, hroots, hlast, hmem⟩ := hanchored
  obtain ⟨wider, hwider, hsub⟩ := h.roots roots hroots
  exact ⟨wider, last, hwider, by rw [h.chain_eq, hlast], hsub hmem⟩

theorem Relaxes.excepted (h : lenient.Relaxes strict) (hexcepted : strict.Excepted) :
    lenient.Excepted :=
  ⟨by rw [h.chain_eq]; exact hexcepted.1, h.policy.accepts hexcepted.2⟩

/-- **The check of the root passes where it passes in the strict context.** An exception that
the strict context grants is granted here too, unless the certificate is a root by now. -/
theorem outcome_checkRoot_of_relaxes (h : lenient.Relaxes strict)
    (hstrict : strict.checkRoot.outcome = .ok ()) : lenient.checkRoot.outcome = .ok () := by
  by_cases hanchored : lenient.Anchored
  · rw [checkRoot_of_anchored hanchored]
    rfl
  · have hunanchored : ¬strict.Anchored := fun hthere => hanchored (h.anchored hthere)
    have hexcepted := (anchored_or_excepted_of_checkRoot hstrict).resolve_left hunanchored
    -- both grant the exception, so both end as the observer does
    rw [checkRoot_of_excepted hunanchored hexcepted, outcome_recordSelfSigned] at hstrict
    rw [checkRoot_of_excepted hanchored (h.excepted hexcepted), outcome_recordSelfSigned,
      h.observer_eq, h.peerIdentity_eq]
    exact hstrict

/-- **A check passes where it passes in the strict context.** All checks but that of the root
look only at what the two contexts have in common. -/
theorem outcome_run_of_relaxes (h : lenient.Relaxes strict)
    (hstrict : (strict.run check).outcome = .ok ()) : (lenient.run check).outcome = .ok () := by
  cases check with
  | chain =>
    have hsame : lenient.checkLinks = strict.checkLinks := by
      rw [checkLinks, checkLinks, h.chain_eq, h.target_eq, h.peerIdentity_eq]
    rw [run, hsame]
    exact hstrict
  | root => exact outcome_checkRoot_of_relaxes h hstrict
  | identity =>
    have hsame : lenient.checkIdentity = strict.checkIdentity := by
      rw [checkIdentity, checkIdentity, h.target_eq, h.peerIdentity_eq]
    rw [run, hsame]
    exact hstrict
  | validity =>
    have hsame : lenient.checkValidity = strict.checkValidity := by
      unfold checkValidity rejectOutside
      rw [h.chain_eq, h.target_eq, h.peerIdentity_eq, h.reference_eq]
    rw [run, hsame]
    exact hstrict

/-! ### Judgements -/

/-- A run whose checks all pass lists them all and finds nothing. -/
theorem outcome_runAll_of_forall {ctx : CheckContext} {checks : List CheckName}
    (h : ∀ c ∈ checks, (ctx.run c).outcome = .ok ()) :
    (ctx.runAll checks).outcome = .ok (checks, none) := by
  have happend := outcome_runAll_append h []
  rw [List.append_nil] at happend
  rw [happend]
  show Except.ok (checks ++ [], none) = _
  rw [List.append_nil]

/-- **A judgement trusts whom the strict one trusts.** -/
theorem exists_judge_trusted_of_relaxes (h : lenient.Relaxes strict) {v : Verdict}
    (hjudge : strict.judge.outcome = .ok v) (htrusted : v.trusted = true) :
    ∃ w, lenient.judge.outcome = .ok w ∧ w.trusted = true := by
  obtain ⟨-, hpassed⟩ := of_judge_trusted hjudge htrusted
  have hall : ∀ c ∈ lenient.policy.checks, (lenient.run c).outcome = .ok () := by
    intro c hc
    have hasked := (lenient.policy.mem_checks_iff c).mp hc
    exact outcome_run_of_relaxes h (hpassed c (h.policy.enables c hasked)).1
  exact ⟨_, outcome_judge (outcome_runAll_of_forall hall), rfl⟩

end CheckContext

/-! ### Evaluations -/

namespace Evaluation

/-- The evaluation gives a verdict, and it is in favour of the peer. -/
def Trusts (call : Evaluation) : Prop :=
  ∃ v, call.perform.outcome = .ok v ∧ v.trusted = true

/-- The roots that the evaluation finds. -/
def roots (call : Evaluation) : Option RootSet := call.evaluator.rootsIn call.holders

/-- **Trust is monotone in the policy and in the roots.** Two evaluations ask about the same
chain for the same target at the same instant, with the same observer, which may object or
fail. If the policy in force of the one relaxes that of the other and its roots cover those of
the other, then it trusts the peer whenever the other does. -/
theorem trusts_of_relaxes {strict lenient : Evaluation} {chain : Chain} {target : String}
    {override override' : Option Policy} {reading reading' : Option Reading}
    (hstrict : strict.request.Asks chain target override reading)
    (hlenient : lenient.request.Asks chain target override' reading')
    (hinstant : (reading'.getD (.ofInstant lenient.env.now)).toUtc? =
      (reading.getD (.ofInstant strict.env.now)).toUtc?)
    (hobserver : lenient.evaluator.observer = strict.evaluator.observer)
    (hpolicy : (override'.getD lenient.evaluator.policy).Relaxes
      (override.getD strict.evaluator.policy))
    (hroots : RootSet.Covers lenient.roots strict.roots) (htrusts : strict.Trusts) :
    lenient.Trusts := by
  obtain ⟨v, hperform, htrusted⟩ := htrusts
  have hdecide := hperform
  rw [perform, Evaluator.evaluate_eq_decide hstrict] at hdecide
  obtain ⟨hneeded, identity, t, ht, hidentity⟩ := Evaluator.of_decide_eq_ok hdecide
  -- the strict evaluation has roots where it needs them, so the lenient one has some too
  have hrooted : (override.getD strict.evaluator.policy).verifyRoot = true →
      strict.evaluator.source ≠ none := fun hroot =>
    (strict.evaluator.rootsIn_ne_none_iff strict.holders).mp (hneeded hroot)
  have hrooted' : (override'.getD lenient.evaluator.policy).verifyRoot = true →
      lenient.evaluator.source ≠ none := by
    intro hroot
    obtain ⟨fewer, hfewer⟩ := Option.ne_none_iff_exists'.mp (hneeded (hpolicy.enables .root hroot))
    obtain ⟨wider, hwider, -⟩ := hroots fewer hfewer
    have hpresent : lenient.roots ≠ none := by
      rw [hwider]
      exact Option.some_ne_none wider
    exact (lenient.evaluator.rootsIn_ne_none_iff lenient.holders).mp hpresent
  have hreaches : strict.Reaches _ := .intro hstrict hrooted ht hidentity
  have hreaches' : lenient.Reaches _ := .intro hlenient hrooted' (hinstant.trans ht) hidentity
  -- both come to their checks, and the one context relaxes the other
  have hrelaxes : (lenient.evaluator.contextOf lenient.roots
      (override'.getD lenient.evaluator.policy) chain target identity t).Relaxes
      (strict.evaluator.contextOf strict.roots
        (override.getD strict.evaluator.policy) chain target identity t) :=
    ⟨rfl, rfl, rfl, rfl, congrArg (Option.map Observer.callable) hobserver, hpolicy, hroots⟩
  have hjudge := hreaches.evaluate_eq.1.symm.trans hperform
  obtain ⟨w, hw, hfavour⟩ :=
    CheckContext.exists_judge_trusted_of_relaxes hrelaxes hjudge htrusted
  exact ⟨w, hreaches'.evaluate_eq.1.trans hw, hfavour⟩

end Evaluation

/-! ### An exception that becomes a root -/

namespace Sample

/-- An observer that returns. -/
def returning : Option Reaction := some fun _ => .ok ()

/-- The policy that does not look at links and accepts self-signed certificates. -/
def unlinked : Policy := { accepting with verifyChain := false }

/-- The lone certificate again, asked about with that policy and a holder that has it among its
roots. -/
def rootedLeaf : Evaluation :=
  { loneLeaf returning with
    holders := ⟨[⟨roots.insert leaf, .absent⟩]⟩
    evaluator := ⟨some (.held 0), unlinked, returning⟩ }

theorem asks_loneLeaf (observer : Option Reaction) :
    (loneLeaf observer).request.Asks ⟨leaf, []⟩ "chat.example.com" none none :=
  Request.asks_ofParts .tls ⟨leaf, []⟩ (by decide) none none

theorem trusts_loneLeaf : (loneLeaf returning).Trusts :=
  ⟨⟨true, "chat.example.com", "chat.example.com", .ofInstant .origin,
    [.chain, .root, .identity, .validity], none⟩, rfl, rfl⟩

end Sample

/-- A lone certificate that one evaluation accepts as an exception, and the other finds among its
roots. Only the first one tells the observer. -/
theorem Evaluation.trusts_of_relaxes_into_roots :
    (Sample.loneLeaf Sample.returning).perform.observations = ["chat.example.com"] ∧
      Sample.rootedLeaf.perform.observations = [] ∧
      Sample.rootedLeaf.request.Asks ⟨Sample.leaf, []⟩ "chat.example.com" none none ∧
      Sample.unlinked.Relaxes Sample.accepting ∧
      RootSet.Covers Sample.rootedLeaf.roots (Sample.loneLeaf Sample.returning).roots ∧
      (Sample.loneLeaf Sample.returning).Trusts ∧ Sample.rootedLeaf.Trusts := by
  have hasks := Sample.asks_loneLeaf Sample.returning
  have hpolicy : Sample.unlinked.Relaxes Sample.accepting :=
    ⟨fun check _ => by cases check <;> rfl, fun _ => rfl⟩
  have hroots :
      RootSet.Covers Sample.rootedLeaf.roots (Sample.loneLeaf Sample.returning).roots := by
    rintro roots ⟨⟩
    exact ⟨Sample.roots.insert Sample.leaf, rfl, by decide⟩
  have htrusts := Sample.trusts_loneLeaf
  exact ⟨rfl, rfl, hasks, hpolicy, hroots, htrusts,
    trusts_of_relaxes hasks hasks rfl rfl hpolicy hroots htrusts⟩

end PeerTrust
