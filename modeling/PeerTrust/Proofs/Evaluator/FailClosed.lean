/-
  `Proofs.Evaluator.FailClosed` — no trust without a ground for it.

  The check of the root can be given up in three places: by the settings, by the
  failure to load the roots that the settings ask for, and by the policy of one
  evaluation. `evaluateOnce_root_grounds` says that wherever the policy in force
  asks for the root and the peer is trusted all the same, there is one of three
  grounds (`RootGround`), and that the two which are exceptions have been put on
  record by a warning of the same call.

  The step is `of_checkRoot_eq_ok`, on the check alone; `of_evaluate_trusted`
  carries it to an evaluation, and the settings decide which roots that had.
-/
import PeerTrust.Proofs.Evaluator.Provision

namespace PeerTrust

open Traced

/-! ### The check of the root -/

/-- **A root that passes is anchored, or its exception is on record.** The record is made
before the observer is told, so it does not depend on the observer. -/
theorem CheckContext.of_checkRoot_eq_ok {ctx : CheckContext}
    (h : ctx.checkRoot.outcome = .ok ()) :
    ctx.Anchored ∨ ctx.Excepted ∧
      .report (.selfSignedAccepted ctx.peerIdentity (some ctx.target)) ∈ ctx.checkRoot.events := by
  by_cases hanchored : ctx.Anchored
  · exact Or.inl hanchored
  · have hexcepted := (anchored_or_excepted_of_checkRoot h).resolve_left hanchored
    refine Or.inr ⟨hexcepted, ?_⟩
    rw [checkRoot_of_excepted hanchored hexcepted, recordSelfSigned, events_report_bind]
    exact List.mem_cons_self

/-! ### Grounds for trust -/

/-- **The grounds on which a call with settings of its own may trust a root.** The chain
ends in a root that the store gives in this call; or it is a lone certificate that the
policy accepts, with an audit record of its identity; or no policy was passed, the store
could not be loaded, and the settings give up the check, with a warning that says so. -/
inductive RootGround (env : Environment) (c : Configuration) (chain : Chain) (target : String)
    (override : Option Policy) (call : Traced Verdict) (v : Verdict) : Prop
  | anchored {roots : RootSet} {last : Certificate}
      (loaded : (RootSet.ofConfig env c.store).outcome = .ok roots)
      (ends : chain.toList.getLast? = some last) (trusted : last ∈ roots.anchors)
  | excepted {identity : String} (alone : chain.toList.length = 1)
      (accepts : (override.getD c.policy).acceptSelfSigned = true)
      (claimed : chain.leaf.peerIdentity.outcome = .ok identity)
      (audited : call.Warns .audit (.selfSignedAccepted identity (some target)))
  | disabled {e : StoreLoadError} {cause remedy : String} (ungiven : override = none)
      (failed : (RootSet.ofConfig env c.store).outcome = .error (.storeLoad e))
      (asked : c.store.onLoadError = .disableRootCheck)
      (warned : call.Warns .config (.rootCheckDisabled e))
      (worded : (Report.rootCheckDisabled e).text =
        cause ++ "root certificate checking is DISABLED" ++ remedy)
      (skipped : .root ∉ v.checks)

/-- The warning of a check given up says so, between its cause and its reason. -/
theorem Report.text_rootCheckDisabled (e : StoreLoadError) :
    (Report.rootCheckDisabled e).text =
      (e.message ++ "; ") ++ "root certificate checking is DISABLED" ++
        (" because truststore.on_load_error is " ++ OnLoadError.text .disableRootCheck) := by
  have hwords : "; root certificate checking is DISABLED because " =
      "; " ++ "root certificate checking is DISABLED" ++ " because " := by simp
  have hreason : " because truststore.on_load_error is " =
      " because " ++ "truststore.on_load_error is " := by simp
  show e.message ++ "; root certificate checking is DISABLED because " ++
    "truststore.on_load_error is " ++ OnLoadError.text .disableRootCheck = _
  rw [hwords, hreason]
  simp only [String.append_assoc]

/-- Settings that name a store and give up the check of the root if it cannot be loaded. -/
def Sample.lenient : Configuration where
  hostname := none
  policy := ⟨false, true, true, true, false⟩
  store := ⟨some "roots.pem", .pem, none, .disableRootCheck⟩

namespace Evaluator

variable {env : Environment} {holders : Holders} {observer : ObserverArgument} {ev : Evaluator}
  {r : Request} {v : Verdict}

/-- **What an evaluation that trusts the peer has gone through.** All enabled checks are in
the verdict, and an enabled check of the root found the evaluator with roots. Either the
chain ends in one of them, or the exception is on record. -/
theorem of_evaluate_trusted (h : (ev.evaluate env holders r).outcome = .ok v)
    (htrusted : v.trusted = true) :
    ∃ chain target override reading identity, r.Asks chain target override reading ∧
      chain.leaf.peerIdentity.outcome = .ok identity ∧
      v.checks = (override.getD ev.policy).checks ∧
      ((override.getD ev.policy).verifyRoot = true → ∃ roots, ev.rootsIn holders = some roots ∧
        ((∃ last, chain.toList.getLast? = some last ∧ last ∈ roots.anchors) ∨
          chain.toList.length = 1 ∧ (override.getD ev.policy).acceptSelfSigned = true ∧
            .report (.selfSignedAccepted identity (some target)) ∈
              (ev.evaluate env holders r).events)) := by
  obtain ⟨chain, target, override, reading, identity, t, hasks, hneeded, -, hidentity, hjudge,
    hjudged⟩ := of_evaluate_eq_ok h
  obtain ⟨hchecks, hrun⟩ := CheckContext.of_judge_trusted hjudge htrusted
  refine ⟨chain, target, override, reading, identity, hasks, hidentity, hchecks, fun hroot => ?_⟩
  obtain ⟨roots, hroots⟩ :=
    Option.ne_none_iff_exists'.mp ((ev.rootsIn_ne_none_iff holders).mpr (hneeded hroot))
  obtain ⟨hok, hevents⟩ := hrun .root hroot
  refine ⟨roots, hroots, ?_⟩
  rcases CheckContext.of_checkRoot_eq_ok hok with
    ⟨found, last, hfound, hlast, hmem⟩ | ⟨⟨halone, haccepts⟩, hrecord⟩
  · obtain rfl := Option.some.inj (hroots.symm.trans hfound)
    exact Or.inl ⟨last, hlast, hmem⟩
  · exact Or.inr ⟨halone, haccepts, hjudged (hevents hrecord)⟩

/-- **Trust in one call with settings of its own has a ground.** If the policy in force asks
for the root, the ground is one of the three of `RootGround`. If that policy was passed with
the call, then the settings asked for the roots as well and they were loaded: a check that
the settings leave out, or give up, cannot be asked for and then be passed without roots. -/
theorem evaluateOnce_root_grounds {config : Value}
    (h : (evaluateOnce env config observer r).outcome = .ok v) (htrusted : v.trusted = true) :
    ∃ c chain target override reading, Configuration.ofArgument env config = .ok c ∧
      r.Asks chain target override reading ∧
      ((override.getD c.policy).verifyRoot = true →
        RootGround env c chain target override (evaluateOnce env config observer r) v) ∧
      (∀ policy, override = some policy → policy.verifyRoot = true →
        c.policy.verifyRoot = true ∧ .root ∈ v.checks ∧
          ∃ roots, (RootSet.ofConfig env c.store).outcome = .ok roots) := by
  obtain ⟨c, holders, ev, hc, hmade, heval, hevents⟩ := of_evaluateOnce_eq_ok h
  obtain ⟨holder, hprovides, hroots, hsub⟩ := of_ofConfiguration_eq_ok hmade
  obtain ⟨chain, target, override, reading, identity, hasks, hidentity, hchecks, hground⟩ :=
    of_evaluate_trusted heval htrusted
  refine ⟨c, chain, target, override, reading, hc, hasks, ?_⟩
  cases holder with
  | some held =>
    -- the roots are there, and the policy of the evaluator is the one of the settings
    obtain ⟨hon, hpolicy, hload⟩ := hprovides.of_some
    rw [hpolicy] at hchecks hground
    refine ⟨fun hverify => ?_, ?_⟩
    · obtain ⟨roots, hfound, hwhy⟩ := hground hverify
      obtain rfl : held.roots = roots := Option.some.inj (hroots.symm.trans hfound)
      rcases hwhy with ⟨last, hlast, hmem⟩ | ⟨halone, haccepts, hrecord⟩
      · exact .anchored hload hlast hmem
      · refine .excepted halone haccepts hidentity ⟨mem_reports_iff.mpr ?_, rfl, rfl⟩
        rw [hevents]
        exact List.mem_append_right _ hrecord
    · rintro policy rfl hverify
      refine ⟨hon, ?_, held.roots, hload⟩
      rw [hchecks]
      exact (policy.mem_checks_iff .root).mpr hverify
  | none =>
    -- without roots, the policy in force did not ask for them
    have hquiet : (override.getD ev.policy).verifyRoot ≠ true := by
      intro hverify
      obtain ⟨roots, hfound, -⟩ := hground hverify
      rw [hroots] at hfound
      cases hfound
    refine ⟨fun hverify => ?_, ?_⟩
    · cases override with
      | some policy => exact absurd hverify hquiet
      | none =>
        obtain ⟨e, hpolicy, hfailed, hasked, hwarned⟩ := hprovides.of_none hverify
        refine .disabled rfl hfailed hasked (hwarned.mono ?_)
          (Report.text_rootCheckDisabled e) ?_
        · rw [hevents]
          exact List.Subset.trans hsub (List.subset_append_left _ _)
        · rw [hchecks]
          exact fun hmem => hquiet ((Policy.mem_checks_iff _ .root).mp hmem)
    · rintro policy rfl hverify
      exact absurd hverify hquiet

/-- Settings that give up the check of the root, in a working directory without the store
that they name: a forged certificate is trusted, on the third ground. -/
theorem evaluateOnce_root_grounds_without_store :
    let call := evaluateOnce Sample.env (.configuration Sample.lenient) .absent
      (.ofParts .library Sample.forgedChain "chat.example.com" none none)
    ∃ v, call.outcome = .ok v ∧ v.trusted = true ∧
      ∃ c chain target override reading,
        Configuration.ofArgument Sample.env (.configuration Sample.lenient) = .ok c ∧
        (Request.ofParts .library Sample.forgedChain "chat.example.com" none none).Asks chain target
          override reading ∧
        ((override.getD c.policy).verifyRoot = true →
          RootGround Sample.env c chain target override call v) ∧
        (∀ policy, override = some policy → policy.verifyRoot = true →
          c.policy.verifyRoot = true ∧ .root ∈ v.checks ∧
            ∃ roots, (RootSet.ofConfig Sample.env c.store).outcome = .ok roots) := by
  have hcall : (evaluateOnce Sample.env (.configuration Sample.lenient) .absent
      (.ofParts .library Sample.forgedChain "chat.example.com" none none)).outcome =
      .ok ⟨true, "chat.example.com", "chat.example.com", .ofInstant .origin,
        [.identity, .validity], none⟩ := by rfl
  exact ⟨_, hcall, rfl, evaluateOnce_root_grounds hcall rfl⟩

end Evaluator
end PeerTrust
