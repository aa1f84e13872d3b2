/-
  `Proofs.Evaluator.LoneCertificate` — whom the exception of the root check admits.

  A policy that accepts self-signed certificates lets a chain pass the check of the
  root though it ends in no trusted root. `lone_of_root_passes` says that such a
  chain is a lone certificate and that its acceptance is on record; and that every
  lone certificate passes in this way, whoever issued it, unless the observer
  objects. The certificate that `foreign_leaf_passes` names is issued by another
  party and signed with that party's key: being alone is all that counts.

  The step is `run_of_mem_runAll`, read on verdicts: a check that is listed has
  passed, or it is the one that the verdict names as failed. In the other direction
  `passes_of_decides` reads a check that is met off the verdict that decides.
-/
import PeerTrust.Proofs.Evaluator.Audit
import PeerTrust.Proofs.Evaluator.FailClosed

namespace PeerTrust

open Traced

/-! ### Checks in a verdict -/

/-- **The check has run and passed,** as far as the verdict tells. -/
structure Verdict.Passes (v : Verdict) (check : CheckName) : Prop where
  listed : check ∈ v.checks
  unblamed : v.failedCheck ≠ some check

namespace CheckContext

variable {ctx : CheckContext} {v : Verdict} {check : CheckName}

/-- **A check that the verdict lists has passed, or it is the one that failed** and gave the
verdict its error. Either way its events are events of the judgement. -/
theorem run_of_mem_checks (h : ctx.judge.outcome = .ok v) (hlisted : check ∈ v.checks) :
    (ctx.run check).events ⊆ ctx.judge.events ∧
      ((ctx.run check).outcome = .ok () ∨
        ∃ e, v.error = some e ∧ v.failedCheck = some check ∧
          (ctx.run check).outcome = .error (.trust e)) := by
  obtain ⟨hrun, -⟩ := of_judge_eq_ok h
  obtain ⟨hsub, hended⟩ := run_of_mem_runAll hrun hlisted
  refine ⟨List.Subset.trans hsub (events_runAll_subset_judge hrun), hended.imp_right ?_⟩
  rintro ⟨e, he, hlast, hobjects⟩
  refine ⟨e, he, ?_, hobjects⟩
  rw [Verdict.failedCheck, he]
  exact hlast

/-- **A check that is met is listed if all checks before it are met,** and it is never the one that
failed. -/
theorem passes_of_decides (hdecides : v.Decides ctx) {before after : List CheckName}
    (hsplit : ctx.policy.checks = before ++ check :: after) (hbefore : ∀ c ∈ before, ctx.Meets c)
    (hmeets : ctx.Meets check) : v.Passes check := by
  cases htrusted : v.trusted with
  | true =>
    obtain ⟨hchecks, -, hfailed⟩ := hdecides.accepted htrusted
    refine ⟨by rw [hchecks, hsplit]; simp, ?_⟩
    rw [hfailed]
    exact nofun
  | false =>
    obtain ⟨met, last, rest, e, hchecks, -, hunmet, -, hlisted, -, hfailed⟩ :=
      hdecides.rejected htrusted
    have hne : last ≠ check := by
      rintro rfl
      exact hunmet hmeets
    refine ⟨?_, by rw [hfailed]; exact fun heq => hne (Option.some.inj heq)⟩
    -- the check that failed comes behind this one, since those before it are met
    rw [hlisted]
    rcases List.append_eq_append_iff.mp (hsplit.symm.trans hchecks) with
      ⟨between, hmet, hrest⟩ | ⟨between, hearly, hrest⟩
    · cases between with
      | nil => exact absurd (List.cons.inj hrest).1.symm hne
      | cons c between =>
        obtain ⟨rfl, -⟩ := List.cons.inj hrest
        rw [hmet]
        simp
    · cases between with
      | nil => exact absurd (List.cons.inj hrest).1 hne
      | cons c between =>
        obtain ⟨rfl, -⟩ := List.cons.inj hrest
        exact absurd (hbefore _ (by rw [hearly]; simp)) hunmet

/-- **Where the exception is granted and the observer returns, the check of the root passes,**
whatever the verdict is in the end. -/
theorem exists_judge_passes_root {t : Instant} (hreference : ctx.reference = .ofInstant t)
    (hobserver : Observer.Returns ctx.observer) (h : ctx.GrantsException)
    (hwhole : ∀ defect, ¬ctx.BreaksOff defect) :
    ∃ v, ctx.judge.outcome = .ok v ∧ v.Passes .root := by
  obtain ⟨v, hv, hdecides⟩ := (ctx.judge_decides_iff hreference hobserver).mpr hwhole
  obtain ⟨before, after, hchecks, hbefore, -⟩ := h.exists_runAll_eq
  refine ⟨v, hv, passes_of_decides hdecides hchecks (fun c hc => ?_) (Or.inr h.excepted)⟩
  exact (ctx.ends_run hreference hobserver c).outcome_eq_ok_iff.mp (hbefore c hc).1

/-- **A lone certificate breaks off only the check of its window,** and only with its subject. -/
theorem breaksOff_of_alone {c : Certificate} (hc : ctx.chain.toList = [c])
    (haccepts : ctx.policy.acceptSelfSigned = true) {defect : NameDefect}
    (h : ctx.BreaksOff defect) : c.subject.defect? = some defect := by
  obtain ⟨before, check, after, -, -, hstumbles⟩ := h
  cases hstumbles with
  | link fault unread =>
    obtain ⟨-, hnext⟩ := fault.adjacent
    rw [hc] at hnext
    cases hnext
  | root unanchored unexcepted illegible => exact absurd ⟨by rw [hc]; rfl, haccepts⟩ unexcepted
  | window reference outside illegible =>
    obtain rfl : _ = c := by simpa [hc] using List.mem_of_getElem? outside.atDepth
    exact illegible

end CheckContext

/-! ### The exception -/

namespace Evaluation

variable {call : Evaluation} {ctx : CheckContext}

theorem mem_events_of_judge {e : Event} (h : call.Reaches ctx) (he : e ∈ ctx.judge.events) :
    e ∈ call.perform.events := by
  rw [perform, h.evaluate_eq.2]
  exact List.mem_append_right _ he

/-- **The exception admits lone certificates, and all of them.** Where the policy asks for the
root and accepts self-signed certificates, and the chain ends in no trusted root: if the
check of the root passes, then the chain is a lone certificate and its acceptance is on
record. A longer chain that comes to the check is rejected by it. And every lone certificate
passes the check, with the record, if the observer returns; its issuer plays no part. There is a
verdict that says so if its subject can be read. -/
theorem lone_of_root_passes (hreaches : call.Reaches ctx) (hasked : ctx.policy.verifyRoot = true)
    (haccepts : ctx.policy.acceptSelfSigned = true) (hunanchored : ¬ctx.Anchored) :
    (∀ v, call.perform.outcome = .ok v → v.Passes .root →
      (∃ c, ctx.chain.toList = [c]) ∧ .report ctx.exceptionRecord ∈ call.perform.events) ∧
    (∀ v, call.perform.outcome = .ok v → .root ∈ v.checks → ctx.chain.toList.length ≠ 1 →
      v.failedCheck = some .root ∧
        v.error = some (.rootNotTrusted (.str ctx.peerIdentity) (.str ctx.target) false)) ∧
    (∀ c, ctx.chain.toList = [c] → Observer.Returns ctx.observer →
      ctx.checkRoot.outcome = .ok () ∧ .report ctx.exceptionRecord ∈ call.perform.events ∧
        (c.subject.defect? = none → ∃ v, call.perform.outcome = .ok v ∧ v.Passes .root)) := by
  have houtcome : call.perform.outcome = ctx.judge.outcome := hreaches.evaluate_eq.1
  rw [houtcome]
  refine ⟨fun v hv hpasses => ?_, fun v hv hlisted hlong => ?_, fun c hc hobserver => ?_⟩
  · obtain ⟨hsub, hok | ⟨e, -, hfailed, -⟩⟩ := CheckContext.run_of_mem_checks hv hpasses.listed
    · obtain ⟨hexcepted, hrecord⟩ :=
        (CheckContext.of_checkRoot_eq_ok hok).resolve_left hunanchored
      exact ⟨List.length_eq_one_iff.mp hexcepted.1, mem_events_of_judge hreaches (hsub hrecord)⟩
    · exact absurd hfailed hpasses.unblamed
  · have hnot : ¬ctx.Excepted := fun hexcepted => hlong hexcepted.1
    have halone : ctx.chain.isAlone = false := by
      rw [← Bool.not_eq_true, ctx.chain.isAlone_iff]
      exact hlong
    obtain ⟨-, hok | ⟨e, he, hfailed, hobjects⟩⟩ := CheckContext.run_of_mem_checks hv hlisted
    · exact absurd (CheckContext.anchored_or_excepted_of_checkRoot hok)
        (not_or.mpr ⟨hunanchored, hnot⟩)
    · obtain rfl := CheckContext.eq_of_checkRoot_of_neither hunanchored hnot hobjects
      rw [halone] at he
      exact ⟨hfailed, he⟩
  · have hgrants : ctx.GrantsException :=
      ⟨hasked, hunanchored, by rw [hc]; rfl, haccepts⟩
    obtain ⟨t, hreference⟩ := hreaches.exists_reference
    refine ⟨hgrants.outcome_run_root.trans (hobserver _), ?_, fun hlegible => ?_⟩
    · have hrecord : .report ctx.exceptionRecord ∈ ctx.judge.auditTrail := by
        rw [CheckContext.auditTrail_judge_of_grants hgrants]
        exact List.mem_cons_self
      exact mem_events_of_judge hreaches (List.mem_filter.mp hrecord).1
    · refine CheckContext.exists_judge_passes_root hreference hobserver hgrants fun defect h => ?_
      have hdefect := CheckContext.breaksOff_of_alone hc haccepts h
      rw [hlegible] at hdefect
      cases hdefect

/-- A lone certificate that the root has issued and signed passes, where the root is no part of
the chain. -/
theorem lone_of_root_passes_with_issuer :
    let call := Sample.loneLeaf none
    let ctx := Sample.loneContext none
    call.Reaches ctx ∧ ctx.policy.verifyRoot = true ∧ ctx.policy.acceptSelfSigned = true ∧
      ¬ctx.Anchored ∧ Sample.leaf.issuedBy Sample.root = true ∧
      ∃ v, call.perform.outcome = .ok v ∧ v.Passes .root ∧
        .report ctx.exceptionRecord ∈ call.perform.events := by
  intro call ctx
  have hunanchored := Sample.not_anchored_loneContext none
  have hreaches := Sample.reaches_loneLeaf none
  obtain ⟨-, -, hlone⟩ := lone_of_root_passes hreaches rfl rfl hunanchored
  have hobserver : Observer.Returns ctx.observer := fun _ => rfl
  obtain ⟨-, hrecord, hpasses⟩ := hlone Sample.leaf rfl hobserver
  obtain ⟨v, hv, hroot⟩ := hpasses rfl
  exact ⟨hreaches, rfl, rfl, hunanchored, by decide, v, hv, hroot, hrecord⟩

/-- **The exception asks nothing of the issuer:** a certificate that names another party as
its issuer, and is not its own, passes the check of the root alone and untrusted. -/
theorem foreign_leaf_passes :
    let call := Sample.loneLeaf none
    Sample.accepting.verifyRoot = true ∧ Sample.accepting.acceptSelfSigned = true ∧
      Sample.leaf ∉ Sample.roots.anchors ∧ Sample.leaf.issuedBy Sample.leaf = false ∧
      call.perform.outcome = .ok ⟨true, "chat.example.com", "chat.example.com",
        .ofInstant .origin, [.chain, .root, .identity, .validity], none⟩ ∧
      .report (.selfSignedAccepted "chat.example.com" (some "chat.example.com")) ∈
        call.perform.events := by
  refine ⟨rfl, rfl, by decide, by decide, rfl, ?_⟩
  have htrail := (audited (Sample.reaches_loneLeaf none)).granted
    (Sample.grantsException_loneContext none)
  have hrecord : .report (.selfSignedAccepted "chat.example.com" (some "chat.example.com")) ∈
      (Sample.loneLeaf none).perform.auditTrail := by
    rw [htrail]
    exact List.mem_cons_self
  exact (List.mem_filter.mp hrecord).1

end Evaluation
end PeerTrust
