/-
  `Proofs.Evaluator.Record` — every decision is on record once, and last.

  An evaluation that gives a verdict reports its decision, and nothing after it. A
  decision against the peer names the check that ended the run and the kind of its
  error; unless the observer objected, the report before it is the one warning of that
  check. An evaluation that fails reports no decision. Either the observer has failed, or
  a check has stumbled over a name that cannot be read, behind checks that have passed;
  or it has not come to a check at all.

  Both follow from `runLeaves_runAll`: it lists what a run leaves, and the reference
  of an evaluation is in UTC, so that no check fails over its clock.
-/
import PeerTrust.Proofs.Evaluator.Audit

namespace PeerTrust

open Traced

/-! ### Reports among events -/

/-- The report that an event is. -/
def Event.report? : Event → Option Report
  | .report r => some r
  | .observed _ => none

theorem Traced.reports_eq {α : Type} (x : Traced α) :
    x.reports = x.events.filterMap Event.report? :=
  rfl

/-- A report among events is one of them. -/
theorem mem_filterMap_report?_iff {events : List Event} {r : Report} :
    r ∈ events.filterMap Event.report? ↔ .report r ∈ events := by
  rw [← mem_reports_iff (x := ⟨events, .ok ()⟩), reports_eq]

/-- An action that keeps to a channel reports nothing elsewhere. -/
theorem Traced.KeepsTo.channel_eq {α : Type} {x : Traced α} {channel : Channel}
    (h : x.KeepsTo channel) {r : Report} (hr : .report r ∈ x.events) : r.channel = channel := by
  obtain ⟨s, hs, hchannel⟩ := h _ hr
  obtain rfl : r = s := by simpa using hs
  exact hchannel

namespace CheckContext

variable {ctx : CheckContext} {ran : List CheckName} {error : Option TrustError}

/-! ### Judgements -/

/-- **The report of a decision,** from the checks that ran and the objection of the last. -/
def decision (ctx : CheckContext) (ran : List CheckName) (error : Option TrustError) : Report :=
  match error, ran.getLast? with
  | some e, some check => .rejected ctx.target check e.kind
  | _, _ => .trusted ctx.target ctx.peerIdentity ran

/-- The report of the decision is all that a judgement adds to its run. -/
theorem events_judge (h : (ctx.runAll ctx.policy.checks).outcome = .ok (ran, error)) :
    ctx.judge.events =
      (ctx.runAll ctx.policy.checks).events ++ [.report (ctx.decision ran error)] := by
  rw [judge, events_bind_of_ok h]
  congr 1
  unfold decision
  cases error with
  | none => rfl
  | some e => cases hlast : ran.getLast? <;> simp only [hlast] <;> rfl

/-- A run without a result is all that is left of its judgement. -/
theorem events_judge_of_error {f : Failure}
    (h : (ctx.runAll ctx.policy.checks).outcome = .error f) :
    ctx.judge.events = (ctx.runAll ctx.policy.checks).events := by
  rw [judge, events_bind_of_error h]

theorem outcome_judge_eq_error_iff {f : Failure} :
    ctx.judge.outcome = .error f ↔ (ctx.runAll ctx.policy.checks).outcome = .error f := by
  constructor
  · intro h
    cases hrun : (ctx.runAll ctx.policy.checks).outcome with
    | ok result =>
      obtain ⟨ran, error⟩ := result
      rw [outcome_judge hrun] at h
      cases h
    | error g =>
      rw [judge, outcome_bind_of_error hrun, Except.error.injEq] at h
      rw [h]
  · intro h
    rw [judge, outcome_bind_of_error h]

/-! ### Checks that fail -/

/-- **A check that does not pass has objected, or it has stumbled, or the observer has failed.** In
UTC there is nothing else that it could have come to grief over. -/
theorem Leaves.cases_of_error {check : CheckName} {events : List Event} {f : Failure} {t : Instant}
    (h : ctx.Leaves check events (.error f)) (hreference : ctx.reference = .ofInstant t) :
    (∃ r e, f = .trust e ∧ events = [.report r] ∧ r.level = .warning ∧
        r.channel = check.channel) ∨
      (∃ defect, f = .illegibleName defect ∧ events = [] ∧ ctx.Stumbles check defect) ∨
      (check = .root ∧
        events = .report ctx.exceptionRecord ::
          (Observer.tell ctx.observer ctx.peerIdentity).events ∧
        (Observer.tell ctx.observer ctx.peerIdentity).outcome = .error f) := by
  generalize hends : (Except.error f : Except Failure Unit) = ends at h
  cases h with
  | silent => cases hends
  | objection loud own =>
    obtain rfl := Except.error.inj hends
    exact Or.inl ⟨_, _, rfl, rfl, loud, own⟩
  | stumbled stumbles =>
    obtain rfl := Except.error.inj hends
    exact Or.inr (Or.inl ⟨_, rfl, rfl, stumbles⟩)
  | exempted unanchored excepted => exact Or.inr (Or.inr ⟨rfl, rfl, rfl⟩)
  | unplaced elsewhere => exact absurd hreference (elsewhere t)

end CheckContext

namespace Evaluation

variable {call : Evaluation} {ctx : CheckContext} {f : Failure}

/-! ### Observers that do not return -/

/-- **The failure is the observer's:** it was told in this call, and that is how it failed. -/
def ObserverRaised (call : Evaluation) (f : Failure) : Prop :=
  ∃ react identity, call.evaluator.observer = some react ∧
    .observed identity ∈ call.perform.events ∧ react identity = .error f

/-- Only an observer that can be called does not return. -/
theorem of_tell_eq_error (h : call.Reaches ctx)
    (hfails : (Observer.tell ctx.observer ctx.peerIdentity).outcome = .error f) :
    ∃ react, call.evaluator.observer = some react ∧ react ctx.peerIdentity = .error f ∧
      (Observer.tell ctx.observer ctx.peerIdentity).events = [.observed ctx.peerIdentity] := by
  cases hobserver : call.evaluator.observer with
  | none =>
    rw [Evaluator.Reaches.observer_eq h, hobserver] at hfails
    cases hfails
  | some react =>
    have hreact := (outcome_tell_eq h hobserver).symm.trans hfails
    refine ⟨react, rfl, hreact, ?_⟩
    rw [Evaluator.Reaches.observer_eq h, hobserver]
    exact events_bind_of_ok rfl _

/-- **A check of an evaluation does not pass** for one of three reasons: it objects, with a warning
on its channel; it stumbles in silence; or it is the check of the root, and the observer fails. -/
theorem leaves_cases_of_error {check : CheckName} {events : List Event} (h : call.Reaches ctx)
    (hleaves : ctx.Leaves check events (.error f)) :
    (∃ r e, f = .trust e ∧ events = [.report r] ∧ r.level = .warning ∧
        r.channel = check.channel) ∨
      (∃ defect, f = .illegibleName defect ∧ events = [] ∧ ctx.Stumbles check defect) ∨
      (check = .root ∧ events = [.report ctx.exceptionRecord, .observed ctx.peerIdentity] ∧
        ∃ react, call.evaluator.observer = some react ∧ react ctx.peerIdentity = .error f) := by
  obtain ⟨t, hreference⟩ := Evaluator.Reaches.exists_reference h
  refine (hleaves.cases_of_error hreference).imp_right (Or.imp_right ?_)
  rintro ⟨hroot, hevents, hfails⟩
  obtain ⟨react, hreact, hraised, htold⟩ := of_tell_eq_error h hfails
  rw [htold] at hevents
  exact ⟨hroot, hevents, react, hreact, hraised⟩

/-- **The failure is that of a check over a name:** the enabled checks before it have passed, and it
stumbles. -/
inductive Stumbled (call : Evaluation) : Failure → Prop
  | intro {ctx : CheckContext} {before after : List CheckName} {check : CheckName}
      {defect : NameDefect} (reaches : call.Reaches ctx)
      (split : ctx.policy.checks = before ++ check :: after)
      (passed : ∀ c ∈ before, (ctx.run c).outcome = .ok ())
      (stumbles : ctx.Stumbles check defect) : Stumbled call (.illegibleName defect)

/-- **A check that stumbles ends the evaluation.** -/
theorem Stumbled.outcome_perform (h : call.Stumbled f) : call.perform.outcome = .error f := by
  cases h with
  | intro reaches split passed stumbles =>
    obtain ⟨t, hreference⟩ := Evaluator.Reaches.exists_reference reaches
    have houtcome : call.perform.outcome = _ := (Evaluator.Reaches.evaluate_eq reaches).1
    rw [houtcome, CheckContext.outcome_judge_eq_error_iff, split,
      CheckContext.outcome_runAll_append passed, CheckContext.outcome_runAll_cons_of_failure
        (CheckContext.outcome_run_of_stumbles hreference stumbles) nofun]
    rfl

/-! ### What is on record -/

/-- **The decision is on record:** it comes last, and nothing before it is on its channel. It is
for information exactly if the peer is trusted. A decision against the peer is a warning that
names the check and the kind of the error; if the observer did not raise that error, the report
before it is a warning of that check, and the only one on the channel of that check. -/
structure Recorded (call : Evaluation) (v : Verdict) (before : List Report)
    (decision : Report) : Prop where
  reports_eq : call.perform.reports = before ++ [decision]
  channel_eq : decision.channel = .evaluator
  once : ∀ r ∈ before, r.channel ≠ .evaluator
  favour_iff : decision.level = .info ↔ v.trusted = true
  rejection : v.trusted = false → ∃ check e, v.checks.getLast? = some check ∧ v.error = some e ∧
    decision.level = .warning ∧
    decision.text = v.target ++ " rejected by " ++ check.text ++ ": " ++ e.kind.name ∧
    (¬call.ObserverRaised (.trust e) → ∃ earlier warning, before = earlier ++ [warning] ∧
      warning.level = .warning ∧ warning.channel = check.channel ∧
      ∀ r ∈ earlier, r.channel ≠ check.channel)

/-- **Nothing is on record but the reading of the identity,** and nobody was told. -/
structure Unchecked (call : Evaluation) : Prop where
  reports : ∀ r ∈ call.perform.reports, r.channel = .util
  observations : call.perform.observations = []

section Verdicts

variable {ran : List CheckName} {error : Option TrustError} {before earlier : List Event}
  {check : CheckName} {e : TrustError}

/-- The events of an evaluation that gives a verdict: those of the identity, those of the run,
and the decision. -/
theorem reports_perform (h : call.Reaches ctx)
    (hrun : (ctx.runAll ctx.policy.checks).outcome = .ok (ran, error)) :
    call.perform.reports =
      (ctx.chain.leaf.peerIdentity.events ++
        (ctx.runAll ctx.policy.checks).events).filterMap Event.report? ++
      [ctx.decision ran error] := by
  have hevents : call.perform.events = _ := (Evaluator.Reaches.evaluate_eq h).2
  rw [reports_eq, hevents, CheckContext.events_judge hrun, ← List.append_assoc,
    List.filterMap_append]
  rfl

/-- **Before a check ends the run,** no report is on the channel of decisions or of a check. -/
theorem channel_ne_of_unobtrusive (hearlier : CheckContext.Unobtrusive earlier) {r : Report}
    (hr : r ∈ (ctx.chain.leaf.peerIdentity.events ++ earlier).filterMap Event.report?) :
    r.channel ≠ .evaluator ∧ ∀ check : CheckName, r.channel ≠ check.channel := by
  have hchannel : r.channel = .util ∨ r.channel = .audit := by
    rcases List.mem_append.mp (mem_filterMap_report?_iff.mp hr) with hidentity | hearly
    · exact Or.inl (ctx.chain.leaf.keepsTo_peerIdentity.channel_eq hidentity)
    · exact Or.inr (hearlier r hearly)
  rcases hchannel with hutil | haudit
  · rw [hutil]
    exact ⟨nofun, fun check => by cases check <;> exact nofun⟩
  · rw [haudit]
    exact ⟨nofun, fun check => by cases check <;> exact nofun⟩

/-- **A verdict in favour of the peer is recorded.** -/
theorem recorded_of_clear (h : call.Reaches ctx)
    (hrun : (ctx.runAll ctx.policy.checks).outcome = .ok (ran, none))
    (hclear : CheckContext.Unobtrusive (ctx.runAll ctx.policy.checks).events) :
    ∃ before decision, call.Recorded
      ⟨true, ctx.target, ctx.peerIdentity, ctx.reference, ran, none⟩ before decision := by
  refine ⟨_, _, reports_perform h hrun, rfl, fun r hr => ?_, ⟨fun _ => rfl, fun _ => rfl⟩, nofun⟩
  exact (channel_ne_of_unobtrusive hclear hr).1

/-- **A verdict against the peer is recorded,** behind the warning of the check that objected
unless the observer did. -/
theorem recorded_of_stopped {last : List Event} (h : call.Reaches ctx)
    (hrun : (ctx.runAll ctx.policy.checks).outcome = .ok (ran, some e))
    (hevents : (ctx.runAll ctx.policy.checks).events = earlier ++ last)
    (hclear : CheckContext.Unobtrusive earlier) (hlisted : ran.getLast? = some check)
    (hleaves : ctx.Leaves check last (.error (.trust e))) :
    ∃ before decision, call.Recorded
      ⟨false, ctx.target, ctx.peerIdentity, ctx.reference, ran, some e⟩ before decision := by
  have hdecision : ctx.decision ran (some e) = .rejected ctx.target check e.kind := by
    simp only [CheckContext.decision, hlisted]
  have hreports := reports_perform h hrun
  rw [hevents, hdecision] at hreports
  refine ⟨_, _, hreports, rfl, fun r hr => ?_, ⟨nofun, nofun⟩, fun _ => ?_⟩
  · rw [← List.append_assoc, List.filterMap_append] at hr
    rcases List.mem_append.mp hr with hearly | hlast
    · exact (channel_ne_of_unobtrusive hclear hearly).1
    · rcases hleaves.channel_cases (mem_filterMap_report?_iff.mp hlast) with haudit | hown
      · rw [haudit]
        decide
      · rw [hown]
        cases check <;> decide
  · refine ⟨check, e, hlisted, rfl, rfl, rfl, fun hunraised => ?_⟩
    rcases leaves_cases_of_error h hleaves with
      ⟨w, e', hsame, rfl, hloud, hown⟩ | ⟨defect, hname, -⟩ | ⟨-, rfl, react, hreact, hraised⟩
    · -- the check objected, so its warning is the last report before the decision
      refine ⟨(ctx.chain.leaf.peerIdentity.events ++ earlier).filterMap Event.report?, w, ?_, hloud,
        hown, fun r hr => ?_⟩
      · rw [← List.append_assoc, List.filterMap_append]
        rfl
      · exact (channel_ne_of_unobtrusive hclear hr).2 check
    · cases hname
    · -- the observer objected, and was told in the run
      refine absurd ⟨react, ctx.peerIdentity, hreact, ?_, hraised⟩ hunraised
      have hperform : call.perform.events = _ := (Evaluator.Reaches.evaluate_eq h).2
      rw [hperform, CheckContext.events_judge hrun, hevents]
      simp

end Verdicts

/-- **Every verdict is recorded.** -/
theorem exists_recorded {v : Verdict} (h : call.perform.outcome = .ok v) :
    ∃ before decision, call.Recorded v before decision := by
  obtain ⟨ctx, hreaches⟩ := Evaluator.exists_reaches_of_evaluate h
  have hjudge : ctx.judge.outcome = .ok v :=
    (Evaluator.Reaches.evaluate_eq hreaches).1.symm.trans h
  obtain ⟨ran, error, hrun, rfl⟩ := CheckContext.exists_runAll_of_judge hjudge
  have hleaves := ctx.runLeaves_runAll ctx.policy.checks
  rw [hrun] at hleaves
  rcases hleaves.of_ok with
    ⟨rfl, hclear⟩ | ⟨earlier, last, check, e, rfl, hevents, hclear, hlisted, hobjects⟩
  · exact recorded_of_clear hreaches hrun hclear
  · exact recorded_of_stopped hreaches hrun hevents hclear hlisted hobjects

/-- **A failing run leaves no decision on record,** and nothing of a check but the record of an
exception. -/
theorem channel_of_failing (h : call.Reaches ctx)
    (hrun : (ctx.runAll ctx.policy.checks).outcome = .error f) {r : Report}
    (hr : r ∈ call.perform.reports) : r.channel = .util ∨ r.channel = .audit := by
  have hevents : call.perform.events = _ := (Evaluator.Reaches.evaluate_eq h).2
  have hleaves := ctx.runLeaves_runAll ctx.policy.checks
  rw [hrun] at hleaves
  obtain ⟨earlier, last, before, check, after, hsplit, hclear, -, -, hfails, hundecided⟩ :=
    hleaves.of_error
  rw [mem_reports_iff, hevents, CheckContext.events_judge_of_error hrun, hsplit] at hr
  rcases List.mem_append.mp hr with hidentity | hr
  · exact Or.inl (ctx.chain.leaf.keepsTo_peerIdentity.channel_eq hidentity)
  rcases List.mem_append.mp hr with hearly | hlast
  · exact Or.inr (hclear r hearly)
  right
  rcases leaves_cases_of_error h hfails with
    ⟨w, e, htrust, -⟩ | ⟨defect, -, rfl, -⟩ | ⟨-, rfl, -⟩
  · exact absurd htrust (hundecided e)
  · cases hlast
  · obtain rfl : r = ctx.exceptionRecord := by simpa using hlast
    rfl

/-- **An evaluation that fails at its checks** does so through its observer or over a name. -/
theorem raised_or_stumbled (h : call.Reaches ctx) (hfails : call.perform.outcome = .error f) :
    call.ObserverRaised f ∨ call.Stumbled f := by
  obtain ⟨houtcome, hperform⟩ := Evaluator.Reaches.evaluate_eq h
  have hrun := CheckContext.outcome_judge_eq_error_iff.mp (houtcome.symm.trans hfails)
  have hleaves := ctx.runLeaves_runAll ctx.policy.checks
  rw [hrun] at hleaves
  obtain ⟨earlier, last, before, check, after, hevents, -, hsplit, hpassed, hlast, hundecided⟩ :=
    hleaves.of_error
  rcases leaves_cases_of_error h hlast with
    ⟨w, e, htrust, -⟩ | ⟨defect, rfl, -, hstumbles⟩ | ⟨-, rfl, react, hreact, hraised⟩
  · exact absurd htrust (hundecided e)
  · exact Or.inr (.intro h hsplit hpassed hstumbles)
  · refine Or.inl ⟨react, ctx.peerIdentity, hreact, ?_, hraised⟩
    rw [perform, hperform, CheckContext.events_judge_of_error hrun, hevents]
    simp

/-- **An evaluation that never comes to its checks leaves no trace of one.** -/
theorem unchecked_of_not_reaches (h : ∀ ctx, ¬call.Reaches ctx) : call.Unchecked := by
  have hkeeps : call.perform.KeepsTo .util := Evaluator.keepsTo_evaluate_of_not_reaches h
  refine ⟨fun r hr => hkeeps.channel_eq (mem_reports_iff.mp hr), ?_⟩
  rw [observations, List.filterMap_eq_nil_iff]
  intro e he
  obtain ⟨r, rfl, -⟩ := hkeeps e he
  rfl

/-- **An evaluation that fails reports no decision.** The observer has failed, or a check has
stumbled, or no check has run. -/
theorem of_perform_eq_error (h : call.perform.outcome = .error f) :
    (∀ r ∈ call.perform.reports, r.channel = .util ∨ r.channel = .audit) ∧
      (call.ObserverRaised f ∨ call.Stumbled f ∨ call.Unchecked) := by
  by_cases hreach : ∃ ctx, call.Reaches ctx
  · obtain ⟨ctx, hreaches⟩ := hreach
    have houtcome : call.perform.outcome = _ := (Evaluator.Reaches.evaluate_eq hreaches).1
    have hrun := CheckContext.outcome_judge_eq_error_iff.mp (houtcome.symm.trans h)
    exact ⟨fun r => channel_of_failing hreaches hrun,
      (raised_or_stumbled hreaches h).imp_right Or.inl⟩
  · have hunchecked := unchecked_of_not_reaches fun ctx hctx => hreach ⟨ctx, hctx⟩
    exact ⟨fun r hr => Or.inl (hunchecked.reports r hr), Or.inr (Or.inr hunchecked)⟩

/-- **Every decision is on record once and last, and a failure leaves no trace of a check unless
one stumbles.** An evaluation with a verdict has recorded it. One that fails has reported no
decision, nor anything of a check but the record of an exception; and unless its failure is the
observer's, or that of a check over a name that it has to read, nothing has been reported but the
reading of the identity, and the observer has not been told. A check that stumbles behind checks
that pass does end an evaluation so. So a check fails by an objection, through the observer, or
exactly by stumbling. -/
theorem decisions_recorded (call : Evaluation) :
    (∀ v, call.perform.outcome = .ok v → ∃ before decision, call.Recorded v before decision) ∧
    (∀ f, call.perform.outcome = .error f →
      (∀ r ∈ call.perform.reports, r.channel = .util ∨ r.channel = .audit) ∧
        (¬call.ObserverRaised f → ¬call.Stumbled f → call.Unchecked)) ∧
    (∀ f, call.Stumbled f → call.perform.outcome = .error f) ∧
    (∀ ctx check, call.Reaches ctx →
      (∀ f, (ctx.run check).outcome = .error f → (∃ e, f = .trust e) ∨
        (∃ defect, f = .illegibleName defect ∧ ctx.Stumbles check defect) ∨
        ∃ react, call.evaluator.observer = some react ∧ react ctx.peerIdentity = .error f) ∧
      ∀ defect, ctx.Stumbles check defect →
        (ctx.run check).outcome = .error (.illegibleName defect)) := by
  refine ⟨fun v => exists_recorded, fun f hf => ?_, fun f => Stumbled.outcome_perform,
    fun ctx check hreaches => ⟨fun f hfails => ?_, fun defect hstumbles => ?_⟩⟩
  · obtain ⟨hquiet, hcause⟩ := of_perform_eq_error hf
    exact ⟨hquiet, fun hunraised hunstumbled =>
      (hcause.resolve_left hunraised).resolve_left hunstumbled⟩
  · have hleaves := ctx.leaves_run check
    rw [hfails] at hleaves
    rcases leaves_cases_of_error hreaches hleaves with
      ⟨r, e, htrust, -⟩ | ⟨defect, hname, -, hstumbles⟩ | ⟨-, -, hraised⟩
    · exact Or.inl ⟨e, htrust⟩
    · exact Or.inr (Or.inl ⟨defect, hname, hstumbles⟩)
    · exact Or.inr (Or.inr hraised)
  · obtain ⟨t, hreference⟩ := Evaluator.Reaches.exists_reference hreaches
    exact CheckContext.outcome_run_of_stumbles hreference hstumbles

end Evaluation

/-! ### A forged leaf, an observer that fails, a request without a target, and a blurred root -/

namespace Sample

/-- The forged leaf below the root, asked about with the sample's evaluator. -/
def forgedLeaf : Evaluation :=
  { loneLeaf none with request := .ofParts .tls forgedChain "chat.example.com" none none }

/-- The lone certificate, asked about for no target. -/
def untargeted : Evaluation :=
  { loneLeaf none with request := .ofParts .tls ⟨leaf, []⟩ "" none none }

/-- An observer that fails. -/
def failing : Option Reaction := some fun _ => .error .observerFailed

/-- The policy that asks for the root alone. -/
def rootOnly : Policy := { Policy.disabled with verifyRoot := true }

/-- A leaf below a root that cannot be read, asked about with that policy. -/
def belowBlurred : Evaluation :=
  { loneLeaf none with
    request := .ofParts .tls ⟨leaf, [blurred]⟩ "chat.example.com" (some rootOnly) none }

/-- The verdict on the forged leaf. -/
def forgedVerdict : Verdict where
  trusted := false
  target := "chat.example.com"
  peerIdentity := "chat.example.com"
  reference := .ofInstant .origin
  checks := [.chain]
  error := some (.signature (.str "chat.example.com") (.str "chat.example.com"))

theorem stumbled_belowBlurred : belowBlurred.Stumbled (.illegibleName .malformed) := by
  have hreaches : belowBlurred.Reaches ((evaluator none).contextOf (some roots) rootOnly
      ⟨leaf, [blurred]⟩ "chat.example.com" "chat.example.com" .origin) :=
    .intro (Request.asks_ofParts .tls ⟨leaf, [blurred]⟩ (by decide) (some rootOnly) none)
      (fun _ => nofun) rfl rfl
  have hsplit : rootOnly.checks = [] ++ CheckName.root :: [] := rfl
  refine .intro hreaches hsplit (by simp) (.root ?_ ?_ rfl)
  · rw [← CheckContext.hasTrustedRoot_iff]
    decide
  · rintro ⟨halone, -⟩
    cases halone

end Sample

/-- The forged leaf gets its record. The observer that fails leaves no decision, and it is the
check of the root that fails with it. The request without a target leaves nothing of a check. The
check of a root that cannot be read fails over its subject. -/
theorem Evaluation.decisions_recorded_of_four :
    Sample.forgedLeaf.perform.outcome = .ok Sample.forgedVerdict ∧
      (∃ before decision, Sample.forgedLeaf.Recorded Sample.forgedVerdict before decision) ∧
      (Sample.loneLeaf Sample.failing).perform.outcome = .error .observerFailed ∧
      (∀ r ∈ (Sample.loneLeaf Sample.failing).perform.reports,
        r.channel = .util ∨ r.channel = .audit) ∧
      (∃ react, Sample.failing = some react ∧
        react (Sample.loneContext Sample.failing).peerIdentity = .error .observerFailed) ∧
      Sample.untargeted.perform.outcome = .error .emptyTarget ∧ Sample.untargeted.Unchecked ∧
      Sample.belowBlurred.perform.outcome = .error (.illegibleName .malformed) := by
  have hforged : Sample.forgedLeaf.perform.outcome = .ok Sample.forgedVerdict := rfl
  have hfails : (Sample.loneLeaf Sample.failing).perform.outcome = .error .observerFailed := rfl
  have hempty : Sample.untargeted.perform.outcome = .error .emptyTarget := rfl
  have hunraised : ¬Sample.untargeted.ObserverRaised .emptyTarget := by
    rintro ⟨react, identity, ⟨⟩, -⟩
  obtain ⟨hrecorded, -⟩ := decisions_recorded Sample.forgedLeaf
  obtain ⟨-, hundecided, -, hcheck⟩ := decisions_recorded (Sample.loneLeaf Sample.failing)
  obtain ⟨-, hunchecked, -⟩ := decisions_recorded Sample.untargeted
  obtain ⟨-, -, hstumbled, -⟩ := decisions_recorded Sample.belowBlurred
  refine ⟨hforged, hrecorded _ hforged, hfails, (hundecided _ hfails).1, ?_, hempty,
    (hunchecked _ hempty).2 hunraised nofun, hstumbled _ Sample.stumbled_belowBlurred⟩
  have hraised := (hcheck _ .root (Sample.reaches_loneLeaf Sample.failing)).1 _ rfl
  exact (hraised.resolve_left nofun).resolve_left nofun

end PeerTrust
