/-
  `Proofs.Evaluator.Decision` — the decision of an evaluation, said without its run.

  `Verdict.Decides` ties a verdict to a context: the chain is trusted exactly if
  every enabled check is met, and else the verdict names the first check in their
  order that is not, with its objection. `evaluate_decides` says that an evaluation
  of a well-formed request gives such a verdict, unless a check that it comes to
  stumbles over a name that cannot be read. The step is `ends_run` for one check;
  `runEnds_runAll` carries it through the list of checks.
-/
import PeerTrust.Proofs.Evaluator.Request

namespace PeerTrust

open Traced

/-! ### Enabled checks -/

theorem Policy.mem_checks_iff (p : Policy) (check : CheckName) :
    check ∈ p.checks ↔ p.enables check = true := by
  have hall : check ∈ CheckName.all := by cases check <;> decide
  rw [checks, List.mem_filter]
  exact ⟨fun h => h.2, fun h => ⟨hall, h⟩⟩

namespace CheckContext

/-! ### Runs of checks -/

section Runs

variable {ctx : CheckContext} {check : CheckName} {rest ran : List CheckName}
  {error : Option TrustError}

theorem outcome_runAll_cons_of_trust {e : TrustError}
    (h : (ctx.run check).outcome = .error (.trust e)) (rest : List CheckName) :
    (ctx.runAll (check :: rest)).outcome = .ok ([check], some e) := by
  rw [runAll, outcome_bind_of_ok (outcome_catchTrust_of_trust h)]
  rfl

theorem outcome_runAll_cons_of_failure {f : Failure} (h : (ctx.run check).outcome = .error f)
    (hf : ∀ e, f ≠ .trust e) (rest : List CheckName) :
    (ctx.runAll (check :: rest)).outcome = .error f := by
  rw [runAll, outcome_bind_of_error (outcome_catchTrust_of_failure h hf)]

/-- **Checks that pass are only listed:** a run goes on behind them as it would without them. -/
theorem outcome_runAll_append {before : List CheckName}
    (h : ∀ c ∈ before, (ctx.run c).outcome = .ok ()) (rest : List CheckName) :
    (ctx.runAll (before ++ rest)).outcome =
      (ctx.runAll rest).outcome.map fun (ran, error) => (before ++ ran, error) := by
  induction before with
  | nil => cases hrest : (ctx.runAll rest).outcome <;> rw [List.nil_append, hrest] <;> rfl
  | cons check before ih =>
    obtain ⟨hcheck, hbefore⟩ := List.forall_mem_cons.mp h
    rw [List.cons_append, runAll, outcome_bind_of_ok (outcome_catchTrust_of_ok hcheck)]
    have hrun := ih hbefore
    cases hrest : (ctx.runAll rest).outcome with
    | ok result =>
      rw [hrest] at hrun
      rw [outcome_bind_of_ok hrun]
      rfl
    | error f =>
      rw [hrest] at hrun
      rw [outcome_bind_of_error hrun]
      rfl

theorem events_runAll_cons_of_ok (h : (ctx.run check).outcome = .ok ()) (rest : List CheckName) :
    (ctx.runAll (check :: rest)).events = (ctx.run check).events ++ (ctx.runAll rest).events := by
  rw [runAll, events_bind_of_ok (outcome_catchTrust_of_ok h), events_catchTrust]
  cases hrest : (ctx.runAll rest).outcome with
  | ok result => simp only [events_bind_of_ok hrest, events_pure, List.append_nil]
  | error f => simp only [events_bind_of_error hrest]

theorem events_runAll_cons_of_trust {e : TrustError}
    (h : (ctx.run check).outcome = .error (.trust e)) (rest : List CheckName) :
    (ctx.runAll (check :: rest)).events = (ctx.run check).events := by
  rw [runAll, events_bind_of_ok (outcome_catchTrust_of_trust h), events_catchTrust]
  exact List.append_nil _

theorem events_runAll_cons_of_failure {f : Failure} (h : (ctx.run check).outcome = .error f)
    (hf : ∀ e, f ≠ .trust e) (rest : List CheckName) :
    (ctx.runAll (check :: rest)).events = (ctx.run check).events := by
  rw [runAll, events_bind_of_error (outcome_catchTrust_of_failure h hf), events_catchTrust]

/-- **A run that gives a result** either ends with its first check, which objects, or passes
that check and goes on. -/
theorem of_runAll_cons_eq_ok (h : (ctx.runAll (check :: rest)).outcome = .ok (ran, error)) :
    (∃ e, (ctx.run check).outcome = .error (.trust e) ∧ ran = [check] ∧ error = some e) ∨
      ∃ later, (ctx.run check).outcome = .ok () ∧
        (ctx.runAll rest).outcome = .ok (later, error) ∧ ran = check :: later := by
  rw [runAll] at h
  obtain ⟨result, hresult, h⟩ := outcome_bind_eq_ok_iff.mp h
  cases result with
  | error e =>
    obtain ⟨rfl, rfl⟩ : [check] = ran ∧ some e = error := by simpa using h
    exact Or.inl ⟨e, outcome_catchTrust_eq_error_iff.mp hresult, rfl, rfl⟩
  | ok u =>
    obtain ⟨⟨later, found⟩, hrest, h⟩ := outcome_bind_eq_ok_iff.mp h
    obtain ⟨rfl, rfl⟩ : check :: later = ran ∧ found = error := by simpa using h
    exact Or.inr ⟨later, outcome_catchTrust_eq_ok_iff.mp hresult, hrest, rfl⟩

/-- **A check that has run has passed, or it is the last one and objected.** Either way its
events are events of the run. -/
theorem run_of_mem_runAll {checks : List CheckName} {c : CheckName}
    (h : (ctx.runAll checks).outcome = .ok (ran, error)) (hc : c ∈ ran) :
    (ctx.run c).events ⊆ (ctx.runAll checks).events ∧
      ((ctx.run c).outcome = .ok () ∨
        ∃ e, error = some e ∧ ran.getLast? = some c ∧
          (ctx.run c).outcome = .error (.trust e)) := by
  induction checks generalizing ran with
  | nil =>
    rw [runAll, outcome_pure, Except.ok.injEq, Prod.mk.injEq] at h
    rw [← h.1] at hc
    cases hc
  | cons check rest ih =>
    rcases of_runAll_cons_eq_ok h with ⟨e, hobjects, rfl, rfl⟩ | ⟨later, hrun, hrest, rfl⟩
    · -- the check that objects is the last one, and the only one that is left to look at
      obtain rfl := List.mem_singleton.mp hc
      rw [events_runAll_cons_of_trust hobjects]
      exact ⟨List.Subset.refl _, Or.inr ⟨e, rfl, rfl, hobjects⟩⟩
    · rw [events_runAll_cons_of_ok hrun]
      rcases List.mem_cons.mp hc with rfl | hlater
      · exact ⟨List.subset_append_left _ _, Or.inl hrun⟩
      · obtain ⟨hsub, hended⟩ := ih hrest hlater
        refine ⟨List.Subset.trans hsub (List.subset_append_right _ _), hended.imp_right ?_⟩
        rintro ⟨e, he, hlast, hobjects⟩
        exact ⟨e, he, by rw [List.getLast?_cons, hlast]; rfl, hobjects⟩

theorem eq_of_runAll_eq_ok_none {checks : List CheckName}
    (h : (ctx.runAll checks).outcome = .ok (ran, none)) : ran = checks := by
  induction checks generalizing ran with
  | nil =>
    rw [runAll, outcome_pure, Except.ok.injEq, Prod.mk.injEq] at h
    exact h.1.symm
  | cons check rest ih =>
    rcases of_runAll_cons_eq_ok h with ⟨e, -, -, hnone⟩ | ⟨later, -, hrest, rfl⟩
    · cases hnone
    · rw [ih hrest]

/-- **A run without an objection has run all checks,** whatever the observer did, and the
events of each check are among its events. -/
theorem of_runAll_eq_ok_none {checks : List CheckName}
    (h : (ctx.runAll checks).outcome = .ok (ran, none)) :
    ran = checks ∧ ∀ c ∈ checks,
      (ctx.run c).outcome = .ok () ∧ (ctx.run c).events ⊆ (ctx.runAll checks).events := by
  obtain rfl := eq_of_runAll_eq_ok_none h
  refine ⟨rfl, fun c hc => ?_⟩
  obtain ⟨hsub, hok | ⟨e, hnone, -⟩⟩ := run_of_mem_runAll h hc
  · exact ⟨hok, hsub⟩
  · cases hnone

end Runs

/-- **How a run of checks ends.** All checks are met and listed; or the first one that is not
objects, and is the last one listed; or that one stumbles, and there is nothing to list. -/
inductive RunEnds (ctx : CheckContext) (checks : List CheckName) :
    Except Failure (List CheckName × Option TrustError) → Prop
  | clear (met : ∀ c ∈ checks, ctx.Meets c) : RunEnds ctx checks (.ok (checks, none))
  | stopped {before after : List CheckName} {check : CheckName} {e : TrustError}
      (split : checks = before ++ check :: after) (met : ∀ c ∈ before, ctx.Meets c)
      (objects : ctx.Objects check e) : RunEnds ctx checks (.ok (before ++ [check], some e))
  | broken {before after : List CheckName} {check : CheckName} {defect : NameDefect}
      (split : checks = before ++ check :: after) (met : ∀ c ∈ before, ctx.Meets c)
      (stumbles : ctx.Stumbles check defect) : RunEnds ctx checks (.error (.illegibleName defect))

/-- A check that is met in front of a run belongs to it. -/
theorem RunEnds.cons {ctx : CheckContext} {check : CheckName} {rest : List CheckName}
    {result : Except Failure (List CheckName × Option TrustError)} (hmeets : ctx.Meets check)
    (h : ctx.RunEnds rest result) :
    ctx.RunEnds (check :: rest) (result.map fun (ran, error) => (check :: ran, error)) := by
  cases h with
  | clear met => exact .clear (List.forall_mem_cons.mpr ⟨hmeets, met⟩)
  | stopped split met objects =>
    rename_i before after last e
    have hsplit : check :: rest = (check :: before) ++ last :: after := by rw [split]; rfl
    exact .stopped hsplit (List.forall_mem_cons.mpr ⟨hmeets, met⟩) objects
  | broken split met stumbles =>
    rename_i before after last defect
    have hsplit : check :: rest = (check :: before) ++ last :: after := by rw [split]; rfl
    exact .broken hsplit (List.forall_mem_cons.mpr ⟨hmeets, met⟩) stumbles

/-- **A run of checks ends at the first one that is not met.** If there is none, all have run. -/
theorem runEnds_runAll (ctx : CheckContext) {t : Instant}
    (hreference : ctx.reference = .ofInstant t) (hobserver : Observer.Returns ctx.observer)
    (checks : List CheckName) :
    ctx.RunEnds checks (ctx.runAll checks).outcome := by
  induction checks with
  | nil => exact .clear (by simp)
  | cons check rest ih =>
    cases ctx.ends_run hreference hobserver check with
    | content hmeets hrun =>
      have hfirst : ∀ c ∈ [check], (ctx.run c).outcome = .ok () := by simpa using hrun
      rw [← List.singleton_append, outcome_runAll_append hfirst rest]
      exact ih.cons hmeets
    | objection hobjects hrun =>
      rw [outcome_runAll_cons_of_trust hrun rest]
      exact .stopped (List.nil_append _).symm (by simp) hobjects
    | stumble hstumbles hrun =>
      rw [outcome_runAll_cons_of_failure hrun nofun]
      exact .broken (List.nil_append _).symm (by simp) hstumbles

/-- **The verdict of a run.** Nothing but the report of the decision follows the checks. -/
theorem outcome_judge {ctx : CheckContext} {ran : List CheckName} {error : Option TrustError}
    (h : (ctx.runAll ctx.policy.checks).outcome = .ok (ran, error)) :
    ctx.judge.outcome =
      .ok ⟨error.isNone, ctx.target, ctx.peerIdentity, ctx.reference, ran, error⟩ := by
  rw [judge, outcome_bind_of_ok h]
  cases error with
  | none => rfl
  | some e => cases hlast : ran.getLast? <;> simp only [hlast, outcome_report_bind, outcome_pure]

theorem events_runAll_subset_judge {ctx : CheckContext} {ran : List CheckName}
    {error : Option TrustError}
    (h : (ctx.runAll ctx.policy.checks).outcome = .ok (ran, error)) :
    (ctx.runAll ctx.policy.checks).events ⊆ ctx.judge.events := by
  rw [judge, events_bind_of_ok h]
  exact List.subset_append_left _ _

/-- **A verdict comes from a run,** and has what the run found. -/
theorem exists_runAll_of_judge {ctx : CheckContext} {v : Verdict} (h : ctx.judge.outcome = .ok v) :
    ∃ ran error, (ctx.runAll ctx.policy.checks).outcome = .ok (ran, error) ∧
      v = ⟨error.isNone, ctx.target, ctx.peerIdentity, ctx.reference, ran, error⟩ := by
  have hjudge := h
  rw [judge] at hjudge
  obtain ⟨⟨ran, error⟩, hrun, -⟩ := outcome_bind_eq_ok_iff.mp hjudge
  rw [outcome_judge hrun, Except.ok.injEq] at h
  exact ⟨ran, error, hrun, h.symm⟩

/-- **What a verdict tells of its run:** the checks that ran and the objection, if any. -/
theorem of_judge_eq_ok {ctx : CheckContext} {v : Verdict} (h : ctx.judge.outcome = .ok v) :
    (ctx.runAll ctx.policy.checks).outcome = .ok (v.checks, v.error) ∧
      v.trusted = v.error.isNone := by
  obtain ⟨ran, error, hrun, rfl⟩ := exists_runAll_of_judge h
  exact ⟨hrun, rfl⟩

/-- **What a verdict in favour of the peer was reached by.** Every enabled check has run
without a failure, and its events are among those of the judgement. -/
theorem of_judge_trusted {ctx : CheckContext} {v : Verdict} (h : ctx.judge.outcome = .ok v)
    (htrusted : v.trusted = true) :
    v.checks = ctx.policy.checks ∧ ∀ check, ctx.policy.enables check = true →
      (ctx.run check).outcome = .ok () ∧ (ctx.run check).events ⊆ ctx.judge.events := by
  obtain ⟨hrun, hfavour⟩ := of_judge_eq_ok h
  have hnone : v.error = none := by
    rw [← Option.isNone_iff_eq_none, ← hfavour]
    exact htrusted
  rw [hnone] at hrun
  have hsub := events_runAll_subset_judge hrun
  obtain ⟨hran, hall⟩ := of_runAll_eq_ok_none hrun
  refine ⟨hran, fun check hcheck => ?_⟩
  obtain ⟨hok, hevents⟩ := hall check ((ctx.policy.mem_checks_iff check).mpr hcheck)
  exact ⟨hok, List.Subset.trans hevents hsub⟩

end CheckContext

/-! ### Decisions -/

/-- **The verdict decides on the context.** It is in favour of the peer exactly if every
enabled check is met. A verdict in favour lists all enabled checks. One against the peer
lists them up to the first that is not met, and carries the objection of that check. -/
structure Verdict.Decides (v : Verdict) (ctx : CheckContext) : Prop where
  target_eq : v.target = ctx.target
  peerIdentity_eq : v.peerIdentity = ctx.peerIdentity
  reference_eq : v.reference = ctx.reference
  trusted_iff : v.trusted = true ↔
    ∀ check, ctx.policy.enables check = true → ctx.Meets check
  accepted : v.trusted = true →
    v.checks = ctx.policy.checks ∧ v.error = none ∧ v.failedCheck = none
  rejected : v.trusted = false →
    ∃ before check after e, ctx.policy.checks = before ++ check :: after ∧
      (∀ c ∈ before, ctx.Meets c) ∧ ¬ctx.Meets check ∧ ctx.Objects check e ∧
      v.checks = before ++ [check] ∧ v.error = some e ∧ v.failedCheck = some check

namespace CheckContext

/-- **The checks break off** over a name that cannot be read: the enabled checks up to one are
met, and that one stumbles. -/
def BreaksOff (ctx : CheckContext) (defect : NameDefect) : Prop :=
  ∃ before check after, ctx.policy.checks = before ++ check :: after ∧
    (∀ c ∈ before, ctx.Meets c) ∧ ctx.Stumbles check defect

/-- Names that can be read break nothing off. -/
theorem not_breaksOff_of_legible {ctx : CheckContext}
    (h : ∀ c ∈ ctx.chain.toList, c.subject.defect? = none ∧ c.issuer.defect? = none)
    (defect : NameDefect) : ¬ctx.BreaksOff defect := by
  rintro ⟨before, check, after, -, -, hstumbles⟩
  exact not_stumbles_of_legible h defect hstumbles

/-- **Checks that break off give no verdict.** -/
theorem outcome_judge_of_breaksOff {ctx : CheckContext} {t : Instant}
    (hreference : ctx.reference = .ofInstant t) (hobserver : Observer.Returns ctx.observer)
    {defect : NameDefect} (h : ctx.BreaksOff defect) :
    ctx.judge.outcome = .error (.illegibleName defect) := by
  obtain ⟨before, check, after, hsplit, hmet, hstumbles⟩ := h
  have hbefore : ∀ c ∈ before, (ctx.run c).outcome = .ok () := fun c hc =>
    (ctx.ends_run hreference hobserver c).outcome_eq_ok_iff.mpr (hmet c hc)
  have hrun : (ctx.runAll ctx.policy.checks).outcome = .error (.illegibleName defect) := by
    rw [hsplit, outcome_runAll_append hbefore, outcome_runAll_cons_of_failure
      (outcome_run_of_stumbles hreference hstumbles) nofun]
    rfl
  rw [judge, outcome_bind_of_error hrun]

/-- **Judging a context decides on it,** or its checks break off. -/
theorem judge_decides_or_breaksOff (ctx : CheckContext) {t : Instant}
    (hreference : ctx.reference = .ofInstant t) (hobserver : Observer.Returns ctx.observer) :
    (∃ v, ctx.judge.outcome = .ok v ∧ v.Decides ctx) ∨ ∃ defect, ctx.BreaksOff defect := by
  have hends := ctx.runEnds_runAll hreference hobserver ctx.policy.checks
  generalize hrun : (ctx.runAll ctx.policy.checks).outcome = result at hends
  cases hends with
  | clear met =>
    refine Or.inl ⟨_, outcome_judge hrun, rfl, rfl, rfl, ?_, fun _ => ⟨rfl, rfl, rfl⟩, nofun⟩
    exact ⟨fun _ c hc => met c ((ctx.policy.mem_checks_iff c).mpr hc), fun _ => rfl⟩
  | stopped split met objects =>
    rename_i before after check e
    have hunmet := not_meets_of_objects objects
    refine Or.inl ⟨_, outcome_judge hrun, rfl, rfl, rfl, ⟨nofun, ?_⟩, nofun, fun _ => ?_⟩
    · intro hmeets
      have hmem : check ∈ ctx.policy.checks := by rw [split]; simp
      exact absurd (hmeets check ((ctx.policy.mem_checks_iff check).mp hmem)) hunmet
    · exact ⟨before, check, after, e, split, met, hunmet, objects, rfl, rfl, by
        simp [Verdict.failedCheck]⟩
  | broken split met stumbles => exact Or.inr ⟨_, _, _, _, split, met, stumbles⟩

/-- **Judging a context decides on it exactly if its checks do not break off.** -/
theorem judge_decides_iff (ctx : CheckContext) {t : Instant}
    (hreference : ctx.reference = .ofInstant t) (hobserver : Observer.Returns ctx.observer) :
    (∃ v, ctx.judge.outcome = .ok v ∧ v.Decides ctx) ↔ ∀ defect, ¬ctx.BreaksOff defect := by
  constructor
  · rintro ⟨v, hv, -⟩ defect hbreaks
    cases hv.symm.trans (outcome_judge_of_breaksOff hreference hobserver hbreaks)
  · intro hwhole
    exact (ctx.judge_decides_or_breaksOff hreference hobserver).resolve_right
      fun ⟨defect, hbreaks⟩ => hwhole defect hbreaks

/-- **A verdict of a judgement decides on its context.** -/
theorem decides_of_judge_eq_ok {ctx : CheckContext} {t : Instant} {v : Verdict}
    (hreference : ctx.reference = .ofInstant t) (hobserver : Observer.Returns ctx.observer)
    (h : ctx.judge.outcome = .ok v) : v.Decides ctx := by
  rcases ctx.judge_decides_or_breaksOff hreference hobserver with
    ⟨w, hw, hdecides⟩ | ⟨defect, hbreaks⟩
  · obtain rfl := Except.ok.inj (h.symm.trans hw)
    exact hdecides
  · cases h.symm.trans (outcome_judge_of_breaksOff hreference hobserver hbreaks)

end CheckContext

/-! ### The roots of an evaluator -/

/-- **The roots that an evaluator goes by:** none without a source, those of a fixed set, and those
that a holder has at the moment. -/
inductive RootSource.Shows (holders : Holders) : Option RootSource → Option RootSet → Prop
  | absent : Shows holders none none
  | fixed (roots : RootSet) : Shows holders (some (.fixed roots)) (some roots)
  | held {id : Nat} {holder : Holder} (kept : holders.cells[id]? = some holder) :
      Shows holders (some (.held id)) (some holder.roots)

theorem Evaluator.rootsIn_eq_of_shows {ev : Evaluator} {holders : Holders}
    {roots : Option RootSet} (h : RootSource.Shows holders ev.source roots) :
    ev.rootsIn holders = roots := by
  rw [rootsIn]
  generalize ev.source = source at h
  cases h with
  | absent => rfl
  | fixed roots => rfl
  | held kept => simp [RootSource.snapshot, Holders.get, kept]

namespace Evaluator

/-- **The evaluation goes by the roots.** What the caller passed is refused; or it is the decision
with these roots, and a verdict that it gives decides on a context with these roots. -/
inductive GoesBy (env : Environment) (ev : Evaluator) (roots : Option RootSet) (r : Request)
    (result : Traced Verdict) : Prop
  | refused {f : Failure} (concerns : f.concernsRequest = true) (fails : result = .fail f)
  | decided {chain : Chain} {target : String} {override : Option Policy} {reading : Option Reading}
      (asks : r.Asks chain target override reading)
      (eq : result = ev.decide roots (override.getD ev.policy) chain target
        (reading.getD (.ofInstant env.now)))
      (decides : ev.ObserverReturns → ∀ v, result.outcome = .ok v → ∃ identity t,
        chain.leaf.peerIdentity.outcome = .ok identity ∧
          (reading.getD (.ofInstant env.now)).toUtc? = some t ∧
          v.Decides (ev.contextOf roots (override.getD ev.policy) chain target identity t))

/-- **Every evaluation goes by the roots that the evaluator's source shows.** -/
theorem goesBy_evaluate {env : Environment} {holders : Holders} {ev : Evaluator}
    {roots : Option RootSet} (hshows : RootSource.Shows holders ev.source roots) (r : Request) :
    ev.GoesBy env roots r (ev.evaluate env holders r) := by
  rcases exists_asks_or_evaluate_eq_fail env holders ev r with
    ⟨chain, target, override, reading, hasks⟩ | ⟨f, hfails, hconcerns⟩
  · have hdecide : ev.evaluate env holders r = _ := evaluate_eq_decide hasks
    rw [rootsIn_eq_of_shows hshows] at hdecide
    rw [hdecide]
    refine .decided hasks rfl fun hobserver v hv => ?_
    obtain ⟨hneeded, identity, t, ht, hidentity⟩ := of_decide_eq_ok hv
    rw [decide_eq_bind hneeded ht, outcome_bind_of_ok hidentity] at hv
    exact ⟨identity, t, hidentity, ht,
      CheckContext.decides_of_judge_eq_ok rfl (returns_of_observerReturns hobserver) hv⟩
  · exact .refused hconcerns hfails

/-- **Every evaluation of a well-formed request gives a verdict that decides, unless its checks
break off.** The evaluator needs roots if the policy in force asks for them, its observer has to
return, the leaf has to claim an identity, and the reading has to denote an instant. Then the
verdict decides on the context of these parts exactly if no check that is come to stumbles over a
name that it has to read; if one does, its defect is the failure. -/
theorem evaluate_decides {env : Environment} {holders : Holders} {ev : Evaluator} {r : Request}
    {chain : Chain} {target identity : String} {override : Option Policy}
    {reading : Option Reading} {t : Instant} {roots : Option RootSet}
    (hasks : r.Asks chain target override reading)
    (hshows : RootSource.Shows holders ev.source roots)
    (hroots : (override.getD ev.policy).verifyRoot = true → roots ≠ none)
    (hobserver : ev.ObserverReturns)
    (hidentity : chain.leaf.peerIdentity.outcome = .ok identity)
    (ht : (reading.getD (.ofInstant env.now)).toUtc? = some t) :
    let ctx := ev.contextOf roots (override.getD ev.policy) chain target identity t
    ((∃ v, (ev.evaluate env holders r).outcome = .ok v ∧ v.Decides ctx) ↔
        ∀ defect, ¬ctx.BreaksOff defect) ∧
      ∀ defect, ctx.BreaksOff defect →
        (ev.evaluate env holders r).outcome = .error (.illegibleName defect) := by
  intro ctx
  have hneeded : (override.getD ev.policy).verifyRoot = true → ev.rootsIn holders ≠ none := by
    rw [rootsIn_eq_of_shows hshows]
    exact hroots
  have hsame : (ev.evaluate env holders r).outcome = ctx.judge.outcome := by
    rw [outcome_evaluate hasks (fun hp => (ev.rootsIn_ne_none_iff holders).mp (hneeded hp)) ht
      hidentity, rootsIn_eq_of_shows hshows]
  have hreturns := returns_of_observerReturns hobserver
  rw [hsame]
  exact ⟨ctx.judge_decides_iff rfl hreturns,
    fun _ hbreaks => CheckContext.outcome_judge_of_breaksOff rfl hreturns hbreaks⟩

/-- A forged leaf below a trusted root that a holder keeps gets a verdict. Below a root whose
subject cannot be read it gets none if the policy asks for the root alone: the check has only to
name the root that it does not trust, and fails. -/
theorem evaluate_decides_on_forged_leaf :
    let holders : Holders := ⟨[⟨Sample.roots, .absent⟩]⟩
    let ev : Evaluator := ⟨some (.held 0), .disabled, some fun _ => .ok ()⟩
    let reading : Reading := ⟨.origin, none⟩
    let rootOnly : Policy := { Policy.disabled with verifyRoot := true }
    let blurredChain : Chain := ⟨Sample.forged, [Sample.blurred]⟩
    let r :=
      Request.ofParts .tls Sample.forgedChain "www.example.com" (some .standard) (some reading)
    let r' := Request.ofParts .tls blurredChain "www.example.com" (some rootOnly) (some reading)
    r.Asks Sample.forgedChain "www.example.com" (some .standard) (some reading) ∧
      r'.Asks blurredChain "www.example.com" (some rootOnly) (some reading) ∧
      RootSource.Shows holders ev.source (some Sample.roots) ∧
      ((some Policy.standard).getD ev.policy).verifyRoot = true ∧ ev.ObserverReturns ∧
      Sample.forged.peerIdentity.outcome = .ok "chat.example.com" ∧
      ((some reading).getD (.ofInstant Sample.env.now)).toUtc? = some .origin ∧
      (∃ v, (ev.evaluate Sample.env holders r).outcome = .ok v ∧
        v.Decides (ev.contextOf (some Sample.roots) .standard Sample.forgedChain
          "www.example.com" "chat.example.com" .origin)) ∧
      (ev.evaluate Sample.env holders r').outcome = .error (.illegibleName .malformed) := by
  intro holders ev reading rootOnly blurredChain r r'
  have hasks : r.Asks Sample.forgedChain "www.example.com" (some .standard) (some reading) :=
    Request.asks_ofParts .tls Sample.forgedChain (by decide) (some .standard) (some reading)
  have hasks' : r'.Asks blurredChain "www.example.com" (some rootOnly) (some reading) :=
    Request.asks_ofParts .tls blurredChain (by decide) (some rootOnly) (some reading)
  have hshows : RootSource.Shows holders ev.source (some Sample.roots) :=
    @RootSource.Shows.held holders 0 ⟨Sample.roots, .absent⟩ rfl
  have hobserver : ev.ObserverReturns := by
    rintro react ⟨⟩ identity
    rfl
  obtain ⟨hdecides, -⟩ := evaluate_decides hasks hshows (fun _ => nofun) hobserver rfl rfl
  obtain ⟨-, hbreaks⟩ := evaluate_decides hasks' hshows (fun _ => nofun) hobserver rfl rfl
  have hunanchored : ¬(ev.contextOf (some Sample.roots) rootOnly blurredChain "www.example.com"
      "chat.example.com" .origin).Anchored := by
    rw [← CheckContext.hasTrustedRoot_iff]
    decide
  refine ⟨hasks, hasks', hshows, rfl, hobserver, rfl, rfl,
    hdecides.mpr (CheckContext.not_breaksOff_of_legible (by decide)),
    hbreaks .malformed ⟨[], .root, [], rfl, by simp, .root hunanchored ?_ rfl⟩⟩
  rintro ⟨halone, -⟩
  cases halone

end Evaluator
end PeerTrust
