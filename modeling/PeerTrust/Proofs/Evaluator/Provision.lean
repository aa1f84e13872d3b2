/-
  `Proofs.Evaluator.Provision` — what the evaluator of settings is made of.

  `Configuration.Provides` lists the three ways in which settings can lead to a
  holder and a policy: the roots are not asked for, they are loaded, or they could
  not be loaded and the settings give up the check of the root. `of_provide_eq_ok`
  says that there is no fourth. One evaluation with an evaluator of its own is
  then taken apart into the settings, what they provide, and the evaluation.
-/
import PeerTrust.Evaluator.Provision
import PeerTrust.Proofs.Evaluator.Decision

namespace PeerTrust

open Traced

/-! ### What settings provide -/

/-- **The ways from settings to a holder and a policy.** Only the last one changes the
policy, and it is open only to settings that ask for it. -/
inductive Configuration.Provides (env : Environment) (c : Configuration) :
    Option Holder → Policy → Prop
  | unasked (off : c.policy.verifyRoot = false) : Provides env c none c.policy
  | loaded {roots : RootSet} (on : c.policy.verifyRoot = true)
      (load : (RootSet.ofConfig env c.store).outcome = .ok roots) :
      Provides env c (some ⟨roots, .settings c.store⟩) c.policy
  | disabled {e : StoreLoadError} (on : c.policy.verifyRoot = true)
      (load : (RootSet.ofConfig env c.store).outcome = .error (.storeLoad e))
      (asked : c.store.onLoadError = .disableRootCheck)
      (warned : (c.provide env).Warns .config (.rootCheckDisabled e)) :
      Provides env c none { c.policy with verifyRoot := false }

theorem outcome_holderOfConfig_eq_ok_iff {env : Environment} {config : StoreConfig} {h : Holder} :
    (Holder.ofConfig env config).outcome = .ok h ↔
      ∃ roots, (RootSet.ofConfig env config).outcome = .ok roots ∧
        h = ⟨roots, .settings config⟩ := by
  rw [Holder.ofConfig, outcome_bind_eq_ok_iff]
  simp only [outcome_pure, Except.ok.injEq, eq_comm]

theorem outcome_holderOfConfig_eq_error_iff {env : Environment} {config : StoreConfig}
    {f : Failure} :
    (Holder.ofConfig env config).outcome = .error f ↔
      (RootSet.ofConfig env config).outcome = .error f := by
  rw [Holder.ofConfig]
  cases hload : (RootSet.ofConfig env config).outcome with
  | ok roots =>
    rw [outcome_bind_of_ok hload]
    exact iff_of_false nofun nofun
  | error e =>
    rw [outcome_bind_of_error hload]
    simp only [Except.error.injEq]

/-- **Settings provide nothing else:** whatever holder and policy come out, they came about
in one of the three ways. -/
theorem Configuration.of_provide_eq_ok {env : Environment} {c : Configuration}
    {holder : Option Holder} {policy : Policy}
    (h : (c.provide env).outcome = .ok (holder, policy)) : c.Provides env holder policy := by
  by_cases hroot : c.policy.verifyRoot = true
  · have hprovide := h
    rw [provide, if_pos hroot] at hprovide
    obtain ⟨result, hload, hprovide⟩ := outcome_bind_eq_ok_iff.mp hprovide
    cases result with
    | ok held =>
      obtain ⟨roots, hroots, rfl⟩ :=
        outcome_holderOfConfig_eq_ok_iff.mp (outcome_catchStoreLoad_eq_ok_iff.mp hload)
      obtain ⟨rfl, rfl⟩ : some _ = holder ∧ c.policy = policy := by simpa using hprovide
      exact .loaded hroot hroots
    | error e =>
      have hfailed := outcome_holderOfConfig_eq_error_iff.mp
        (outcome_catchStoreLoad_eq_error_iff.mp hload)
      by_cases hasked : c.store.onLoadError = .disableRootCheck
      · simp only [if_pos hasked, outcome_report_bind, outcome_pure] at hprovide
        obtain ⟨rfl, rfl⟩ : none = holder ∧ { c.policy with verifyRoot := false } = policy := by
          simpa using hprovide
        refine .disabled hroot hfailed hasked ⟨mem_reports_iff.mpr ?_, rfl, rfl⟩
        rw [provide, if_pos hroot, events_bind_of_ok hload]
        simp only [if_pos hasked, events_report_bind]
        exact List.mem_append_right _ List.mem_cons_self
      · simp only [if_neg hasked, outcome_fail] at hprovide
        cases hprovide
  · rw [provide, if_neg hroot, outcome_pure, Except.ok.injEq, Prod.mk.injEq] at h
    obtain ⟨rfl, rfl⟩ := h
    exact .unasked (by simpa using hroot)

/-- A holder comes from settings that ask for the roots, with the policy as they have it. -/
theorem Configuration.Provides.of_some {env : Environment} {c : Configuration} {h : Holder}
    {policy : Policy} (hprovides : c.Provides env (some h) policy) :
    c.policy.verifyRoot = true ∧ policy = c.policy ∧
      (RootSet.ofConfig env c.store).outcome = .ok h.roots := by
  cases hprovides with
  | loaded on load => exact ⟨on, rfl, load⟩

/-- **Settings that ask for the roots and provide none** have given up the check, by their
own choice and with a warning. -/
theorem Configuration.Provides.of_none {env : Environment} {c : Configuration} {policy : Policy}
    (hprovides : c.Provides env none policy) (hon : c.policy.verifyRoot = true) :
    ∃ e, policy = { c.policy with verifyRoot := false } ∧
      (RootSet.ofConfig env c.store).outcome = .error (.storeLoad e) ∧
      c.store.onLoadError = .disableRootCheck ∧
      (c.provide env).Warns .config (.rootCheckDisabled e) := by
  cases hprovides with
  | unasked off =>
    rw [off] at hon
    cases hon
  | disabled on load asked warned => exact ⟨_, rfl, load, asked, warned⟩

namespace Evaluator

variable {env : Environment} {holders holders' : Holders} {observer : ObserverArgument}
  {ev : Evaluator}

/-- A holder that has just been added is found under its number. -/
theorem get_add (hs : Holders) (h : Holder) : (hs.add h).1.get (hs.add h).2 = h := by
  simp [Holders.add, Holders.get]

/-- **The evaluator of settings has what the settings provide:** their policy, and the roots
of their holder. -/
theorem of_ofConfiguration_eq_ok {c : Configuration}
    (h : (ofConfiguration env holders c observer).outcome = .ok (holders', ev)) :
    ∃ holder, c.Provides env holder ev.policy ∧
      ev.rootsIn holders' = holder.map Holder.roots ∧
      (c.provide env).events ⊆ (ofConfiguration env holders c observer).events := by
  rw [ofConfiguration] at h ⊢
  obtain ⟨⟨holder, policy⟩, hprovide, h, hevents⟩ := exists_of_outcome_bind h
  obtain ⟨reaction, hreaction, h⟩ := outcome_bind_eq_ok_iff.mp h
  have hprovides := Configuration.of_provide_eq_ok hprovide
  rw [hevents]
  cases holder with
  | none =>
    obtain ⟨rfl, rfl⟩ : holders = holders' ∧ (⟨none, policy, reaction⟩ : Evaluator) = ev := by
      simpa using h
    exact ⟨none, hprovides, rfl, List.subset_append_left _ _⟩
  | some held =>
    obtain ⟨rfl, rfl⟩ : (holders.add held).1 = holders' ∧
        (⟨some (.held (holders.add held).2), policy, reaction⟩ : Evaluator) = ev := by
      simpa using h
    refine ⟨some held, hprovides, ?_, List.subset_append_left _ _⟩
    simp only [rootsIn, RootSource.snapshot, Option.map_some, get_add]

/-- **One evaluation with an evaluator of its own** that gives a verdict is an evaluation
with the evaluator of the settings, and leaves the events of both. -/
theorem of_evaluateOnce_eq_ok {config : Value} {r : Request} {v : Verdict}
    (h : (evaluateOnce env config observer r).outcome = .ok v) :
    ∃ c holders ev, Configuration.ofArgument env config = .ok c ∧
      (ofConfiguration env .empty c observer).outcome = .ok (holders, ev) ∧
      (ev.evaluate env holders r).outcome = .ok v ∧
      (evaluateOnce env config observer r).events =
        (ofConfiguration env .empty c observer).events ++ (ev.evaluate env holders r).events := by
  rw [evaluateOnce] at h ⊢
  obtain ⟨_, hhost, h⟩ := outcome_bind_eq_ok_iff.mp h
  obtain ⟨_, hchain, h⟩ := outcome_bind_eq_ok_iff.mp h
  obtain ⟨_, hsettings, h⟩ := outcome_bind_eq_ok_iff.mp h
  obtain ⟨_, hpolicy, h⟩ := outcome_bind_eq_ok_iff.mp h
  obtain ⟨⟨holders, ev⟩, hmade, h, hevents⟩ := exists_of_outcome_bind h
  rw [ofArgument] at hmade
  obtain ⟨c, hc, hmade⟩ := outcome_bind_eq_ok_iff.mp hmade
  rw [outcome_ofExcept] at hhost hchain hsettings hpolicy hc
  rw [ofArgument, hc, ofExcept_ok_bind] at hevents
  refine ⟨c, holders, ev, hc, hmade, h, ?_⟩
  rw [hhost, hchain, hsettings, hpolicy]
  simp only [ofExcept_ok_bind, ofArgument, hc]
  exact hevents

end Evaluator
end PeerTrust
