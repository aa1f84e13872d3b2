/-
  `Proofs.Evaluator.Consistency` — an evaluator of settings has what its policy asks for.

  Settings lead to a holder exactly if the policy that comes out checks the root
  (`Configuration.Provides`), so the evaluator made of them never finds itself without
  roots: the guard of `Evaluator.decide` can only be met by a policy that is passed with
  a request. `of_evaluate_eq_rootsMissing` says which evaluations meet it, and needs to
  know of every other step of an evaluation that it fails otherwise.

  The policy differs from the settings in one case, which is also the only one with a
  warning (`Evaluator.Fits`).
-/
import PeerTrust.Proofs.Evaluator.Fallback
import PeerTrust.Proofs.Evaluator.Record
import PeerTrust.Proofs.Text.Search

namespace PeerTrust

open Traced

/-! ### Evaluations without roots -/

/-- **A judgement fails as its observer does, or over a name,** if its clock shows UTC. -/
theorem CheckContext.of_judge_eq_error {ctx : CheckContext} {f : Failure} {t : Instant}
    (hreference : ctx.reference = .ofInstant t) (h : ctx.judge.outcome = .error f) :
    (Observer.tell ctx.observer ctx.peerIdentity).outcome = .error f ∨
      ∃ defect, f = .illegibleName defect := by
  have hleaves := ctx.runLeaves_runAll ctx.policy.checks
  rw [outcome_judge_eq_error_iff.mp h] at hleaves
  obtain ⟨earlier, last, before, check, after, -, -, -, -, hfails, hundecided⟩ := hleaves.of_error
  rcases hfails.cases_of_error hreference with
    ⟨r, e, htrust, -⟩ | ⟨defect, hname, -⟩ | ⟨-, -, htold⟩
  · exact absurd htrust (hundecided e)
  · exact Or.inr ⟨defect, hname⟩
  · exact Or.inl htold

namespace Evaluator

variable {env : Environment} {holders : Holders} {ev : Evaluator} {r : Request}

/-- **An evaluation fails for want of roots** only if its policy asks for them and the evaluator
has no source of any, or if its observer fails so. -/
theorem of_evaluate_eq_rootsMissing
    (h : (ev.evaluate env holders r).outcome = .error .rootsMissing) :
    (∃ override, Request.policyOverride r.policy = .ok override ∧
        (override.getD ev.policy).verifyRoot = true ∧ ev.source = none) ∨
      ∃ react identity, ev.observer = some react ∧ react identity = .error .rootsMissing := by
  rcases exists_asks_or_evaluate_eq_fail env holders ev r with
    ⟨chain, target, override, reading, hasks⟩ | ⟨f, hfail, hconcerns⟩
  · rw [evaluate_eq_decide hasks, decide] at h
    by_cases hguard : ((override.getD ev.policy).verifyRoot && (ev.rootsIn holders).isNone) = true
    · left
      rw [Bool.and_eq_true, Option.isNone_iff_eq_none, rootsIn, Option.map_eq_none_iff] at hguard
      exact ⟨override, hasks.policy_eq, hguard⟩
    · -- past the guard, neither the identity nor the clock nor a check fails so
      right
      rw [if_neg hguard] at h
      rcases outcome_bind_eq_error_iff.mp h with hidentity | ⟨identity, -, h⟩
      · rcases Certificate.peerIdentity_eq_error_iff.mp hidentity with ⟨⟨⟩⟩
      · cases ht : (reading.getD (.ofInstant env.now)).toUtc? with
        | none =>
          rw [ht] at h
          cases h
        | some t =>
          rw [ht] at h
          have hnamed : ¬∃ defect, Failure.rootsMissing = .illegibleName defect := by
            rintro ⟨defect, hname⟩
            cases hname
          have htold := (CheckContext.of_judge_eq_error rfl h).resolve_right hnamed
          cases hobserver : ev.observer with
          | none =>
            simp only [hobserver, Option.map_none] at htold
            cases htold
          | some react =>
            simp only [hobserver, Option.map_some, Observer.tell, outcome_note_bind,
              outcome_ofExcept] at htold
            exact ⟨react, identity, rfl, htold⟩
  · rw [hfail, outcome_fail] at h
    obtain rfl := Except.error.inj h
    cases hconcerns

end Evaluator

/-! ### What settings lead to -/

/-- **Loading roots** fails without a report, or makes one about them and gives them. -/
theorem RootSet.ofConfig_cases (env : Environment) (config : StoreConfig) :
    (∃ f, ofConfig env config = fail f) ∨
      ∃ roots r, ofConfig env config = ⟨[.report r], .ok roots⟩ ∧ r.channel = .store := by
  rw [ofConfig, loadFrom]
  cases readStore env.files (config.path.getD env.defaultBundle) config.type config.password with
  | error f => exact Or.inl ⟨_, rfl⟩
  | ok certificates => exact Or.inr ⟨_, _, rfl, rfl⟩

namespace Configuration

/-- **All that settings lead to,** with what is reported on the way. The roots are not asked for;
they are loaded; they cannot be loaded, and the settings give up the check; or nothing comes
out, and the failure is that of loading. -/
inductive Leads (env : Environment) (c : Configuration) : Traced (Option Holder × Policy) → Prop
  | unasked (off : c.policy.verifyRoot = false) : Leads env c (pure (none, c.policy))
  | loaded {roots : RootSet} {r : Report} (on : c.policy.verifyRoot = true)
      (load : (RootSet.ofConfig env c.store).outcome = .ok roots) (elsewhere : r.channel = .store) :
      Leads env c ⟨[.report r], .ok (some ⟨roots, .settings c.store⟩, c.policy)⟩
  | disabled {e : StoreLoadError} (on : c.policy.verifyRoot = true)
      (load : (RootSet.ofConfig env c.store).outcome = .error (.storeLoad e))
      (asked : c.store.onLoadError = .disableRootCheck) :
      Leads env c
        ⟨[.report (.rootCheckDisabled e)], .ok (none, { c.policy with verifyRoot := false })⟩
  | failed {f : Failure} (on : c.policy.verifyRoot = true)
      (load : (RootSet.ofConfig env c.store).outcome = .error f)
      (unasked : ∀ e, f = .storeLoad e → c.store.onLoadError ≠ .disableRootCheck) :
      Leads env c (fail f)

/-- **Settings lead to nothing else.** -/
theorem leads_provide (env : Environment) (c : Configuration) : c.Leads env (c.provide env) := by
  by_cases hroot : c.policy.verifyRoot = true
  · rw [provide, if_pos hroot, Holder.ofConfig]
    rcases RootSet.ofConfig_cases env c.store with ⟨f, hload⟩ | ⟨roots, r, hload, hchannel⟩
    · have hfails : (RootSet.ofConfig env c.store).outcome = .error f := by rw [hload]; rfl
      rw [hload]
      by_cases hcaught : ∃ e, f = .storeLoad e
      · obtain ⟨e, rfl⟩ := hcaught
        by_cases hasked : c.store.onLoadError = .disableRootCheck
        · simp only [if_pos hasked]
          exact .disabled hroot hfails hasked
        · simp only [if_neg hasked]
          exact .failed hroot hfails fun _ _ => hasked
      · have hfailed := Leads.failed hroot hfails fun e he => absurd ⟨e, he⟩ hcaught
        cases f with
        | storeLoad e => exact absurd ⟨e, rfl⟩ hcaught
        | _ => exact hfailed
    · rw [hload]
      exact Leads.loaded hroot (by rw [hload]) hchannel
  · rw [provide, if_neg hroot]
    exact .unasked (Bool.not_eq_true _ ▸ hroot)

end Configuration

namespace Evaluator

variable {env : Environment} {holders holders' : Holders} {c : Configuration}
  {observer : ObserverArgument} {ev : Evaluator}

/-! ### Evaluators of settings -/

/-- **The evaluator fits the settings that a call has made it of.** Its policy is theirs but for
the check of the root, which it has exactly if it has roots; these are in a holder that is
renewed from the store of the settings and has what the store gave. The check is missing
exactly if it was given up, and that is the one warning of the call. -/
structure Fits (env : Environment) (c : Configuration) (observer : ObserverArgument)
    (call : Traced (Holders × Evaluator)) (holders : Holders) (ev : Evaluator) : Prop where
  observer_eq : observer.reaction = .ok ev.observer
  chain_eq : ev.policy.verifyChain = c.policy.verifyChain
  identity_eq : ev.policy.checkDomainMatch = c.policy.checkDomainMatch
  validity_eq : ev.policy.checkExpiry = c.policy.checkExpiry
  exception_eq : ev.policy.acceptSelfSigned = c.policy.acceptSelfSigned
  rooted_iff : ev.policy.verifyRoot = true ↔ ev.source ≠ none
  held : ev.source ≠ none → ∃ id roots, ev.source = some (.held id) ∧
    holders.get id = ⟨roots, .settings c.store⟩ ∧
    (RootSet.ofConfig env c.store).outcome = .ok roots
  lowered_iff : ev.policy.verifyRoot ≠ c.policy.verifyRoot ↔
    c.policy.verifyRoot = true ∧ c.store.onLoadError = .disableRootCheck ∧
      ∃ e, (RootSet.ofConfig env c.store).outcome = .error (.storeLoad e)
  warned : ev.policy.verifyRoot ≠ c.policy.verifyRoot → ∃ e r,
    (RootSet.ofConfig env c.store).outcome = .error (.storeLoad e) ∧ call.reports = [r] ∧
      r.level = .warning ∧ r.channel = .config ∧ e.message.toList <:+: r.text.toList
  silent : ev.policy.verifyRoot = c.policy.verifyRoot → ∀ r ∈ call.reports, r.channel ≠ .config

/-- **What a call that makes an evaluator has gone through:** the settings have led to a holder and
a policy, and nothing is reported after that. -/
theorem exists_of_ofConfiguration
    (h : (ofConfiguration env holders c observer).outcome = .ok (holders', ev)) :
    ∃ holder policy reaction, (c.provide env).outcome = .ok (holder, policy) ∧
      observer.reaction = .ok reaction ∧
      (ofConfiguration env holders c observer).events = (c.provide env).events ∧
      (holders', ev) = match holder with
        | none => (holders, ⟨none, policy, reaction⟩)
        | some held =>
          ((holders.add held).1, ⟨some (.held (holders.add held).2), policy, reaction⟩) := by
  rw [ofConfiguration] at h ⊢
  obtain ⟨⟨holder, policy⟩, hprovide, h, hevents⟩ := exists_of_outcome_bind h
  obtain ⟨reaction, hreaction, h⟩ := outcome_bind_eq_ok_iff.mp h
  rw [outcome_ofExcept] at hreaction
  refine ⟨holder, policy, reaction, hprovide, hreaction, ?_, ?_⟩
  · rw [hevents]
    simp only [hreaction, ofExcept_ok_bind]
    cases holder <;> exact List.append_nil _
  · cases holder with
    | none => exact (Except.ok.inj h).symm
    | some held => exact (Except.ok.inj h).symm

/-- The text of the warning holds that of the error. -/
theorem message_infix_rootCheckDisabled (e : StoreLoadError) :
    e.message.toList <:+: (Report.rootCheckDisabled e).text.toList := by
  rw [Report.text_rootCheckDisabled, String.append_assoc, String.append_assoc]
  exact (Text.toList_prefix_append _ _).isInfix

/-- **Every evaluator of settings fits them.** -/
theorem fits_of_ofConfiguration
    (h : (ofConfiguration env holders c observer).outcome = .ok (holders', ev)) :
    Fits env c observer (ofConfiguration env holders c observer) holders' ev := by
  obtain ⟨holder, policy, reaction, hprovide, hreaction, hevents, hmade⟩ :=
    exists_of_ofConfiguration h
  have hreports : (ofConfiguration env holders c observer).reports = (c.provide env).reports := by
    rw [reports, hevents, reports]
  have hleads := c.leads_provide env
  generalize c.provide env = provided at hleads hprovide hreports
  -- the policy is that of the settings unless the check was given up
  cases hleads with
  | unasked off =>
    obtain ⟨rfl, rfl⟩ := Prod.mk.inj (Except.ok.inj hprovide)
    obtain ⟨rfl, rfl⟩ := Prod.mk.inj hmade
    refine ⟨hreaction, rfl, rfl, rfl, rfl, ?_, fun h => absurd rfl h, ?_, fun h => absurd rfl h, ?_⟩
    · simp [off]
    · simp [off]
    · intro _ r hr
      rw [hreports] at hr
      cases hr
  | @loaded roots r on load elsewhere =>
    obtain ⟨rfl, rfl⟩ := Prod.mk.inj (Except.ok.inj hprovide)
    obtain ⟨rfl, rfl⟩ := Prod.mk.inj hmade
    refine ⟨hreaction, rfl, rfl, rfl, rfl, ?_, fun _ => ⟨_, roots, rfl, get_add _ _, load⟩,
      ?_, fun h => absurd rfl h, ?_⟩
    · simp [on]
    · simp [load]
    · intro _ s hs
      rw [hreports] at hs
      obtain rfl : s = r := List.mem_singleton.mp hs
      rw [elsewhere]
      decide
  | @disabled e on load asked =>
    obtain ⟨rfl, rfl⟩ := Prod.mk.inj (Except.ok.inj hprovide)
    obtain ⟨rfl, rfl⟩ := Prod.mk.inj hmade
    refine ⟨hreaction, rfl, rfl, rfl, rfl, ?_, fun h => absurd rfl h, ?_, ?_, ?_⟩
    · simp
    · simp [on, asked, load]
    · intro _
      exact ⟨e, .rootCheckDisabled e, load, hreports, rfl, rfl, message_infix_rootCheckDisabled e⟩
    · intro hsame
      rw [on] at hsame
      cases hsame
  | failed on load unasked => cases hprovide

/-- **An evaluator comes out** exactly if the observer is one, and the roots are not asked for,
can be loaded, or fail to load where the settings give up the check. -/
theorem exists_ofConfiguration_iff :
    (∃ made, (ofConfiguration env holders c observer).outcome = .ok made) ↔
      (∃ reaction, observer.reaction = .ok reaction) ∧
        (c.policy.verifyRoot = true →
          (∃ roots, (RootSet.ofConfig env c.store).outcome = .ok roots) ∨
            c.store.onLoadError = .disableRootCheck ∧
              ∃ e, (RootSet.ofConfig env c.store).outcome = .error (.storeLoad e)) := by
  constructor
  · rintro ⟨⟨holders', ev⟩, hmade⟩
    obtain ⟨holder, policy, reaction, -, hreaction, -, -⟩ := exists_of_ofConfiguration hmade
    have hfits := fits_of_ofConfiguration hmade
    refine ⟨⟨reaction, hreaction⟩, fun hroot => ?_⟩
    by_cases hsame : ev.policy.verifyRoot = c.policy.verifyRoot
    · obtain ⟨id, roots, -, -, hload⟩ := hfits.held (hfits.rooted_iff.mp (hsame.trans hroot))
      exact Or.inl ⟨roots, hload⟩
    · exact Or.inr (hfits.lowered_iff.mp hsame).2
  · rintro ⟨⟨reaction, hreaction⟩, hends⟩
    have hleads := c.leads_provide env
    have hprovide : ∃ holder policy, (c.provide env).outcome = .ok (holder, policy) := by
      generalize c.provide env = provided at hleads
      cases hleads with
      | unasked off => exact ⟨_, _, rfl⟩
      | loaded on load elsewhere => exact ⟨_, _, rfl⟩
      | disabled on load asked => exact ⟨_, _, rfl⟩
      | @failed f on load unasked =>
        rw [load] at hends
        rcases hends on with ⟨roots, hroots⟩ | ⟨hasked, e, he⟩
        · cases hroots
        · exact absurd hasked (unasked e (Except.error.inj he))
    obtain ⟨holder, policy, hprovide⟩ := hprovide
    exact exists_ofConfiguration_of_provide hprovide hreaction

/-- **Settings that do not give up the check fail with the load error.** -/
theorem outcome_ofConfiguration_of_storeLoad {e : StoreLoadError}
    (hroot : c.policy.verifyRoot = true) (hrefuse : c.store.onLoadError = .refuse)
    (hload : (RootSet.ofConfig env c.store).outcome = .error (.storeLoad e)) :
    (ofConfiguration env holders c observer).outcome = .error (.storeLoad e) := by
  have hprovide : (c.provide env).outcome = .error (.storeLoad e) := by
    have hleads := c.leads_provide env
    generalize c.provide env = provided at hleads
    cases hleads with
    | unasked off =>
      rw [off] at hroot
      cases hroot
    | loaded on load elsewhere => cases load.symm.trans hload
    | disabled on load asked => cases asked.symm.trans hrefuse
    | failed on load unasked =>
      rw [outcome_fail, Except.error.inj (load.symm.trans hload)]
  rw [ofConfiguration, outcome_bind_of_error hprovide]

/-- **Settings without a check of the root never look at a file.** -/
theorem ofConfiguration_eq_of_unasked (hoff : c.policy.verifyRoot = false)
    (env env' : Environment) :
    ofConfiguration env holders c observer = ofConfiguration env' holders c observer := by
  have hprovide : ∀ env, c.provide env = pure (none, c.policy) := by
    intro env
    rw [Configuration.provide, hoff]
    rfl
  rw [ofConfiguration, ofConfiguration, hprovide, hprovide]

/-- An evaluator that is asked for with checked settings is the evaluator of these settings. -/
theorem ofArgument_configuration :
    ofArgument env holders (.configuration c) observer =
      ofConfiguration env holders c observer := by
  rw [ofArgument, Configuration.ofArgument, ofExcept_ok_bind]

/-- **An evaluator that is made of settings is consistent, and its policy is never weakened in
silence.** It fits the settings; so with its own policy it never fails for want of roots, at
any later time, in whatever holders and on whatever request, unless that is how its observer
fails. Settings that refuse to go on without roots fail with the load error, and settings
that do not check the root lead to the same end on every system. -/
theorem ofArgument_consistent (env : Environment) (holders : Holders) (c : Configuration)
    (observer : ObserverArgument) :
    (∀ holders' ev,
      (ofArgument env holders (.configuration c) observer).outcome = .ok (holders', ev) →
        Fits env c observer (ofArgument env holders (.configuration c) observer) holders' ev ∧
        ∀ env' later r, r.policy = .null ∨ r.policy = .policy ev.policy →
          (ev.evaluate env' later r).outcome = .error .rootsMissing →
          ∃ react identity, ev.observer = some react ∧ react identity = .error .rootsMissing) ∧
    ((∃ made, (ofArgument env holders (.configuration c) observer).outcome = .ok made) ↔
      (∃ reaction, observer.reaction = .ok reaction) ∧
        (c.policy.verifyRoot = true →
          (∃ roots, (RootSet.ofConfig env c.store).outcome = .ok roots) ∨
            c.store.onLoadError = .disableRootCheck ∧
              ∃ e, (RootSet.ofConfig env c.store).outcome = .error (.storeLoad e))) ∧
    (∀ e, c.policy.verifyRoot = true → c.store.onLoadError = .refuse →
      (RootSet.ofConfig env c.store).outcome = .error (.storeLoad e) →
        (ofArgument env holders (.configuration c) observer).outcome = .error (.storeLoad e)) ∧
    (c.policy.verifyRoot = false → ∀ env',
      ofArgument env' holders (.configuration c) observer =
        ofArgument env holders (.configuration c) observer) := by
  simp only [ofArgument_configuration]
  refine ⟨fun holders' ev hmade => ?_, exists_ofConfiguration_iff,
    fun e hroot hrefuse hload => outcome_ofConfiguration_of_storeLoad hroot hrefuse hload,
    fun hoff env' => ofConfiguration_eq_of_unasked hoff env' env⟩
  have hfits := fits_of_ofConfiguration hmade
  refine ⟨hfits, fun env' later r hpolicy hmissing => ?_⟩
  refine (of_evaluate_eq_rootsMissing hmissing).resolve_left ?_
  rintro ⟨override, hoverride, hroot, hnone⟩
  have hown : override.getD ev.policy = ev.policy := by
    rcases hpolicy with hnull | hsame
    · rw [hnull] at hoverride
      obtain rfl := Except.ok.inj hoverride
      rfl
    · rw [hsame] at hoverride
      obtain rfl := Except.ok.inj hoverride
      rfl
  rw [hown] at hroot
  exact hfits.rooted_iff.mp hroot hnone

end Evaluator

/-! ### Settings over a store that is there, and over one that is not -/

namespace Sample

/-- Settings that ask for the roots of a store and refuse to go on without them. -/
def strict : Configuration where
  hostname := none
  policy := .standard
  store := ⟨some "roots.der", .der, none, .refuse⟩

/-- A working directory with that store. -/
def stocked : Environment := { env with files := ⟨[], [(["roots.der"], .file [.der root])]⟩ }

/-- The load error where the store is missing. -/
def missingStore : StoreLoadError := ⟨.str "roots.der", .str "DER", .system .notFound⟩

end Sample

namespace Evaluator

/-- Where the store is missing, the lenient settings make an evaluator without roots that says so,
and the strict ones make none; where it is there, the strict ones make an evaluator with its
roots; and settings without checks make the same evaluator in both places. -/
theorem ofArgument_consistent_over_stores :
    (∃ holders ev, (ofArgument Sample.env .empty (.configuration Sample.lenient) .absent).outcome =
        .ok (holders, ev) ∧ ev.policy.verifyRoot = false ∧
      Fits Sample.env Sample.lenient .absent
        (ofArgument Sample.env .empty (.configuration Sample.lenient) .absent) holders ev ∧
      (ev.evaluate Sample.env holders
        (.ofParts .tls Sample.forgedChain "chat.example.com" none none)).outcome ≠
        .error .rootsMissing) ∧
    (ofArgument Sample.env .empty (.configuration Sample.strict) .absent).outcome =
      .error (.storeLoad Sample.missingStore) ∧
    (∃ holders ev,
      (ofArgument Sample.stocked .empty (.configuration Sample.strict) .absent).outcome =
        .ok (holders, ev) ∧ ev.source ≠ none) ∧
    ofArgument Sample.stocked .empty (.configuration { Sample.strict with policy := .disabled })
        .absent =
      ofArgument Sample.env .empty (.configuration { Sample.strict with policy := .disabled })
        .absent := by
  obtain ⟨hlenient, hmakes, -, -⟩ :=
    ofArgument_consistent Sample.env .empty Sample.lenient .absent
  obtain ⟨-, -, hrefuses, -⟩ := ofArgument_consistent Sample.env .empty Sample.strict .absent
  obtain ⟨hstrict, hstocked, -, -⟩ :=
    ofArgument_consistent Sample.stocked .empty Sample.strict .absent
  obtain ⟨-, -, -, hunasked⟩ := ofArgument_consistent Sample.env .empty
    { Sample.strict with policy := .disabled } .absent
  refine ⟨?_, hrefuses _ rfl rfl rfl, ?_, hunasked rfl Sample.stocked⟩
  · obtain ⟨⟨holders, ev⟩, hmade⟩ :=
      hmakes.mpr ⟨⟨none, rfl⟩, fun _ => Or.inr ⟨rfl, _, rfl⟩⟩
    obtain ⟨hfits, hguarded⟩ := hlenient holders ev hmade
    have hlowered : ev.policy.verifyRoot ≠ Sample.lenient.policy.verifyRoot :=
      hfits.lowered_iff.mpr ⟨rfl, rfl, _, rfl⟩
    refine ⟨holders, ev, hmade, by simpa [Sample.lenient] using hlowered, hfits, ?_⟩
    intro hmissing
    obtain ⟨react, identity, hobserver, -⟩ := hguarded _ _ _ (Or.inl rfl) hmissing
    have hnone : none = ev.observer := Except.ok.inj hfits.observer_eq
    cases hnone.trans hobserver
  · obtain ⟨⟨holders, ev⟩, hmade⟩ :=
      hstocked.mpr ⟨⟨none, rfl⟩, fun _ => Or.inl ⟨_, rfl⟩⟩
    obtain ⟨hfits, -⟩ := hstrict holders ev hmade
    have hkept : ev.policy.verifyRoot = true := by
      rw [← Bool.not_eq_false]
      intro hlowered
      have hdiffers : ev.policy.verifyRoot ≠ Sample.strict.policy.verifyRoot := by
        rw [hlowered]
        decide
      cases (hfits.lowered_iff.mp hdiffers).2.1
    exact ⟨holders, ev, hmade, hfits.rooted_iff.mp hkept⟩

end Evaluator
end PeerTrust
