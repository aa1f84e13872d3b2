/-
  `Proofs.Evaluator.Fallback` — settings that give up the check of the root.

  Settings can ask to go on without roots when these cannot be loaded. That works
  for every load error, hence unless something escapes loading
  (`exists_provide_of_not_escapes`): a path that no system accepts, or a content that
  baffles the reader. Then the fallback does not apply, and no evaluator is made.
  `load_ends_iff` joins both levels.
-/
import PeerTrust.Proofs.Evaluator.FailClosed
import PeerTrust.Proofs.Store

namespace PeerTrust

open Traced

namespace Configuration

variable {env : Environment} {c : Configuration}

/-- The path from which settings load roots. -/
def storePath (env : Environment) (c : Configuration) : String :=
  c.store.path.getD env.defaultBundle

/-- **What escapes when settings have their roots loaded.** -/
def Escapes (env : Environment) (c : Configuration) (f : Failure) : Prop :=
  RootSet.Escapes env.files (c.storePath env) c.store.type c.store.password f

/-- **The fallback covers every load error:** a holder and a policy come out unless something
escapes. -/
theorem exists_provide_of_not_escapes (hasked : c.store.onLoadError = .disableRootCheck)
    (h : c.policy.verifyRoot = true → ∀ f, ¬c.Escapes env f) :
    ∃ holder policy, (c.provide env).outcome = .ok (holder, policy) := by
  by_cases hroot : c.policy.verifyRoot = true
  · have hends : RootSet.LoadEnds (c.storePath env) c.store.type.text
        (RootSet.ofConfig env c.store).outcome :=
      RootSet.loadEnds_loadFrom_iff.mpr (h hroot)
    rw [provide, if_pos hroot]
    rcases hends with ⟨roots, hload, -⟩ | ⟨fault, hload⟩
    · have hheld := outcome_holderOfConfig_eq_ok_iff.mpr ⟨roots, hload, rfl⟩
      refine ⟨some ⟨roots, .settings c.store⟩, c.policy, ?_⟩
      rw [outcome_bind_of_ok (outcome_catchStoreLoad_eq_ok_iff.mpr hheld), outcome_pure]
    · -- a load error is caught, and the settings ask to go on without roots
      have hheld := outcome_holderOfConfig_eq_error_iff.mpr hload
      refine ⟨none, { c.policy with verifyRoot := false }, ?_⟩
      rw [outcome_bind_of_ok (outcome_catchStoreLoad_eq_error_iff.mpr hheld)]
      simp only [if_pos hasked, outcome_report_bind, outcome_pure]
  · exact ⟨none, c.policy, by rw [provide, if_neg hroot, outcome_pure]⟩

/-- **The fallback does not cover what escapes.** -/
theorem outcome_provide_of_escapes {f : Failure} (hroot : c.policy.verifyRoot = true)
    (h : c.Escapes env f) : (c.provide env).outcome = .error f := by
  have hload : (RootSet.ofConfig env c.store).outcome = .error f :=
    RootSet.outcome_loadFrom_of_escapes h
  have hheld := outcome_holderOfConfig_eq_error_iff.mpr hload
  have hcaught := outcome_catchStoreLoad_of_failure hheld h.ne_storeLoad
  rw [provide, if_pos hroot]
  exact outcome_bind_of_error hcaught _

end Configuration

namespace Evaluator

variable {env : Environment} {holders : Holders} {c : Configuration}
  {observer : ObserverArgument} {reaction : Option Reaction}

theorem exists_ofConfiguration_of_provide {holder : Option Holder} {policy : Policy}
    (h : (c.provide env).outcome = .ok (holder, policy))
    (hobserver : observer.reaction = .ok reaction) :
    ∃ made, (ofConfiguration env holders c observer).outcome = .ok made := by
  rw [ofConfiguration, outcome_bind_of_ok h]
  simp only [hobserver, ofExcept_ok_bind]
  cases holder with
  | none => exact ⟨_, outcome_pure _⟩
  | some held => exact ⟨_, outcome_pure _⟩

/-- **Loading roots ends with roots or with a load error, unless something escapes.** For every
path, type and password that a caller describes, loading ends as it should exactly if the type is
not supported, or some system accepts the path and the file there holds nothing that baffles the
reader; what escapes is the failure that leaves. So settings that give up the check of the root
lead to an evaluator exactly if they do not ask for the root or nothing escapes. -/
theorem load_ends_iff (env : Environment) :
    (∀ (pathValue typeValue passwordValue : Value) (path : String) (password : Option String),
      RootSet.pathArgument env pathValue = .ok path →
      RootSet.passwordArgument passwordValue = .ok password →
        (RootSet.LoadEnds path (RootSet.typeName typeValue).text
            (RootSet.load env pathValue typeValue passwordValue).outcome ↔
          ∀ type f, RootSet.typeArgument? typeValue = some type →
            ¬RootSet.Escapes env.files path type password f) ∧
        (∀ type, RootSet.typeArgument? typeValue = some type →
          (RootSet.typeName typeValue).text = type.text ∧
          ∀ f, RootSet.Escapes env.files path type password f →
            (RootSet.load env pathValue typeValue passwordValue).outcome = .error f)) ∧
    (∀ (c : Configuration) (holders : Holders) (observer : ObserverArgument)
      (reaction : Option Reaction), c.store.onLoadError = .disableRootCheck →
      observer.reaction = .ok reaction →
        ((∃ made, (ofConfiguration env holders c observer).outcome = .ok made) ↔
          (c.policy.verifyRoot = true → ∀ f, ¬c.Escapes env f)) ∧
        (∀ f, c.policy.verifyRoot = true → c.Escapes env f →
          (ofConfiguration env holders c observer).outcome = .error f)) := by
  refine ⟨?_, ?_⟩
  · intro pathValue typeValue passwordValue path password hpath hpassword
    refine ⟨RootSet.loadEnds_load_iff hpath hpassword, fun type htype => ?_⟩
    exact ⟨RootSet.text_typeName htype,
      fun f => RootSet.outcome_load_of_escapes hpath hpassword htype⟩
  · intro c holders observer reaction hasked hobserver
    have hescapes : ∀ f, c.policy.verifyRoot = true → c.Escapes env f →
        (ofConfiguration env holders c observer).outcome = .error f := by
      intro f hroot h
      rw [ofConfiguration]
      exact outcome_bind_of_error (Configuration.outcome_provide_of_escapes hroot h) _
    refine ⟨⟨fun hmakes hroot f h => ?_, fun hclear => ?_⟩, hescapes⟩
    · obtain ⟨made, hmade⟩ := hmakes
      rw [hescapes f hroot h] at hmade
      cases hmade
    · obtain ⟨holder, policy, hprovide⟩ :=
        Configuration.exists_provide_of_not_escapes hasked hclear
      exact exists_ofConfiguration_of_provide hprovide hobserver

end Evaluator

namespace RootSet

/-- At a path where nothing is, nothing escapes. -/
theorem not_escapes_of_missing {files : FileSystem} {path : String} {type : StoreType}
    {password : Option String} {fault : SystemFault} (husable : Path.IsUsable path)
    (h : files.read (Path.ofText path) = .error fault) (f : Failure) :
    ¬Escapes files path type password f := by
  rintro (unusable | ⟨-, found, -⟩)
  · exact unusable husable
  · cases h.symm.trans found

end RootSet

namespace Evaluator

/-- A path with a null character, and a file with an encoding without a version of certificates:
loading fails, and not with a load error; and settings that give up the check of the root lead
to no evaluator. The path of a missing file is covered. -/
theorem load_ends_iff_at_null_character :
    let path := "a\x00b"
    let impossible : Configuration :=
      { Sample.lenient with store := { Sample.lenient.store with path := some path } }
    let misversioned := Sample.withFile [.misversioned Sample.root]
    (RootSet.load Sample.env (.str path) (.str "pem") .null).outcome = .error .impossiblePath ∧
      ¬RootSet.LoadEnds path "PEM"
        (RootSet.load Sample.env (.str path) (.str "pem") .null).outcome ∧
      (RootSet.load misversioned (.str "roots.pem") (.str "der") .null).outcome =
        .error .invalidVersion ∧
      RootSet.LoadEnds "missing.pem" "PEM"
        (RootSet.load Sample.env (.str "missing.pem") (.str "pem") .null).outcome ∧
      (ofConfiguration Sample.env .empty impossible .absent).outcome = .error .impossiblePath ∧
      ∃ made, (ofConfiguration Sample.env .empty Sample.lenient .absent).outcome = .ok made := by
  intro path impossible misversioned
  obtain ⟨hload, hsettings⟩ := load_ends_iff Sample.env
  have hnot : ¬Path.IsUsable path := by decide
  have hrefusal : Path.refusal path = .impossiblePath := if_pos (by decide)
  have hpem : RootSet.typeArgument? (.str "pem") = some .pem := by decide
  have hder : RootSet.typeArgument? (.str "der") = some .der := by decide
  have hescapes : ∀ type password,
      RootSet.Escapes Sample.env.files path type password .impossiblePath := by
    intro type password
    rw [← hrefusal]
    exact .path hnot
  obtain ⟨hends, htypes⟩ := hload (.str path) (.str "pem") .null path none rfl rfl
  obtain ⟨hmissing, -⟩ := hload (.str "missing.pem") (.str "pem") .null "missing.pem" none rfl rfl
  obtain ⟨-, hbaffled⟩ := (load_ends_iff misversioned).1 (.str "roots.pem") (.str "der") .null
    "roots.pem" none rfl rfl
  obtain ⟨hname, hfails⟩ := htypes .pem hpem
  have hname : (RootSet.typeName (.str "pem")).text = "PEM" := hname
  have hunended := mt hends.mp fun hclear => hclear .pem _ hpem (hescapes .pem none)
  have habsent : Sample.env.files.read (Path.ofText "missing.pem") = .error .notFound := rfl
  have hended := hmissing.mpr fun type f _ => RootSet.not_escapes_of_missing (by decide) habsent f
  rw [hname] at hunended hended
  obtain ⟨-, hrefused⟩ := hsettings impossible .empty .absent none rfl rfl
  obtain ⟨hmade, -⟩ := hsettings Sample.lenient .empty .absent none rfl rfl
  exact ⟨hfails _ (hescapes .pem none), hunended,
    (hbaffled .der hder).2 _ (.content (by decide) rfl (.encoding Sample.root)), hended,
    hrefused _ rfl (hescapes _ _),
    hmade.mpr fun _ => RootSet.not_escapes_of_missing (by decide) habsent⟩

end Evaluator
end PeerTrust
