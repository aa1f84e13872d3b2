/-
  `Evaluator.Provision` — evaluators from settings.

  The trusted roots are loaded only if the policy checks them. If they cannot be
  loaded, that is a failure, unless the settings ask to give up the check of the
  root instead; that is reported, and it is the only way in which the policy can
  come to differ from the settings.
-/
import PeerTrust.Configuration.Sources
import PeerTrust.Evaluator

namespace PeerTrust

/-- **The holder and the policy that settings lead to.** -/
def Configuration.provide (env : Environment) (c : Configuration) :
    Traced (Option Holder × Policy) :=
  if c.policy.verifyRoot then do
    match ← (Holder.ofConfig env c.store).catchStoreLoad with
    | .ok holder => return (some holder, c.policy)
    | .error e =>
      if c.store.onLoadError = .disableRootCheck then do
        .report (.rootCheckDisabled e)
        return (none, { c.policy with verifyRoot := false })
      else .fail (.storeLoad e)
  else return (none, c.policy)

namespace Evaluator

/-- **The evaluator of settings,** with its holder among the given ones. -/
def ofConfiguration (env : Environment) (holders : Holders) (c : Configuration)
    (observer : ObserverArgument) : Traced (Holders × Evaluator) := do
  let (holder, policy) ← c.provide env
  let reaction ← .ofExcept observer.reaction
  match holder with
  | none => return (holders, ⟨none, policy, reaction⟩)
  | some holder =>
    let (holders, id) := holders.add holder
    return (holders, ⟨some (.held id), policy, reaction⟩)

/-- The evaluator of the settings that a caller asks for. -/
def ofArgument (env : Environment) (holders : Holders) (config : Value)
    (observer : ObserverArgument) : Traced (Holders × Evaluator) := do
  ofConfiguration env holders (← .ofExcept (Configuration.ofArgument env config)) observer

/-- A host name that a caller passes for an evaluation. -/
def hostArgument : Value → Except Failure Unit
  | .str _ | .armor _ _ => .ok ()
  | v => .error (.wrongClass v .hostname)

/-- A chain that a caller passes is a list or a tuple. -/
def chainArgument : Value → Except Failure Unit
  | .list _ | .tuple _ => .ok ()
  | v => .error (.wrongClass v .chain)

/-- Settings that a caller passes, if any, are a document or checked. -/
def settingsArgument : Value → Except Failure Unit
  | .null | .configuration _ | .dict _ => .ok ()
  | v => .error (.wrongClass v .settings)

/-- **One evaluation with an evaluator of its own.** The classes of all arguments
but two are looked at before any file is read. -/
def evaluateOnce (env : Environment) (config : Value) (observer : ObserverArgument)
    (request : Request) : Traced Verdict := do
  .ofExcept (hostArgument request.target)
  .ofExcept (chainArgument request.chain)
  .ofExcept (settingsArgument config)
  let _ ← .ofExcept (Request.policyOverride request.policy)
  let (holders, ev) ← ofArgument env .empty config observer
  ev.evaluate env holders request

end Evaluator
end PeerTrust
