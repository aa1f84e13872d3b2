/-
  `Evaluator` — the decision whether a chain is trusted.

  An evaluator has a policy, an observer and a source of trusted roots: a fixed
  set, or a holder whose roots are read once at the start of each evaluation.
  The enabled checks run in order until one rejects the chain; a rejection is
  part of the verdict and not a failure. What makes an evaluation fail is found
  before the first check, unless the observer itself fails.
-/
import PeerTrust.Check.Identity
import PeerTrust.Check.Links
import PeerTrust.Check.Root
import PeerTrust.Check.Validity
import PeerTrust.Store

namespace PeerTrust

/-! ### Verdicts -/

/-- The outcome of an evaluation. `checks` are the checks that ran, and `error`
is what the last of them found. -/
structure Verdict where
  trusted : Bool
  target : String
  peerIdentity : String
  reference : Reading
  checks : List CheckName
  error : Option TrustError

/-- The check that rejected the chain. -/
def Verdict.failedCheck (v : Verdict) : Option CheckName :=
  if v.error.isNone then none else v.checks.getLast?

/-! ### Running checks -/

namespace CheckContext

/-- Runs one check. -/
def run (ctx : CheckContext) : CheckName → Traced Unit
  | .chain => ctx.checkLinks
  | .root => ctx.checkRoot
  | .identity => ctx.checkIdentity
  | .validity => ctx.checkValidity

/-- **Runs checks in order** until one rejects; gives the checks that ran and the
rejection. -/
def runAll (ctx : CheckContext) : List CheckName → Traced (List CheckName × Option TrustError)
  | [] => return ([], none)
  | check :: rest => do
    match ← (ctx.run check).catchTrust with
    | .error e => return ([check], some e)
    | .ok () =>
      let (checks, error) ← ctx.runAll rest
      return (check :: checks, error)

/-- **Runs the checks of the policy and reports the decision.** -/
def judge (ctx : CheckContext) : Traced Verdict := do
  let (checks, error) ← ctx.runAll ctx.policy.checks
  let verdict : Verdict :=
    ⟨error.isNone, ctx.target, ctx.peerIdentity, ctx.reference, checks, error⟩
  match error, checks.getLast? with
  | some e, some check => .report (.rejected ctx.target check e.kind)
  | _, _ => .report (.trusted ctx.target ctx.peerIdentity checks)
  return verdict

end CheckContext

/-! ### Evaluators -/

/-- Where an evaluator finds trusted roots. -/
inductive RootSource
  | fixed (roots : RootSet)
  | held (holder : Nat)

/-- The roots of a source at this moment. -/
def RootSource.snapshot (holders : Holders) : RootSource → RootSet
  | .fixed roots => roots
  | .held holder => (holders.get holder).roots

/-- A policy and an observer, with a source of trusted roots if there is one. -/
structure Evaluator where
  source : Option RootSource
  policy : Policy
  observer : Option Reaction

/-- What an evaluation is asked, as a caller passes it. -/
structure Request where
  chain : Value
  target : Value
  policy : Value
  reference : Value

namespace Request

/-- The target: a text that is not empty. -/
def targetText (r : Request) : Except Failure String :=
  match r.target with
  | .str s => if s.isEmpty then .error .emptyTarget else .ok s
  | .armor lead _ => .ok (lead ++ Armor.certificateMark)
  | v => .error (.wrongClass v .target)

/-- The policy of this evaluation, if it has one of its own. -/
def policyOverride : Value → Except Failure (Option Policy)
  | .null => .ok none
  | .policy p => .ok (some p)
  | v => .error (.wrongClass v .policy)

/-- The clock reading at which validity is asked, if there is one. -/
def referenceReading : Value → Except Failure (Option Reading)
  | .null => .ok none
  | .dateTime r => .ok (some r)
  | v => .error (.wrongClass v .referenceInstant)

end Request

namespace Evaluator

/-- The roots of the evaluator at this moment. -/
def rootsIn (ev : Evaluator) (holders : Holders) : Option RootSet :=
  ev.source.map (RootSource.snapshot holders)

/-- **Decides on a chain** with the roots, the policy and the reading given. -/
def decide (ev : Evaluator) (roots : Option RootSet) (policy : Policy) (chain : Chain)
    (target : String) (reading : Reading) : Traced Verdict :=
  if policy.verifyRoot && roots.isNone then .fail .rootsMissing
  else do
    let identity ← chain.leaf.peerIdentity
    match reading.toUtc? with
    | none => .fail .outOfCalendar
    | some t =>
      CheckContext.judge
        ⟨chain, target, identity, policy, .ofInstant t, roots, ev.observer.map .callable⟩

/-- **Evaluates a request.** The arguments are looked at in a fixed order: target,
policy, reference, chain. -/
def evaluate (env : Environment) (holders : Holders) (ev : Evaluator) (request : Request) :
    Traced Verdict := do
  let target ← .ofExcept request.targetText
  let override ← .ofExcept (Request.policyOverride request.policy)
  let reading ← .ofExcept (Request.referenceReading request.reference)
  let chain ← .ofExcept request.chain.presentedChain
  ev.decide (ev.rootsIn holders) (override.getD ev.policy) chain target
    (reading.getD (.ofInstant env.now))

/-- **Evaluates a request and fails with the verdict's error** if there is one. -/
def demandTrust (env : Environment) (holders : Holders) (ev : Evaluator) (request : Request) :
    Traced Verdict := do
  let verdict ← ev.evaluate env holders request
  match verdict.error with
  | some e => .fail (.trust e)
  | none => return verdict

/-- The evaluator can be copied with all that it holds. -/
def isCopyable (ev : Evaluator) : Bool :=
  match ev.source with
  | some (.held _) => false
  | _ => true

/-! ### Making evaluators -/

/-- An observer as a caller passes it: none, one that can be called, or another value. -/
inductive ObserverArgument
  | absent
  | callable (react : Reaction)
  | other (given : Value)

/-- The observer of an argument that has to be one. -/
def ObserverArgument.reaction : ObserverArgument → Except Failure (Option Reaction)
  | .absent => .ok none
  | .callable react => .ok (some react)
  | .other given => .error (.wrongClass given .observer)

/-- The observer of an argument that is looked at only when it is told. -/
def ObserverArgument.observer : ObserverArgument → Option Observer
  | .absent => none
  | .callable react => some (.callable react)
  | .other _ => some .uncallable

/-- The source of roots of an argument. -/
def sourceArgument : Value → Except Failure (Option RootSource)
  | .null => .ok none
  | .roots r => .ok (some (.fixed r))
  | .holder id => .ok (some (.held id))
  | v => .error (.wrongClass v .roots)

/-- **The evaluator of the given parts.** -/
def make (roots policy : Value) (observer : ObserverArgument) : Except Failure Evaluator := do
  let source ← sourceArgument roots
  let policy ← Request.policyOverride policy
  let reaction ← observer.reaction
  return ⟨source, policy.getD .standard, reaction⟩

end Evaluator
end PeerTrust
