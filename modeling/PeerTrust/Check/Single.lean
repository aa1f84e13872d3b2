/-
  `Check.Single` — one check outside an evaluation.

  The parts of the context are what a caller passes: the identity is read from
  the leaf unless it is given, and the reference is taken as it is, also without
  an offset. A reference that is no clock reading is no matter to any check but
  the one of the validity windows.
-/
import PeerTrust.Evaluator

namespace PeerTrust.CheckContext

/-- **The context of the given parts.** -/
def ofParts (chain : Value) (target : String) (identity : Option String) (policy : Policy)
    (reference : Reading) (roots : Option RootSet) (observer : Option Observer) :
    Traced CheckContext := do
  let chain ← .ofExcept chain.presentedChain
  let identity ← match identity with
    | some identity => pure identity
    | none => chain.leaf.peerIdentity
  return ⟨chain, target, identity, policy, reference, roots, observer⟩

/-- The reading of a reference; a value that is none stands for the present. -/
def readingOf (now : Instant) : Value → Reading
  | .dateTime r => r
  | _ => .ofInstant now

/-- A reference is absent or a clock reading. -/
def isReference : Value → Bool
  | .null | .dateTime _ => true
  | _ => false

/-- **Runs the check of a name** with the reference that a caller passes; a name without
a check stands for checks as such. -/
def runNamed (ctx : CheckContext) (name : String) (reference : Value) : Traced Unit :=
  match CheckName.ofText? name with
  | some .validity =>
    if isReference reference then ctx.run .validity else .fail .noSuchAttribute
  | some check => ctx.run check
  | none => .fail .abstractCheck

end PeerTrust.CheckContext
