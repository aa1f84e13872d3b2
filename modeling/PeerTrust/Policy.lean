/-
  `Policy` — which checks a chain has to pass.

  Each of the four checks is a switch of its own. The fifth switch relaxes the
  check of the root: a lone certificate that is no trusted root passes it, and
  the acceptance is put on record.
-/
namespace PeerTrust

/-- The checks, in the order in which they run. -/
inductive CheckName
  | chain
  | root
  | identity
  | validity
deriving DecidableEq, Repr

namespace CheckName

/-- All checks in the order in which they run. -/
def all : List CheckName := [.chain, .root, .identity, .validity]

/-- The name of the switch that enables a check; reports use it as well. -/
def text : CheckName → String
  | .chain => "verify_chain"
  | .root => "verify_root"
  | .identity => "check_domain_match"
  | .validity => "check_expiry"

/-- The check with a given name. -/
def ofText? (s : String) : Option CheckName := all.find? fun c => c.text == s

end CheckName

/-- The switches of a policy. -/
structure Policy where
  verifyChain : Bool
  verifyRoot : Bool
  checkDomainMatch : Bool
  checkExpiry : Bool
  acceptSelfSigned : Bool
deriving DecidableEq, Repr

namespace Policy

/-- The policy unless another one is asked for: all checks, no relaxation. -/
def standard : Policy := ⟨true, true, true, true, false⟩

/-- The policy without checks. -/
def disabled : Policy := ⟨false, false, false, false, false⟩

/-- The switches by name. -/
def fields (p : Policy) : List (String × Bool) := [
  (CheckName.text .chain, p.verifyChain),
  (CheckName.text .root, p.verifyRoot),
  (CheckName.text .identity, p.checkDomainMatch),
  (CheckName.text .validity, p.checkExpiry),
  ("accept_self_signed", p.acceptSelfSigned)]

/-- The switch of a check. -/
def enables (p : Policy) : CheckName → Bool
  | .chain => p.verifyChain
  | .root => p.verifyRoot
  | .identity => p.checkDomainMatch
  | .validity => p.checkExpiry

/-- **The checks that a policy enables,** in the order in which they run. -/
def checks (p : Policy) : List CheckName := CheckName.all.filter p.enables

end Policy
end PeerTrust
