/-
  `Session` — objects that live on from one operation to the next.

  Holders, evaluators and managers are known by number, and values by the names
  under which they were saved. An operation on a holder gives the session after
  it in any case. Other operations change nothing before the last of what can
  fail, and give a session only if they succeed.
-/
import PeerTrust.Evaluator.Provision
import PeerTrust.Manager

namespace PeerTrust

/-- The environment, the live objects, and the saved values by name. -/
structure Session where
  env : Environment
  holders : Holders
  evaluators : List Evaluator
  managers : List Manager
  saved : List (String × Value)

namespace Session

/-- The session without objects. -/
def start (env : Environment) : Session := ⟨env, .empty, [], [], []⟩

/-! ### Objects by value -/

/-- The number of the holder that a value refers to. -/
def holderArgument : Value → Except Failure Nat
  | .holder id => .ok id
  | _ => .error .noSuchAttribute

/-- The evaluator that a value refers to. -/
def evaluatorArgument (s : Session) (v : Value) : Except Failure Evaluator :=
  match v with
  | .evaluator id => (s.evaluators[id]?).elim (.error .noSuchAttribute) .ok
  | _ => .error .noSuchAttribute

/-- The manager that a value refers to, and its number. -/
def managerArgument (s : Session) (v : Value) : Except Failure (Nat × Manager) :=
  match v with
  | .manager id => (s.managers[id]?).elim (.error .noSuchAttribute) fun m => .ok (id, m)
  | _ => .error .noSuchAttribute

/-- Adds a holder. -/
def addHolder (s : Session) (h : Holder) : Session × Value :=
  let (holders, id) := s.holders.add h
  ({ s with holders := holders }, .holder id)

/-- Adds an evaluator. -/
def addEvaluator (s : Session) (ev : Evaluator) : Session × Value :=
  ({ s with evaluators := s.evaluators ++ [ev] }, .evaluator s.evaluators.length)

/-- Adds a manager. -/
def addManager (s : Session) (m : Manager) : Session × Value :=
  ({ s with managers := s.managers ++ [m] }, .manager s.managers.length)

/-- Saves a value under a name, in the place of an older one. -/
def save (s : Session) (name : String) (v : Value) : Session :=
  { s with saved := (name, v) :: s.saved.filter fun entry => entry.1 != name }

/-! ### Copies -/

/-- **The live object can be copied:** an evaluator unless it goes by a holder, and a manager if its
evaluator can be and what it took note of can. Managers are followed through each other at most
`fuel` times. -/
def canCopy (s : Session) : Nat → Value → Bool
  | _, .evaluator id => (s.evaluators[id]?).all Evaluator.isCopyable
  | 0, _ => true
  | fuel + 1, .manager id => (s.managers[id]?).all fun m =>
    m.evaluator.isCopyable && m.diagnostics.all fun d =>
      [d.certificate, d.code, d.depth].all fun v => (v.copy? (s.canCopy fuel)).isSome
  | _, _ => true

/-- Merges layers that may hold live objects. A manager that comes back to itself has been followed
through all managers. -/
def mergeLayers (s : Session) (layers : List Value) : Except Failure Value :=
  Layers.merge (s.canCopy s.managers.length) layers

/-! ### Holders -/

/-- A holder of the roots that a caller passes. -/
def newHolder (s : Session) (roots config : Value) : Traced (Session × Value) := do
  let roots ← .ofExcept (Holder.rootsArgument roots)
  return s.addHolder ⟨roots, .ofValue config⟩

/-- A holder of the roots that settings describe. -/
def loadHolder (s : Session) (config : Value) : Traced (Session × Value) := do
  match config with
  | .storeConfig config => return s.addHolder (← Holder.ofConfig s.env config)
  | _ => .fail .noSuchAttribute

/-- The current roots of a holder. -/
def snapshot (s : Session) (holder : Value) : Except Failure RootSet := do
  return (s.holders.get (← holderArgument holder)).roots

/-- Does something with the holder that a value refers to. The session goes on with the holder
that is left, also after a failure. -/
def withHolder (s : Session) (holder : Value) (action : Stateful Holder RootSet) :
    Session × Traced RootSet :=
  match holderArgument holder with
  | .error f => (s, .fail f)
  | .ok id =>
    let (h, result) := action (s.holders.get id)
    ({ s with holders := s.holders.set id h }, result)

/-- **Exchanges the roots of a holder;** gives the previous ones. -/
def replaceRoots (s : Session) (holder roots : Value) : Session × Traced RootSet :=
  s.withHolder holder (Holder.replace roots)

/-- **Loads the roots of a holder anew;** gives the new ones. -/
def reloadRoots (s : Session) (holder config : Value) : Session × Traced RootSet :=
  s.withHolder holder (Holder.reload s.env config)

/-! ### Evaluators -/

/-- An evaluator of the given parts. -/
def newEvaluator (s : Session) (roots policy : Value) (observer : Evaluator.ObserverArgument) :
    Except Failure (Session × Value) := do
  return s.addEvaluator (← Evaluator.make roots policy observer)

/-- The evaluator of the settings that a caller asks for. -/
def buildEvaluator (s : Session) (config : Value) (observer : Evaluator.ObserverArgument) :
    Traced (Session × Value) := do
  let (holders, ev) ← Evaluator.ofArgument s.env s.holders config observer
  return { s with holders := holders }.addEvaluator ev

/-- Evaluates a request with one of the evaluators. -/
def evaluate (s : Session) (evaluator : Value) (request : Request) : Traced Verdict := do
  let ev ← .ofExcept (s.evaluatorArgument evaluator)
  ev.evaluate s.env s.holders request

/-- Evaluates a request with one of the evaluators and fails unless it is trusted. -/
def demandTrust (s : Session) (evaluator : Value) (request : Request) : Traced Verdict := do
  let ev ← .ofExcept (s.evaluatorArgument evaluator)
  ev.demandTrust s.env s.holders request

/-! ### Managers -/

/-- A manager for a host. -/
def newManager (s : Session) (hostname evaluator : Value) : Except Failure (Session × Value) := do
  let hostname ← Manager.hostnameArgument hostname
  match evaluator with
  | .evaluator _ => return s.addManager ⟨hostname, ← s.evaluatorArgument evaluator, []⟩
  | v => .error (.wrongClass v .evaluator)

/-- **Takes note of a call back of the TLS library.** -/
def recordCallback (s : Session) (manager certificate code depth : Value) :
    Except Failure (Session × Bool) := do
  let (id, m) ← s.managerArgument manager
  let (m, goesOn) ← m.record certificate code depth
  return ({ s with managers := s.managers.set id m }, goesOn)

/-- Decides on a chain with one of the managers. -/
def managerCheck (s : Session) (manager chain reference : Value) : Traced Verdict := do
  let (_, m) ← .ofExcept (s.managerArgument manager)
  m.check s.env s.holders chain reference

/-- Decides on the peer of a connection with one of the managers. -/
def verifyConnection (s : Session) (manager chain leaf reference : Value) : Traced Verdict := do
  let (_, m) ← .ofExcept (s.managerArgument manager)
  m.verifyConnection s.env s.holders chain leaf reference

/-! ### Files -/

/-- Puts a file at a path. -/
def writeFile (s : Session) (path : String) (entry : FileEntry) : Session :=
  { s with env := { s.env with files := s.env.files.write (Path.ofText path) entry } }

/-- Removes the file at a path. -/
def deleteFile (s : Session) (path : String) : Except Failure Session :=
  match s.env.files.delete (Path.ofText path) with
  | .ok files => .ok { s with env := { s.env with files := files } }
  | .error fault => .error (.system fault)

end Session
end PeerTrust
