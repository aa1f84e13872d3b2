/-
  `Session.Diagnosis` — lists of diagnostics that callers hold.

  A list is an object: whoever holds it may change it, and everybody who holds
  it sees the change. A manager adds to a list of its own. Who reads it gets
  another list with the same entries. Lists are known by reference, so that it
  shows which of them a change reaches.
-/
import PeerTrust.Session

namespace PeerTrust

/-- A list of diagnostics: the one that a manager adds to, or one that was made to be
given out. -/
inductive ListRef
  | own (manager : Nat)
  | copy (number : Nat)
deriving DecidableEq, Repr

/-- A session, the lists that were made in it, and what callers were given, in order. -/
structure Diagnosis where
  session : Session
  copies : List (List Diagnostic)
  held : List ListRef

namespace Diagnosis

/-- The session in which nobody holds a list yet. -/
def start (s : Session) : Diagnosis := ⟨s, [], []⟩

/-- A new manager for a host, which has nothing to remember. -/
def make (d : Diagnosis) (hostname evaluator : Value) : Except Failure (Diagnosis × Value) := do
  let (session, manager) ← d.session.newManager hostname evaluator
  return ({ d with session := session }, manager)

/-- What a list has in it now. -/
def entries (d : Diagnosis) : ListRef → List Diagnostic
  | .own id => (d.session.managers[id]?).elim [] Manager.diagnostics
  | .copy number => d.copies.getD number []

/-- **Gives a caller what a manager remembers,** as a new list. -/
def read (d : Diagnosis) (manager : Value) : Except Failure (Diagnosis × ListRef) := do
  let (id, _) ← d.session.managerArgument manager
  let list := ListRef.copy d.copies.length
  return ({ d with copies := d.copies ++ [d.entries (.own id)], held := d.held ++ [list] }, list)

/-- **Changes a list in place.** -/
def change (d : Diagnosis) (list : ListRef) (f : List Diagnostic → List Diagnostic) : Diagnosis :=
  match list with
  | .own id =>
    let managers := d.session.managers.modify id fun m => { m with diagnostics := f m.diagnostics }
    { d with session := { d.session with managers := managers } }
  | .copy number => { d with copies := d.copies.modify number f }

end Diagnosis
end PeerTrust
