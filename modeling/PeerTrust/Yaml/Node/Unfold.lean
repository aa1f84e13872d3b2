/-
  `Yaml.Node.Unfold` — the value of a document from what its nodes have become.

  Nodes that lead to an end have their value independently of where they stand.
  A node that leads back to itself has none; it is unfolded along the path to it
  and cut where it recurs. A list is cut where it recurs first, as in messages.
  In a dictionary the settings are read up to a depth, and the cut is below it.
-/
import PeerTrust.Yaml.Node.Build

namespace PeerTrust.Yaml

namespace Built

/-- A pair of nodes as a tuple. -/
def tuple? (valueOf : Nat → Option Value) (pair : Nat × Nat) : Option Value := do
  some (.tuple [← valueOf pair.1, ← valueOf pair.2])

/-- An entry of a dictionary. -/
def assignment? (valueOf : Nat → Option Value) (entry : Value × Nat) : Option (Value × Value) := do
  some (entry.1, ← valueOf entry.2)

/-- The value of a node from the values of what it holds, if all have one. -/
def value? (valueOf : Nat → Option Value) : Built → Option Value
  | .scalar v => some v
  | .list items => (items.mapM valueOf).map .list
  | .pairs items => (items.mapM (tuple? valueOf)).map .list
  | .dict entries => (entries.mapM (assignment? valueOf)).map .dict
  | .set members => some (.set members)

/-- The node is a dictionary. -/
def isDict : Built → Bool
  | .dict _ => true
  | _ => false

end Built

/-- A document whose nodes have been built. -/
structure Construction where
  built : Array (Option Built)

namespace Construction

/-- What a node has become. -/
def get (c : Construction) (id : Nat) : Built := (c.built.getD id none).getD (.scalar .null)

/-! ### Nodes that lead to an end -/

/-- The value of one more node, if all that it holds have one. -/
def settleNode (c : Construction) (values : Array (Option Value)) (id : Nat) :
    Array (Option Value) :=
  if (values.getD id none).isSome then values
  else values.setIfInBounds id ((c.get id).value? fun i => values.getD i none)

/-- The number of nodes with a value. -/
def countSettled (values : Array (Option Value)) : Nat := (values.filter Option.isSome).size

/-- Goes through all nodes, the last one first, as long as more of them get a value. -/
def settle (c : Construction) : Nat → Array (Option Value) → Array (Option Value)
  | 0, values => values
  | fuel + 1, values =>
    let next := (List.range c.built.size).reverse.foldl c.settleNode values
    if countSettled next = countSettled values then values else settle c fuel next

/-- The values of all nodes that lead to an end. -/
def settled (c : Construction) : Array (Option Value) :=
  c.settle (c.built.size + 1) (Array.replicate c.built.size none)

/-! ### Nodes that lead back to themselves -/

/-- How many collections around a setting the settings are read through. -/
def readDepth : Nat := 4

/-- A node is cut behind a path of nodes. -/
def isCut (keyed : Bool) (path : List Nat) (id : Nat) : Bool :=
  if keyed then readDepth ≤ path.length else path.contains id

/-- Unfolds a node behind a path, at most `fuel` nodes inside each other. -/
def unfold (c : Construction) (values : Array (Option Value)) (keyed : Bool) :
    Nat → List Nat → Nat → Value
  | 0, _, id => .recurring (c.get id).isDict
  | fuel + 1, path, id =>
    match values.getD id none with
    | some v => v
    | none =>
      let inner := unfold c values keyed fuel (id :: path)
      if isCut keyed path id then .recurring (c.get id).isDict
      else ((c.get id).value? fun i => some (inner i)).getD .null

/-- **The value of the document** with the given node. -/
def value (c : Construction) (root : Nat) : Value :=
  c.unfold c.settled (c.get root).isDict (c.built.size + readDepth) [] root

end Construction
end PeerTrust.Yaml
