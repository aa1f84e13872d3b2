/-
  `Yaml.Node.Build` — what the nodes of a document stand for.

  A scalar stands for a value at once. A collection is begun where it is met
  first and filled later, in the order in which collections were begun. This is
  what lets a collection hold itself, and it decides which of several faults of a
  document counts. Every node is built at most once.
-/
import PeerTrust.Yaml.Node.Merge
import PeerTrust.Yaml.Schema.Value

namespace PeerTrust.Yaml

/-- What a node has become. Collections refer to what they hold by number. -/
inductive Built
  | scalar (v : Value)
  | list (items : List Nat)
  | pairs (items : List (Nat × Nat))
  | dict (entries : List (Value × Nat))
  | set (members : List Value)

/-- The nodes that have become something, and the collections among them that are
still to be filled, the last one first. -/
structure Builder where
  graph : Graph
  built : Array (Option Built)
  begun : List Nat

/-- A step of building, which may fail. -/
abbrev Build := StateT Builder (Except Fault)

/-! ### Scalars -/

namespace Graph

/-- The text of a scalar. A mapping has the text of its value for the default. -/
def textWithin (g : Graph) : Nat → Nat → Scan String
  | 0, _ => .error .endless
  | fuel + 1, id =>
    match g.get id with
    | .scalar _ text => .ok text
    | .sequence _ _ => .malformed
    | .mapping _ entries =>
      match entries.find? fun e => (g.get e.1).tag == Schema.tag "value" with
      | some e => textWithin g fuel e.2
      | none => .malformed

/-- The value as an object of the node. What is no number is another object in every node, unless
it is the common one. -/
def inNode (id : Nat) : Value → Value
  | .nan (_ + 1) => .nan (id + 1)
  | v => v

/-- **The value of a node with the tag of a scalar.** -/
def scalarValue (g : Graph) (id : Nat) : Scan Value := do
  let tag := (g.get id).tag
  let read ← Scan.ofOption (Schema.readers.lookup tag)
  let text ← g.textWithin (g.size + 1) id
  if g.isMapping id && tag == Schema.tag "timestamp" then .error .mappingAsTime
  else (read text).map (inNode id)

end Graph

namespace Build

/-! ### Single nodes -/

/-- The tags of collections. -/
def collectionTags : List String := ["seq", "map", "set", "omap", "pairs"].map Schema.tag

/-- The nodes. -/
def graph : Build Graph := return (← get).graph

/-- A node has become something. -/
def put (id : Nat) (b : Built) : Build Unit :=
  modify fun s => { s with built := s.built.setIfInBounds id (some b) }

/-- **Builds a node,** unless it is built already. A collection is only begun. -/
def node (id : Nat) : Build Unit := do
  if ((← get).built.getD id none).isSome then return ()
  let g ← graph
  if collectionTags.contains (g.get id).tag then
    put id (.list [])
    modify fun s => { s with begun := id :: s.begun }
  else
    put id (.scalar (← g.scalarValue id))

/-- The value of a node as a key, which no collection can be. -/
def key (id : Nat) : Build Value := do
  node id
  match (← get).built.getD id none with
  | some (.scalar v) => return v
  | _ => throw .malformed

/-! ### Collections -/

/-- The items of a sequence. -/
def items (id : Nat) : Build Built := do
  match (← graph).get id with
  | .sequence _ items =>
    items.forM node
    return .list items
  | _ => throw .malformed

/-- The entries of a mapping with what it merges in, of which a later one replaces
an earlier one with the same key. -/
def entries (id : Nat) : Build (List (Value × Nat)) := do
  if !(← graph).isMapping id then throw .malformed
  let g ← (← graph).merged id
  modify fun s => { s with graph := g }
  (g.entries id).foldlM (fun known (k, v) => do
    let key ← key k
    node v
    return Value.put key v known) []

/-- The pairs of a sequence of mappings with one entry each. -/
def pairs (id : Nat) : Build Built := do
  match (← graph).get id with
  | .sequence _ items =>
    let pairs ← items.mapM fun item => do
      match (← graph).get item with
      | .mapping _ [(k, v)] =>
        node k
        node v
        return (k, v)
      | _ => throw .malformed
    return .pairs pairs
  | _ => throw .malformed

/-- Fills a collection. -/
def fill (id : Nat) : Build Unit := do
  let tag := ((← graph).get id).tag
  if tag == Schema.tag "seq" then put id (← items id)
  else if tag == Schema.tag "map" then put id (.dict (← entries id))
  else if tag == Schema.tag "set" then put id (.set ((← entries id).map (·.1)))
  else put id (← pairs id)

/-! ### All nodes -/

/-- Fills the collections that were begun, and those that this begins, in at most
`fuel` rounds. -/
def fillAll : Nat → Build Unit
  | 0 => return ()
  | fuel + 1 => do
    let begun := (← get).begun.reverse
    if begun.isEmpty then return ()
    modify fun s => { s with begun := [] }
    begun.forM fill
    fillAll fuel

end Build

/-- **What the nodes of a document have become,** starting with its own. There are no
more rounds than nodes, since every round fills collections that no other fills. -/
def Graph.build (g : Graph) (root : Nat) : Scan (Array (Option Built)) := do
  let steps : Build Unit := do
    Build.node root
    Build.fillAll g.size
  let (_, s) ← steps.run ⟨g, Array.replicate g.size none, []⟩
  return s.built

end PeerTrust.Yaml
