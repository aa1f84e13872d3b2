/-
  `Yaml.Node` — the nodes of a document.

  A document is a graph: an alias is one more edge to a node that is there
  already, and a collection may even hold itself. So nodes refer to each other by
  number. Every node has a full tag; where none was written it follows from the
  form of the text (`Schema.formTag`) or is the one of the kind.
-/
import PeerTrust.Yaml.Schema

namespace PeerTrust.Yaml

/-- A node, with its tag. -/
inductive Node
  | scalar (tag text : String)
  | sequence (tag : String) (items : List Nat)
  | mapping (tag : String) (entries : List (Nat × Nat))
deriving DecidableEq, Repr

namespace Node

/-- What stands in a place where nothing was written. -/
def nothing : Node := .scalar (Schema.tag "null") ""

instance : Inhabited Node := ⟨nothing⟩

/-- The tag of a node. -/
def tag : Node → String
  | .scalar tag _ | .sequence tag _ | .mapping tag _ => tag

/-- The node under another tag. -/
def withTag (tag : String) : Node → Node
  | .scalar _ text => .scalar tag text
  | .sequence _ items => .sequence tag items
  | .mapping _ entries => .mapping tag entries

/-- A scalar under a tag that may have been written. Without a tag only a plain
text is looked at; the open tag has any text looked at. -/
def ofScalar (written : Option String) (plain : Bool) (text : String) : Node :=
  match written with
  | none => .scalar (if plain then Schema.formTag text else Schema.tag "str") text
  | some tag => .scalar (if tag == Schema.openTag then Schema.formTag text else tag) text

/-- The tag of a collection of a kind, under a tag that may have been written. -/
def collectionTag (kind : String) (written : Option String) : String :=
  match written with
  | none => Schema.tag kind
  | some tag => if tag == Schema.openTag then Schema.tag kind else tag

end Node

/-- The nodes of a document by number. -/
structure Graph where
  nodes : Array Node

namespace Graph

/-- The graph without nodes. -/
def empty : Graph := ⟨#[]⟩

/-- The node of a number. -/
def get (g : Graph) (id : Nat) : Node := g.nodes.getD id .nothing

/-- Exchanges the node of a number. -/
def set (g : Graph) (id : Nat) (n : Node) : Graph := ⟨g.nodes.setIfInBounds id n⟩

/-- Adds a node, and gives its number. -/
def add (g : Graph) (n : Node) : Graph × Nat := (⟨g.nodes.push n⟩, g.nodes.size)

/-- The number of nodes. -/
def size (g : Graph) : Nat := g.nodes.size

/-- The entries of a mapping; other nodes have none. -/
def entries (g : Graph) (id : Nat) : List (Nat × Nat) :=
  match g.get id with
  | .mapping _ entries => entries
  | _ => []

/-- Exchanges the entries of a mapping. -/
def setEntries (g : Graph) (id : Nat) (entries : List (Nat × Nat)) : Graph :=
  g.set id (.mapping (g.get id).tag entries)

/-- The node is a mapping. -/
def isMapping (g : Graph) (id : Nat) : Bool :=
  match g.get id with
  | .mapping _ _ => true
  | _ => false

end Graph
end PeerTrust.Yaml
