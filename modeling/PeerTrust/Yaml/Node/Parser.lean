/-
  `Yaml.Node.Parser` — from tokens to the graph of a document.

  The grammar is read by recursive descent. `Parse` carries the tokens that are
  still ahead, the handles of tags, the nodes so far, and the numbers of those
  that have a name. A collection gets its number before what it holds is read,
  so an alias inside it can refer to it. A text holds at most one document.
-/
import PeerTrust.Yaml.Node
import PeerTrust.Yaml.Token

namespace PeerTrust.Yaml

/-- What the parser carries along. -/
structure TokenStream where
  tokens : List Token
  handles : List (String × String)
  graph : Graph
  anchors : List (String × Nat)

/-- A step of the parser, which may fail. -/
abbrev Parse := StateT TokenStream (Except Fault)

namespace Parse

/-- The tokens break a rule of the format. -/
def malformed {α : Type} : Parse α := throw .malformed

/-! ### Single tokens -/

/-- The next token. -/
def peek : Parse Token := do
  match (← get).tokens with
  | .fault f :: _ => throw f
  | t :: _ => return t
  | [] => malformed

/-- Moves over the next token. -/
def drop : Parse Unit := modify fun s => { s with tokens := s.tokens.drop 1 }

/-- Moves over the next token if it is the given one. -/
def take? (t : Token) : Parse Bool := do
  if (← peek) = t then
    drop
    return true
  else return false

/-- Moves over the next token, which has to be the given one. -/
def expect (t : Token) : Parse Unit := do
  if !(← take? t) then malformed

/-! ### The graph -/

/-- Adds a node, under a name if it has one. -/
def add (anchor : Option String) (n : Node) : Parse Nat :=
  modifyGet fun s =>
    let (graph, id) := s.graph.add n
    (id, { s with graph, anchors := (anchor.map fun name => (name, id)).toList ++ s.anchors })

/-- Adds a node for a place where nothing was written. -/
def addNothing : Parse Nat := add none .nothing

/-- Adds a sequence, and then what it holds. -/
def addSequence (anchor : Option String) (tag : String) (items : Parse (List Nat)) :
    Parse Nat := do
  let id ← add anchor (.sequence tag [])
  let items ← items
  modify fun s => { s with graph := s.graph.set id (.sequence tag items) }
  return id

/-- Adds a mapping, and then what it holds. -/
def addMapping (anchor : Option String) (tag : String) (entries : Parse (List (Nat × Nat))) :
    Parse Nat := do
  let id ← add anchor (.mapping tag [])
  let entries ← entries
  modify fun s => { s with graph := s.graph.set id (.mapping tag entries) }
  return id

/-- A node, or nothing if one of the given tokens comes next. -/
def unlessNext (stops : List Token) (read : Parse Nat) : Parse Nat := do
  if stops.contains (← peek) then addNothing else read

/-- A value behind its sign, or nothing if there is no sign or one of the given
tokens comes next. -/
def valueUnless (stops : List Token) (read : Parse Nat) : Parse Nat := do
  if ← take? .value then unlessNext stops read else addNothing

/-! ### Names and tags -/

/-- The node that an alias names. -/
def named (name : String) : Parse Nat := do
  match (← get).anchors.lookup name with
  | some id => return id
  | none => malformed

/-- A name has to be new. -/
def checkNew (anchor : Option String) : Parse Unit := do
  let known := (← get).anchors
  if anchor.any fun name => (known.lookup name).isSome then malformed

/-- The full tag of a written one. -/
def fullTag (written : WrittenTag) : Parse String := do
  match written.handle with
  | none => return written.suffix
  | some handle =>
    match (← get).handles.lookup handle with
    | some meaning => return meaning ++ written.suffix
    | none => malformed

/-- What stands before a node: a name and a tag, each optional. -/
structure Properties where
  anchor : Option String
  tag : Option String

/-- There is a name or a tag. -/
def Properties.arePresent (p : Properties) : Bool := p.anchor.isSome || p.tag.isSome

/-- A name and a tag in either order. -/
def properties : Parse Properties := do
  match ← peek with
  | .anchor name => do
    drop
    match ← peek with
    | .tag written => do
      drop
      return ⟨some name, some (← fullTag written)⟩
    | _ => return ⟨some name, none⟩
  | .tag written => do
    drop
    match ← peek with
    | .anchor name => do
      drop
      return ⟨some name, some (← fullTag written)⟩
    | _ => return ⟨none, some (← fullTag written)⟩
  | _ => return ⟨none, none⟩

/-! ### Nodes -/

/-- How many collections may be inside each other. -/
def maxDepth : Nat := 489

/-- A collection at a depth of which `room` more may follow. -/
def descend (room : Nat) (read : Nat → Parse Nat) : Parse Nat :=
  match room with
  | 0 => throw .endless
  | room + 1 => read room

/-- An empty node, which has to have properties. -/
def emptyContent (p : Properties) : Parse Nat :=
  if p.arePresent then add p.anchor (.ofScalar p.tag true "") else malformed

mutual

/-- **A node.** Only inside a block can it be a block itself, and only as a key or
a value of a mapping a sequence without indentation. `room` is how many more
collections may be inside each other. -/
def node : Nat → Nat → Bool → Bool → Parse Nat
  | 0, _, _, _ => malformed
  | fuel + 1, room, block, indentless => do
    match ← peek with
    | .alias name => do
      drop
      named name
    | _ => do
      let p ← properties
      let next ← peek
      checkNew p.anchor
      content fuel room block indentless p next

/-- The content of a node with the given properties, at the token that comes next. -/
def content : Nat → Nat → Bool → Bool → Properties → Token → Parse Nat
  | 0, _, _, _, _, _ => malformed
  | fuel + 1, room, block, indentless, p, next =>
    let sequence (items : Nat → Parse (List Nat)) : Parse Nat :=
      descend room fun room => addSequence p.anchor (Node.collectionTag "seq" p.tag) (items room)
    let mapping (entries : Nat → Parse (List (Nat × Nat))) : Parse Nat :=
      descend room fun room => addMapping p.anchor (Node.collectionTag "map" p.tag) (entries room)
    match next with
    | .blockEntry =>
      if indentless then sequence fun room => indentlessItems fuel room else emptyContent p
    | .scalar text plain => do
      drop
      add p.anchor (.ofScalar p.tag plain text)
    | .flowSequenceStart => do
      drop
      sequence fun room => flowItems fuel room true
    | .flowMappingStart => do
      drop
      mapping fun room => flowEntries fuel room true
    | .blockSequenceStart =>
      if block then do
        drop
        sequence fun room => blockItems fuel room
      else emptyContent p
    | .blockMappingStart =>
      if block then do
        drop
        mapping fun room => blockEntries fuel room
      else emptyContent p
    | _ => emptyContent p

/-- The items of an indented sequence. -/
def blockItems : Nat → Nat → Parse (List Nat)
  | 0, _ => malformed
  | fuel + 1, room => do
    if ← take? .blockEntry then
      let item ← unlessNext [.blockEntry, .blockEnd] (node fuel room true false)
      return item :: (← blockItems fuel room)
    else
      expect .blockEnd
      return []

/-- The items of a sequence that is not indented against its mapping. -/
def indentlessItems : Nat → Nat → Parse (List Nat)
  | 0, _ => malformed
  | fuel + 1, room => do
    if ← take? .blockEntry then
      let item ← unlessNext [.blockEntry, .key, .value, .blockEnd] (node fuel room true false)
      return item :: (← indentlessItems fuel room)
    else return []

/-- The entries of a mapping outside brackets. -/
def blockEntries : Nat → Nat → Parse (List (Nat × Nat))
  | 0, _ => malformed
  | fuel + 1, room => do
    if ← take? .key then
      let stops := [.key, .value, .blockEnd]
      let key ← unlessNext stops (node fuel room true true)
      let value ← valueUnless stops (node fuel room true true)
      return (key, value) :: (← blockEntries fuel room)
    else
      expect .blockEnd
      return []

/-- The items of a sequence in brackets. A single entry of a mapping may stand as
an item. -/
def flowItems : Nat → Nat → Bool → Parse (List Nat)
  | 0, _, _ => malformed
  | fuel + 1, room, first => do
    if ← take? .flowSequenceEnd then return []
    if !first then expect .flowEntry
    if ← take? .key then
      let item ← descend room fun room => addMapping none (Schema.tag "map") do
        let key ← unlessNext [.value, .flowEntry, .flowSequenceEnd] (node fuel room false false)
        let value ← valueUnless [.flowEntry, .flowSequenceEnd] (node fuel room false false)
        return [(key, value)]
      return item :: (← flowItems fuel room false)
    else if ← take? .flowSequenceEnd then return []
    else
      let item ← node fuel room false false
      return item :: (← flowItems fuel room false)

/-- The entries of a mapping in brackets. An entry may be a key alone. -/
def flowEntries : Nat → Nat → Bool → Parse (List (Nat × Nat))
  | 0, _, _ => malformed
  | fuel + 1, room, first => do
    if ← take? .flowMappingEnd then return []
    if !first then expect .flowEntry
    if ← take? .key then
      let key ← unlessNext [.value, .flowEntry, .flowMappingEnd] (node fuel room false false)
      let value ← valueUnless [.flowEntry, .flowMappingEnd] (node fuel room false false)
      return (key, value) :: (← flowEntries fuel room false)
    else if ← take? .flowMappingEnd then return []
    else
      let key ← node fuel room false false
      let value ← addNothing
      return (key, value) :: (← flowEntries fuel room false)

end

/-! ### Documents -/

/-- The handles that need no directive. -/
def standardHandles : List (String × String) := [("!", "!"), ("!!", Schema.tag "")]

/-- The directives before a document: at most one version, which has to be known,
and handles that are defined once. -/
def directives : Nat → Bool → Parse Unit
  | 0, _ => malformed
  | fuel + 1, versioned => do
    match ← peek with
    | .directive d => do
      drop
      match d with
      | .version major =>
        if versioned || major ≠ 1 then malformed
        directives fuel true
      | .handle name meaning => do
        if (← get).handles.any (·.1 == name) then malformed
        modify fun s => { s with handles := (name, meaning) :: s.handles }
        directives fuel versioned
      | .other => directives fuel versioned
    | _ => modify fun s => { s with handles := s.handles ++ standardHandles }

/-- Skips marks of the end of a document. -/
def skipEnds : Nat → Parse Unit
  | 0 => return ()
  | fuel + 1 => do
    if ← take? .documentEnd then skipEnds fuel

/-- The end of the text. Directives for one more document are read before it turns
out that there may be none. -/
def finish (fuel : Nat) : Parse Unit := do
  skipEnds fuel
  if (← peek) ≠ .streamEnd then
    modify fun s => { s with handles := [] }
    directives fuel false
    malformed

/-- **The only document,** if there is one, as the number of its node. -/
def document (fuel : Nat) : Parse (Option Nat) := do
  match ← peek with
  | .streamEnd => return none
  | .directive _ | .documentStart => do
    directives fuel false
    expect .documentStart
    let id ← match ← peek with
      | .directive _ | .documentStart | .documentEnd | .streamEnd => addNothing
      | _ => node fuel maxDepth true false
    finish fuel
    return some id
  | _ => do
    modify fun s => { s with handles := standardHandles }
    let id ← node fuel maxDepth true false
    finish fuel
    return some id

end Parse

/-- **The document that tokens make up,** if there is one and no more: the number of
its node and the nodes. -/
def Graph.ofTokens (tokens : List Token) : Scan (Option Nat × Graph) := do
  let (root, s) ← (Parse.document (3 * tokens.length + 3)).run ⟨tokens, [], .empty, []⟩
  return (root, s.graph)

end PeerTrust.Yaml
