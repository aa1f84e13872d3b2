/-
  `Yaml.Node.Merge` — mappings that are merged into others.

  A key with the tag for merging is no key: the entries of its value, a mapping
  or a list of mappings, come before the mapping's own entries, and of several
  mappings the first comes last, so that the later entry of a key is the one to
  count. A key with the tag for a default becomes a text.

  Merging works on the graph itself, since a mapping that is merged in is changed
  in the same way for everybody who refers to it. A mapping may merge itself in:
  each merging key is taken out before its value is looked at, so there is an end.
-/
import PeerTrust.Yaml.Fault
import PeerTrust.Yaml.Node

namespace PeerTrust.Yaml.Graph

/-- The node is a key that merges. -/
def isMergeKey (g : Graph) (id : Nat) : Bool := (g.get id).tag == Schema.tag "merge"

/-- The number of keys that merge. -/
def mergeKeys (g : Graph) : Nat :=
  g.nodes.foldl (fun n node =>
    match node with
    | .mapping _ entries => n + (entries.filter fun e => g.isMergeKey e.1).length
    | _ => n) 0

/-- A key for a default becomes a text. -/
def plainKey (g : Graph) (id : Nat) : Graph :=
  if (g.get id).tag == Schema.tag "value" then g.set id ((g.get id).withTag (Schema.tag "str"))
  else g

/-- The entries of mappings, one after the other, each merged before it is read.
Only mappings may be merged in. -/
def gather (merge : Graph → Nat → Scan Graph) (g : Graph) :
    List Nat → Scan (Graph × List (List (Nat × Nat)))
  | [] => return (g, [])
  | id :: rest => do
    if !g.isMapping id then Scan.malformed
    let g ← merge g id
    let here := g.entries id
    let (g, others) ← gather merge g rest
    return (g, here :: others)

/-- The entries that the value of a merging key contributes. -/
def contribution (merge : Graph → Nat → Scan Graph) (g : Graph) (id : Nat) :
    Scan (Graph × List (Nat × Nat)) :=
  match g.get id with
  | .mapping _ _ => do
    let g ← merge g id
    return (g, g.entries id)
  | .sequence _ items => do
    let (g, parts) ← gather merge g items
    return (g, parts.reverse.flatten)
  | .scalar _ _ => .malformed

/-- Goes through the entries of a mapping: `passed` are those before the ones at
hand, `found` what has been merged in. If merging changed the mapping itself,
there is nothing left to do for it but to put what was found in front. -/
def mergeFrom (merge : Graph → Nat → Scan Graph) (id : Nat) (g : Graph)
    (found passed : List (Nat × Nat)) : List (Nat × Nat) → Scan Graph
  | [] => return if found.isEmpty then g else g.setEntries id (found ++ passed)
  | (k, v) :: rest =>
    if g.isMergeKey k then do
      let (g, more) ← contribution merge (g.setEntries id (passed ++ rest)) v
      let found := found ++ more
      if g.entries id = passed ++ rest then mergeFrom merge id g found passed rest
      else
        return if found.isEmpty then g else g.setEntries id (found ++ g.entries id)
    else mergeFrom merge id (g.plainKey k) found (passed ++ [(k, v)]) rest

/-- Merges with at most `fuel` mappings inside each other. -/
def mergeWithin : Nat → Graph → Nat → Scan Graph
  | 0, _, _ => .error .endless
  | fuel + 1, g, id => mergeFrom (mergeWithin fuel) id g [] [] (g.entries id)

/-- **The graph in which a mapping has what its keys merge in.** -/
def merged (g : Graph) (id : Nat) : Scan Graph := mergeWithin (g.mergeKeys + 1) g id

end PeerTrust.Yaml.Graph
