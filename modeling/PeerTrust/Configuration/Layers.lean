/-
  `Configuration.Layers` — documents on top of each other.

  A later layer wins key by key. Where both layers have a dictionary at a key
  the two are merged in turn; otherwise a copy of the later value replaces the
  earlier one as a whole. Keys keep the place at which they first occurred. What
  is below is copied with its keys before it is merged into; the keys of what is
  laid on top are taken as they are.
-/
import PeerTrust.Failure

namespace PeerTrust

namespace Value

section Merging

variable (copies : Value → Bool)

mutual

/-- One value on top of another, if all can be copied that has to be: dictionaries are merged,
anything else replaces. -/
def merge? (base : Value) : Value → Option Value
  | .dict top =>
    match base with
    | .dict entries => do
      let entries ← copyEntries? copies entries
      return .dict (← mergeEntries? entries top)
    | _ => copy? copies (.dict top)
  | top => copy? copies top

/-- **Entries on top of entries,** one after the other. -/
def mergeEntries? (base : List (Value × Value)) :
    List (Value × Value) → Option (List (Value × Value))
  | [] => some base
  | (key, top) :: rest => do
    let merged ←
      match lookup key base with
      | some below => merge? below top
      | none => copy? copies top
    mergeEntries? (put key merged base) rest

end

end Merging

mutual

/-- Somewhere both values have a dictionary that stands inside itself, so laying one
on top of the other has no end. -/
def bothEndless (base : Value) : Value → Bool
  | .recurring keyed =>
    match base with
    | .recurring below => keyed && below
    | _ => false
  | .dict top =>
    match base with
    | .dict entries => bothEndlessAt entries top
    | _ => false
  | _ => false

/-- At some key both have a dictionary that stands inside itself. -/
def bothEndlessAt (base : List (Value × Value)) : List (Value × Value) → Bool
  | [] => false
  | (key, top) :: rest =>
    (match lookup key base with
      | some below => bothEndless below top
      | none => false) || bothEndlessAt base rest

end

end Value

namespace Layers

/-- The entries of a layer, which has to be a dictionary. -/
def entries (layer : Value) : Except Failure (List (Value × Value)) :=
  match layer with
  | .dict entries => .ok entries
  | v => .error (.notDictionary v)

/-- Copying is a failure where it is not possible. -/
def copied {α : Type} (copy : Option α) : Except Failure α := copy.elim (.error .misuse) .ok

/-- **Merges layers,** of which there have to be two at least. The lowest layer is copied before it
is looked at. -/
def merge (copies : Value → Bool) : List Value → Except Failure Value
  | base :: second :: rest => do
    let base ← entries (← copied (base.copy? copies))
    let merged ← (second :: rest).foldlM (fun merged layer => do
      copied (Value.mergeEntries? copies merged (← entries layer))) base
    return .dict merged
  | _ => .error .tooFewLayers

/-- The layer below all others, with every setting at its default. -/
def defaults : Value := .dict [
  (.str "hostname", .null),
  (.str "policy", .dict [
    (.str "verify_chain", .bool true),
    (.str "verify_root", .bool true),
    (.str "check_domain_match", .bool true),
    (.str "check_expiry", .bool true),
    (.str "accept_self_signed", .bool false)]),
  (.str "truststore", .dict [
    (.str "path", .null),
    (.str "type", .str "PEM"),
    (.str "password", .null),
    (.str "on_load_error", .str "raise")])]

/-- A layer that counts as absent is empty. -/
def orEmpty (layer : Value) : Value := if layer.isTruthy then layer else .dict []

/-- **The layers of a user and of a project on top of the defaults.** -/
def combine (copies : Value → Bool) (user custom : Value) : Except Failure Value :=
  if Value.bothEndless user custom then .error (.document .endless)
  else merge copies [defaults, orEmpty user, orEmpty custom]

end Layers
end PeerTrust
