/-
  `Proofs.Configuration.Layers` — what is at a key after layers are merged.

  `lookup_overlayEntries` follows from the law of a single assignment by induction over
  the upper layer: a key that the upper layer does not have keeps what the lower one has
  there, and one that it has once gets that value, laid on top of what was there. All
  else about merged documents rests on this law.

  The law is about `overlay`, which copies nothing. Where all values and keys are equal
  to their copies (`IsSelfCopy`), merging comes to the same (`merge_eq_foldl`).
-/
import PeerTrust.Configuration.Layers
import PeerTrust.Proofs.Value

namespace PeerTrust.Value

/-! ### One layer on top of another -/

mutual

/-- One value on top of another: dictionaries are merged, anything else replaces. -/
def overlay (base : Value) : Value → Value
  | .dict top =>
    match base with
    | .dict entries => .dict (overlayEntries entries top)
    | _ => .dict top
  | top => top

/-- Entries on top of entries, one after the other. -/
def overlayEntries (base : List (Value × Value)) : List (Value × Value) → List (Value × Value)
  | [] => base
  | (key, top) :: rest =>
    let merged :=
      match lookup key base with
      | some below => overlay below top
      | none => top
    overlayEntries (put key merged base) rest

end

/-- What is at a key of the upper layer, on top of what the lower one may have there. -/
def overlaid (below : Option Value) (top : Value) : Value :=
  match below with
  | some v => overlay v top
  | none => top

/-- Only a dictionary is changed by what it is laid on, and only by a dictionary. -/
theorem overlay_eq_top {base top : Value} (h : ∀ entries, base ≠ .dict entries) :
    overlay base top = top := by
  cases top with
  | dict top =>
    unfold overlay
    cases base with
    | dict entries => exact absurd rfl (h entries)
    | _ => rfl
  | _ => rfl

variable {key : Value} {base top : List (Value × Value)}

theorem overlayEntries_cons (base rest : List (Value × Value)) (key top : Value) :
    overlayEntries base ((key, top) :: rest) =
      overlayEntries (put key (overlaid (lookup key base) top) base) rest := by
  rw [overlayEntries]
  rfl

/-- **What is at a key after a layer is laid on another.** If the upper layer has the key, it is
the value there, on top of what the lower layer has; and else it is what the lower layer has. -/
theorem lookup_overlayEntries (h : Once key top) :
    lookup key (overlayEntries base top) =
      match lookup key top with
      | some v => some (overlaid (lookup key base) v)
      | none => lookup key base := by
  induction top generalizing base with
  | nil => rfl
  | cons e rest ih =>
    obtain ⟨k, v⟩ := e
    obtain ⟨honce, habsent⟩ := h
    rw [overlayEntries_cons, ih honce, lookup_put, lookup]
    by_cases hk : k.sameKey key = true
    · -- this entry is the only one at the key
      rw [if_pos hk, if_pos hk, habsent hk, lookup_congr hk]
    · rw [if_neg hk, if_neg hk]

theorem overlayEntries_nil (base : List (Value × Value)) : overlayEntries base [] = base := by
  rw [overlayEntries]

/-! ### Merging with copies -/

section Copies

variable {copies : Value → Bool} {v : Value}

/-- A dictionary on top of another is merged without copies if its entries are. -/
theorem merge?_dict_eq_overlay {top : List (Value × Value)} (hv : IsSelfCopy copies v)
    (hw : IsSelfCopy copies (.dict top))
    (hentries : ∀ entries, (∀ e ∈ entries, EntryIsSelfCopy copies e) →
      mergeEntries? copies entries top = some (overlayEntries entries top) ∧
        ∀ e ∈ overlayEntries entries top, EntryIsSelfCopy copies e) :
    merge? copies v (.dict top) = some (overlay v (.dict top)) ∧
      IsSelfCopy copies (overlay v (.dict top)) := by
  cases v with
  | dict entries =>
    have hbase := isSelfCopy_dict_iff.mp hv
    obtain ⟨hmerge, hmerged⟩ := hentries entries hbase
    rw [merge?, overlay, copyEntries?_eq_self_iff.mpr hbase]
    simp only [bind, Option.bind, hmerge]
    exact ⟨rfl, isSelfCopy_dict_iff.mpr hmerged⟩
  | _ => exact ⟨hw, hw⟩

mutual

/-- **One value on top of another is merged without copies** if both are equal to their copies, and
so is what comes of it. -/
theorem merge?_eq_overlay (v : Value) (hv : IsSelfCopy copies v) :
    ∀ w, IsSelfCopy copies w →
      merge? copies v w = some (overlay v w) ∧ IsSelfCopy copies (overlay v w)
  | .dict top, hw => merge?_dict_eq_overlay hv hw fun base hbase =>
    mergeEntries?_eq_overlayEntries base hbase top (isSelfCopy_dict_iff.mp hw)
  | .null, hw | .bool _, hw | .int _, hw | .float _, hw | .nan _, hw | .str _, hw | .bytes _, hw
  | .armor _ _, hw | .dateTime _, hw | .date _, hw | .path _, hw | .list _, hw | .tuple _, hw
  | .set _, hw | .recurring _, hw | .certificate _ _, hw | .policy _, hw | .storeConfig _, hw
  | .configuration _, hw | .roots _, hw | .holder _, hw | .evaluator _, hw | .manager _, hw
  | .context _, hw | .copied _, hw => ⟨hw, hw⟩

/-- **Entries on top of entries** are merged without copies. -/
theorem mergeEntries?_eq_overlayEntries (base : List (Value × Value))
    (hbase : ∀ e ∈ base, EntryIsSelfCopy copies e) :
    ∀ top : List (Value × Value), (∀ e ∈ top, EntryIsSelfCopy copies e) →
      mergeEntries? copies base top = some (overlayEntries base top) ∧
        ∀ e ∈ overlayEntries base top, EntryIsSelfCopy copies e
  | [], _ => ⟨by rw [mergeEntries?, overlayEntries_nil], by rwa [overlayEntries_nil]⟩
  | (key, w) :: rest, htop => by
    obtain ⟨⟨hkey, hw⟩, hrest⟩ := List.forall_mem_cons.mp htop
    rw [mergeEntries?, overlayEntries_cons]
    -- what comes to the key is either merged with what is there or copied
    cases hlookup : lookup key base with
    | none =>
      simp only [bind, Option.bind, copy?_of_isSelfCopy hw]
      exact mergeEntries?_eq_overlayEntries _ (forall_mem_put hbase hkey hw) rest hrest
    | some below =>
      obtain ⟨hmerge, hmerged⟩ :=
        merge?_eq_overlay below (isSelfCopy_of_lookup hbase hlookup) w hw
      simp only [bind, Option.bind, hmerge]
      exact mergeEntries?_eq_overlayEntries _ (forall_mem_put hbase hkey hmerged) rest hrest

end

end Copies

end PeerTrust.Value

namespace PeerTrust.Layers

open Value

/-! ### Several layers -/

variable {copies : Value → Bool} {base : List (Value × Value)}
  {layers : List (List (Value × Value))}

/-- Lays one more layer on those that are merged already. -/
def addLayer (copies : Value → Bool) (merged : List (Value × Value)) (layer : Value) :
    Except Failure (List (Value × Value)) := do
  copied (mergeEntries? copies merged (← entries layer))

theorem merge_cons_cons (copies : Value → Bool) (base second : Value) (rest : List Value) :
    merge copies (base :: second :: rest) = (do
      let base ← entries (← copied (base.copy? copies))
      return .dict (← (second :: rest).foldlM (addLayer copies) base)) :=
  rfl

/-- Dictionaries that are equal to their copies are laid on each other in their order. -/
theorem foldlM_addLayer (hcopies : ∀ entries ∈ layers, IsSelfCopy copies (.dict entries))
    (hbase : IsSelfCopy copies (.dict base)) :
    (layers.map Value.dict).foldlM (addLayer copies) base =
      .ok (layers.foldl overlayEntries base) := by
  induction layers generalizing base with
  | nil => rfl
  | cons layer layers ih =>
    obtain ⟨hlayer, hrest⟩ := List.forall_mem_cons.mp hcopies
    obtain ⟨hmerge, hmerged⟩ := mergeEntries?_eq_overlayEntries base
      (isSelfCopy_dict_iff.mp hbase) layer (isSelfCopy_dict_iff.mp hlayer)
    have hadd : addLayer copies base (.dict layer) = .ok (overlayEntries base layer) := by
      rw [addLayer, entries]
      simp only [bind, Except.bind, hmerge]
      rfl
    rw [List.map_cons, List.foldlM_cons, hadd]
    exact ih hrest (isSelfCopy_dict_iff.mpr hmerged)

/-- **Dictionaries are merged from the lowest to the highest,** if all are equal to their
copies. -/
theorem merge_eq_foldl {second : List (Value × Value)} {rest : List (List (Value × Value))}
    (hcopies : ∀ entries ∈ base :: second :: rest, IsSelfCopy copies (.dict entries)) :
    merge copies (.dict base :: .dict second :: rest.map .dict) =
      .ok (.dict ((second :: rest).foldl overlayEntries base)) := by
  obtain ⟨hbase, habove⟩ := List.forall_mem_cons.mp hcopies
  have hlayers := foldlM_addLayer habove hbase
  rw [List.map_cons] at hlayers
  rw [merge_cons_cons, copy?_of_isSelfCopy hbase]
  simp only [copied, Option.elim, entries, bind, Except.bind] at hlayers ⊢
  rw [hlayers]
  rfl

end PeerTrust.Layers
