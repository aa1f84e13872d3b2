/-
  `Proofs.Configuration.Merge` — what several layers on top of each other have at a key.

  Layers are stacked from the lowest to the highest (`Layers.stack`). What the stack has at a
  key depends on the layers only through the values that they have at that key
  (`lookup_stack`): if the highest of them is no dictionary it is that value, and else it
  is the stack of the dictionaries from there down to the next value that is none. The
  induction is over the layers from the top; one step is the law of a single layer,
  `lookup_overlayEntries`, and a value that is no dictionary resets the run.

  A layer changes nothing if the layers below already absorb each of its values
  (`overlayEntries_of_absorbed`). By induction over the nesting of a value, that is so right
  above the layer itself.
-/
import Mathlib.Data.List.DropRight
import PeerTrust.Proofs.Configuration.Layers
import PeerTrust.Proofs.Yaml.Content

namespace PeerTrust

namespace Value

/-! ### Dictionaries -/

/-- The value is a dictionary; it may be one that stands inside itself. -/
def isDictionary : Value → Bool
  | .dict _ => true
  | .recurring keyed => keyed
  | _ => false

/-- The entries of a dictionary that is written out. -/
def entries? : Value → Option (List (Value × Value))
  | .dict entries => some entries
  | _ => none

/-- A dictionary that does not stand inside itself is written out. -/
theorem exists_entries_of_isDictionary {v : Value} (h : v.isDictionary = true)
    (hv : v ≠ .recurring true) : ∃ entries, v = .dict entries := by
  cases v with
  | dict entries => exact ⟨entries, rfl⟩
  | recurring keyed =>
    have hkeyed : keyed = true := h
    exact absurd (hkeyed ▸ rfl) hv
  | _ => cases h

/-- A value that is no dictionary replaces what it is laid on. -/
theorem overlay_of_not_dictionary {v : Value} (h : v.isDictionary = false) (below : Value) :
    overlay below v = v := by
  cases v with
  | dict entries => cases h
  | _ => rfl

/-- A dictionary replaces a value that is none. -/
theorem overlay_dict_of_not_dictionary {below : Value} (h : below.isDictionary = false)
    (top : List (Value × Value)) : overlay below (.dict top) = .dict top := by
  refine overlay_eq_top fun entries => ?_
  rintro rfl
  cases h

/-- **Dictionaries end in other values:** no key of one is there twice, and following values
down through dictionaries comes to an end. -/
inductive IsNested : Value → Prop
  | leaf {v : Value} (plain : v.isDictionary = false) : IsNested v
  | dict {entries : List (Value × Value)} (once : ∀ key, Once key entries)
      (each : ∀ e ∈ entries, IsNested e.2) : IsNested (.dict entries)

variable {key k v w : Value} {base top entries : List (Value × Value)}

theorem IsNested.once (h : (Value.dict entries).IsNested) : ∀ key, Once key entries := by
  cases h with
  | leaf plain => cases plain
  | dict once each => exact once

theorem IsNested.of_lookup (h : (Value.dict entries).IsNested) (hv : lookup key entries = some v) :
    v.IsNested := by
  cases h with
  | leaf plain => cases plain
  | dict once each =>
    obtain ⟨e, he, rfl⟩ := exists_mem_of_lookup hv
    exact each e he

/-- What ends is no dictionary that stands inside itself. -/
theorem IsNested.ne_recurring (h : v.IsNested) : v ≠ .recurring true := by
  rintro rfl
  cases h with
  | leaf plain => cases plain

/-! ### Assignments that change nothing -/

/-- An entry of a dictionary is what its key looks up. -/
theorem lookup_of_mem (honce : Once k entries) (hmem : (k, v) ∈ entries) :
    lookup k entries = some v := by
  induction entries with
  | nil => cases hmem
  | cons e rest ih =>
    obtain ⟨k', v'⟩ := e
    obtain ⟨hrest, habsent⟩ := honce
    rcases List.mem_cons.mp hmem with heq | hmem
    · obtain ⟨rfl, rfl⟩ := Prod.mk.inj heq
      rw [lookup, if_pos (sameKey_iff.mpr rfl)]
    · have hfound := ih hrest hmem
      have hother : ¬k'.sameKey k = true := by
        intro hsame
        rw [habsent hsame] at hfound
        cases hfound
      rw [lookup, if_neg hother, hfound]

/-- Putting what is there already changes nothing. -/
theorem put_of_lookup (h : lookup key entries = some v) : put key v entries = entries := by
  induction entries with
  | nil => cases h
  | cons e rest ih =>
    obtain ⟨k, w⟩ := e
    rw [lookup] at h
    by_cases hsame : k.sameKey key = true
    · rw [if_pos hsame] at h
      rw [put, if_pos hsame, Option.some.inj h]
    · rw [if_neg hsame] at h
      rw [put, if_neg hsame, ih h]

/-- A new key goes to the end. -/
theorem put_of_lookup_eq_none (h : lookup key entries = none) :
    put key v entries = entries ++ [(key, v)] := by
  induction entries with
  | nil => rfl
  | cons e rest ih =>
    obtain ⟨k, w⟩ := e
    rw [lookup] at h
    by_cases hsame : k.sameKey key = true
    · rw [if_pos hsame] at h
      cases h
    · rw [if_neg hsame] at h
      rw [put, if_neg hsame, ih h, List.cons_append]

/-- **A layer whose values are all absorbed changes nothing.** -/
theorem overlayEntries_of_absorbed
    (h : ∀ e ∈ top, ∃ w, lookup e.1 base = some w ∧ overlay w e.2 = w) :
    overlayEntries base top = base := by
  induction top with
  | nil => exact overlayEntries_nil base
  | cons e rest ih =>
    obtain ⟨k, v⟩ := e
    obtain ⟨⟨w, hw, habsorbs⟩, hrest⟩ := List.forall_mem_cons.mp h
    have hkept : overlaid (lookup k base) v = w := by
      rw [hw]
      exact habsorbs
    rw [overlayEntries_cons, hkept, put_of_lookup hw]
    exact ih hrest

/-- A layer of keys that are all new goes to the end. -/
theorem overlayEntries_of_fresh (honce : ∀ key, Once key top)
    (hfresh : ∀ e ∈ top, lookup e.1 base = none) : overlayEntries base top = base ++ top := by
  induction top generalizing base with
  | nil => rw [overlayEntries_nil, List.append_nil]
  | cons e rest ih =>
    obtain ⟨k, v⟩ := e
    obtain ⟨hk, hrest⟩ := List.forall_mem_cons.mp hfresh
    have hnew : overlaid (lookup k base) v = v := by rw [hk]; rfl
    rw [overlayEntries_cons, hnew, put_of_lookup_eq_none hk, ih (fun key => (honce key).1) ?_,
      List.append_assoc, List.singleton_append]
    intro e' he'
    -- the key just added is none of those that follow, since it is in the layer only once
    have hother : ¬k.sameKey e'.1 = true := by
      intro hsame
      have habsent := (honce e'.1).2 hsame
      rw [lookup_of_mem ((honce e'.1).1) he'] at habsent
      cases habsent
    rw [← put_of_lookup_eq_none hk, lookup_put, if_neg hother]
    exact hrest e' he'

/-- A layer on top of an empty one is the layer. -/
theorem overlayEntries_nil_left (honce : ∀ key, Once key top) : overlayEntries [] top = top := by
  rw [overlayEntries_of_fresh honce fun _ _ => rfl, List.nil_append]

/-- **Laying a value on what it has been laid on changes nothing.** The induction is on the nesting
of the value: a dictionary comes down to the values at its keys. -/
theorem overlay_overlaid_self (h : v.IsNested) (below : Option Value) :
    overlay (overlaid below v) v = overlaid below v := by
  induction h generalizing below with
  | @leaf v plain =>
    have hreplaces := overlay_of_not_dictionary plain
    cases below with
    | none => exact hreplaces v
    | some u => rw [overlaid, hreplaces, hreplaces]
  | @dict top once each ih =>
    have habsorbed : ∀ base, overlayEntries (overlayEntries base top) top =
        overlayEntries base top := by
      intro base
      refine overlayEntries_of_absorbed fun e he => ?_
      have hlookup : lookup e.1 top = some e.2 := lookup_of_mem (once e.1) he
      refine ⟨overlaid (lookup e.1 base) e.2, ?_, ih e he _⟩
      rw [lookup_overlayEntries (once e.1), hlookup]
    -- a layer on its own is the layer on an empty one, so it is absorbed there as well
    have halone : overlayEntries top top = top := by
      have hempty := habsorbed []
      rwa [overlayEntries_nil_left once] at hempty
    have hself : overlay (.dict top) (.dict top) = .dict top := by rw [overlay, halone]
    cases below with
    | none => exact hself
    | some u =>
      cases u with
      | dict base => rw [overlaid, overlay, overlay, habsorbed]
      | _ => exact hself

/-- **A layer that has just been laid on changes nothing.** -/
theorem overlayEntries_twice (h : (Value.dict top).IsNested) (base : List (Value × Value)) :
    overlayEntries (overlayEntries base top) top = overlayEntries base top := by
  have htwice := overlay_overlaid_self h (some (.dict base))
  simpa only [overlaid, overlay, Value.dict.injEq] using htwice

end Value

namespace Layers

open Value

variable {key v : Value} {vs : List Value} {top : List (Value × Value)}
  {layers below above : List (List (Value × Value))}

/-! ### Stacks of layers -/

/-- **Layers on each other,** from the lowest to the highest. -/
def stack : List (List (Value × Value)) → List (Value × Value)
  | [] => []
  | lowest :: above => above.foldl overlayEntries lowest

theorem stack_append (hbelow : below ≠ []) (above : List (List (Value × Value))) :
    stack (below ++ above) = above.foldl overlayEntries (stack below) := by
  cases below with
  | nil => exact absurd rfl hbelow
  | cons lowest below => rw [List.cons_append, stack, List.foldl_append, stack]

/-- **One more layer** gives each of its values to its key, laid on what is there below. -/
theorem lookup_stack_concat (honce : Once key top) (layers : List (List (Value × Value))) :
    lookup key (stack (layers ++ [top])) =
      match lookup key top with
      | some v => some (overlaid (lookup key (stack layers)) v)
      | none => lookup key (stack layers) := by
  cases layers with
  | nil =>
    have halone : stack ([] ++ [top]) = top := rfl
    rw [halone]
    cases lookup key top <;> rfl
  | cons lowest layers =>
    rw [stack_append (List.cons_ne_nil lowest layers), List.foldl_cons, List.foldl_nil]
    exact lookup_overlayEntries honce

/-- A stack has no key twice if none of its layers does. -/
theorem once_stack (h : ∀ l ∈ layers, Once key l) : Once key (stack layers) := by
  have hoverlay : ∀ base top, Once key base → Once key (overlayEntries base top) := by
    intro base top hbase
    induction top generalizing base with
    | nil => rwa [overlayEntries_nil]
    | cons e rest ih =>
      rw [overlayEntries_cons]
      exact ih _ (hbase.put _ _)
  induction layers using List.reverseRecOn with
  | nil => exact trivial
  | append_singleton layers top ih =>
    obtain ⟨hlayers, htop⟩ := List.forall_mem_append.mp h
    cases layers with
    | nil => exact htop top (List.mem_singleton_self top)
    | cons lowest layers =>
      rw [stack_append (List.cons_ne_nil lowest layers), List.foldl_cons, List.foldl_nil]
      exact hoverlay _ _ (ih hlayers)

/-! ### Values on each other -/

/-- The dictionaries on top of the last value that is none. -/
def topRun (vs : List Value) : List (List (Value × Value)) :=
  (vs.rtakeWhile isDictionary).filterMap entries?

/-- **What comes of values on each other:** the last one if it is no dictionary, and else the stack
of the dictionaries on top. -/
def settle (vs : List Value) : Option Value :=
  match vs.getLast? with
  | none => none
  | some v => if v.isDictionary then some (.dict (stack (topRun vs))) else some v

theorem topRun_concat_dict (vs : List Value) (top : List (Value × Value)) :
    topRun (vs ++ [.dict top]) = topRun vs ++ [top] := by
  rw [topRun, List.rtakeWhile_concat_pos _ _ _ rfl, List.filterMap_append]
  rfl

theorem topRun_concat_of_not_dictionary (hv : v.isDictionary = false) (vs : List Value) :
    topRun (vs ++ [v]) = [] := by
  have hstop : ¬v.isDictionary = true := by rw [hv]; exact Bool.false_ne_true
  rw [topRun, List.rtakeWhile_concat_neg _ _ _ hstop, List.filterMap_nil]

theorem settle_concat_dict (vs : List Value) (top : List (Value × Value)) :
    settle (vs ++ [.dict top]) = some (.dict (stack (topRun vs ++ [top]))) := by
  rw [settle, List.getLast?_concat, topRun_concat_dict]
  rfl

theorem settle_concat_of_not_dictionary (hv : v.isDictionary = false) (vs : List Value) :
    settle (vs ++ [v]) = some v := by
  rw [settle, List.getLast?_concat]
  simp only [hv, Bool.false_eq_true, if_false]

theorem settle_eq_none_iff : settle vs = none ↔ vs = [] := by
  rw [settle, ← List.getLast?_eq_none_iff]
  cases vs.getLast? with
  | none => simp
  | some v => cases hv : v.isDictionary <;> simp [hv]

/-- **One more value is laid on what has come of the others.** -/
theorem settle_concat (hvs : ∀ u ∈ vs, u ≠ .recurring true) (hv : v ≠ .recurring true) :
    settle (vs ++ [v]) = some (overlaid (settle vs) v) := by
  cases hkind : v.isDictionary with
  | false =>
    rw [settle_concat_of_not_dictionary hkind]
    cases settle vs with
    | none => rfl
    | some u => rw [overlaid, overlay_of_not_dictionary hkind]
  | true =>
    obtain ⟨top, rfl⟩ := exists_entries_of_isDictionary hkind hv
    rw [settle_concat_dict]
    induction vs using List.reverseRecOn with
    | nil => rfl
    | append_singleton us u _ =>
      cases hlast : u.isDictionary with
      | true =>
        -- the run goes on, and the upper dictionary is laid on what has come of it
        have hmem : u ∈ us ++ [u] := List.mem_append_right us (List.mem_singleton_self u)
        obtain ⟨base, rfl⟩ := exists_entries_of_isDictionary hlast (hvs u hmem)
        have hrun : topRun us ++ [base] ≠ [] :=
          List.append_ne_nil_of_right_ne_nil _ (List.cons_ne_nil base [])
        rw [settle_concat_dict, topRun_concat_dict, stack_append hrun, overlaid, overlay]
        rfl
      | false =>
        -- the run starts anew, since a value that is no dictionary is replaced
        rw [settle_concat_of_not_dictionary hlast, topRun_concat_of_not_dictionary hlast, overlaid,
          overlay_dict_of_not_dictionary hlast]
        rfl

/-- **What a stack has at a key** is what comes of the values that its layers have there. -/
theorem lookup_stack (honce : ∀ l ∈ layers, Once key l)
    (hvalues : ∀ u ∈ layers.filterMap (lookup key), u ≠ .recurring true) :
    lookup key (stack layers) = settle (layers.filterMap (lookup key)) := by
  induction layers using List.reverseRecOn with
  | nil => rfl
  | append_singleton layers top ih =>
    obtain ⟨hlayers, htop⟩ := List.forall_mem_append.mp honce
    rw [List.filterMap_append] at hvalues ⊢
    obtain ⟨hbelow, habove⟩ := List.forall_mem_append.mp hvalues
    rw [lookup_stack_concat (htop top (List.mem_singleton_self top)), ih hlayers hbelow]
    cases hfound : lookup key top with
    | none =>
      have hnone : [top].filterMap (lookup key) = [] := by simp [hfound]
      rw [hnone, List.append_nil]
    | some v =>
      have hone : [top].filterMap (lookup key) = [v] := by simp [hfound]
      rw [hone] at habove ⊢
      rw [settle_concat hbelow (habove v (List.mem_singleton_self v))]

/-! ### Merged layers -/

variable {copies : Value → Bool}

/-- **A layer that can be merged:** its dictionaries end in other values, and it is equal to its
copy. -/
structure IsLayer (copies : Value → Bool) (layer : List (Value × Value)) : Prop where
  nested : (Value.dict layer).IsNested
  selfCopy : IsSelfCopy copies (.dict layer)

/-- An empty layer can be merged. -/
theorem isLayer_nil : IsLayer copies [] := ⟨.dict (fun _ => trivial) nofun, rfl⟩

/-- **Layers yield a value:** a single one is that value, and of several it is what merging
gives. -/
def Yields (copies : Value → Bool) (args : List Value) (v : Value) : Prop :=
  args = [v] ∨ merge copies args = .ok v

theorem merge_eq_stack (hlength : 2 ≤ layers.length)
    (hcopies : ∀ l ∈ layers, IsSelfCopy copies (.dict l)) :
    merge copies (layers.map .dict) = .ok (.dict (stack layers)) := by
  match layers, hlength with
  | base :: second :: rest, _ => exact merge_eq_foldl hcopies

/-- **Layers that are equal to their copies yield their stack.** -/
theorem yields_iff (hne : layers ≠ []) (hcopies : ∀ l ∈ layers, IsSelfCopy copies (.dict l)) :
    Yields copies (layers.map .dict) v ↔ v = .dict (stack layers) := by
  match layers, hne with
  | [l], _ =>
    constructor
    · rintro (hone | hmerge)
      · exact (List.singleton_inj.mp hone).symm
      · cases hmerge
    · rintro rfl
      exact Or.inl rfl
  | base :: second :: rest, _ =>
    rw [Yields, merge_eq_stack (by simp) hcopies]
    constructor
    · rintro (hone | hmerge)
      · cases hone
      · exact (Except.ok.inj hmerge).symm
    · rintro rfl
      exact Or.inr rfl

/-- The dictionaries on top are a part of the values, as they stand there. -/
theorem map_topRun (hvs : ∀ u ∈ vs, u ≠ .recurring true) :
    (topRun vs).map .dict = vs.rtakeWhile isDictionary := by
  rw [topRun]
  have hrun : ∀ u ∈ vs.rtakeWhile isDictionary, ∃ entries, u = .dict entries := by
    intro u hu
    have hmem : u ∈ vs := (List.rtakeWhile_suffix _ _).subset hu
    exact exists_entries_of_isDictionary (List.mem_rtakeWhile_imp hu) (hvs u hmem)
  generalize vs.rtakeWhile isDictionary = run at hrun ⊢
  induction run with
  | nil => rfl
  | cons u run ih =>
    obtain ⟨⟨entries, rfl⟩, hrest⟩ := List.forall_mem_cons.mp hrun
    have hentries : entries? (.dict entries) = some entries := rfl
    rw [List.filterMap_cons_some hentries, List.map_cons, ih hrest]

/-- **The layers merge key by key.** The merged layer has the keys of all layers. At a key the last
layer wins: with its value if that is no dictionary, and else with what the longest run of
dictionaries at the end of the values yields. -/
structure KeyByKey (copies : Value → Bool) (layers : List (List (Value × Value)))
    (merged : List (Value × Value)) : Prop where
  once : ∀ key, Once key merged
  keys : ∀ key, lookup key merged ≠ none ↔ ∃ l ∈ layers, lookup key l ≠ none
  replaced : ∀ key vs v, layers.filterMap (lookup key) = vs ++ [v] → v.isDictionary = false →
    lookup key merged = some v
  merged_run : ∀ key vs v, layers.filterMap (lookup key) = vs ++ [v] → v.isDictionary = true →
    ∃ w, lookup key merged = some w ∧ Yields copies ((vs ++ [v]).rtakeWhile isDictionary) w

/-- **A stack of layers merges them key by key.** -/
theorem keyByKey_stack (h : ∀ l ∈ layers, IsLayer copies l) :
    KeyByKey copies layers (stack layers) := by
  have honce : ∀ key, ∀ l ∈ layers, Once key l := fun key l hl => (h l hl).nested.once key
  have hvalues : ∀ key, ∀ u ∈ layers.filterMap (lookup key),
      u ≠ .recurring true ∧ IsSelfCopy copies u := by
    intro key u hu
    obtain ⟨l, hl, hlookup⟩ := List.mem_filterMap.mp hu
    exact ⟨((h l hl).nested.of_lookup hlookup).ne_recurring,
      isSelfCopy_of_lookup (isSelfCopy_dict_iff.mp (h l hl).selfCopy) hlookup⟩
  have hlookup := fun key => lookup_stack (honce key) fun u hu => (hvalues key u hu).1
  refine ⟨fun key => once_stack (honce key), fun key => ?_, fun key vs v hvs hv => ?_,
    fun key vs v hvs hv => ?_⟩
  · rw [hlookup, ne_eq, settle_eq_none_iff, List.filterMap_eq_nil_iff]
    simp only [not_forall, exists_prop, ne_eq]
  · rw [hlookup, hvs, settle_concat_of_not_dictionary hv]
  · have hself := hvalues key
    rw [hvs] at hself
    have hwritten : ∀ u ∈ vs ++ [v], u ≠ .recurring true := fun u hu => (hself u hu).1
    have hlast : v ≠ .recurring true := hwritten v (List.mem_append_right vs (by simp))
    obtain ⟨top, rfl⟩ := exists_entries_of_isDictionary hv hlast
    refine ⟨_, by rw [hlookup, hvs, settle_concat_dict], ?_⟩
    rw [← map_topRun hwritten, topRun_concat_dict, yields_iff (by simp) ?_]
    intro l hl
    -- a dictionary of the run is one of the values
    have hmem : Value.dict l ∈ (vs ++ [Value.dict top]).rtakeWhile isDictionary := by
      rw [← map_topRun hwritten, topRun_concat_dict]
      exact List.mem_map_of_mem hl
    exact (hself _ ((List.rtakeWhile_suffix _ _).subset hmem)).2

/-! ### Layers that change nothing -/

/-- **A layer twice in a row** stands for the layer once. -/
theorem stack_twice (h : (Value.dict top).IsNested) :
    stack (below ++ top :: top :: above) = stack (below ++ top :: above) := by
  cases below with
  | nil =>
    have hself : overlayEntries top top = top := by
      have htwice := overlayEntries_twice h []
      rwa [overlayEntries_nil_left h.once] at htwice
    rw [List.nil_append, List.nil_append, stack, stack, List.foldl_cons, hself]
  | cons lowest below =>
    have hne : lowest :: below ≠ [] := List.cons_ne_nil lowest below
    rw [stack_append hne, stack_append hne, List.foldl_cons, List.foldl_cons, List.foldl_cons,
      overlayEntries_twice h]

/-- **An empty layer** stands for none. -/
theorem stack_empty (h : ∀ l ∈ above, ∀ key, Once key l) :
    stack (below ++ [] :: above) = stack (below ++ above) := by
  cases below with
  | nil =>
    rw [List.nil_append, List.nil_append, stack]
    cases above with
    | nil => rfl
    | cons l above =>
      rw [List.foldl_cons, overlayEntries_nil_left (h l List.mem_cons_self), stack]
  | cons lowest below =>
    have hne : lowest :: below ≠ [] := List.cons_ne_nil lowest below
    rw [stack_append hne, stack_append hne, List.foldl_cons, overlayEntries_nil]

/-- Merging a layer twice in a row is merging it once. -/
theorem yields_twice_iff (h : ∀ l ∈ below ++ top :: above, IsLayer copies l) :
    Yields copies ((below ++ top :: top :: above).map .dict) v ↔
      Yields copies ((below ++ top :: above).map .dict) v := by
  have htop : IsLayer copies top := h top (List.mem_append_right below List.mem_cons_self)
  have htwice : ∀ l ∈ below ++ top :: top :: above, IsLayer copies l := by
    obtain ⟨hbelow, habove⟩ := List.forall_mem_append.mp h
    exact List.forall_mem_append.mpr ⟨hbelow, List.forall_mem_cons.mpr ⟨htop, habove⟩⟩
  rw [yields_iff (by simp) fun l hl => (htwice l hl).selfCopy,
    yields_iff (by simp) fun l hl => (h l hl).selfCopy, stack_twice htop.nested]

/-- Merging an empty layer with others is merging the others. -/
theorem yields_empty_iff (hne : below ++ above ≠ [])
    (h : ∀ l ∈ below ++ above, IsLayer copies l) :
    Yields copies ((below ++ [] :: above).map .dict) v ↔
      Yields copies ((below ++ above).map .dict) v := by
  obtain ⟨hbelow, habove⟩ := List.forall_mem_append.mp h
  have hempty : ∀ l ∈ below ++ [] :: above, IsLayer copies l :=
    List.forall_mem_append.mpr ⟨hbelow, List.forall_mem_cons.mpr ⟨isLayer_nil, habove⟩⟩
  rw [yields_iff (by simp) fun l hl => (hempty l hl).selfCopy,
    yields_iff hne fun l hl => (h l hl).selfCopy,
    stack_empty fun l hl => (habove l hl).nested.once]

/-! ### Arguments that are no dictionaries -/

/-- **Layers on each other with the copies that this takes,** if all can be copied that has to
be. -/
def stack? (copies : Value → Bool) :
    List (List (Value × Value)) → Option (List (Value × Value))
  | [] => some []
  | lowest :: above => do above.foldlM (mergeEntries? copies) (← copyEntries? copies lowest)

variable {u w : Value} {base : List (Value × Value)} {after : List Value}

/-- Layers that are equal to their copies can all be copied. -/
theorem stack?_eq_stack (h : ∀ l ∈ layers, IsSelfCopy copies (.dict l)) :
    stack? copies layers = some (stack layers) := by
  cases layers with
  | nil => rfl
  | cons lowest above =>
    obtain ⟨hlowest, habove⟩ := List.forall_mem_cons.mp h
    rw [stack?, copyEntries?_eq_self_iff.mpr (isSelfCopy_dict_iff.mp hlowest), stack]
    simp only [bind, Option.bind]
    clear h
    induction above generalizing lowest with
    | nil => rfl
    | cons layer above ih =>
      obtain ⟨hlayer, hrest⟩ := List.forall_mem_cons.mp habove
      obtain ⟨hmerge, hmerged⟩ := mergeEntries?_eq_overlayEntries lowest
        (isSelfCopy_dict_iff.mp hlowest) layer (isSelfCopy_dict_iff.mp hlayer)
      rw [List.foldlM_cons, hmerge]
      exact ih _ (isSelfCopy_dict_iff.mpr hmerged) hrest

/-- **The merge comes to the argument** above these layers, and finds it as it is or, if it is the
lowest one, its copy. -/
inductive ComesTo (copies : Value → Bool) :
    List (List (Value × Value)) → Value → Value → Prop
  | lowest {w u : Value} (copy : w.copy? copies = some u) : ComesTo copies [] w u
  | above {below : List (List (Value × Value))} {merged : List (Value × Value)} {w : Value}
      (nonempty : below ≠ []) (merges : stack? copies below = some merged) :
      ComesTo copies below w w

/-- **The argument that fails a merge** is the first that is no dictionary, and the failure is about
its class; unless copying has failed before the merge comes to it. -/
inductive Rejects (copies : Value → Bool) (args : List Value) : Failure → Prop
  | kind {below : List (List (Value × Value))} {w u : Value} {after : List Value}
      (split : args = below.map Value.dict ++ w :: after) (other : w.isDictionary = false)
      (comes : ComesTo copies below w u) : Rejects copies args (.notDictionary u)
  | copy {below : List (List (Value × Value))} {w : Value} {after : List Value}
      (split : args = below.map Value.dict ++ w :: after) (other : w.isDictionary = false)
      (fails : ∀ u, ¬ComesTo copies below w u) : Rejects copies args .misuse

theorem entries_of_not_dictionary (hw : w.isDictionary = false) :
    entries w = .error (.notDictionary w) := by
  cases w with
  | dict entries => cases hw
  | _ => rfl

/-- A copy of a value that is no dictionary is none. -/
theorem entries_of_copy? (hw : w.isDictionary = false) (h : w.copy? copies = some u) :
    entries u = .error (.notDictionary u) := by
  unfold copy? at h
  split at h
  · obtain ⟨items, -, rfl⟩ := Option.map_eq_some_iff.mp h
    rfl
  · obtain ⟨items, -, rfl⟩ := Option.map_eq_some_iff.mp h
    rfl
  · obtain ⟨members, -, rfl⟩ := Option.map_eq_some_iff.mp h
    rfl
  · cases hw
  · split at h
    · obtain rfl := Option.some.inj h
      exact entries_of_not_dictionary hw
    · cases h

/-- Layers are laid on a base up to an argument that is none. -/
theorem foldlM_addLayer_append (below : List (List (Value × Value)))
    (base : List (Value × Value)) (hw : w.isDictionary = false) (after : List Value) :
    (below.map Value.dict ++ w :: after).foldlM (addLayer copies) base =
      (copied (below.foldlM (mergeEntries? copies) base)).bind
        fun _ => .error (.notDictionary w) := by
  induction below generalizing base with
  | nil =>
    rw [List.map_nil, List.nil_append, List.foldlM_cons, addLayer, entries_of_not_dictionary hw]
    rfl
  | cons layer below ih =>
    rw [List.map_cons, List.cons_append, List.foldlM_cons, List.foldlM_cons, addLayer, entries]
    simp only [bind, Except.bind, Option.bind]
    cases mergeEntries? copies base layer with
    | none => rfl
    | some merged => exact ih merged

theorem merge_cons (lowest : Value) {above : List Value} (h : above ≠ []) :
    merge copies (lowest :: above) = (do
      let base ← entries (← copied (lowest.copy? copies))
      return .dict (← above.foldlM (addLayer copies) base)) := by
  cases above with
  | nil => exact absurd rfl h
  | cons second rest => rfl

/-- What is no dictionary fails the merge as the lowest argument, once it is copied. -/
theorem merge_other_lowest (hw : w.isDictionary = false) (hafter : after ≠ []) :
    merge copies (w :: after) =
      (copied (w.copy? copies)).bind fun u => .error (.notDictionary u) := by
  rw [merge_cons w hafter]
  cases hcopy : w.copy? copies with
  | none => rfl
  | some u => simp only [copied, Option.elim, bind, Except.bind, entries_of_copy? hw hcopy]

/-- What is no dictionary fails the merge above layers, once these are merged. -/
theorem merge_other_above (lowest : List (Value × Value)) (below : List (List (Value × Value)))
    (hw : w.isDictionary = false) (after : List Value) :
    merge copies (.dict lowest :: (below.map Value.dict ++ w :: after)) =
      (copied (stack? copies (lowest :: below))).bind fun _ => .error (.notDictionary w) := by
  have habove : below.map Value.dict ++ w :: after ≠ [] :=
    List.append_ne_nil_of_right_ne_nil _ (List.cons_ne_nil w after)
  rw [merge_cons _ habove, copy?, stack?]
  cases copyEntries? copies lowest with
  | none => rfl
  | some base =>
    simp only [copied, Option.map, Option.elim, entries, bind, Except.bind, Option.bind,
      foldlM_addLayer_append below base hw]
    cases below.foldlM (mergeEntries? copies) base <;> rfl

/-- **The first argument that is no dictionary fails the merge.** -/
theorem merge_of_not_dictionary (hlength : 2 ≤ (below.map Value.dict ++ w :: after).length)
    (hw : w.isDictionary = false) :
    (∃ u, ComesTo copies below w u ∧
      merge copies (below.map Value.dict ++ w :: after) = .error (.notDictionary u)) ∨
      ((∀ u, ¬ComesTo copies below w u) ∧
        merge copies (below.map Value.dict ++ w :: after) = .error .misuse) := by
  cases below with
  | nil =>
    have hafter : after ≠ [] := by
      rintro rfl
      simp at hlength
    rw [List.map_nil, List.nil_append, merge_other_lowest hw hafter]
    cases hcopy : w.copy? copies with
    | none =>
      refine Or.inr ⟨?_, rfl⟩
      rintro u (copy | ⟨nonempty, -⟩)
      · cases hcopy.symm.trans copy
      · exact nonempty rfl
    | some u => exact Or.inl ⟨u, .lowest hcopy, rfl⟩
  | cons lowest below =>
    rw [List.map_cons, List.cons_append, merge_other_above lowest below hw]
    cases hstack : stack? copies (lowest :: below) with
    | none =>
      refine Or.inr ⟨?_, rfl⟩
      rintro u (_ | ⟨-, merges⟩)
      cases hstack.symm.trans merges
    | some merged => exact Or.inl ⟨w, .above (List.cons_ne_nil lowest below) hstack, rfl⟩

/-- Arguments of which one is no dictionary have a first such one. -/
theorem exists_first_other {args : List Value} (h : ∃ v ∈ args, v.isDictionary = false)
    (hwritten : ∀ v ∈ args, v ≠ .recurring true) :
    ∃ below w after, args = List.map Value.dict below ++ w :: after ∧
      w.isDictionary = false := by
  induction args with
  | nil =>
    obtain ⟨v, hv, -⟩ := h
    cases hv
  | cons a rest ih =>
    cases ha : a.isDictionary with
    | false => exact ⟨[], a, rest, rfl, ha⟩
    | true =>
      obtain ⟨hfirst, hrest⟩ := List.forall_mem_cons.mp hwritten
      obtain ⟨entries, rfl⟩ := exists_entries_of_isDictionary ha hfirst
      have hlater : ∃ v ∈ rest, v.isDictionary = false := by
        obtain ⟨v, hv, hother⟩ := h
        rcases List.mem_cons.mp hv with rfl | hv
        · cases ha.symm.trans hother
        · exact ⟨v, hv, hother⟩
      obtain ⟨below, w, after, rfl, hw⟩ := ih hlater hrest
      exact ⟨entries :: below, w, after, rfl, hw⟩

/-- **Arguments that are not all dictionaries are rejected.** -/
theorem exists_rejects {args : List Value} (hlength : 2 ≤ args.length)
    (h : ∃ v ∈ args, v.isDictionary = false) (hwritten : ∀ v ∈ args, v ≠ .recurring true) :
    ∃ f, Rejects copies args f ∧ merge copies args = .error f := by
  obtain ⟨below, w, after, rfl, hw⟩ := exists_first_other h hwritten
  rcases merge_of_not_dictionary hlength hw with ⟨u, hcomes, hmerge⟩ | ⟨hfails, hmerge⟩
  · exact ⟨_, .kind rfl hw hcomes, hmerge⟩
  · exact ⟨_, .copy rfl hw hfails, hmerge⟩

/-- **The merge comes to an argument** above layers that are equal to their copies, if it is equal
to its own or is not the lowest one. -/
theorem comesTo_of_isSelfCopy (hbelow : ∀ l ∈ below, IsSelfCopy copies (.dict l))
    (hw : below = [] → IsSelfCopy copies w) : ComesTo copies below w w := by
  cases below with
  | nil => exact .lowest (hw rfl)
  | cons lowest below => exact .above (List.cons_ne_nil lowest below) (stack?_eq_stack hbelow)

theorem eq_of_comesTo (h : ComesTo copies below w u) (h' : ComesTo copies below w v) : u = v := by
  cases h with
  | lowest copy =>
    cases h' with
    | lowest copy' => exact Option.some.inj (copy.symm.trans copy')
    | above nonempty merges => exact absurd rfl nonempty
  | above nonempty merges =>
    cases h' with
    | lowest copy => exact absurd rfl nonempty
    | above nonempty' merges' => rfl

/-- **An argument that is no dictionary is named** if nothing before it is hindered by copying. -/
theorem merge_of_isSelfCopy (hlength : 2 ≤ (below.map Value.dict ++ w :: after).length)
    (hw : w.isDictionary = false) (hbelow : ∀ l ∈ below, IsSelfCopy copies (.dict l))
    (hself : below = [] → IsSelfCopy copies w) :
    merge copies (below.map Value.dict ++ w :: after) = .error (.notDictionary w) := by
  have hcomes := comesTo_of_isSelfCopy hbelow hself
  rcases merge_of_not_dictionary hlength hw with ⟨u, hu, hmerge⟩ | ⟨hfails, -⟩
  · rw [hmerge, eq_of_comesTo hu hcomes]
  · exact absurd hcomes (hfails w)

end Layers
end PeerTrust
