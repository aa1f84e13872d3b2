/-
  `Proofs.Yaml.Content` — what the value of a document can hold.

  Scalars, lists, and dictionaries in which every key is a scalar and is there once
  (`Value.IsContent`). The readers of scalars give scalars. A dictionary is filled by
  assignments, and an assignment leaves every key once; `Build.Keeps` carries this
  through the building of all nodes. Unfolding them changes no key, so
  `isContent_of_read` follows by induction over the depth.
-/
import PeerTrust.Proofs.Value
import PeerTrust.Proofs.Journal
import PeerTrust.Yaml.Document

namespace PeerTrust

/-! ### Content -/

namespace Value

/-- A value that is neither a collection nor an object. -/
def isScalar : Value → Bool
  | .null | .bool _ | .int _ | .float _ | .nan _ | .str _ | .bytes _ | .dateTime _ | .date _ => true
  | _ => false

/-- All keys are scalars. -/
def ScalarKeys {α : Type} (entries : List (Value × α)) : Prop :=
  ∀ e ∈ entries, e.1.isScalar = true

/-- **What a document can hold:** scalars and collections of what it can hold. Keys are scalars,
and no key of a dictionary is there twice. -/
inductive IsContent : Value → Prop
  | scalar {v : Value} (plain : v.isScalar = true) : IsContent v
  | list {items : List Value} (each : ∀ v ∈ items, IsContent v) : IsContent (.list items)
  | tuple {items : List Value} (each : ∀ v ∈ items, IsContent v) : IsContent (.tuple items)
  | set {members : List Value} (plain : ∀ v ∈ members, v.isScalar = true) :
      IsContent (.set members)
  | recurring (keyed : Bool) : IsContent (.recurring keyed)
  | dict {entries : List (Value × Value)} (once : ∀ key, Once key entries)
      (keys : ScalarKeys entries) (each : ∀ e ∈ entries, IsContent e.2) :
      IsContent (.dict entries)

variable {copies : Value → Bool}

/-- A scalar is equal to its copy as a key. -/
theorem copyKey?_of_isScalar {v : Value} (h : v.isScalar = true) :
    v.copyKey? copies = some v := by
  cases v <;> first | rfl | cases h

theorem copyKeys?_of_isScalar {members : List Value} (h : ∀ v ∈ members, v.isScalar = true) :
    copyKeys? copies members = some members := by
  induction members with
  | nil => rfl
  | cons v rest ih =>
    obtain ⟨hv, hrest⟩ := List.forall_mem_cons.mp h
    rw [copyKeys?, copyKey?_of_isScalar hv, ih hrest]
    rfl

theorem copyAll?_of_forall {items : List Value} (h : ∀ v ∈ items, IsSelfCopy copies v) :
    copyAll? copies items = some items := by
  induction items with
  | nil => rfl
  | cons v rest ih =>
    obtain ⟨hv, hrest⟩ := List.forall_mem_cons.mp h
    rw [copyAll?, copy?_of_isSelfCopy hv, ih hrest]
    rfl

/-- **What a document holds is equal to its copy.** -/
theorem IsContent.isSelfCopy {v : Value} (h : v.IsContent) : IsSelfCopy copies v := by
  induction h with
  | @scalar v plain => cases v <;> first | rfl | cases plain
  | @list items each ih => rw [IsSelfCopy, copy?, copyAll?_of_forall ih]; rfl
  | @tuple items each ih => rw [IsSelfCopy, copy?, copyAll?_of_forall ih]; rfl
  | @set members plain => rw [IsSelfCopy, copy?, copyKeys?_of_isScalar plain]; rfl
  | recurring keyed => rfl
  | dict once keys each ih =>
    exact isSelfCopy_dict_iff.mpr fun e he => ⟨copyKey?_of_isScalar (keys e he), ih e he⟩

/-- An assignment to a scalar keeps all keys scalars. -/
theorem ScalarKeys.put {α : Type} {entries : List (Value × α)} {key : Value}
    (h : ScalarKeys entries) (hkey : key.isScalar = true) (a : α) :
    ScalarKeys (Value.put key a entries) := by
  induction entries with
  | nil => simpa [ScalarKeys, Value.put] using hkey
  | cons e rest ih =>
    obtain ⟨hfirst, hrest⟩ := List.forall_mem_cons.mp h
    rw [Value.put]
    split
    · exact List.forall_mem_cons.mpr ⟨hfirst, hrest⟩
    · exact List.forall_mem_cons.mpr ⟨hfirst, ih hrest⟩

end Value

namespace Yaml

open Value

/-! ### Readers of scalars -/

namespace Schema

variable {text : String} {v : Value}

theorem isScalar_of_existing {found : Option Value}
    (hfound : ∀ w, found = some w → w.isScalar = true) (h : existing found = .ok v) :
    v.isScalar = true := by
  cases found with
  | none => cases h
  | some w =>
    obtain rfl := Except.ok.inj h
    exact hfound w rfl

theorem isScalar_of_readBool (h : readBool text = .ok v) : v.isScalar = true := by
  unfold readBool at h
  split at h
  · obtain rfl := Except.ok.inj h
    rfl
  · cases h

theorem isScalar_of_readWhole (h : readWhole text = .ok v) : v.isScalar = true := by
  unfold readWhole at h
  split at h
  · cases h
  · simp only at h
    split at h
    · cases h
    · refine isScalar_of_existing (fun w hw => ?_) h
      obtain ⟨n, -, rfl⟩ := Option.map_eq_some_iff.mp hw
      rfl

theorem isScalar_ofFloat (x : Float) : (ofFloat x).isScalar = true := by
  rw [ofFloat]
  split <;> rfl

theorem isScalar_of_readFloat (h : readFloat text = .ok v) : v.isScalar = true := by
  unfold readFloat at h
  split at h
  · cases h
  · simp only at h
    split at h
    · obtain rfl := Except.ok.inj h
      rfl
    · cases hread : floatMagnitude
          (Text.splitSign ((dropUnderscores text.toList).map Char.toLower)).2 with
      | error f =>
        rw [hread] at h
        cases h
      | ok x =>
        rw [hread] at h
        obtain rfl := Except.ok.inj h
        exact isScalar_ofFloat _

theorem isScalar_of_readTime (h : readTime text = .ok v) : v.isScalar = true := by
  unfold readTime at h
  split at h
  · refine isScalar_of_existing (fun w hw => ?_) h
    unfold TimeFields.value? at hw
    simp only at hw
    split at hw
    · split at hw
      · obtain rfl := Option.some.inj hw
        rfl
      · cases hw
    · split at hw
      · obtain ⟨wall, -, rfl⟩ := Option.map_eq_some_iff.mp hw
        rfl
      · cases hw
  · cases h

theorem isScalar_of_readOctets (h : readOctets text = .ok v) : v.isScalar = true := by
  unfold readOctets at h
  split at h
  · cases hread : Base64.decodeLoose? text.toList with
    | none =>
      rw [hread] at h
      cases h
    | some o =>
      rw [hread] at h
      obtain rfl := Except.ok.inj h
      rfl
  · cases h

/-- **Every reader gives scalars.** -/
theorem isScalar_of_reader {tag : String} {reader : String → Scan Value}
    (hreader : readers.lookup tag = some reader) (h : reader text = .ok v) : v.isScalar = true := by
  obtain ⟨before, after, hsplit, -⟩ := List.lookup_eq_some_iff.mp hreader
  have hmem : (tag, reader) ∈ readers := by
    rw [hsplit]
    simp
  simp only [readers, List.mem_cons, List.not_mem_nil, or_false, Prod.mk.injEq] at hmem
  rcases hmem with ⟨-, rfl⟩ | ⟨-, rfl⟩ | ⟨-, rfl⟩ | ⟨-, rfl⟩ | ⟨-, rfl⟩ | ⟨-, rfl⟩ | ⟨-, rfl⟩
  · obtain rfl := Except.ok.inj h
    rfl
  · obtain rfl := Except.ok.inj h
    rfl
  · exact isScalar_of_readBool h
  · exact isScalar_of_readWhole h
  · exact isScalar_of_readFloat h
  · exact isScalar_of_readTime h
  · exact isScalar_of_readOctets h

end Schema

/-- The object that a value is matters to no scalar. -/
theorem Graph.isScalar_inNode (id : Nat) (v : Value) : (inNode id v).isScalar = v.isScalar := by
  unfold inNode
  split <;> rfl

theorem Graph.isScalar_of_scalarValue {g : Graph} {id : Nat} {v : Value}
    (h : g.scalarValue id = .ok v) : v.isScalar = true := by
  obtain ⟨reader, hreader, h⟩ := bind_eq_ok_iff.mp h
  obtain ⟨text, -, h⟩ := bind_eq_ok_iff.mp h
  cases hlookup : Schema.readers.lookup (g.get id).tag with
  | none =>
    rw [hlookup] at hreader
    cases hreader
  | some found =>
    rw [hlookup] at hreader
    obtain rfl := Except.ok.inj hreader
    split at h
    · cases h
    · cases hread : found text with
      | error f =>
        rw [hread] at h
        cases h
      | ok w =>
        rw [hread] at h
        obtain rfl := Except.ok.inj h
        rw [Graph.isScalar_inNode]
        exact Schema.isScalar_of_reader hlookup hread

/-! ### Building nodes -/

theorem mem_of_getD_eq_some {α : Type} {xs : Array (Option α)} {i : Nat} {a : α}
    (h : xs.getD i none = some a) : some a ∈ xs := by
  rw [Array.getD_eq_getD_getElem?] at h
  cases hget : xs[i]? with
  | none =>
    rw [hget] at h
    cases h
  | some x =>
    rw [hget] at h
    obtain rfl : x = some a := h
    exact Array.mem_of_getElem? hget

/-- **What a node has become is in order:** a scalar is one, keys and members are scalars, and no
key of a dictionary is there twice. What a collection holds is built on its own. -/
def Built.InOrder : Built → Prop
  | .scalar v => v.isScalar = true
  | .dict entries => (∀ key, Once key entries) ∧ ScalarKeys entries
  | .set members => ∀ v ∈ members, v.isScalar = true
  | _ => True

/-- Everything that has been built is in order. -/
def Builder.InOrder (s : Builder) : Prop := ∀ b, some b ∈ s.built → b.InOrder

namespace Build

variable {α β : Type} {P : α → Prop} {Q : β → Prop}

/-- **The step keeps everything in order,** and gives a result of the kind. -/
def Keeps (P : α → Prop) (x : Build α) : Prop :=
  ∀ s a t, s.InOrder → x.run s = .ok (a, t) → t.InOrder ∧ P a

theorem keeps_pure {a : α} (h : P a) : Keeps P (pure a) := by
  intro s b t hs hrun
  obtain ⟨rfl, rfl⟩ := Prod.mk.inj (Except.ok.inj hrun)
  exact ⟨hs, h⟩

theorem keeps_throw (f : Fault) : Keeps P (throw f : Build α) := by
  intro s a t hs hrun
  cases hrun

theorem Keeps.bind {x : Build α} {f : α → Build β} (hx : Keeps P x)
    (hf : ∀ a, P a → Keeps Q (f a)) : Keeps Q (x >>= f) := by
  intro s b t hs hrun
  rw [StateT.run_bind] at hrun
  cases hfirst : x.run s with
  | error e =>
    rw [hfirst] at hrun
    cases hrun
  | ok result =>
    obtain ⟨a, middle⟩ := result
    rw [hfirst] at hrun
    obtain ⟨hmiddle, ha⟩ := hx s a middle hs hfirst
    exact hf a ha middle b t hmiddle hrun

theorem Keeps.mono {x : Build α} {P' : α → Prop} (h : Keeps P x) (himp : ∀ a, P a → P' a) :
    Keeps P' x := by
  intro s a t hs hrun
  obtain ⟨ht, ha⟩ := h s a t hs hrun
  exact ⟨ht, himp a ha⟩

/-- What the state holds is in order. -/
theorem keeps_get : Keeps Builder.InOrder (get : Build Builder) := by
  intro s a t hs hrun
  obtain ⟨rfl, rfl⟩ := Prod.mk.inj (Except.ok.inj hrun)
  exact ⟨hs, hs⟩

theorem keeps_modify {f : Builder → Builder} (h : ∀ s, s.InOrder → (f s).InOrder) :
    Keeps (fun _ => True) (modify f : Build Unit) := by
  intro s a t hs hrun
  obtain ⟨-, rfl⟩ := Prod.mk.inj (Except.ok.inj hrun)
  exact ⟨h s hs, trivial⟩

/-- A computation that does not touch the state. -/
theorem keeps_lift (x : Scan α) : Keeps (fun a => x = .ok a) (liftM x : Build α) := by
  intro s a t hs hrun
  cases x with
  | error f => cases hrun
  | ok b =>
    obtain ⟨rfl, rfl⟩ := Prod.mk.inj (Except.ok.inj hrun)
    exact ⟨hs, rfl⟩

theorem keeps_forM {items : List α} {f : α → Build PUnit}
    (hf : ∀ a ∈ items, Keeps (fun _ => True) (f a)) :
    Keeps (fun _ => True) (items.forM f) := by
  induction items with
  | nil => exact keeps_pure trivial
  | cons a rest ih =>
    obtain ⟨ha, hrest⟩ := List.forall_mem_cons.mp hf
    exact ha.bind fun _ _ => ih hrest

theorem keeps_mapM {items : List α} {f : α → Build β} (hf : ∀ a, Keeps (fun _ => True) (f a)) :
    Keeps (fun _ => True) (items.mapM f) := by
  induction items with
  | nil => exact keeps_pure trivial
  | cons a rest ih =>
    rw [List.mapM_cons]
    exact (hf a).bind fun _ _ => ih.bind fun _ _ => keeps_pure trivial

theorem keeps_foldlM {items : List α} {f : β → α → Build β}
    (hf : ∀ b a, Q b → Keeps Q (f b a)) {b : β} (hb : Q b) : Keeps Q (items.foldlM f b) := by
  induction items generalizing b with
  | nil => exact keeps_pure hb
  | cons a rest ih =>
    rw [List.foldlM_cons]
    exact (hf b a hb).bind fun c hc => ih hc

/-! ### Steps -/

theorem keeps_graph : Keeps (fun _ => True) graph :=
  keeps_get.bind fun _ _ => keeps_pure trivial

theorem keeps_put (id : Nat) {b : Built} (hb : b.InOrder) : Keeps (fun _ => True) (put id b) := by
  refine keeps_modify fun s hs b' hb' => ?_
  rcases Array.mem_or_eq_of_mem_setIfInBounds hb' with hold | hnew
  · exact hs b' hold
  · obtain rfl := Option.some.inj hnew
    exact hb

theorem keeps_node (id : Nat) : Keeps (fun _ => True) (node id) := by
  unfold node
  refine keeps_get.bind fun s hs => ?_
  split
  · exact keeps_pure trivial
  · refine keeps_graph.bind fun g _ => ?_
    split
    · have hbegun : Built.InOrder (.list []) := trivial
      exact (keeps_put id hbegun).bind fun _ _ => keeps_modify fun s hs => hs
    · refine (keeps_lift (g.scalarValue id)).bind fun v hv => ?_
      exact keeps_put id (Graph.isScalar_of_scalarValue hv)

theorem keeps_key (id : Nat) : Keeps (fun v => v.isScalar = true) (key id) := by
  unfold key
  refine (keeps_node id).bind fun _ _ => keeps_get.bind fun s hs => ?_
  split
  · rename_i v hbuilt
    exact keeps_pure (hs (.scalar v) (mem_of_getD_eq_some hbuilt))
  · exact keeps_throw _

theorem keeps_items (id : Nat) : Keeps Built.InOrder (items id) := by
  unfold items
  refine keeps_graph.bind fun g _ => ?_
  split
  · exact (keeps_forM fun a _ => keeps_node a).bind fun _ _ => keeps_pure trivial
  · exact keeps_throw _

/-- **The entries of a mapping have scalars as keys, and every key once:** each is put where its
key is. -/
theorem keeps_entries (id : Nat) :
    Keeps (fun found => (∀ key, Once key found) ∧ ScalarKeys found) (entries id) := by
  unfold entries
  refine keeps_graph.bind fun g _ => ?_
  split
  · exact (keeps_throw _ : Keeps (fun _ => False) _).bind fun _ h => h.elim
  · refine keeps_graph.bind fun g _ => (keeps_lift (g.merged id)).bind fun merged _ => ?_
    have hmodify : Keeps (fun _ => True)
        (modify fun s : Builder => { s with graph := merged } : Build Unit) :=
      keeps_modify fun s hs => hs
    refine hmodify.bind fun _ _ => ?_
    refine keeps_foldlM (fun known e hknown => ?_) ⟨fun key => trivial, nofun⟩
    refine (keeps_key e.1).bind fun k hk => (keeps_node e.2).bind fun _ _ => ?_
    exact keeps_pure ⟨fun key => (hknown.1 key).put k e.2, hknown.2.put hk e.2⟩

theorem keeps_pairs (id : Nat) : Keeps Built.InOrder (pairs id) := by
  unfold pairs
  refine keeps_graph.bind fun g _ => ?_
  split
  · refine (keeps_mapM fun item => ?_).bind fun _ _ => keeps_pure trivial
    refine keeps_graph.bind fun g _ => ?_
    split
    · exact (keeps_node _).bind fun _ _ => (keeps_node _).bind fun _ _ => keeps_pure trivial
    · exact keeps_throw _
  · exact keeps_throw _

theorem keeps_fill (id : Nat) : Keeps (fun _ => True) (fill id) := by
  unfold fill
  refine keeps_graph.bind fun g _ => ?_
  simp only
  split
  · exact (keeps_items id).bind fun b hb => keeps_put id hb
  split
  · exact (keeps_entries id).bind fun found hfound => keeps_put id hfound
  split
  · refine (keeps_entries id).bind fun found hfound => keeps_put id fun v hv => ?_
    obtain ⟨e, he, rfl⟩ := List.mem_map.mp hv
    exact hfound.2 e he
  · exact (keeps_pairs id).bind fun b hb => keeps_put id hb

theorem keeps_fillAll (fuel : Nat) : Keeps (fun _ => True) (fillAll fuel) := by
  induction fuel with
  | zero => exact keeps_pure trivial
  | succ fuel ih =>
    unfold fillAll
    refine keeps_get.bind fun s _ => ?_
    simp only
    split
    · exact keeps_pure trivial
    · have hmodify : Keeps (fun _ => True)
          (modify fun s : Builder => { s with begun := [] } : Build Unit) :=
        keeps_modify fun s hs => hs
      refine hmodify.bind fun _ _ => ?_
      exact (keeps_forM fun id _ => keeps_fill id).bind fun _ _ => ih

end Build

/-- **All nodes of a document are built in order.** -/
theorem Graph.inOrder_of_build {g : Graph} {root : Nat} {built : Array (Option Built)}
    (h : g.build root = .ok built) : ∀ b, some b ∈ built → b.InOrder := by
  have hsteps : Build.Keeps (fun _ => True) (do Build.node root; Build.fillAll g.size) :=
    (Build.keeps_node root).bind fun _ _ => Build.keeps_fillAll g.size
  have hstart : Builder.InOrder ⟨g, Array.replicate g.size none, []⟩ := by
    intro b hb
    simp at hb
  obtain ⟨⟨u, s⟩, hrun, h⟩ := bind_eq_ok_iff.mp h
  obtain rfl := Except.ok.inj h
  exact (hsteps _ u s hstart hrun).1

/-! ### Values of nodes -/

/-- What is mapped to something has the kind that everything has that is mapped to. -/
theorem forall_of_mapM {α β : Type} {f : α → Option β} {P : β → Prop}
    (hf : ∀ a b, f a = some b → P b) {items : List α} {out : List β}
    (h : items.mapM f = some out) : ∀ b ∈ out, P b := by
  induction items generalizing out with
  | nil =>
    obtain rfl : [] = out := by simpa using h
    simp
  | cons a rest ih =>
    rw [List.mapM_cons] at h
    obtain ⟨b, hb, h⟩ := Option.bind_eq_some_iff.mp h
    obtain ⟨later, hlater, h⟩ := Option.bind_eq_some_iff.mp h
    obtain rfl := Option.some.inj h
    exact List.forall_mem_cons.mpr ⟨hf a b hb, ih hlater⟩

namespace Built

variable {valueOf : Nat → Option Value} {entries : List (Value × Nat)}
  {out : List (Value × Value)}

/-- Assignments keep every key once. -/
theorem once_of_mapM_assignment? (h : entries.mapM (assignment? valueOf) = some out) (key : Value)
    (honce : Once key entries) :
    Once key out ∧ (lookup key entries = none → lookup key out = none) := by
  induction entries generalizing out with
  | nil =>
    obtain rfl : [] = out := by simpa using h
    exact ⟨trivial, fun _ => rfl⟩
  | cons e rest ih =>
    obtain ⟨k, id⟩ := e
    rw [List.mapM_cons] at h
    obtain ⟨assigned, hassigned, h⟩ := Option.bind_eq_some_iff.mp h
    obtain ⟨later, hlater, h⟩ := Option.bind_eq_some_iff.mp h
    obtain rfl := Option.some.inj h
    obtain ⟨v, -, hv⟩ := Option.bind_eq_some_iff.mp hassigned
    obtain rfl := Option.some.inj hv
    obtain ⟨hrest, habsent⟩ := honce
    obtain ⟨honce, hkept⟩ := ih hlater hrest
    refine ⟨⟨honce, fun hk => hkept (habsent hk)⟩, fun hnone => ?_⟩
    rw [lookup] at hnone ⊢
    by_cases hk : k.sameKey key = true
    · rw [if_pos hk] at hnone
      cases hnone
    · rw [if_neg hk] at hnone ⊢
      exact hkept hnone

/-- Assignments keep the keys. -/
theorem scalarKeys_of_mapM_assignment? (h : entries.mapM (assignment? valueOf) = some out)
    (hkeys : ScalarKeys entries) : ScalarKeys out := by
  induction entries generalizing out with
  | nil =>
    obtain rfl : [] = out := by simpa using h
    exact nofun
  | cons e rest ih =>
    obtain ⟨hfirst, hrest⟩ := List.forall_mem_cons.mp hkeys
    rw [List.mapM_cons] at h
    obtain ⟨assigned, hassigned, h⟩ := Option.bind_eq_some_iff.mp h
    obtain ⟨later, hlater, h⟩ := Option.bind_eq_some_iff.mp h
    obtain rfl := Option.some.inj h
    obtain ⟨v, -, hv⟩ := Option.bind_eq_some_iff.mp hassigned
    obtain rfl := Option.some.inj hv
    exact List.forall_mem_cons.mpr ⟨hfirst, ih hlater hrest⟩

/-- **What a node in order stands for is content,** if all that it holds is. -/
theorem isContent_of_value? {b : Built} (hb : b.InOrder)
    (hvalues : ∀ i v, valueOf i = some v → v.IsContent) {v : Value}
    (h : b.value? valueOf = some v) : v.IsContent := by
  cases b with
  | scalar w =>
    obtain rfl := Option.some.inj h
    exact .scalar hb
  | list items =>
    obtain ⟨values, hmap, rfl⟩ := Option.map_eq_some_iff.mp h
    exact .list (forall_of_mapM hvalues hmap)
  | pairs items =>
    obtain ⟨values, hmap, rfl⟩ := Option.map_eq_some_iff.mp h
    refine .list (forall_of_mapM (fun pair w hw => ?_) hmap)
    obtain ⟨first, hfirst, hw⟩ := Option.bind_eq_some_iff.mp hw
    obtain ⟨second, hsecond, hw⟩ := Option.bind_eq_some_iff.mp hw
    obtain rfl := Option.some.inj hw
    refine .tuple (List.forall_mem_cons.mpr ⟨hvalues _ _ hfirst, ?_⟩)
    exact List.forall_mem_singleton.mpr (hvalues _ _ hsecond)
  | dict entries =>
    obtain ⟨out, hmap, rfl⟩ := Option.map_eq_some_iff.mp h
    obtain ⟨honce, hkeys⟩ := hb
    refine .dict (fun key => (once_of_mapM_assignment? hmap key (honce key)).1)
      (scalarKeys_of_mapM_assignment? hmap hkeys) ?_
    refine forall_of_mapM (fun entry e he => ?_) hmap
    obtain ⟨w, hw, he⟩ := Option.bind_eq_some_iff.mp he
    obtain rfl := Option.some.inj he
    exact hvalues _ _ hw
  | set members =>
    obtain rfl := Option.some.inj h
    exact .set hb

end Built

namespace Construction

variable {c : Construction} {values : Array (Option Value)}

/-- Everything that a document was built into is in order. -/
def InOrder (c : Construction) : Prop := ∀ b, some b ∈ c.built → b.InOrder

/-- All values that are known are content. -/
def AllContent (values : Array (Option Value)) : Prop := ∀ v, some v ∈ values → v.IsContent

theorem InOrder.get (h : c.InOrder) (id : Nat) : (c.get id).InOrder := by
  unfold Construction.get
  cases hbuilt : c.built.getD id none with
  | none => rfl
  | some b => exact h b (mem_of_getD_eq_some hbuilt)

theorem allContent_settleNode (h : c.InOrder) (hvalues : AllContent values) (id : Nat) :
    AllContent (c.settleNode values id) := by
  unfold settleNode
  split
  · exact hvalues
  · intro v hv
    rcases Array.mem_or_eq_of_mem_setIfInBounds hv with hold | hnew
    · exact hvalues v hold
    · refine Built.isContent_of_value? (h.get id) (fun i w hw => ?_) hnew.symm
      exact hvalues w (mem_of_getD_eq_some hw)

theorem allContent_settle (h : c.InOrder) (fuel : Nat) (hvalues : AllContent values) :
    AllContent (c.settle fuel values) := by
  induction fuel generalizing values with
  | zero => exact hvalues
  | succ fuel ih =>
    have hnext : AllContent ((List.range c.built.size).reverse.foldl c.settleNode values) :=
      List.foldlRecOn _ _ hvalues fun known hknown id _ => allContent_settleNode h hknown id
    unfold settle
    simp only
    split
    · exact hvalues
    · exact ih hnext

theorem allContent_settled (h : c.InOrder) : AllContent c.settled := by
  refine allContent_settle h _ fun v hv => ?_
  simp at hv

/-- **Unfolding gives content,** by induction over the depth. -/
theorem isContent_unfold (h : c.InOrder) (hvalues : AllContent values) (keyed : Bool) (fuel : Nat)
    (path : List Nat) (id : Nat) : (c.unfold values keyed fuel path id).IsContent := by
  induction fuel generalizing path id with
  | zero => exact .recurring _
  | succ fuel ih =>
    unfold unfold
    cases hsettled : values.getD id none with
    | some v => exact hvalues v (mem_of_getD_eq_some hsettled)
    | none =>
      simp only
      split
      · exact .recurring _
      · cases hvalue : (c.get id).value? fun i =>
            some (c.unfold values keyed fuel (id :: path) i) with
        | none => exact .scalar rfl
        | some v =>
          refine Built.isContent_of_value? (h.get id) (fun i w hw => ?_) hvalue
          obtain rfl := Option.some.inj hw
          exact ih (id :: path) i

end Construction

theorem isContent_of_scan {cs : List Char} {v : Value} (h : scan cs = .ok v) : v.IsContent := by
  unfold scan at h
  split at h
  · cases h
  · obtain ⟨⟨root, g⟩, -, h⟩ := bind_eq_ok_iff.mp h
    cases root with
    | none =>
      obtain rfl := Except.ok.inj h
      exact .scalar rfl
    | some root =>
      obtain ⟨built, hbuild, h⟩ := bind_eq_ok_iff.mp h
      obtain rfl := Except.ok.inj h
      have horder : Construction.InOrder ⟨built⟩ := Graph.inOrder_of_build hbuild
      exact Construction.isContent_unfold horder (Construction.allContent_settled horder) _ _ _ _

/-- **A text that can be read holds content.** -/
theorem isContent_of_read {text : String} {v : Value} (h : read text = .ok v) : v.IsContent := by
  unfold read at h
  cases hscan : scan (unifyLineEnds text.toList) with
  | error f =>
    rw [hscan] at h
    cases h
  | ok w =>
    rw [hscan] at h
    obtain rfl := Except.ok.inj h
    exact isContent_of_scan hscan

end Yaml
end PeerTrust
