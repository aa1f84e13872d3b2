/-
  `Proofs.RootSet` — root sets as sets of whole certificates, in the order of first occurrence.

  A root set is made by adding one certificate after the other, and one that is there already is
  not added again. `RootSet.ListsFirsts` says what comes out without saying how: the members are
  the certificates that were added, and they stand in the order in which they first occurred. The
  order is strict, so none is listed twice, and only one list satisfies this
  (`ListsFirsts.eq_of_listsFirsts`). One more certificate keeps it (`ListsFirsts.insert`), hence
  so does a whole sequence (`listsFirsts_ofList`).

  Values come in as many forms as certificates do. A sequence of them makes a root set exactly if
  each presents a certificate, and a value is a member exactly if it presents a certificate that
  one of them presents. The order of the sequence and repetitions in it are lost on both.
-/
import Mathlib.Data.Finset.Card
import PeerTrust.Proofs.Presentation
import PeerTrust.Proofs.Store

namespace PeerTrust

namespace RootSet

/-! ### The order of first occurrence -/

/-- **The roots are the certificates in the order of first occurrence.** -/
structure ListsFirsts (roots : RootSet) (cs : List Certificate) : Prop where
  mem_iff : ∀ c, c ∈ roots.anchors ↔ c ∈ cs
  inOrder : roots.anchors.Pairwise fun c d => cs.idxOf c < cs.idxOf d

variable {roots other : RootSet} {cs ds : List Certificate} {c : Certificate}

/-- **There is only one such list.** Two lists of the same members in one strict order are equal. -/
theorem ListsFirsts.eq_of_listsFirsts (h : roots.ListsFirsts cs) (h' : other.ListsFirsts cs) :
    roots.anchors = other.anchors := by
  have hperm : roots.anchors.Perm other.anchors := by
    rw [List.perm_ext_iff_of_nodup roots.nodup other.nodup]
    intro c
    rw [h.mem_iff, h'.mem_iff]
  refine hperm.eq_of_pairwise (fun c d _ _ hlt hgt => ?_) h.inOrder h'.inOrder
  exact absurd hgt (Nat.lt_asymm hlt)

/-- The certificates that were there keep their places when one more comes behind them. -/
theorem idxOf_concat_of_mem (hc : c ∈ cs) (d : Certificate) :
    (cs ++ [d]).idxOf c = cs.idxOf c := by
  rw [List.idxOf_append, if_pos hc]

/-- **One more certificate** is listed behind all others, or was there before. -/
theorem ListsFirsts.insert (h : roots.ListsFirsts cs) (d : Certificate) :
    (roots.insert d).ListsFirsts (cs ++ [d]) := by
  have hold : roots.anchors.Pairwise fun a b => (cs ++ [d]).idxOf a < (cs ++ [d]).idxOf b := by
    refine h.inOrder.imp_of_mem fun {a b} ha hb hlt => ?_
    rw [idxOf_concat_of_mem ((h.mem_iff a).mp ha), idxOf_concat_of_mem ((h.mem_iff b).mp hb)]
    exact hlt
  refine ⟨fun c => ?_, ?_⟩
  · rw [mem_insert_iff, h.mem_iff, List.mem_append, List.mem_singleton]
  · by_cases hd : d ∈ roots.anchors
    · rw [RootSet.insert, dif_pos hd]
      exact hold
    · rw [RootSet.insert, dif_neg hd]
      show (roots.anchors ++ [d]).Pairwise _
      have hnew : d ∉ cs := mt (h.mem_iff d).mpr hd
      refine List.pairwise_append.mpr ⟨hold, List.pairwise_singleton _ _, ?_⟩
      intro a ha b hb
      obtain rfl := List.mem_singleton.mp hb
      have hmem : a ∈ cs := (h.mem_iff a).mp ha
      have hlast : (cs ++ [b]).idxOf b = cs.length := by
        rw [List.idxOf_append, if_neg hnew, List.idxOf_cons_self, Nat.zero_add]
      rw [idxOf_concat_of_mem hmem, hlast]
      exact List.idxOf_lt_length_of_mem hmem

/-- **A whole sequence** is listed behind what was there before. -/
theorem ListsFirsts.foldl_insert (h : roots.ListsFirsts cs) (ds : List Certificate) :
    (ds.foldl RootSet.insert roots).ListsFirsts (cs ++ ds) := by
  induction ds generalizing roots cs with
  | nil => rwa [List.append_nil]
  | cons d rest ih =>
    rw [List.foldl_cons, List.append_cons]
    exact ih (h.insert d)

theorem listsFirsts_ofList (source : Option String) (cs : List Certificate) :
    (ofList source cs).ListsFirsts cs := by
  have hempty : (empty source).ListsFirsts [] := ⟨fun _ => Iff.rfl, List.Pairwise.nil⟩
  exact hempty.foldl_insert cs

/-- **A root set lists its own roots.** -/
theorem listsFirsts_self (roots : RootSet) : roots.ListsFirsts roots.anchors := by
  refine ⟨fun _ => Iff.rfl, List.pairwise_iff_getElem.mpr ?_⟩
  intro i j hi hj hij
  rw [roots.nodup.idxOf_getElem i hi, roots.nodup.idxOf_getElem j hj]
  exact hij

theorem source_ofList (source : Option String) (cs : List Certificate) :
    (ofList source cs).source = source := by
  have hfold : ∀ (ds : List Certificate) (roots : RootSet),
      (ds.foldl insert roots).source = roots.source := by
    intro ds
    induction ds with
    | nil => exact fun _ => rfl
    | cons d rest ih =>
      intro roots
      rw [List.foldl_cons, ih, insert]
      split <;> rfl
  exact hfold cs (empty source)

/-- A root set is made anew from its own roots. -/
theorem ofList_anchors (source : Option String) (roots : RootSet) :
    ofList source roots.anchors = { roots with source := source } := by
  have hanchors : (ofList source roots.anchors).anchors = roots.anchors :=
    (listsFirsts_ofList source roots.anchors).eq_of_listsFirsts roots.listsFirsts_self
  have hsource := source_ofList source roots.anchors
  cases hmade : ofList source roots.anchors with
  | mk anchors nodup made =>
    rw [hmade] at hanchors hsource
    obtain rfl : anchors = roots.anchors := hanchors
    obtain rfl : made = source := hsource
    rfl

/-- **The number of roots** is the number of different certificates. -/
theorem ListsFirsts.size_eq (h : roots.ListsFirsts cs) : roots.size = cs.toFinset.card := by
  have hmembers : roots.anchors.toFinset = cs.toFinset := by
    ext c
    rw [List.mem_toFinset, List.mem_toFinset, h.mem_iff]
  rw [size, ← hmembers, List.toFinset_card_of_nodup roots.nodup]

/-- **The first root** is the first certificate. -/
theorem ListsFirsts.head?_eq (h : roots.ListsFirsts (c :: cs)) : roots.anchors.head? = some c := by
  have hc : c ∈ roots.anchors := (h.mem_iff c).mpr List.mem_cons_self
  cases hanchors : roots.anchors with
  | nil =>
    rw [hanchors] at hc
    cases hc
  | cons a rest =>
    rw [hanchors] at hc
    rcases List.mem_cons.mp hc with rfl | hrest
    · rfl
    · -- no certificate first occurs before the first one
      have horder := h.inOrder
      rw [hanchors] at horder
      have hlt := List.rel_of_pairwise_cons horder hrest
      rw [List.idxOf_cons_self] at hlt
      exact absurd hlt (Nat.not_lt_zero _)

/-! ### Values as members -/

theorem containsValue_of_error {v : Value} {f : Failure} (h : v.presentedCertificate = .error f) :
    roots.containsValue v = if f.isRefusal then .ok false else .error f := by
  rw [containsValue, h]

/-- **A value is a member** exactly if it presents a certificate that is one of the roots. -/
theorem ListsFirsts.containsValue_eq_ok_true_iff (h : roots.ListsFirsts cs) (v : Value) :
    roots.containsValue v = .ok true ↔ ∃ c ∈ cs, v.presentedCertificate = .ok c := by
  cases hv : v.presentedCertificate with
  | error f =>
    rw [containsValue_of_error hv]
    cases f.isRefusal <;> simp
  | ok c =>
    rw [containsValue_of_presented hv, Except.ok.injEq, decide_eq_true_eq, h.mem_iff]
    simp

/-- **A refused value is no member,** and nothing fails over it unless it has no version of
certificates. -/
theorem containsValue_of_refused {v : Value} {f : Failure} (h : v.presentedCertificate = .error f) :
    (f ≠ .invalidVersion → roots.containsValue v = .ok false) ∧
      (f = .invalidVersion → roots.containsValue v = .error .invalidVersion) := by
  rw [containsValue_of_error h]
  cases Value.refused_of_presentedCertificate h with
  | misversioned => exact ⟨fun hne => absurd rfl hne, fun _ => rfl⟩
  | _ => exact ⟨fun _ => rfl, nofun⟩

end RootSet

/-! ### Sequences of values -/

namespace Value

variable {v : Value} {items : List Value} {f : Failure}

/-- **Values fail to present certificates** with the failure of the first one that does. -/
theorem mapM_presentedCertificate_of_first {before after : List Value} {w : Value}
    (hbefore : ∀ u ∈ before, ∃ c, u.presentedCertificate = .ok c)
    (hw : w.presentedCertificate = .error f) :
    (before ++ w :: after).mapM presentedCertificate = .error f := by
  induction before with
  | nil =>
    rw [List.nil_append, List.mapM_cons]
    exact bind_eq_error_iff.mpr (.inl hw)
  | cons u rest ih =>
    obtain ⟨c, hc⟩ := hbefore u List.mem_cons_self
    have hrest := ih fun w hw => hbefore w (List.mem_cons_of_mem u hw)
    rw [List.cons_append, List.mapM_cons]
    exact bind_eq_error_iff.mpr (.inr ⟨c, hc, bind_eq_error_iff.mpr (.inl hrest)⟩)

theorem presentedRoots_eq (hitems : v.items? = some items) (source : Option String) :
    v.presentedRoots source =
      (items.mapM presentedCertificate).map (RootSet.ofList source) := by
  rw [presentedRoots, hitems]
  cases hcs : items.mapM presentedCertificate <;>
    simp [hcs, bind, Except.bind, Except.map, pure, Except.pure]

end Value

namespace RootSet

open Value

variable {roots : RootSet} {cs : List Certificate}

/-- **The root set is the set of the certificates.** It can be gone through, in the order of first
occurrence, and counted; a value is a member exactly if it presents one of the certificates, so
one whose certificate differs from each of them in anything is none; a value that is refused is
no member either, but the question itself fails over one that has no version of certificates;
and the set can be made anew from its own roots. -/
structure IsSetOf (roots : RootSet) (cs : List Certificate) : Prop where
  firsts : roots.ListsFirsts cs
  iterated : (Value.roots roots).items? = some (roots.anchors.map (.certificate .peer))
  counted : roots.size = cs.toFinset.card
  member_iff : ∀ v, roots.containsValue v = .ok true ↔ ∃ c ∈ cs, v.presentedCertificate = .ok c
  answered : ∀ v c, v.presentedCertificate = .ok c →
    roots.containsValue v = .ok (decide (c ∈ cs))
  refused : ∀ v f, v.presentedCertificate = .error f → f ≠ .invalidVersion →
    roots.containsValue v = .ok false ∧ v.Refused f
  baffled : ∀ v, v.presentedCertificate = .error .invalidVersion →
    roots.containsValue v = .error .invalidVersion
  whole : ∀ {α : Type} (field : Certificate → α) (v : Value) (d : Certificate),
    v.presentedCertificate = .ok d → (∀ c ∈ cs, field c ≠ field d) →
    roots.containsValue v = .ok false
  rebuilt : ∀ (v : Value) source, v.items? = (Value.roots roots).items? →
    v.presentedRoots source = .ok { roots with source := source }

theorem ListsFirsts.isSetOf (h : roots.ListsFirsts cs) : roots.IsSetOf cs := by
  have hanswered : ∀ v c, v.presentedCertificate = .ok c →
      roots.containsValue v = .ok (decide (c ∈ cs)) := by
    intro v c hv
    rw [containsValue_of_presented hv]
    simp only [h.mem_iff]
  refine ⟨h, rfl, h.size_eq, h.containsValue_eq_ok_true_iff, hanswered, fun v f hf hversion => ?_,
    fun v hv => (containsValue_of_refused hv).2 rfl, fun field v d hd hdiffers => ?_,
    fun v source hitems => ?_⟩
  · exact ⟨(containsValue_of_refused hf).1 hversion, refused_of_presentedCertificate hf⟩
  · have hstranger : d ∉ cs := fun hmem => hdiffers d hmem rfl
    rw [hanswered v d hd, decide_eq_false hstranger]
  · rw [presentedRoots_eq hitems, Request.mapM_presentedCertificate]
    exact congrArg Except.ok (ofList_anchors source roots)

/-- Sets of the same certificates answer alike. -/
theorem IsSetOf.containsValue_eq {other : RootSet} {ds : List Certificate} (h : roots.IsSetOf cs)
    (hother : other.IsSetOf ds) (hsame : ∀ c, c ∈ ds ↔ c ∈ cs) (v : Value) :
    other.containsValue v = roots.containsValue v := by
  cases hv : v.presentedCertificate with
  | ok c =>
    rw [hother.answered v c hv, h.answered v c hv]
    simp only [hsame]
  | error f => rw [containsValue_of_error hv, containsValue_of_error hv]

/-- **A root set is the set of the certificates that a sequence of values presents.** It is made
exactly if each value presents a certificate; otherwise the first value that presents none is
what making it fails over. The same certificates in another order or with other repetitions
make a set of the same size and with the same members. -/
theorem presentedRoots_isSetOf {v : Value} {items : List Value} (hitems : v.items? = some items)
    (source : Option String) :
    (∀ cs, List.Forall₂ (fun w c => w.presentedCertificate = .ok c) items cs →
      ∃ roots, v.presentedRoots source = .ok roots ∧ roots.source = source ∧
        roots.IsSetOf cs ∧
        ∀ (other : RootSet) (ds : List Certificate), other.IsSetOf ds →
          (∀ c, c ∈ ds ↔ c ∈ cs) →
          other.size = roots.size ∧ ∀ w, other.containsValue w = roots.containsValue w) ∧
    (∀ before w after f, items = before ++ w :: after →
      (∀ u ∈ before, ∃ c, u.presentedCertificate = .ok c) → w.presentedCertificate = .error f →
      v.presentedRoots source = .error f) := by
  refine ⟨fun cs hpresents => ?_, ?_⟩
  · have hcs := mapM_presentedCertificate_eq_ok_iff.mpr hpresents
    have hset : (ofList source cs).IsSetOf cs := (listsFirsts_ofList source cs).isSetOf
    refine ⟨ofList source cs, ?_, source_ofList source cs, hset, fun other ds hother hsame => ?_⟩
    · rw [presentedRoots_eq hitems, hcs]
      rfl
    · have hfinset : ds.toFinset = cs.toFinset := by
        ext c
        rw [List.mem_toFinset, List.mem_toFinset, hsame]
      exact ⟨by rw [hother.counted, hset.counted, hfinset],
        hset.containsValue_eq hother hsame⟩
  · rintro before w after f rfl hbefore hw
    rw [presentedRoots_eq hitems, mapM_presentedCertificate_of_first hbefore hw]
    rfl

/-- A mix of forms in which two certificates occur twice each: the set has both of them, in the
order in which they came. A forged certificate shares all of its fields with a member but the
signer and is no member, nor is one that differs from a member in the remainder alone, nor a
number; behind a number no set is made. The question whether an encoding without a version of
certificates is a member fails. -/
theorem presentedRoots_isSetOf_of_mix :
    let mix : List Value := [.certificate .library Sample.leaf, .bytes (Armor.write Sample.root),
      .armor "" Sample.leaf, .certificate .tls Sample.root]
    ∃ roots, (Value.list mix).presentedRoots none = .ok roots ∧
      roots.anchors = [Sample.leaf, Sample.root] ∧ roots.size = 2 ∧
      roots.containsValue (.armor "" Sample.root) = .ok true ∧
      Sample.forged.subject = Sample.leaf.subject ∧ Sample.forged.key = Sample.leaf.key ∧
      roots.containsValue (.certificate .peer Sample.forged) = .ok false ∧
      roots.containsValue (.certificate .peer { Sample.leaf with remainder := [0x01] }) =
        .ok false ∧
      roots.containsValue (.int 5) = .ok false ∧
      roots.containsValue (.bytes [.misversioned Sample.leaf]) = .error .invalidVersion ∧
      (Value.list (mix ++ [.int 5])).presentedRoots none =
        .error (.wrongClass (.int 5) .certificate) := by
  intro mix
  have hpresents : List.Forall₂ (fun w c => w.presentedCertificate = .ok c) mix
      [Sample.leaf, Sample.root, Sample.leaf, Sample.root] :=
    .cons rfl (.cons (presentedCertificate_write _) (.cons (presentedCertificate_armor _)
      (.cons rfl .nil)))
  have hmix : (Value.list mix).items? = some mix := rfl
  obtain ⟨roots, hmade, -, hset, -⟩ := (presentedRoots_isSetOf hmix none).1 _ hpresents
  have hlonger : (Value.list (mix ++ [.int 5])).items? = some (mix ++ [.int 5]) := rfl
  obtain ⟨-, hfails⟩ := presentedRoots_isSetOf hlonger none
  have hanchors : roots.anchors = [Sample.leaf, Sample.root] :=
    hset.firsts.eq_of_listsFirsts (listsFirsts_ofList none _)
  have hversion : (Value.bytes [.misversioned Sample.leaf]).presentedCertificate =
      .error .invalidVersion := by
    have hplain : Content.holdsArmorMark [.misversioned Sample.leaf] = false := by decide +kernel
    show certificateOfText true _ = _
    rw [certificateOfText, if_pos rfl, Content.certificate, Content.presented?, hplain]
    rfl
  refine ⟨roots, hmade, hanchors, ?_, ?_, rfl, rfl, ?_, ?_, ?_, hset.baffled _ hversion,
    hfails mix (.int 5) [] _ rfl ?_ rfl⟩
  · rw [hset.counted]
    decide
  · exact (hset.member_iff _).mpr ⟨Sample.root, by simp, presentedCertificate_armor _⟩
  · refine hset.whole Certificate.signedBy _ Sample.forged rfl ?_
    simp only [List.forall_mem_cons]
    have hleaf : Sample.leaf.signedBy ≠ Sample.forged.signedBy := by decide
    have hroot : Sample.root.signedBy ≠ Sample.forged.signedBy := by decide
    exact ⟨hleaf, hroot, hleaf, hroot, fun _ h => absurd h List.not_mem_nil⟩
  · refine hset.whole Certificate.remainder _ _ rfl ?_
    simp only [List.forall_mem_cons]
    have hleaf : Sample.leaf.remainder ≠ [0x01] := by decide
    have hroot : Sample.root.remainder ≠ [0x01] := by decide
    exact ⟨hleaf, hroot, hleaf, hroot, fun _ h => absurd h List.not_mem_nil⟩
  · have hnumber : Failure.wrongClass (.int 5) .certificate ≠ .invalidVersion := by
      intro heq
      cases heq
    exact (hset.refused _ _ rfl hnumber).1
  · simp only [mix, List.forall_mem_cons]
    exact ⟨⟨_, rfl⟩, ⟨_, presentedCertificate_write _⟩, ⟨_, presentedCertificate_armor _⟩,
      ⟨_, rfl⟩, fun _ h => absurd h List.not_mem_nil⟩

end RootSet
end PeerTrust
