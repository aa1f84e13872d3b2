/-
  `Proofs.Armor` — what reading armor finds, and where it stands.

  Blocks are read one after the other, and the search for the next one goes on behind the last
  (`blocks?_of_some`). A certificate that is read from armor stands there in letters
  (`armored_mem_of_certificateBodies?`), so octets alone never present one.
-/
import PeerTrust.Armor
import PeerTrust.Proofs.Text.Search

namespace PeerTrust

/-! ### Contents spelled out -/

namespace Content

/-- **The content has no encoding of a certificate** that would have to be spelled out. -/
def IsSpelledOut (content : Content) : Prop := ∀ s ∈ content, s.expand = [s]

theorem IsSpelledOut.expand_eq {content : Content} (h : IsSpelledOut content) :
    content.expand = content := by
  induction content with
  | nil => rfl
  | cons s content ih =>
    obtain ⟨hs, hcontent⟩ := List.forall_mem_cons.mp h
    rw [expand, List.flatMap_cons, hs]
    exact congrArg (s :: ·) (ih hcontent)

theorem isSpelledOut_append_iff {a b : Content} :
    IsSpelledOut (a ++ b) ↔ IsSpelledOut a ∧ IsSpelledOut b :=
  List.forall_mem_append

theorem isSpelledOut_ofText (s : String) : IsSpelledOut (ofText s) := by
  intro symbol hsymbol
  obtain ⟨o, -, rfl⟩ := List.mem_map.mp hsymbol
  rfl

/-- Reading an encoding has two ways to fail. -/
theorem fault_of_encodedCertificate {content : Content} {fault : ReadFault}
    (h : content.encodedCertificate = .error fault) :
    fault = .malformed ∨ fault = .invalidVersion := by
  rw [encodedCertificate.eq_def] at h
  split at h
  · cases h
  · exact Or.inr (Except.error.inj h).symm
  · exact Or.inl (Except.error.inj h).symm

theorem fault_of_certificate (content : Content) {fault : ReadFault}
    (h : content.certificate = .error fault) :
    fault = .malformed ∨ fault = .invalidVersion := by
  rw [certificate] at h
  cases hpresented : content.presented? with
  | none =>
    rw [hpresented] at h
    exact Or.inl (Except.error.inj h).symm
  | some body =>
    rw [hpresented] at h
    exact fault_of_encodedCertificate h

/-- A content that is spelled out encodes no certificate, and nothing that looks like one. -/
theorem IsSpelledOut.encodedCertificate_eq {content : Content} (h : IsSpelledOut content) :
    content.encodedCertificate = .error .malformed := by
  have hgaps : ∀ (outline : Outline) (s : Symbol), outline.map Symbol.ofGap = [s] →
      (∃ o, s = .octet o) ∨ s = .gap := by
    intro outline s heq
    obtain ⟨o, -, rfl⟩ := List.mem_map.mp (heq ▸ List.mem_cons_self)
    cases o with
    | none => exact Or.inr rfl
    | some o => exact Or.inl ⟨o, rfl⟩
  rw [encodedCertificate.eq_def]
  split
  · next c =>
    rcases hgaps c.outline _ (h (.der c) List.mem_cons_self) with ⟨o, ho⟩ | ho <;> cases ho
  · next c =>
    rcases hgaps _ _ (h (.misversioned c) List.mem_cons_self) with ⟨o, ho⟩ | ho <;> cases ho
  · rfl

theorem eq_of_encodedCertificate {content : Content} {c : Certificate}
    (h : content.encodedCertificate = .ok c) : content = [.der c] := by
  rw [encodedCertificate.eq_def] at h
  split at h
  · rw [Except.ok.inj h]
  · cases h
  · cases h

theorem armored_not_mem_gaps (outline : Outline) (c : Certificate) :
    .armored c ∉ outline.map Symbol.ofGap := by
  intro hmem
  obtain ⟨o, -, ho⟩ := List.mem_map.mp hmem
  cases o with
  | none => rw [Symbol.ofGap] at ho; cases ho
  | some o => rw [Symbol.ofGap] at ho; cases ho

theorem armored_mem_expand_symbol_iff {s : Symbol} {c : Certificate} :
    .armored c ∈ s.expand ↔ s = .armored c := by
  cases s with
  | der d => simp only [Symbol.expand, armored_not_mem_gaps, reduceCtorEq]
  | cutDer d => simp only [Symbol.expand, armored_not_mem_gaps, reduceCtorEq]
  | misversioned d => simp only [Symbol.expand, armored_not_mem_gaps, reduceCtorEq]
  | _ => exact List.mem_singleton.trans eq_comm

/-- **Spelling out brings no letters in.** -/
theorem armored_mem_expand_iff {content : Content} {c : Certificate} :
    .armored c ∈ content.expand ↔ .armored c ∈ content := by
  simp only [expand, List.mem_flatMap, armored_mem_expand_symbol_iff, exists_eq_right]

end Content

namespace Armor

open Content

/-! ### Marks and blocks -/

/-- The end of a line. -/
def newline : Symbol := .octet 0x0A

/-- The label of a certificate's block. -/
def label : Content := mark "CERTIFICATE"

/-- What every mark starts with. -/
def dash : Symbol := .octet 0x2D

theorem head?_marks : (mark beginMark).head? = some dash ∧ (mark endMark).head? = some dash ∧
    (mark dashes).head? = some dash := by
  decide +kernel

theorem blocks?_of_none {content : Content} (h : nextBlock? content = none) :
    blocks? content = some [] := by
  rw [blocks?]
  split
  · rfl
  · next hsome => rw [h] at hsome; cases hsome

theorem blocks?_of_some {content rest : Content} {raw : RawBlock}
    (h : nextBlock? content = some (raw, rest)) :
    blocks? content = raw.check?.bind fun block => (blocks? rest).map (block :: ·) := by
  rw [blocks?]
  split
  · next hnone => rw [h] at hnone; cases hnone
  · next hsome =>
    obtain ⟨rfl, rfl⟩ : raw = _ ∧ rest = _ := by simpa using h.symm.trans hsome
    cases raw.check? <;> rfl

/-! ### Letters behind what is read -/

theorem armored_mem_write (c : Certificate) : .armored c ∈ write c :=
  List.mem_append_right _ List.mem_cons_self

theorem subset_of_seek? {run content before rest : Content}
    (h : Text.seek? run content = some (before, rest)) : before ⊆ content ∧ rest ⊆ content := by
  rw [Text.eq_of_seek? h]
  exact ⟨fun s hs => by simp [hs], fun s hs => by simp [hs]⟩

theorem subset_of_nextBlock? {content rest : Content} {raw : RawBlock}
    (h : nextBlock? content = some (raw, rest)) : raw.payload ⊆ content ∧ rest ⊆ content := by
  simp only [nextBlock?, Option.bind_eq_bind, Option.bind_eq_some_iff] at h
  obtain ⟨⟨_, r₁⟩, h₁, ⟨_, r₂⟩, h₂, ⟨payload, r₃⟩, h₃, ⟨_, r₄⟩, h₄, heq⟩ := h
  obtain ⟨rfl, rfl⟩ : raw = _ ∧ r₄ = rest := by simpa [eq_comm] using heq
  have hskipped : r₂.dropWhile isSkipped ⊆ content :=
    List.Subset.trans (List.dropWhile_subset _)
      (List.Subset.trans (subset_of_seek? h₂).2 (subset_of_seek? h₁).2)
  have hpayload := List.Subset.trans (subset_of_seek? h₃).1 hskipped
  have hrest := List.Subset.trans (subset_of_seek? h₃).2 hskipped
  exact ⟨hpayload, List.Subset.trans (subset_of_seek? h₄).2 hrest⟩

theorem ofOctets_ne_der (octets : Octets) (c : Certificate) : ofOctets octets ≠ [.der c] := by
  intro h
  have hmem : .der c ∈ ofOctets octets := h ▸ List.mem_singleton_self _
  obtain ⟨o, -, ho⟩ := List.mem_map.mp hmem
  cases ho

theorem armored_mem_of_decodeLetters? {letters : Content} {c : Certificate}
    (h : decodeLetters? letters = some [.der c]) : .armored c ∈ letters := by
  rw [decodeLetters?] at h
  split at h
  · next d hfilter =>
    obtain rfl : d = c := by simpa using h
    have hmem : .armored d ∈ letters.filter fun s => !isBlank s :=
      hfilter ▸ List.mem_singleton_self _
    exact (List.mem_filter.mp hmem).1
  · simp at h
  · simp at h
  · -- octets in base 64 are octets again
    obtain ⟨s, -, h⟩ := Option.bind_eq_some_iff.mp h
    obtain ⟨octets, -, h⟩ := Option.map_eq_some_iff.mp h
    exact absurd h (ofOctets_ne_der octets c)

theorem letters_subset_of_splitHeaders (payload : Content) :
    (splitHeaders payload).2 ⊆ payload := by
  rw [splitHeaders]
  cases hunix : Text.seek? (mark "\n\n") payload with
  | some parts => exact (subset_of_seek? hunix).2
  | none =>
    cases hother : Text.seek? (mark "\r\n\r\n") payload with
    | some parts => exact (subset_of_seek? hother).2
    | none => exact List.Subset.refl payload

theorem armored_mem_of_decodePayload? {payload : Content} {c : Certificate}
    (h : decodePayload? payload = some [.der c]) : .armored c ∈ payload := by
  have hsub := letters_subset_of_splitHeaders payload
  rw [decodePayload?] at h
  cases hsplit : splitHeaders payload with
  | mk headers letters =>
    rw [hsplit] at h hsub
    obtain ⟨-, hletters⟩ := Option.ite_none_right_eq_some.mp h
    exact hsub (armored_mem_of_decodeLetters? hletters)

theorem armored_mem_of_check? {raw : RawBlock} {b : Block} {c : Certificate}
    (h : raw.check? = some b) (hbody : b.body = [.der c]) : .armored c ∈ raw.payload := by
  rw [RawBlock.check?] at h
  split at h
  · cases h
  · obtain ⟨body, hdecode, rfl⟩ := Option.map_eq_some_iff.mp h
    obtain rfl : body = [.der c] := hbody
    exact armored_mem_of_decodePayload? hdecode

/-- **A certificate in a block stands there in letters.** -/
theorem armored_mem_of_blocks? {content : Content} {blocks : List Block} {b : Block}
    {c : Certificate} (h : blocks? content = some blocks) (hb : b ∈ blocks)
    (hbody : b.body = [.der c]) : .armored c ∈ content := by
  fun_induction blocks? content generalizing blocks with
  | case1 content hnext =>
    obtain rfl : [] = blocks := Option.some.inj h
    cases hb
  | case2 content raw rest hnext _ hcheck => cases h
  | case3 content raw rest hnext _ block hcheck ih =>
    obtain ⟨hpayload, hrest⟩ := subset_of_nextBlock? hnext
    obtain ⟨others, hothers, rfl⟩ := Option.map_eq_some_iff.mp h
    rcases List.mem_cons.mp hb with rfl | hb
    · exact hpayload (armored_mem_of_check? hcheck hbody)
    · exact hrest (ih hothers hb)

/-- **Octets present no certificate in their armor,** not even those of a certificate. -/
theorem armored_mem_of_certificateBodies? {content : Content} {bodies : List Content}
    {c : Certificate} (h : certificateBodies? content = some bodies) (hmem : [.der c] ∈ bodies) :
    .armored c ∈ content := by
  obtain ⟨blocks, hblocks, rfl⟩ := Option.map_eq_some_iff.mp h
  obtain ⟨b, hb, hbody⟩ := List.mem_map.mp hmem
  exact armored_mem_expand_iff.mp (armored_mem_of_blocks? hblocks (List.mem_filter.mp hb).1 hbody)

end Armor
end PeerTrust
