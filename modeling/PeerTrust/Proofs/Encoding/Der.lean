/-
  `Proofs.Encoding.Der` — one element, read and written.

  An element is its tag, its length in the shortest form, and its content. A longer
  content never has a shorter length in front of it (`length_writeLength_mono`), so
  octets are a length and a content of that length in one way only
  (`content_eq_of_writeLength_append`). Octets that are one element are therefore read as
  the element that they are written as, and as no other (`readElement?_eq_some_iff`).
-/
import PeerTrust.Encoding.Der

namespace PeerTrust.Der

variable {tag : UInt8} {octets rest content : Octets}

/-! ### Lengths -/

theorem length_octetsOfNat {n : Nat} (h : n ≠ 0) :
    (octetsOfNat n).length = (octetsOfNat (n / 256)).length + 1 := by
  rw [octetsOfNat, dif_neg h, List.length_append, List.length_singleton]

theorem length_octetsOfNat_mono {m n : Nat} (h : m ≤ n) :
    (octetsOfNat m).length ≤ (octetsOfNat n).length := by
  induction n using Nat.strongRecOn generalizing m with
  | ind n ih =>
    by_cases hm : m = 0
    · rw [octetsOfNat, dif_pos hm]
      exact Nat.zero_le _
    · rw [length_octetsOfNat hm, length_octetsOfNat (show n ≠ 0 by omega)]
      exact Nat.succ_le_succ (ih (n / 256) (by omega) (by omega))

/-- **A length never takes fewer octets than a smaller one.** -/
theorem length_writeLength_mono {m n : Nat} (h : m ≤ n) :
    (writeLength m).length ≤ (writeLength n).length := by
  rw [writeLength, writeLength]
  by_cases hn : n < 128
  · rw [if_pos hn, if_pos (by omega)]
    exact Nat.le_refl _
  · rw [if_neg hn]
    by_cases hm : m < 128
    · simp [hm]
    · rw [if_neg hm]
      exact Nat.succ_le_succ (length_octetsOfNat_mono h)

/-- **A content behind its length** can be told from all others. -/
theorem content_eq_of_writeLength_append {other : Octets}
    (h : writeLength content.length ++ content = writeLength other.length ++ other) :
    content = other := by
  have htotal := congrArg List.length h
  rw [List.length_append, List.length_append] at htotal
  -- the lengths are equal, since the lengths in front of both grow with them
  have hlength : content.length = other.length := by
    rcases Nat.le_total content.length other.length with hle | hle
    · have := length_writeLength_mono hle
      omega
    · have := length_writeLength_mono hle
      omega
  rw [hlength] at h
  exact List.append_cancel_left h

/-! ### One element -/

/-- The tag of an element is the first octet. -/
theorem tag_of_readElement? {e : Element} {after : Octets}
    (h : readElement? (tag :: rest) = some (e, after)) : e.tag = tag := by
  rw [readElement?] at h
  obtain ⟨⟨length, content⟩, -, hrest⟩ := Option.bind_eq_some_iff.mp h
  dsimp only at hrest
  by_cases hlong : content.length < length
  · rw [if_pos hlong] at hrest
    cases hrest
  · rw [if_neg hlong] at hrest
    obtain ⟨rfl, -⟩ := Prod.mk.inj (Option.some.inj hrest)
    rfl

/-- **Octets behind a short tag are an element** if they are a length in its shortest form and a
content of that length. -/
theorem isElement_cons_iff (hshort : tag.toNat % 32 ≠ 31) :
    isElement (tag :: rest) = true ↔ ∃ content, readLength? rest = some (content.length, content) ∧
      writeLength content.length ++ content = rest := by
  rw [isElement, afterTag?, if_neg hshort]
  cases hread : readLength? rest with
  | none => simp [hread]
  | some read =>
    obtain ⟨length, content⟩ := read
    simp only [Option.bind_some, hread, Option.map_some, Bool.and_eq_true, decide_eq_true_eq,
      Option.some.injEq, Prod.mk.injEq]
    constructor
    · rintro ⟨rfl, hrest⟩
      exact ⟨content, ⟨rfl, rfl⟩, hrest⟩
    · rintro ⟨_, ⟨rfl, rfl⟩, hrest⟩
      exact ⟨rfl, hrest⟩

/-- **One element is read as what it is written as,** with nothing left over. -/
theorem readElement?_eq_some_iff (h : isElement octets = true) {e : Element}
    (hshort : e.tag.toNat % 32 ≠ 31) :
    (∃ after, readElement? octets = some (e, after)) ↔ octets = e.write := by
  cases octets with
  | nil => cases h
  | cons tag rest =>
    by_cases htag : tag = e.tag
    · subst htag
      obtain ⟨content, hread, hrest⟩ := (isElement_cons_iff hshort).mp h
      have helement : readElement? (e.tag :: rest) = some (⟨e.tag, content⟩, []) := by
        simp [readElement?, hread]
      rw [helement, Element.write, List.cons_append, ← hrest]
      constructor
      · rintro ⟨after, heq⟩
        rw [← (Prod.mk.inj (Option.some.inj heq)).1]
      · intro hsame
        have hcontent := content_eq_of_writeLength_append (List.cons.inj hsame).2
        exact ⟨[], by rw [hcontent]⟩
    · constructor
      · rintro ⟨after, heq⟩
        exact absurd (tag_of_readElement? heq).symm htag
      · intro hwrite
        exact absurd (List.cons.inj hwrite).1 htag

end PeerTrust.Der
