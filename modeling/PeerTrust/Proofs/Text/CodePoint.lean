/-
  `Proofs.Text.CodePoint` — every sequence of code points is spelled by a text.

  `CodePoint.read_spell_append` is the law of one code point: reading takes the
  characters that spell it and no more. Carried along a sequence it says that
  reading undoes spelling (`codePoints_ofCodePoints`), so texts can hold halves of
  surrogate pairs beside all characters and confuse none of them. A text is whole
  (`IsWhole`) if it holds characters only.
-/
import PeerTrust.Text.CodePoint

namespace PeerTrust.Text

/-- A number that is that of a character: no half of a surrogate pair, and not too high. -/
theorem toNat_ofNat_char {n : Nat} (h : n < 0xD800 ∨ 0xDFFF < n ∧ n < 0x110000) :
    (Char.ofNat n).toNat = n := by
  rw [Char.ofNat, dif_pos h]
  rfl

namespace CodePoint

/-! ### One code point -/

theorem toNat_standIn (place : Fin 2048) : (standIn place).toNat = firstStandIn + place :=
  toNat_ofNat_char (Or.inr (by simp only [firstStandIn]; omega))

theorem toNat_mark : mark.toNat = maxCode := toNat_ofNat_char (by decide)

/-- **A stand-in without a mark is its half.** -/
theorem ofUnmarked_standIn (place : Fin 2048) : ofUnmarked (standIn place) = .half place := by
  have hplace : (standIn place).toNat - firstStandIn = place := by
    rw [toNat_standIn, Nat.add_sub_cancel_left]
  have hin : firstStandIn ≤ (standIn place).toNat ∧
      (standIn place).toNat - firstStandIn < 2048 :=
    ⟨by rw [toNat_standIn]; exact Nat.le_add_right _ _, by rw [hplace]; exact place.isLt⟩
  rw [ofUnmarked, dif_pos hin]
  exact congrArg half (Fin.ext hplace)

theorem standIn_ne_mark (place : Fin 2048) : standIn place ≠ mark := by
  intro heq
  have hcodes : firstStandIn + place = maxCode := by
    rw [← toNat_standIn, heq, toNat_mark]
  simp only [firstStandIn, maxCode] at hcodes
  omega

/-- A character that is not the mark is read without what follows. -/
theorem read_cons_of_ne_mark {c : Char} (h : c ≠ mark) (rest : List Char) :
    read (c :: rest) = ofUnmarked c :: read rest := by
  cases rest with
  | nil => rfl
  | cons d rest => rw [read, if_neg h]

theorem read_mark_cons (c : Char) (rest : List Char) :
    read (mark :: c :: rest) = .character c :: read rest := by
  rw [read, if_pos rfl]

/-- **Reading takes the characters that spell a code point,** and goes on behind them. -/
theorem read_spell_append (p : CodePoint) (rest : List Char) :
    read (p.spell ++ rest) = p :: read rest := by
  cases p with
  | half place =>
    rw [spell, List.singleton_append, read_cons_of_ne_mark (standIn_ne_mark place),
      ofUnmarked_standIn]
  | character c =>
    rw [spell]
    split
    · exact read_mark_cons c rest
    · next hunmarked =>
      obtain ⟨hmark, hplain⟩ := not_or.mp hunmarked
      rw [List.singleton_append, read_cons_of_ne_mark hmark, Decidable.of_not_not hplain]

end CodePoint

/-! ### Texts -/

/-- **Any code points are those of the text that they are spelled by.** -/
theorem codePoints_ofCodePoints (points : List CodePoint) :
    codePoints (ofCodePoints points) = points := by
  rw [codePoints, ofCodePoints, String.toList_ofList]
  induction points with
  | nil => rfl
  | cons p rest ih => rw [List.flatMap_cons, CodePoint.read_spell_append, ih]

/-- The text is that of some characters, with no half of a surrogate pair between them. -/
def IsWhole (s : String) : Prop := ∃ cs : List Char, s = ofCodePoints (cs.map .character)

/-- A character below all stand-ins is spelled without a mark. -/
theorem CodePoint.spell_character_of_lt {c : Char} (h : c.toNat < firstStandIn) :
    (character c).spell = [c] := by
  have hmark : c ≠ mark := by
    rintro rfl
    rw [toNat_mark] at h
    exact absurd h (by decide)
  have hplain : ofUnmarked c = .character c := dif_neg fun hin => absurd hin.1 (Nat.not_le.mpr h)
  rw [spell, if_neg (not_or.mpr ⟨hmark, not_not_intro hplain⟩)]

/-- **Characters below all stand-ins make a whole text.** -/
theorem isWhole_of_lt {s : String}
    (h : (s.toList.all fun c => c.toNat < CodePoint.firstStandIn) = true) : IsWhole s := by
  have hspelled : ∀ cs : List Char, (∀ c ∈ cs, c.toNat < CodePoint.firstStandIn) →
      (cs.map CodePoint.character).flatMap CodePoint.spell = cs := by
    intro cs
    induction cs with
    | nil => exact fun _ => rfl
    | cons c rest ih =>
      intro hall
      obtain ⟨hc, hrest⟩ := List.forall_mem_cons.mp hall
      rw [List.map_cons, List.flatMap_cons, CodePoint.spell_character_of_lt hc, ih hrest,
        List.singleton_append]
  have hlow : ∀ c ∈ s.toList, c.toNat < CodePoint.firstStandIn := by simpa using h
  exact ⟨s.toList, by rw [ofCodePoints, hspelled _ hlow, String.ofList_toList]⟩

end PeerTrust.Text
