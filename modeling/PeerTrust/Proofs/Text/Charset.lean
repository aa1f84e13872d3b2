/-
  `Proofs.Text.Charset` — reading UTF-8 undoes writing it, and reads nothing else.

  A character of UTF-8 has a leading octet that announces what follows. `Lead.ofOctet?_two`
  and its siblings say which leading octets announce what, and `Lead.cases` says that
  there are no others. With these, one step of reading takes the octets of one
  character and no more (`utf8Parts_encode_append`), and a step that gives a character
  has taken its octets (`of_utf8Parts_cons`). Both are carried through a text by
  induction, so that octets are read as a text exactly if they are what the text is
  written as (`ofUtf8?_eq_some_iff`).
-/
import Mathlib.Tactic.SplitIfs
import PeerTrust.Proofs.Journal
import PeerTrust.Proofs.Text.CodePoint
import PeerTrust.Text.Charset

namespace PeerTrust.Text

open String (utf8EncodeChar)

/-! ### Octets -/

theorem toNat_ofNat_octet {n : Nat} (h : n < 256) : (UInt8.ofNat n).toNat = n :=
  UInt8.toNat_ofNat_of_lt' h

/-- An octet is that of its number. -/
theorem octet_eq_of_toNat (octet : UInt8) {n : Nat} (h : octet.toNat = n) :
    UInt8.ofNat n = octet := by
  rw [← h, UInt8.ofNat_toNat]

/-! ### Leading octets -/

namespace Lead

variable {a b : UInt8} {x : Nat}

/-- **A character of two octets** has six bits in the second. -/
theorem ofOctet?_two (ha : a.toNat = 0xC0 + x) (hlow : 2 ≤ x) (hx : x < 32) :
    ofOctet? a = some ⟨1, 0x80, 0xBF, x⟩ := by
  have hbits : 0xC0 + x - 0xC0 = x := by omega
  simp only [ofOctet?, ha, hbits]
  rw [if_pos (by omega)]

/-- **A character of three octets** begins neither with too many zeros nor as a half of a
surrogate pair does. -/
theorem ofOctet?_three (ha : a.toNat = 0xE0 + x) (hx : x < 16)
    (hlong : x = 0 → 0xA0 ≤ b.toNat) (hhalf : x = 0xD → b.toNat ≤ 0x9F)
    (hb : 0x80 ≤ b.toNat ∧ b.toNat ≤ 0xBF) :
    ∃ lead, ofOctet? a = some lead ∧ lead.following = 2 ∧ lead.bits = x ∧
      lead.low ≤ b.toNat ∧ b.toNat ≤ lead.high := by
  simp only [ofOctet?, ha]
  split_ifs
  all_goals first
    | omega
    | refine ⟨_, rfl, rfl, ?_, ?_, ?_⟩ <;> dsimp only <;> omega

/-- **A character of four octets** begins neither with too many zeros nor above the last
character. -/
theorem ofOctet?_four (ha : a.toNat = 0xF0 + x) (hx : x < 5)
    (hlong : x = 0 → 0x90 ≤ b.toNat) (hhigh : x = 4 → b.toNat ≤ 0x8F)
    (hb : 0x80 ≤ b.toNat ∧ b.toNat ≤ 0xBF) :
    ∃ lead, ofOctet? a = some lead ∧ lead.following = 3 ∧ lead.bits = x ∧
      lead.low ≤ b.toNat ∧ b.toNat ≤ lead.high := by
  simp only [ofOctet?, ha]
  split_ifs
  all_goals first
    | omega
    | refine ⟨_, rfl, rfl, ?_, ?_, ?_⟩ <;> dsimp only <;> omega

/-- What a leading octet and the next one may be, where so many octets follow. -/
inductive Opens (a b : UInt8) (bits : Nat) : Nat → Prop
  | two (lead : a.toNat = 0xC0 + bits) (low : 2 ≤ bits) (high : bits < 32) : Opens a b bits 1
  | three (lead : a.toNat = 0xE0 + bits) (high : bits < 16) (long : bits = 0 → 0xA0 ≤ b.toNat)
      (half : bits = 0xD → b.toNat ≤ 0x9F) : Opens a b bits 2
  | four (lead : a.toNat = 0xF0 + bits) (high : bits < 5) (long : bits = 0 → 0x90 ≤ b.toNat)
      (past : bits = 4 → b.toNat ≤ 0x8F) : Opens a b bits 3

/-- **There are no other leading octets.** -/
theorem opens {lead : Lead} (h : ofOctet? a = some lead)
    (hb : lead.low ≤ b.toNat ∧ b.toNat ≤ lead.high) :
    Opens a b lead.bits lead.following ∧ 0x80 ≤ b.toNat ∧ b.toNat ≤ 0xBF := by
  simp only [ofOctet?] at h
  split_ifs at h
  all_goals
    obtain rfl := Option.some.inj h
    simp only at hb ⊢
    refine ⟨?_, by omega, by omega⟩
    first
      | exact .two (by omega) (by omega) (by omega)
      | exact .three (by omega) (by omega) (by omega) (by omega)
      | exact .four (by omega) (by omega) (by omega) (by omega)

end Lead

/-! ### One character -/

section Steps

variable {a b c d : UInt8} {lead : Lead} {rest : Octets}

/-- A leading octet is none of ASCII. -/
theorem Lead.not_ascii (h : Lead.ofOctet? a = some lead) : ¬a.toNat < 0x80 := by
  intro ha
  simp only [ofOctet?] at h
  split_ifs at h
  all_goals omega

theorem utf8Parts_one (ha : a.toNat < 0x80) :
    utf8Parts (a :: rest) = .character (Char.ofNat a.toNat) :: utf8Parts rest := by
  rw [utf8Parts, if_pos ha]

theorem utf8Parts_two (ha : Lead.ofOctet? a = some lead)
    (hb : lead.low ≤ b.toNat ∧ b.toNat ≤ lead.high) (hfollowing : lead.following = 1) :
    utf8Parts (a :: b :: rest) =
      .character (Char.ofNat (lead.bits * 64 + (b.toNat - 0x80))) :: utf8Parts rest := by
  rw [utf8Parts, if_neg (Lead.not_ascii ha), ha]
  simp only [hb, and_self, not_true_eq_false, if_false, hfollowing, if_true]

theorem utf8Parts_three (ha : Lead.ofOctet? a = some lead)
    (hb : lead.low ≤ b.toNat ∧ b.toNat ≤ lead.high) (hfollowing : lead.following = 2)
    (hc : isContinuation c = true) :
    utf8Parts (a :: b :: c :: rest) =
      .character (Char.ofNat ((lead.bits * 64 + (b.toNat - 0x80)) * 64 + (c.toNat - 0x80))) ::
        utf8Parts rest := by
  rw [utf8Parts, if_neg (Lead.not_ascii ha), ha]
  simp [hb, hfollowing, hc]

theorem utf8Parts_four (ha : Lead.ofOctet? a = some lead)
    (hb : lead.low ≤ b.toNat ∧ b.toNat ≤ lead.high) (hfollowing : lead.following = 3)
    (hc : isContinuation c = true) (hd : isContinuation d = true) :
    utf8Parts (a :: b :: c :: d :: rest) =
      .character (Char.ofNat (((lead.bits * 64 + (b.toNat - 0x80)) * 64 + (c.toNat - 0x80)) * 64 +
        (d.toNat - 0x80))) :: utf8Parts rest := by
  rw [utf8Parts, if_neg (Lead.not_ascii ha), ha]
  simp [hb, hfollowing, hc, hd]

end Steps

theorem isContinuation_iff (octet : UInt8) :
    isContinuation octet = true ↔ 0x80 ≤ octet.toNat ∧ octet.toNat ≤ 0xBF := by
  simp [isContinuation]

/-- The low six bits of a number make an octet that continues a character. -/
theorem isContinuation_ofNat (n : Nat) : isContinuation (UInt8.ofNat (n % 64 + 128)) = true := by
  rw [isContinuation_iff, toNat_ofNat_octet (by omega)]
  omega

/-- **Reading takes the octets of one character,** and goes on behind them. -/
theorem utf8Parts_encode_append (c : Char) (rest : Octets) :
    utf8Parts (utf8EncodeChar c ++ rest) = .character c :: utf8Parts rest := by
  have hvalid : c.val.toNat < 0xD800 ∨ 0xDFFF < c.val.toNat ∧ c.val.toNat < 0x110000 := c.valid
  have hchar : Char.ofNat c.val.toNat = c := Char.ofNat_toNat c
  generalize hv : c.val.toNat = v at hvalid hchar
  have hlast := toNat_ofNat_octet (show v % 64 + 128 < 256 by omega)
  simp only [utf8EncodeChar, hv]
  by_cases hone : v ≤ 0x7F
  · have ha := toNat_ofNat_octet (show v < 256 by omega)
    rw [if_pos hone, List.singleton_append, utf8Parts_one (by omega), ha, hchar]
  rw [if_neg hone]
  by_cases htwo : v ≤ 0x7FF
  · have ha := toNat_ofNat_octet (show v / 64 % 32 + 192 < 256 by omega)
    have hlead := Lead.ofOctet?_two (ha.trans (Nat.add_comm _ _)) (by omega) (by omega)
    have hvalue : v / 64 % 32 * 64 + (v % 64 + 128 - 0x80) = v := by omega
    rw [if_pos htwo, List.cons_append, List.singleton_append,
      utf8Parts_two hlead (by dsimp only; omega) rfl, hlast]
    simp only [hvalue, hchar]
  rw [if_neg htwo]
  by_cases hthree : v ≤ 0xFFFF
  · have ha := toNat_ofNat_octet (show v / 4096 % 16 + 224 < 256 by omega)
    have hb := toNat_ofNat_octet (show v / 64 % 64 + 128 < 256 by omega)
    obtain ⟨lead, hlead, hfollowing, hbits, hin⟩ :=
      Lead.ofOctet?_three (b := UInt8.ofNat (v / 64 % 64 + 128)) (ha.trans (Nat.add_comm _ _))
        (by omega) (by omega) (by omega) (by omega)
    have hvalue : (v / 4096 % 16 * 64 + (v / 64 % 64 + 128 - 0x80)) * 64 +
        (v % 64 + 128 - 0x80) = v := by omega
    rw [if_pos hthree]
    simp only [List.cons_append, List.nil_append]
    rw [utf8Parts_three hlead hin hfollowing (isContinuation_ofNat v), hbits, hb, hlast, hvalue,
      hchar]
  · have ha := toNat_ofNat_octet (show v / 262144 % 8 + 240 < 256 by omega)
    have hb := toNat_ofNat_octet (show v / 4096 % 64 + 128 < 256 by omega)
    have hc := toNat_ofNat_octet (show v / 64 % 64 + 128 < 256 by omega)
    obtain ⟨lead, hlead, hfollowing, hbits, hin⟩ :=
      Lead.ofOctet?_four (b := UInt8.ofNat (v / 4096 % 64 + 128)) (ha.trans (Nat.add_comm _ _))
        (by omega) (by omega) (by omega) (by omega)
    have hvalue : ((v / 262144 % 8 * 64 + (v / 4096 % 64 + 128 - 0x80)) * 64 +
        (v / 64 % 64 + 128 - 0x80)) * 64 + (v % 64 + 128 - 0x80) = v := by omega
    rw [if_neg hthree]
    simp only [List.cons_append, List.nil_append]
    rw [utf8Parts_four hlead hin hfollowing (isContinuation_ofNat (v / 64))
      (isContinuation_ofNat v), hbits, hb, hc, hlast, hvalue, hchar]

section Writing

variable {a b c d : UInt8} {bits : Nat}

/-- The octets of the character of a number. -/
theorem utf8EncodeChar_ofNat {n : Nat} (h : n < 0xD800 ∨ 0xDFFF < n ∧ n < 0x110000) :
    utf8EncodeChar (Char.ofNat n) =
      if n ≤ 0x7F then [UInt8.ofNat n]
      else if n ≤ 0x7FF then [UInt8.ofNat (n / 64 % 32 + 192), UInt8.ofNat (n % 64 + 128)]
      else if n ≤ 0xFFFF then
        [UInt8.ofNat (n / 4096 % 16 + 224), UInt8.ofNat (n / 64 % 64 + 128),
          UInt8.ofNat (n % 64 + 128)]
      else
        [UInt8.ofNat (n / 262144 % 8 + 240), UInt8.ofNat (n / 4096 % 64 + 128),
          UInt8.ofNat (n / 64 % 64 + 128), UInt8.ofNat (n % 64 + 128)] := by
  have hval : (Char.ofNat n).val.toNat = n := toNat_ofNat_char h
  simp only [utf8EncodeChar, hval]

theorem utf8EncodeChar_one (ha : a.toNat < 0x80) :
    utf8EncodeChar (Char.ofNat a.toNat) = [a] := by
  rw [utf8EncodeChar_ofNat (by omega), if_pos (by omega), octet_eq_of_toNat a rfl]

theorem utf8EncodeChar_two (h : Lead.Opens a b bits 1) (hb : 0x80 ≤ b.toNat ∧ b.toNat ≤ 0xBF) :
    utf8EncodeChar (Char.ofNat (bits * 64 + (b.toNat - 0x80))) = [a, b] := by
  cases h with
  | two lead low high =>
    rw [utf8EncodeChar_ofNat (by omega), if_neg (by omega), if_pos (by omega),
      octet_eq_of_toNat a (by omega), octet_eq_of_toNat b (by omega)]

theorem utf8EncodeChar_three (h : Lead.Opens a b bits 2) (hb : 0x80 ≤ b.toNat ∧ b.toNat ≤ 0xBF)
    (hc : isContinuation c = true) :
    utf8EncodeChar (Char.ofNat ((bits * 64 + (b.toNat - 0x80)) * 64 + (c.toNat - 0x80))) =
      [a, b, c] := by
  rw [isContinuation_iff] at hc
  cases h with
  | three lead high long half =>
    rw [utf8EncodeChar_ofNat (by omega), if_neg (by omega), if_neg (by omega), if_pos (by omega),
      octet_eq_of_toNat a (by omega), octet_eq_of_toNat b (by omega),
      octet_eq_of_toNat c (by omega)]

theorem utf8EncodeChar_four (h : Lead.Opens a b bits 3) (hb : 0x80 ≤ b.toNat ∧ b.toNat ≤ 0xBF)
    (hc : isContinuation c = true) (hd : isContinuation d = true) :
    utf8EncodeChar (Char.ofNat (((bits * 64 + (b.toNat - 0x80)) * 64 + (c.toNat - 0x80)) * 64 +
      (d.toNat - 0x80))) = [a, b, c, d] := by
  rw [isContinuation_iff] at hc hd
  cases h with
  | four lead high long past =>
    rw [utf8EncodeChar_ofNat (by omega), if_neg (by omega), if_neg (by omega), if_neg (by omega),
      octet_eq_of_toNat a (by omega), octet_eq_of_toNat b (by omega),
      octet_eq_of_toNat c (by omega), octet_eq_of_toNat d (by omega)]

end Writing

/-- **A step that gives a code point has taken the octets of a character.** -/
theorem of_utf8Parts_cons {octets : Octets} {p : CodePoint} {parts : List Part}
    (h : utf8Parts octets = .point p :: parts) :
    ∃ c rest, p = .character c ∧ octets = utf8EncodeChar c ++ rest ∧ parts = utf8Parts rest := by
  have hinj : ∀ {d : Char} {rest : Octets}, Part.character d :: utf8Parts rest =
      .point p :: parts → p = .character d ∧ parts = utf8Parts rest := by
    intro d rest heq
    obtain ⟨hpoint, hrest⟩ := List.cons.inj heq
    exact ⟨(Part.point.inj hpoint).symm, hrest.symm⟩
  revert h
  fun_cases utf8Parts octets with
  | case2 a rest ha =>
    intro h
    obtain ⟨hpoint, hrest⟩ := hinj h
    exact ⟨_, rest, hpoint, by rw [utf8EncodeChar_one ha]; rfl, hrest⟩
  | case6 a hascii lead hlead b rest hb value hone =>
    intro h
    obtain ⟨hpoint, hrest⟩ := hinj h
    obtain ⟨hopens, hrange⟩ := Lead.opens hlead (Decidable.of_not_not hb)
    rw [hone] at hopens
    exact ⟨_, rest, hpoint, by rw [utf8EncodeChar_two hopens hrange]; rfl, hrest⟩
  | case9 a hascii lead hlead b hb value hone c rest hc value' htwo =>
    intro h
    obtain ⟨hpoint, hrest⟩ := hinj h
    obtain ⟨hopens, hrange⟩ := Lead.opens hlead (Decidable.of_not_not hb)
    rw [htwo] at hopens
    exact ⟨_, rest, hpoint, by
      rw [utf8EncodeChar_three hopens hrange (Decidable.of_not_not hc)]; rfl, hrest⟩
  | case12 a hascii lead hlead b hb value hone c hc value' htwo d rest hd =>
    intro h
    obtain ⟨hpoint, hrest⟩ := hinj h
    obtain ⟨hopens, hrange⟩ := Lead.opens hlead (Decidable.of_not_not hb)
    have hthree : lead.following = 3 := by
      generalize lead.following = following at hopens hone htwo
      cases hopens with
      | two => exact absurd rfl hone
      | three => exact absurd rfl htwo
      | four => rfl
    rw [hthree] at hopens
    exact ⟨_, rest, hpoint, by
      rw [utf8EncodeChar_four hopens hrange
        (Decidable.of_not_not hc) (Decidable.of_not_not hd)]; rfl, hrest⟩
  | _ => exact nofun

/-! ### Texts -/

/-- **Reading what a text is written as gives its characters.** -/
theorem utf8Parts_flatMap (cs : List Char) :
    utf8Parts (cs.flatMap utf8EncodeChar) = cs.map .character := by
  induction cs with
  | nil => rw [List.flatMap_nil, utf8Parts, List.map_nil]
  | cons c rest ih => rw [List.flatMap_cons, utf8Parts_encode_append, ih, List.map_cons]

/-- Octets are never read as no part at all. -/
theorem eq_nil_of_utf8Parts {octets : Octets} (h : utf8Parts octets = []) : octets = [] := by
  revert h
  fun_cases utf8Parts octets with
  | case1 => exact fun _ => rfl
  | _ => exact nofun

/-- **Octets in which code points are read are what some characters are written as,** and the
code points are these characters. -/
theorem eq_flatMap_of_utf8Parts {octets : Octets} {points : List CodePoint}
    (h : utf8Parts octets = points.map .point) :
    ∃ cs : List Char, points = cs.map .character ∧ octets = cs.flatMap utf8EncodeChar := by
  induction points generalizing octets with
  | nil => exact ⟨[], rfl, eq_nil_of_utf8Parts h⟩
  | cons p points ih =>
    obtain ⟨c, rest, rfl, rfl, hparts⟩ := of_utf8Parts_cons h
    obtain ⟨cs, rfl, rfl⟩ := ih hparts.symm
    exact ⟨c :: cs, rfl, rfl⟩

/-- Parts are taken as they are exactly if all of them are code points. -/
theorem mapM_refuse_eq_ok_iff (parts : List Part) (runs : List (List CodePoint)) :
    parts.mapM (fun
      | .point p => .ok [p]
      | .malformed run => OnMalformed.refuse.treat run) = Except.ok (ε := DecodeFault) runs ↔
      ∃ points : List CodePoint, parts = points.map .point ∧ runs = points.map fun p => [p] := by
  induction parts generalizing runs with
  | nil =>
    rw [List.mapM_nil]
    constructor
    · intro h
      obtain rfl := Except.ok.inj h
      exact ⟨[], rfl, rfl⟩
    · rintro ⟨points, hparts, rfl⟩
      rw [List.map_eq_nil_iff.mp hparts.symm]
      rfl
  | cons part rest ih =>
    rw [List.mapM_cons, bind_eq_ok_iff]
    constructor
    · rintro ⟨run, hpart, hrest⟩
      obtain ⟨runs', hruns, hpure⟩ := bind_eq_ok_iff.mp hrest
      obtain ⟨points, rfl, rfl⟩ := (ih runs').mp hruns
      cases part with
      | point p =>
        obtain rfl := Except.ok.inj hpart
        obtain rfl := Except.ok.inj hpure
        exact ⟨p :: points, rfl, rfl⟩
      | malformed octets => cases hpart
    · rintro ⟨points, hparts, rfl⟩
      cases points with
      | nil => cases hparts
      | cons p points =>
        obtain ⟨rfl, rfl⟩ := List.cons.inj hparts
        exact ⟨[p], rfl, bind_eq_ok_iff.mpr ⟨_, (ih _).mpr ⟨points, rfl, rfl⟩, rfl⟩⟩

theorem flatten_map_singleton {α : Type} (xs : List α) : (xs.map fun x => [x]).flatten = xs := by
  rw [← List.flatMap_def, List.flatMap_singleton']

/-- Octets are read as the text of the code points that are their parts. -/
theorem ofUtf8?_eq_some_iff_exists {octets : Octets} {s : String} :
    ofUtf8? octets = some s ↔ ∃ points : List CodePoint,
      utf8Parts octets = points.map .point ∧ s = ofCodePoints points := by
  have hoption : ∀ x : Except DecodeFault String, x.toOption = some s ↔ x = .ok s := by
    rintro (_ | _) <;> simp [Except.toOption]
  rw [ofUtf8?, hoption, Charset.decode]
  simp only [reduceCtorEq, and_false, if_false]
  rw [bind_eq_ok_iff]
  constructor
  · rintro ⟨runs, hruns, htext⟩
    obtain ⟨points, hparts, rfl⟩ := (mapM_refuse_eq_ok_iff _ _).mp hruns
    obtain rfl := Except.ok.inj htext
    rw [flatten_map_singleton]
    exact ⟨points, hparts, rfl⟩
  · rintro ⟨points, hparts, rfl⟩
    refine ⟨_, (mapM_refuse_eq_ok_iff _ _).mpr ⟨points, hparts, rfl⟩, ?_⟩
    rw [flatten_map_singleton]
    rfl

/-- The octets of a text of characters are those of the characters. -/
theorem utf8_ofCodePoints_map (cs : List Char) :
    utf8 (ofCodePoints (cs.map .character)) = cs.flatMap utf8EncodeChar := by
  rw [utf8, codePoints_ofCodePoints, List.flatMap_map]
  rfl

/-- **Octets are read as a text exactly if it is whole and they are what it is written as.** -/
theorem ofUtf8?_eq_some_iff {octets : Octets} {s : String} :
    ofUtf8? octets = some s ↔ IsWhole s ∧ utf8 s = octets := by
  rw [ofUtf8?_eq_some_iff_exists]
  constructor
  · rintro ⟨points, hparts, rfl⟩
    obtain ⟨cs, rfl, rfl⟩ := eq_flatMap_of_utf8Parts hparts
    exact ⟨⟨cs, rfl⟩, utf8_ofCodePoints_map cs⟩
  · rintro ⟨⟨cs, rfl⟩, rfl⟩
    refine ⟨cs.map .character, ?_, rfl⟩
    rw [utf8_ofCodePoints_map, utf8Parts_flatMap, List.map_map]
    rfl

end PeerTrust.Text
