/-
  `Proofs.Presentation` — one certificate, whatever form it comes in.

  Every form of a certificate presents that certificate, with one exception: the
  encoding of a certificate whose own octets hold the first line of a certificate's
  block is taken for armor. `presented_forms` says that this exception is the only
  one, and what it means for chains and root sets; the author of a certificate can
  bring it about by a name (`bearsMark_of_mem_attributes`).
-/
import Mathlib.Data.List.Forall2
import PeerTrust.Chain
import PeerTrust.Proofs.Armor.Bundle
import PeerTrust.Proofs.Evaluator.Request

namespace PeerTrust

/-! ### Encodings that hold the mark -/

/-- **The encoding of the certificate bears the mark:** the first line of a certificate's
block stands among the octets that the certificate determines. -/
def Certificate.BearsMark (c : Certificate) : Prop :=
  (Text.utf8 Armor.certificateMark).map some <:+: c.outline

instance (c : Certificate) : Decidable c.BearsMark :=
  inferInstanceAs (Decidable (_ <:+: _))

namespace Outline

theorem infix_element (tag : UInt8) (content : Outline) : content <:+: element tag content :=
  (List.suffix_append _ content).isInfix

theorem infix_sequenceOf {part : Outline} {parts : List Outline} (h : part ∈ parts) :
    part <:+: sequenceOf parts :=
  (List.infix_of_mem_flatten h).trans (infix_element _ _)

end Outline

open Outline

theorem Attribute.infix_outline (a : Attribute) : known a.octets <:+: a.outline :=
  (infix_element a.stringType.tag _).trans
    (infix_sequenceOf (List.mem_cons_of_mem _ List.mem_cons_self))

theorem Name.infix_outline {n : Name} {a : Attribute} (h : a ∈ n.attributes) :
    a.outline <:+: n.outline := by
  obtain ⟨relative, hrelative, ha⟩ := List.mem_flatten.mp h
  have hset : a.outline <:+: element 0x31 (relative.flatMap Attribute.outline) :=
    (List.infix_of_mem_flatten (List.mem_map_of_mem ha)).trans (infix_element _ _)
  exact hset.trans (infix_sequenceOf (List.mem_map_of_mem hrelative))

namespace Certificate

theorem infix_outline_of_name {c : Certificate} {n : Name} (h : n = c.subject ∨ n = c.issuer) :
    n.outline <:+: c.outline := by
  unfold outline
  refine List.IsInfix.trans ?_ (infix_sequenceOf List.mem_cons_self)
  refine infix_sequenceOf (List.mem_append_left _ ?_)
  rcases h with rfl | rfl <;> simp

/-- **The author of a certificate can make it bear the mark,** by an attribute of a name. -/
theorem bearsMark_of_mem_attributes {c : Certificate} {a : Attribute}
    (ha : a ∈ c.subject.attributes ++ c.issuer.attributes)
    (hmark : Text.utf8 Armor.certificateMark <:+: a.octets) : c.BearsMark := by
  have hname : a.outline <:+: c.outline := by
    rcases List.mem_append.mp ha with ha | ha
    · exact (Name.infix_outline ha).trans (infix_outline_of_name (.inl rfl))
    · exact (Name.infix_outline ha).trans (infix_outline_of_name (.inr rfl))
  exact (hmark.map some).trans (a.infix_outline.trans hname)

end Certificate

namespace Content

theorem ofGap_injective : Function.Injective Symbol.ofGap := by
  intro a b h
  cases a <;> cases b <;> simp_all [Symbol.ofGap]

theorem infix_map_iff {α β : Type} {f : α → β} (hf : Function.Injective f) {xs ys : List α} :
    xs.map f <:+: ys.map f ↔ xs <:+: ys := by
  refine ⟨?_, fun h => h.map f⟩
  rintro ⟨before, after, h⟩
  obtain ⟨front, back, rfl, hfront, rfl⟩ := List.map_eq_append_iff.mp h.symm
  obtain ⟨start, middle, rfl, rfl, hmiddle⟩ := List.map_eq_append_iff.mp hfront
  obtain rfl := List.map_injective_iff.mpr hf hmiddle
  exact ⟨start, back, rfl⟩

/-- **An encoding is taken for armor exactly if it bears the mark.** -/
theorem holdsArmorMark_der_iff (c : Certificate) :
    holdsArmorMark [.der c] = true ↔ c.BearsMark := by
  have hexpand : expand [.der c] = c.outline.map Symbol.ofGap := List.append_nil _
  have hmark : Armor.mark Armor.certificateMark =
      ((Text.utf8 Armor.certificateMark).map some).map Symbol.ofGap := by
    rw [List.map_map]
    rfl
  rw [holdsArmorMark, Text.hasRun_iff, hexpand, hmark, infix_map_iff ofGap_injective]
  exact Iff.rfl

/-- **An encoding presents its certificate,** unless it bears the mark; then it presents none. -/
theorem certificate_der_eq_ok_iff (c d : Certificate) :
    certificate [.der c] = .ok d ↔ ¬c.BearsMark ∧ d = c := by
  rw [certificate, presented?]
  by_cases hmark : c.BearsMark
  · rw [if_pos ((holdsArmorMark_der_iff c).mpr hmark)]
    simp only [hmark, not_true_eq_false, false_and, iff_false]
    intro hd
    -- what is read would stand in letters, and there are none
    cases hbody : (Armor.certificateBodies? [.der c]).bind List.head? with
    | none =>
      rw [hbody] at hd
      cases hd
    | some body =>
      rw [hbody] at hd
      obtain ⟨bodies, hbodies, hhead⟩ := Option.bind_eq_some_iff.mp hbody
      obtain rfl := eq_of_encodedCertificate hd
      have hletters := Armor.armored_mem_of_certificateBodies? hbodies (List.mem_of_head? hhead)
      cases List.mem_singleton.mp hletters
  · rw [if_neg (mt (holdsArmorMark_der_iff c).mp hmark)]
    simp [hmark, encodedCertificate, eq_comm]

end Content

/-! ### Forms -/

/-- **The value is misread:** it is the encoding of a certificate that bears the mark. -/
def Value.Misread (v : Value) : Prop := ∃ c : Certificate, v = .bytes [.der c] ∧ c.BearsMark

namespace Value

variable {v : Value} {c : Certificate}

/-- A certificate as the result of reading a text or octets. -/
theorem certificateOfText_eq_ok_iff {isAscii : Bool} {content : Content} :
    certificateOfText isAscii content = .ok c ↔ isAscii = true ∧ content.certificate = .ok c := by
  rw [certificateOfText]
  cases isAscii with
  | false => simp
  | true => simp [mapError_eq_ok_iff]

theorem presentedCertificate_armor (c : Certificate) :
    (Value.armor "" c).presentedCertificate = .ok c := by
  have hread : (Value.armor "" c).presentedCertificate =
      certificateOfText (Text.isAscii "") (Content.ofText "" ++ Armor.write c) := rfl
  have hlead : Content.ofText "" = [] := by decide +kernel
  rw [hread, hlead, List.nil_append]
  exact certificateOfText_eq_ok_iff.mpr ⟨by decide, Armor.certificate_write c⟩

theorem presentedCertificate_write (c : Certificate) :
    (Value.bytes (Armor.write c)).presentedCertificate = .ok c :=
  certificateOfText_eq_ok_iff.mpr ⟨rfl, Armor.certificate_write c⟩

theorem presentedCertificate_der_iff (c : Certificate) :
    (Value.bytes [.der c]).presentedCertificate = .ok c ↔ ¬c.BearsMark := by
  have hread : (Value.bytes [.der c]).presentedCertificate =
      certificateOfText true [.der c] := rfl
  simp [hread, certificateOfText_eq_ok_iff, Content.certificate_der_eq_ok_iff]

theorem misread_der_iff (c : Certificate) : (Value.bytes [.der c]).Misread ↔ c.BearsMark := by
  constructor
  · rintro ⟨d, hd, hmark⟩
    obtain rfl : c = d := by simpa using hd
    exact hmark
  · exact fun hmark => ⟨c, rfl, hmark⟩

/-- **Each form presents its certificate,** unless it is misread. -/
theorem presentedCertificate_eq_ok_iff (hv : v ∈ c.forms) :
    v.presentedCertificate = .ok c ↔ ¬v.Misread := by
  have hsound : ∀ {w : Value}, w.presentedCertificate = .ok c → (∀ d, w ≠ .bytes [.der d]) →
      (w.presentedCertificate = .ok c ↔ ¬w.Misread) := by
    intro w hw hother
    refine iff_of_true hw ?_
    rintro ⟨d, hd, -⟩
    exact hother d hd
  simp only [Certificate.forms, List.mem_cons, List.not_mem_nil, or_false] at hv
  rcases hv with rfl | rfl | rfl | rfl | rfl | rfl
  · exact hsound rfl fun d hd => Value.noConfusion hd
  · exact hsound rfl fun d hd => Value.noConfusion hd
  · exact hsound rfl fun d hd => Value.noConfusion hd
  · rw [presentedCertificate_der_iff, misread_der_iff]
  · refine hsound (presentedCertificate_write c) fun d hd => ?_
    have hletters := Armor.armored_mem_write c
    rw [Value.bytes.inj hd] at hletters
    cases List.mem_singleton.mp hletters
  · exact hsound (presentedCertificate_armor c) fun d hd => Value.noConfusion hd

/-- Values present a list of certificates exactly if they do one by one. -/
theorem mapM_presentedCertificate_eq_ok_iff {values : List Value} {cs : List Certificate} :
    values.mapM presentedCertificate = .ok cs ↔
      List.Forall₂ (fun v c => v.presentedCertificate = .ok c) values cs := by
  induction values generalizing cs with
  | nil => cases cs <;> simp [pure, Except.pure]
  | cons v rest ih =>
    rw [List.mapM_cons]
    cases hv : v.presentedCertificate with
    | error f => cases cs <;> simp [bind, Except.bind, hv]
    | ok c =>
      cases hrest : rest.mapM presentedCertificate with
      | error f => cases cs <;> simp [bind, Except.bind, hv, ← ih, hrest]
      | ok others => cases cs <;> simp [bind, Except.bind, pure, Except.pure, hv, ← ih, hrest]

theorem presentedChain_eq_ok_iff {values : List Value} {chain : Chain}
    (hv : v = .list values ∨ v = .tuple values) :
    v.presentedChain = .ok chain ↔ values.mapM presentedCertificate = .ok chain.toList := by
  have hlist : v.presentedChain = (Value.list values).presentedChain := by
    rcases hv with rfl | rfl <;> rfl
  rw [hlist, presentedChain]
  obtain ⟨leaf, issuers⟩ := chain
  cases hcs : values.mapM presentedCertificate with
  | error f => simp [bind, Except.bind, hcs]
  | ok cs =>
    cases cs with
    | nil => simp [bind, Except.bind, hcs, Chain.ofList?, Chain.toList]
    | cons c rest => simp [bind, Except.bind, hcs, Chain.ofList?, Chain.toList, pure, Except.pure]

/-- **Forms of certificates present them all,** unless one is misread. -/
theorem forall₂_presented_iff {values : List Value} {cs : List Certificate}
    (h : List.Forall₂ (fun v c => v ∈ c.forms) values cs) :
    List.Forall₂ (fun v c => v.presentedCertificate = .ok c) values cs ↔
      ∀ v ∈ values, ¬v.Misread := by
  induction h with
  | nil => simp
  | cons hv _ ih =>
    rw [List.forall₂_cons, List.forall_mem_cons, presentedCertificate_eq_ok_iff hv, ih]

end Value

/-- **A value that presents a certificate is a member** if the certificate is one of the roots. -/
theorem RootSet.containsValue_of_presented {roots : RootSet} {v : Value} {c : Certificate}
    (h : v.presentedCertificate = .ok c) :
    roots.containsValue v = .ok (decide (c ∈ roots.anchors)) := by
  rw [containsValue, h]
  exact congrArg Except.ok (List.contains_eq_mem _ _)

/-- **One certificate, one identity, in every form but one.** Each form of a certificate
presents it unless it is misread, which only the encoding can be, and then a root set has
it as a member exactly if it has the certificate. A mix of forms is the chain of their
certificates exactly if none of them is misread. The author of a certificate can have its
encoding misread by an attribute of a name. -/
theorem presented_forms (c : Certificate) (roots : RootSet) {chain : Chain} {values : List Value}
    (hforms : List.Forall₂ (fun v c => v ∈ c.forms) values chain.toList) :
    (∀ v ∈ c.forms, (v.presentedCertificate = .ok c ↔ ¬v.Misread) ∧
      (¬v.Misread → roots.containsValue v = .ok (decide (c ∈ roots.anchors)))) ∧
    (∀ v : Value, v = .list values ∨ v = .tuple values →
      (v.presentedChain = .ok chain ↔ ∀ w ∈ values, ¬w.Misread)) ∧
    (∀ a ∈ c.subject.attributes ++ c.issuer.attributes,
      Text.utf8 Armor.certificateMark <:+: a.octets → (Value.bytes [.der c]).Misread) := by
  refine ⟨fun v hv => ?_, fun v hv => ?_, fun a ha hmark => ?_⟩
  · have hpresents := Value.presentedCertificate_eq_ok_iff hv
    exact ⟨hpresents, fun hread => RootSet.containsValue_of_presented (hpresents.mpr hread)⟩
  · rw [Value.presentedChain_eq_ok_iff hv, Value.mapM_presentedCertificate_eq_ok_iff,
      Value.forall₂_presented_iff hforms]
  · exact (Value.misread_der_iff c).mpr (Certificate.bearsMark_of_mem_attributes ha hmark)

/-- A certificate with the mark for its common name is presented by its armor, also in a
chain, and its encoding is misread. -/
theorem presented_forms_of_marked_name :
    let marked := Sample.certificate "-----BEGIN CERTIFICATE-----" "Root" "leaf" "root"
    let chain : Chain := ⟨Sample.leaf, [marked]⟩
    let armored := [.bytes [.der Sample.leaf], .armor "" marked]
    let encoded := [.bytes [.der Sample.leaf], .bytes [.der marked]]
    List.Forall₂ (fun v c => v ∈ Certificate.forms c) armored chain.toList ∧
      List.Forall₂ (fun v c => v ∈ Certificate.forms c) encoded chain.toList ∧
      (Value.list armored).presentedChain = .ok chain ∧
      (Value.list encoded).presentedChain ≠ .ok chain ∧
      (Value.bytes [.der marked]).Misread ∧
      (Value.bytes [.der marked]).presentedCertificate ≠ .ok marked := by
  intro marked chain armored encoded
  have hleaf : Value.bytes [.der Sample.leaf] ∈ Sample.leaf.forms := by simp [Certificate.forms]
  have harmor : Value.armor "" marked ∈ marked.forms := by simp [Certificate.forms]
  have hder : Value.bytes [.der marked] ∈ marked.forms := by simp [Certificate.forms]
  have harmored : List.Forall₂ (fun v c => v ∈ Certificate.forms c) armored chain.toList :=
    .cons hleaf (.cons harmor .nil)
  have hencoded : List.Forall₂ (fun v c => v ∈ Certificate.forms c) encoded chain.toList :=
    .cons hleaf (.cons hder .nil)
  obtain ⟨-, hread, -⟩ := presented_forms marked Sample.roots harmored
  obtain ⟨hforms, hrefused, hnames⟩ := presented_forms marked Sample.roots hencoded
  have hmisread : (Value.bytes [.der marked]).Misread :=
    hnames ⟨Oid.commonName, .text "-----BEGIN CERTIFICATE-----", .utf8⟩ (by decide)
      (List.infix_refl _)
  have hclear : ¬(Value.bytes [.der Sample.leaf]).Misread := by
    rw [Value.misread_der_iff]
    decide +kernel
  have hletters : ¬(Value.armor "" marked).Misread := by
    rintro ⟨d, hd, -⟩
    cases hd
  refine ⟨harmored, hencoded, (hread _ (.inl rfl)).mpr ?_, fun hok => ?_, hmisread, ?_⟩
  · exact List.forall_mem_cons.mpr ⟨hclear, List.forall_mem_singleton.mpr hletters⟩
  · exact (hrefused _ (.inl rfl)).mp hok _ (List.mem_cons_of_mem _ List.mem_cons_self) hmisread
  · exact mt (hforms _ hder).1.mp (not_not_intro hmisread)

end PeerTrust
