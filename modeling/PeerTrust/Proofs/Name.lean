/-
  `Proofs.Name` — which attribute a search of a name finds, and what the text of a
  name starts with.

  The identifier of an attribute's kind is made of digits and dots (`Oid.IsDotted`), so
  no part of it can be taken for words. A search for the words "commonName" in the
  displays of identifiers therefore finds the first common name (`commonName?_eq`).

  A name is read unless one of its attributes has a defect. A name that is read has octets in
  no attribute but unique identifiers, so its common names are texts
  (`commonName?_ne_octets`).

  The text of a name starts with the label of one of its attributes and an equals sign,
  unless it is empty or starts with a comma (`exists_toList_render`). A label is one of
  nine short names, or a dotted identifier. So what a text can start with is a question
  about labels (`not_prefix_render`).
-/
import Mathlib.Data.List.Find
import PeerTrust.Failure
import PeerTrust.Proofs.Text.Search

namespace PeerTrust

/-! ### Identifiers -/

namespace Oid

variable {oid : String}

/-- **The identifier is in dotted form,** as every object identifier is: it is made of digits
and dots. -/
def IsDotted (oid : String) : Prop := ∀ c ∈ oid.toList, c.isDigit = true ∨ c = '.'

instance : DecidablePred IsDotted := fun oid => List.decidableBAll _ oid.toList

/-- A character that is no digit and no dot is not in an identifier. -/
theorem IsDotted.not_mem {c : Char} (h : IsDotted oid) (hdigit : c.isDigit = false)
    (hdot : c ≠ '.') : c ∉ oid.toList := by
  intro hc
  rcases h c hc with hd | rfl
  · rw [hdigit] at hd
    cases hd
  · exact hdot rfl

/-- The name that a display shows. -/
theorem infix_registered_iff :
    "commonName".toList <:+: ((registered.lookup oid).getD "Unknown OID").toList ↔
      oid = commonName := by
  have hregistered : ∀ p ∈ registered,
      Text.hasRun "commonName".toList p.2.toList = true → p.1 = commonName := by decide
  rw [← Text.hasRun_iff]
  constructor
  · intro h
    cases hlookup : registered.lookup oid with
    | none =>
      rw [hlookup] at h
      exact absurd h (by decide)
    | some name =>
      obtain ⟨before, after, hsplit, -⟩ := List.lookup_eq_some_iff.mp hlookup
      have hmem : (oid, name) ∈ registered := by
        rw [hsplit]
        exact List.mem_append_right before List.mem_cons_self
      rw [hlookup] at h
      exact hregistered (oid, name) hmem h
  · rintro rfl
    decide

/-- **The display of a dotted identifier has the words "commonName"** exactly if it is the one of
common names. The words have no equals sign, comma or bracket, so they stand between two of
those, and in the identifier itself there is not even their first letter. -/
theorem hasRun_display_iff (h : IsDotted oid) :
    Text.hasRun "commonName".toList (display oid).toList = true ↔ oid = commonName := by
  obtain ⟨name, hname⟩ : ∃ name, (registered.lookup oid).getD "Unknown OID" = name := ⟨_, rfl⟩
  have hdisplay : (display oid).toList = "<ObjectIdentifier(oid".toList ++ '=' ::
      (oid.toList ++ ',' :: (" name".toList ++ '=' :: (name.toList ++ ')' :: ['>']))) := by
    show ("<ObjectIdentifier(oid=" ++ oid ++ ", name=" ++
      (registered.lookup oid).getD "Unknown OID" ++ ")>").toList = _
    rw [hname]
    simp
  have hequals : '=' ∉ "commonName".toList := by decide
  have hcomma : ',' ∉ "commonName".toList := by decide
  have hbracket : ')' ∉ "commonName".toList := by decide
  have hhead : ¬"commonName".toList <:+: "<ObjectIdentifier(oid".toList := by
    rw [← Text.hasRun_iff]
    decide
  have hmiddle : ¬"commonName".toList <:+: " name".toList := by
    rw [← Text.hasRun_iff]
    decide
  have hlast : ¬"commonName".toList <:+: ['>'] := by
    rw [← Text.hasRun_iff]
    decide
  have hoid : ¬"commonName".toList <:+: oid.toList := by
    intro hinfix
    have hletter : 'c' ∈ oid.toList := hinfix.subset (by decide)
    exact h.not_mem (by decide) (by decide) hletter
  rw [Text.hasRun_iff, hdisplay, Text.infix_append_cons_iff hequals,
    Text.infix_append_cons_iff hcomma, Text.infix_append_cons_iff hequals,
    Text.infix_append_cons_iff hbracket, ← infix_registered_iff, hname]
  simp only [hhead, hoid, hmiddle, hlast, false_or, or_false]

end Oid

/-! ### The first common name -/

namespace Name

variable {n : Name}

/-- The identifiers of all attributes are in dotted form. -/
def IsDotted (n : Name) : Prop := ∀ a ∈ n.attributes, Oid.IsDotted a.oid

instance : DecidablePred IsDotted := fun n => List.decidableBAll _ n.attributes

/-- **The value of the first common name,** found by its identifier. -/
def firstCommonName? (n : Name) : Option AttributeValue :=
  (n.attributes.find? fun a => a.oid == Oid.commonName).map (·.value)

/-- **The search by displays finds the first common name.** -/
theorem commonName?_eq (h : n.IsDotted) : n.commonName? = n.firstCommonName? := by
  rw [commonName?, find?, firstCommonName?]
  refine congrArg (Option.map Attribute.value) (List.find?_congr fun a ha => ?_)
  rw [Bool.eq_iff_iff, Oid.hasRun_display_iff (h a ha), beq_iff_eq]

theorem firstCommonName?_eq_none_iff :
    n.firstCommonName? = none ↔ ∀ a ∈ n.attributes, a.oid ≠ Oid.commonName := by
  simp [firstCommonName?, List.find?_eq_none]

end Name

/-! ### Reading names -/

namespace Name

variable {n m : Name} {defect : NameDefect} {f : Failure}

@[simp] theorem read_of_legible (h : n.defect? = none) : n.read = .ok n := by rw [read, h]

@[simp] theorem read_of_defect (h : n.defect? = some defect) :
    n.read = .error (.illegibleName defect) := by
  rw [read, h]

/-- **A name is read as it is,** if no attribute has a defect. -/
theorem read_eq_ok_iff : n.read = .ok m ↔ n.defect? = none ∧ m = n := by
  cases h : n.defect? with
  | none => simp [h, eq_comm]
  | some defect => simp [h]

theorem read_eq_error_iff :
    n.read = .error f ↔ ∃ defect, n.defect? = some defect ∧ f = .illegibleName defect := by
  cases h : n.defect? with
  | none => simp [h]
  | some defect => simp [h, eq_comm]

/-- Every attribute of a name that can be read can be read. -/
theorem defect?_of_mem_attributes (h : n.defect? = none) {a : Attribute} (ha : a ∈ n.attributes) :
    a.defect? = none :=
  List.findSome?_eq_none_iff.mp h a ha

/-- **The common name of a name that can be read is a text.** Octets are left in unique
identifiers only, and their display does not show the words. -/
theorem commonName?_ne_octets (h : n.defect? = none) (o : Octets) :
    n.commonName? ≠ some (.octets o) := by
  intro hname
  have hsilent : Text.hasRun "commonName".toList
      (Oid.display Oid.uniqueIdentifier).toList = false := by decide +kernel
  obtain ⟨a, hfound, hvalue⟩ := Option.map_eq_some_iff.mp hname
  have hshows := List.find?_some hfound
  have hfine := n.defect?_of_mem_attributes h (List.mem_of_find?_eq_some hfound)
  obtain ⟨oid, value, stringType⟩ := a
  obtain rfl : value = .octets o := hvalue
  cases stringType with
  | bits =>
    by_cases hoid : oid = Oid.uniqueIdentifier
    · subst hoid
      rw [hsilent] at hshows
      cases hshows
    · simp [Attribute.defect?, hoid] at hfine
  | _ => cases hfine

end Name

/-! ### Labels -/

/-- What the text of an attribute shows of its kind: a short name, or the identifier. -/
def Attribute.label (a : Attribute) : String := (Oid.shortNames.lookup a.oid).getD a.oid

theorem Attribute.toList_render (a : Attribute) :
    a.render.toList = a.label.toList ++ '=' :: a.value.render.toList := by
  rw [render, label, String.toList_append, String.toList_append, List.append_assoc]
  rfl

/-- **A label is a short name of the attribute's kind, or a dotted identifier.** -/
theorem Attribute.label_cases (a : Attribute) :
    (a.oid, a.label) ∈ Oid.shortNames ∨ a.label = a.oid := by
  rw [label]
  cases hlookup : Oid.shortNames.lookup a.oid with
  | none => exact Or.inr rfl
  | some name =>
    obtain ⟨before, after, hsplit, -⟩ := List.lookup_eq_some_iff.mp hlookup
    rw [hsplit]
    exact Or.inl (List.mem_append_right before List.mem_cons_self)

/-- **A text that starts with a letter or a sign of its own is no start of a dotted identifier
with an equals sign behind it.** -/
theorem Oid.IsDotted.not_start {oid : String} {c : Char} {lead rest : List Char}
    (h : IsDotted oid) (hdigit : c.isDigit = false) (hdot : c ≠ '.') (hequals : c ≠ '=') :
    ¬c :: lead <+: oid.toList ++ '=' :: rest := by
  intro hprefix
  cases hoid : oid.toList with
  | nil =>
    rw [hoid, List.nil_append, List.cons_prefix_cons] at hprefix
    exact hequals hprefix.1
  | cons d tail =>
    rw [hoid, List.cons_append, List.cons_prefix_cons] at hprefix
    refine h.not_mem hdigit hdot ?_
    rw [hoid, hprefix.1]
    exact List.mem_cons_self

/-! ### Texts -/

/-- What parts with a separator between them start with: the first part, and the separator
behind it unless that is all. -/
theorem exists_toList_intercalate (sep first : String) (rest : List String) :
    ∃ tail, (sep.intercalate (first :: rest)).toList = first.toList ++ tail ∧
      (tail = [] ∨ sep.toList <+: tail) := by
  cases rest with
  | nil => exact ⟨[], by rw [String.intercalate_singleton, List.append_nil], Or.inl rfl⟩
  | cons second rest =>
    refine ⟨sep.toList ++ (sep.intercalate (second :: rest)).toList, ?_,
      Or.inr (List.prefix_append _ _)⟩
    rw [String.intercalate_cons_cons, String.toList_append, String.toList_append,
      List.append_assoc]

/-- The text of a relative name is empty, or it starts with the text of an attribute. -/
theorem RelativeName.exists_toList_render (r : RelativeName) :
    r.render.toList = [] ∨ ∃ a ∈ r, ∃ tail, r.render.toList = a.render.toList ++ tail := by
  rw [render]
  cases r with
  | nil => exact Or.inl rfl
  | cons a rest =>
    obtain ⟨tail, htail, -⟩ := exists_toList_intercalate "+" a.render (rest.map Attribute.render)
    exact Or.inr ⟨a, List.mem_cons_self, tail, htail⟩

namespace Name

variable {n : Name}

/-- **What the text of a name starts with:** the label of an attribute and an equals sign, unless
it is empty or starts with a comma. -/
theorem exists_toList_render (n : Name) :
    n.render.toList = [] ∨ (∃ tail, n.render.toList = ',' :: tail) ∨
      ∃ a ∈ n.attributes, ∃ rest, n.render.toList = a.label.toList ++ '=' :: rest := by
  rw [render]
  cases hrelatives : n.relatives.reverse with
  | nil => exact Or.inl rfl
  | cons last others =>
    have hlast : last ∈ n.relatives := by
      rw [← List.mem_reverse, hrelatives]
      exact List.mem_cons_self
    obtain ⟨tail, htail, hcomma⟩ :=
      exists_toList_intercalate "," last.render (others.map RelativeName.render)
    rw [List.map_cons, htail]
    rcases last.exists_toList_render with hempty | ⟨a, ha, more, hmore⟩
    · rw [hempty, List.nil_append]
      rcases hcomma with rfl | ⟨rest, rfl⟩
      · exact Or.inl rfl
      · exact Or.inr (Or.inl ⟨rest, rfl⟩)
    · refine Or.inr (Or.inr ⟨a, List.mem_flatten.mpr ⟨last, hlast, ha⟩,
        a.value.render.toList ++ more ++ tail, ?_⟩)
      rw [hmore, a.toList_render]
      simp only [List.append_assoc, List.cons_append]

/-- **The text of a name does not start with what none of its labels start with.** -/
theorem not_prefix_render {c : Char} {lead : List Char} (hcomma : c ≠ ',')
    (h : ∀ a ∈ n.attributes, ∀ rest, ¬c :: lead <+: a.label.toList ++ '=' :: rest) :
    ¬c :: lead <+: n.render.toList := by
  rcases n.exists_toList_render with hempty | ⟨tail, htail⟩ | ⟨a, ha, rest, hrest⟩
  · rw [hempty, List.prefix_nil]
    exact List.cons_ne_nil c lead
  · rw [htail, List.cons_prefix_cons]
    exact fun hprefix => hcomma hprefix.1
  · rw [hrest]
    exact h a ha rest

/-- **Without a common name the text of a name does not start like one.** -/
theorem not_commonName_prefix_render (hdotted : n.IsDotted)
    (hunnamed : ∀ a ∈ n.attributes, a.oid ≠ Oid.commonName) :
    ¬"CN=".toList <+: n.render.toList := by
  have hshort : ∀ p ∈ Oid.shortNames, p.1 ≠ Oid.commonName → ∀ rest : List Char,
      ¬"CN=".toList <+: p.2.toList ++ '=' :: rest := by
    simp [Oid.shortNames]
  refine not_prefix_render (by decide) fun a ha rest => ?_
  rcases a.label_cases with hmem | hlabel
  · exact hshort _ hmem (hunnamed a ha) rest
  · rw [hlabel]
    exact (hdotted a ha).not_start (by decide) (by decide) (by decide)

/-- **The text of a name is no wildcard.** -/
theorem not_wildcard_prefix_render (hdotted : n.IsDotted) :
    ¬"*.".toList <+: n.render.toList := by
  have hshort : ∀ p ∈ Oid.shortNames, ∀ rest : List Char,
      ¬"*.".toList <+: p.2.toList ++ '=' :: rest := by
    simp [Oid.shortNames]
  refine not_prefix_render (by decide) fun a ha rest => ?_
  rcases a.label_cases with hmem | hlabel
  · exact hshort _ hmem rest
  · rw [hlabel]
    exact (hdotted a ha).not_start (by decide) (by decide) (by decide)

end Name
end PeerTrust
