/-
  `Proofs.Configuration.Validation` — where the issues of a document are.

  A document that is refused has an issue, and its issues are at fields, in the order of
  the fields and at most one at each (`Checked.At`). The readers of single fields have
  one issue or none; reading a field puts it below the name of the field, and joining
  the fields of a section joins their places. `Configuration.issues_at` follows field by
  field.
-/
import PeerTrust.Configuration.Validation

namespace PeerTrust

/-! ### Places of issues -/

namespace Checked

variable {α β : Type} {places : List (List String)} {x : Checked α}

/-- **The issues are at the places,** in their order and at most one at each. There is one unless
a value comes out. -/
def At (places : List (List String)) (x : Checked α) : Prop :=
  ∀ issues, x = .error issues → issues ≠ [] ∧ (issues.map Issue.location).Sublist places

theorem at_ok (a : α) : At places (.ok a : Checked α) := by
  intro issues h
  cases h

theorem at_issue (kind : IssueKind) : At [[]] (issue kind : Checked α) := by
  intro issues h
  obtain rfl := Except.error.inj h
  exact ⟨by simp, List.Sublist.refl _⟩

theorem At.bind {f : α → Checked β} (hx : At places x) (hf : ∀ a, At places (f a)) :
    At places (x >>= f) := by
  cases x with
  | ok a => exact hf a
  | error issues =>
    intro found h
    obtain rfl := Except.error.inj h
    exact hx _ rfl

theorem At.mono {more : List (List String)} (h : At places x) (hmore : places.Sublist more) :
    At more x := by
  intro issues hx
  obtain ⟨hsome, hplaces⟩ := h issues hx
  exact ⟨hsome, hplaces.trans hmore⟩

/-- A name in front of the places is in front of those of the issues. -/
theorem At.under (h : At places x) (name : String) :
    At (places.map (name :: ·)) (x.under name) := by
  cases x with
  | ok a => exact at_ok a
  | error issues =>
    intro found hfound
    obtain rfl := Except.error.inj hfound
    obtain ⟨hsome, hplaces⟩ := h issues rfl
    refine ⟨by simpa using hsome, ?_⟩
    have hlocations := hplaces.map (name :: ·)
    rw [List.map_map] at hlocations ⊢
    exact hlocations

/-- The issues of a field are at its places also where they are listed with those of others. -/
theorem At.sublist (h : At places x) : (x.issues.map Issue.location).Sublist places := by
  cases x with
  | ok a => exact List.nil_sublist places
  | error issues => exact (h issues rfl).2

/-- A field without issues has a value. -/
theorem At.exists_ok (h : At places x) (hclean : x.issues = []) : ∃ a, x = .ok a := by
  cases x with
  | ok a => exact ⟨a, rfl⟩
  | error issues => exact absurd hclean (h issues rfl).1

/-- Fields that are read together have a value together unless there is an issue. -/
theorem at_whenClean {issues : List Issue} {value : Option α}
    (hplaces : (issues.map Issue.location).Sublist places) (hvalue : issues = [] → value ≠ none) :
    At places (whenClean issues value) := by
  intro found h
  unfold whenClean at h
  split at h
  · cases h
  · rename_i hunclean
    obtain rfl := Except.error.inj h
    refine ⟨fun hclean => ?_, hplaces⟩
    obtain ⟨a, ha⟩ := Option.ne_none_iff_exists'.mp (hvalue hclean)
    exact hunclean a hclean ha

end Checked

/-! ### Fields -/

namespace Field

open Checked

variable {α : Type} {places : List (List String)}

theorem at_encodable (s : String) : At [[]] (encodable s) := by
  unfold encodable
  split
  · exact at_issue _
  · exact at_ok s

theorem at_boolOfWord (s : String) : At [[]] (boolOfWord s) := by
  unfold boolOfWord
  split
  · exact at_ok _
  · exact at_issue _

theorem at_boolOfWhole (n : Int) : At [[]] (boolOfWhole n) := by
  unfold boolOfWhole
  split
  · exact at_ok _
  split
  · exact at_ok _
  · exact at_issue _

theorem at_readBool (v : Value) : At [[]] (readBool v) := by
  cases v with
  | bool b => exact at_ok b
  | str s => exact (at_encodable s).bind at_boolOfWord
  | armor lead c => exact at_issue _
  | int n =>
    simp only [readBool]
    split
    · exact at_boolOfWhole n
    · exact at_issue _
  | float x =>
    simp only [readBool]
    split
    · split
      · exact at_boolOfWhole _
      · exact at_issue _
    · exact at_issue _
  | bytes content =>
    simp only [readBool]
    split
    · exact at_boolOfWord _
    · exact at_issue _
  | _ => exact at_issue _

theorem at_readText (v : Value) : At [[]] (readText v) := by
  cases v with
  | null => exact at_ok _
  | str s => exact at_ok _
  | bytes content =>
    simp only [readText]
    split
    · exact at_ok _
    · exact at_issue _
  | _ => exact at_issue _

/-- A name that is no choice is an issue of the field itself. -/
theorem at_choose (ofText? : String → Option α) (names : List String) (name? : Option String) :
    At [[]] (match name?.bind ofText? with
      | some a => .ok a
      | none => Checked.issue (.choice names) : Checked α) := by
  split
  · exact at_ok _
  · exact at_issue _

theorem at_readChoice (ofText? : String → Option α) (names : List String) (v : Value) :
    At [[]] (readChoice ofText? names v) := by
  cases v with
  | str s =>
    have hname : At [[]] (some <$> encodable s : Checked (Option String)) := by
      unfold encodable
      split
      · exact at_issue _
      · exact at_ok _
    exact hname.bind (at_choose ofText? names)
  | bytes content => exact at_choose ofText? names ((Content.octets? content).bind Text.ofUtf8?)
  | _ => exact at_choose ofText? names none

/-- **The issues of a field are below its name.** -/
theorem at_read {reader : Value → Checked α} (hreader : ∀ v, At places (reader v))
    (entries : List (Value × Value)) (name : String) (default : α) :
    At (places.map (name :: ·)) (read entries name reader default) := by
  unfold read
  split
  · exact (hreader _).under name
  · exact at_ok default

end Field

/-! ### Sections -/

section Sections

open Checked

/-- The places of the fields of a section. -/
def placesOf (fields : List String) : List (List String) := fields.map fun name => [name]

/-- The fields of a policy. -/
def Policy.fieldNames : List String :=
  ["verify_chain", "verify_root", "check_domain_match", "check_expiry", "accept_self_signed"]

/-- The fields of the settings of a store. -/
def StoreConfig.fieldNames : List String := ["path", "type", "password", "on_load_error"]

theorem Policy.at_ofEntries (entries : List (Value × Value)) :
    At (placesOf fieldNames) (ofEntries entries) := by
  have hflag := fun name default => Field.at_read Field.at_readBool entries name default
  have hchain := hflag "verify_chain" true
  have hroot := hflag "verify_root" true
  have hidentity := hflag "check_domain_match" true
  have hexpiry := hflag "check_expiry" true
  have hselfSigned := hflag "accept_self_signed" false
  refine at_whenClean ?_ fun hclean => ?_
  · -- the places follow each other as the issues of the flags do
    simp only [List.map_append]
    exact (((hchain.sublist.append hroot.sublist).append hidentity.sublist).append
      hexpiry.sublist).append hselfSigned.sublist
  · -- without an issue every flag has a value
    simp only [List.append_eq_nil_iff] at hclean
    obtain ⟨⟨⟨⟨chainClean, rootClean⟩, identityClean⟩, expiryClean⟩, selfSignedClean⟩ := hclean
    obtain ⟨a, ha⟩ := hchain.exists_ok chainClean
    obtain ⟨b, hb⟩ := hroot.exists_ok rootClean
    obtain ⟨c, hc⟩ := hidentity.exists_ok identityClean
    obtain ⟨d, hd⟩ := hexpiry.exists_ok expiryClean
    obtain ⟨e, he⟩ := hselfSigned.exists_ok selfSignedClean
    simp only [ha, hb, hc, hd, he]
    exact nofun

theorem StoreConfig.at_ofEntries (entries : List (Value × Value)) :
    At (placesOf fieldNames) (ofEntries entries) := by
  have hpath := Field.at_read Field.at_readText entries "path" none
  have htype := Field.at_read
    (Field.at_readChoice StoreType.ofText? (StoreType.all.map StoreType.text)) entries "type" .pem
  have hpassword := Field.at_read Field.at_readText entries "password" none
  have honLoadError := Field.at_read
    (Field.at_readChoice OnLoadError.ofText? (OnLoadError.all.map OnLoadError.text)) entries
    "on_load_error" .refuse
  refine at_whenClean ?_ fun hclean => ?_
  · simp only [List.map_append]
    exact ((hpath.sublist.append htype.sublist).append hpassword.sublist).append
      honLoadError.sublist
  · simp only [List.append_eq_nil_iff] at hclean
    obtain ⟨⟨⟨pathClean, typeClean⟩, passwordClean⟩, onLoadErrorClean⟩ := hclean
    obtain ⟨a, ha⟩ := hpath.exists_ok pathClean
    obtain ⟨b, hb⟩ := htype.exists_ok typeClean
    obtain ⟨c, hc⟩ := hpassword.exists_ok passwordClean
    obtain ⟨d, hd⟩ := honLoadError.exists_ok onLoadErrorClean
    rw [ha, hb, hc, hd]
    exact nofun

/-- A section has an issue of its own, or issues at its fields. -/
theorem Policy.at_ofValue (v : Value) : At ([] :: placesOf fieldNames) (ofValue v) := by
  cases v with
  | policy p => exact at_ok p
  | dict entries => exact (at_ofEntries entries).mono (List.sublist_cons_self _ _)
  | _ => exact (at_issue _).mono (List.Sublist.cons_cons _ (List.nil_sublist _))

theorem StoreConfig.at_ofValue (v : Value) : At ([] :: placesOf fieldNames) (ofValue v) := by
  cases v with
  | storeConfig s => exact at_ok s
  | dict entries => exact (at_ofEntries entries).mono (List.sublist_cons_self _ _)
  | _ => exact (at_issue _).mono (List.Sublist.cons_cons _ (List.nil_sublist _))

/-- **The places of a document** at which there can be issues, in their order. -/
def Configuration.places : List (List String) :=
  [["hostname"]] ++ ([] :: placesOf Policy.fieldNames).map ("policy" :: ·) ++
    ([] :: placesOf StoreConfig.fieldNames).map ("truststore" :: ·)

/-- **The issues of a document are at its fields,** in their order and at most one at each, and a
document that has no settings has an issue. -/
theorem Configuration.at_ofEntries (entries : List (Value × Value)) :
    At places (ofEntries entries) := by
  have hhostname := Field.at_read Field.at_readText entries "hostname" none
  have hpolicy := Field.at_read Policy.at_ofValue entries "policy" .standard
  have hstore := Field.at_read StoreConfig.at_ofValue entries "truststore" .standard
  refine at_whenClean ?_ fun hclean => ?_
  · simp only [List.map_append]
    exact (hhostname.sublist.append hpolicy.sublist).append hstore.sublist
  · simp only [List.append_eq_nil_iff] at hclean
    obtain ⟨⟨hostnameClean, policyClean⟩, storeClean⟩ := hclean
    obtain ⟨a, ha⟩ := hhostname.exists_ok hostnameClean
    obtain ⟨b, hb⟩ := hpolicy.exists_ok policyClean
    obtain ⟨c, hc⟩ := hstore.exists_ok storeClean
    rw [ha, hb, hc]
    exact nofun

theorem Configuration.ofDocument_dict (entries : List (Value × Value)) :
    ofDocument (.dict entries) = (ofEntries entries).mapError .invalidConfiguration :=
  rfl

/-- **A document is refused for its issues only,** of which there is one at least. -/
theorem Configuration.exists_issues_of_ofDocument {entries : List (Value × Value)} {f : Failure}
    (h : ofDocument (.dict entries) = .error f) :
    ∃ issues, f = .invalidConfiguration issues ∧ issues ≠ [] ∧
      (issues.map Issue.location).Sublist places := by
  rw [ofDocument_dict] at h
  cases hread : ofEntries entries with
  | ok c =>
    rw [hread] at h
    cases h
  | error issues =>
    rw [hread] at h
    exact ⟨issues, (Except.error.inj h).symm, at_ofEntries entries issues hread⟩

end Sections
end PeerTrust
