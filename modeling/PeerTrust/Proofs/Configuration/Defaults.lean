/-
  `Proofs.Configuration.Defaults` — the defaults are written twice, and agree.

  The lowest layer has a value for every field, and each field has a default of its own
  for documents that do not mention it. `read_overlayEntries` is the law of one field:
  its reader takes the value of the lowest layer for the default, so a document reads
  the same with the layer below it and without. Sections follow field by field, and
  `combine_agrees` assembles them: a document on top of the defaults means what it
  means alone, with the same settings or the same issues in the same order.
-/
import PeerTrust.Evaluator.Provision
import PeerTrust.Proofs.Configuration.Layers
import PeerTrust.Proofs.Configuration.Validation
import PeerTrust.Proofs.Yaml.Content

namespace PeerTrust

open Value

/-! ### Single fields -/

namespace Field

variable {α : Type} {base top : List (Value × Value)} {name : String} {v : Value}
  {reader : Value → Checked α} {default : α}

/-- **A field reads the same on top of its default.** The lower layer has a value for the field
that its reader takes for the default, and laying the value of the upper layer on it changes
nothing for the reader. -/
theorem read_overlayEntries (hbelow : lookup (.str name) base = some v)
    (hdefault : reader v = .ok default) (honce : Once (.str name) top)
    (hreads : ∀ t, lookup (.str name) top = some t → reader (overlay v t) = reader t) :
    read (overlayEntries base top) name reader default = read top name reader default := by
  unfold read
  rw [lookup_overlayEntries honce, hbelow]
  cases htop : lookup (.str name) top with
  | none =>
    -- the value of the lower layer is read, and it is the default
    simp only [hdefault]
    rfl
  | some t => simp only [overlaid, hreads t htop]

/-- A field whose default is no dictionary is replaced as a whole. -/
theorem read_overlayEntries_of_scalar (hbelow : lookup (.str name) base = some v)
    (hdefault : reader v = .ok default) (honce : Once (.str name) top)
    (hscalar : ∀ entries, v ≠ .dict entries) :
    read (overlayEntries base top) name reader default = read top name reader default :=
  read_overlayEntries hbelow hdefault honce fun t _ => by rw [overlay_eq_top hscalar]

end Field

/-! ### Sections -/

namespace Layers

/-- The defaults of a policy in the lowest layer. -/
def policyDefaults : List (Value × Value) := [
  (.str "verify_chain", .bool true), (.str "verify_root", .bool true),
  (.str "check_domain_match", .bool true), (.str "check_expiry", .bool true),
  (.str "accept_self_signed", .bool false)]

/-- The defaults of a store in the lowest layer. -/
def storeDefaults : List (Value × Value) := [
  (.str "path", .null), (.str "type", .str "PEM"), (.str "password", .null),
  (.str "on_load_error", .str "raise")]

/-- The entries of the lowest layer. -/
def defaultEntries : List (Value × Value) := [
  (.str "hostname", .null), (.str "policy", .dict policyDefaults),
  (.str "truststore", .dict storeDefaults)]

theorem defaults_eq : defaults = .dict defaultEntries := rfl

variable {copies : Value → Bool} {top : List (Value × Value)}

/-- A policy on top of the defaults is the policy. -/
theorem policy_ofEntries_overlay (honce : (keyTexts top).Nodup) :
    Policy.ofEntries (overlayEntries policyDefaults top) = Policy.ofEntries top := by
  have hflag : ∀ name b, lookup (.str name) policyDefaults = some (.bool b) →
      Field.read (overlayEntries policyDefaults top) name Field.readBool b =
        Field.read top name Field.readBool b := fun name b hbelow =>
    Field.read_overlayEntries_of_scalar hbelow rfl (forall_once_str_iff.mpr honce name) nofun
  simp only [Policy.ofEntries, hflag "verify_chain" true rfl, hflag "verify_root" true rfl,
    hflag "check_domain_match" true rfl, hflag "check_expiry" true rfl,
    hflag "accept_self_signed" false rfl]

/-- The settings of a store on top of the defaults are the settings. -/
theorem store_ofEntries_overlay (honce : (keyTexts top).Nodup) :
    StoreConfig.ofEntries (overlayEntries storeDefaults top) = StoreConfig.ofEntries top := by
  have hfield : ∀ {α : Type} name v (reader : Value → Checked α) default,
      lookup (.str name) storeDefaults = some v → reader v = .ok default →
      (∀ entries, v ≠ .dict entries) →
      Field.read (overlayEntries storeDefaults top) name reader default =
        Field.read top name reader default := fun name v reader default hbelow hdefault hscalar =>
    Field.read_overlayEntries_of_scalar hbelow hdefault (forall_once_str_iff.mpr honce name) hscalar
  have hpath := hfield "path" .null Field.readText none rfl rfl nofun
  have htype := hfield "type" (.str "PEM")
    (Field.readChoice StoreType.ofText? (StoreType.all.map StoreType.text)) .pem rfl rfl nofun
  have hpassword := hfield "password" .null Field.readText none rfl rfl nofun
  have honLoadError := hfield "on_load_error" (.str "raise")
    (Field.readChoice OnLoadError.ofText? (OnLoadError.all.map OnLoadError.text)) .refuse rfl rfl
    nofun
  simp only [StoreConfig.ofEntries, hpath, htype, hpassword, honLoadError]

/-- **The document is one of settings:** it is a dictionary that is equal to its copy, and no text
is a key of it or of one of its sections twice. -/
structure IsDocument (copies : Value → Bool) (entries : List (Value × Value)) : Prop where
  selfCopy : IsSelfCopy copies (.dict entries)
  once : (keyTexts entries).Nodup
  sections_once : ∀ e ∈ entries, ∀ inner, e.2 = .dict inner → (keyTexts inner).Nodup

/-- What a document holds is one of settings if it is a dictionary. -/
theorem isDocument_of_isContent (h : (Value.dict top).IsContent) : IsDocument copies top := by
  have hnodup : ∀ {entries}, (Value.dict entries).IsContent → (keyTexts entries).Nodup := by
    intro entries hentries
    cases hentries with
    | scalar plain => cases plain
    | dict once keys each => exact forall_once_str_iff.mp fun s => once (.str s)
  refine ⟨h.isSelfCopy, hnodup h, fun e he inner hinner => ?_⟩
  cases h with
  | scalar plain => cases plain
  | dict once keys each => exact hnodup (hinner ▸ each e he)

/-- **Every text that reads as a dictionary is a document of settings.** -/
theorem isDocument_of_read {text : String} (h : Yaml.read text = .ok (.dict top)) :
    IsDocument copies top :=
  isDocument_of_isContent (Yaml.isContent_of_read h)

theorem policy_ofValue_overlay {v : Value} (h : ∀ inner, v = .dict inner → (keyTexts inner).Nodup) :
    Policy.ofValue (overlay (.dict policyDefaults) v) = Policy.ofValue v := by
  cases v with
  | dict inner => exact policy_ofEntries_overlay (h inner rfl)
  | _ => rfl

theorem store_ofValue_overlay {v : Value} (h : ∀ inner, v = .dict inner → (keyTexts inner).Nodup) :
    StoreConfig.ofValue (overlay (.dict storeDefaults) v) = StoreConfig.ofValue v := by
  cases v with
  | dict inner => exact store_ofEntries_overlay (h inner rfl)
  | _ => rfl

/-- The lowest layer passes its own checks, and has the settings of an empty document. -/
theorem ofDocument_defaults : Configuration.ofDocument defaults = .ok .standard := rfl

/-- **All settings on top of the defaults are the settings.** -/
theorem configuration_ofEntries_overlay (h : IsDocument copies top) :
    Configuration.ofEntries (overlayEntries defaultEntries top) = Configuration.ofEntries top := by
  have honce := forall_once_str_iff.mpr h.once
  have hsection : ∀ {name v}, lookup (.str name) top = some v →
      ∀ inner, v = .dict inner → (keyTexts inner).Nodup := by
    intro name v hv inner hinner
    obtain ⟨e, he, rfl⟩ := exists_mem_of_lookup hv
    exact h.sections_once e he inner hinner
  have hhostname : Field.read (overlayEntries defaultEntries top) "hostname" Field.readText none =
      Field.read top "hostname" Field.readText none :=
    Field.read_overlayEntries_of_scalar rfl rfl (honce _) nofun
  have hpolicy : Field.read (overlayEntries defaultEntries top) "policy" Policy.ofValue .standard =
      Field.read top "policy" Policy.ofValue .standard :=
    Field.read_overlayEntries rfl rfl (honce _) fun t ht => policy_ofValue_overlay (hsection ht)
  have hstore : Field.read (overlayEntries defaultEntries top) "truststore" StoreConfig.ofValue
      .standard = Field.read top "truststore" StoreConfig.ofValue .standard :=
    Field.read_overlayEntries rfl rfl (honce _) fun t ht => store_ofValue_overlay (hsection ht)
  simp only [Configuration.ofEntries, hhostname, hpolicy, hstore]

/-! ### Documents -/

/-- Nothing recurs in an empty layer. -/
theorem bothEndlessAt_nil (top : List (Value × Value)) : bothEndlessAt [] top = false := by
  induction top with
  | nil => rfl
  | cons e rest ih => rw [bothEndlessAt, ih]; rfl

/-- **A document on top of an empty layer and the defaults.** -/
theorem combine_eq (h : IsDocument copies top) :
    combine copies (.dict []) (.dict top) = .ok (.dict (overlayEntries defaultEntries top)) := by
  have hendless : bothEndless (.dict []) (.dict top) = false := bothEndlessAt_nil top
  have hlayer : orEmpty (.dict top) = .dict top := by
    cases top <;> rfl
  have hcopies : ∀ entries ∈ [defaultEntries, [], top], IsSelfCopy copies (.dict entries) := by
    simpa using ⟨rfl, rfl, h.selfCopy⟩
  have hmerge := merge_eq_foldl hcopies
  rw [List.foldl_cons, overlayEntries_nil] at hmerge
  rw [combine, hendless, hlayer, defaults_eq]
  exact hmerge

end Layers

/-! ### The same settings -/

/-- **A document means the same alone and on top of the defaults.** The lowest layer and the
defaults of the fields agree: both ways lead to the same settings, or to the same issues in
the same order. So an evaluator that is asked for with the one is the one asked for with the
other, whatever the files and the observer are. -/
theorem Layers.combine_agrees {copies : Value → Bool} {entries : List (Value × Value)}
    (h : IsDocument copies entries) :
    ∃ merged, combine copies (.dict []) (.dict entries) = .ok merged ∧
      Configuration.ofDocument merged = Configuration.ofDocument (.dict entries) ∧
      ((∃ c, Configuration.ofDocument (.dict entries) = .ok c) ∨
        ∃ issues, Configuration.ofDocument (.dict entries) =
          .error (.invalidConfiguration issues) ∧ issues ≠ []) ∧
      ∀ env holders observer, Evaluator.ofArgument env holders merged observer =
        Evaluator.ofArgument env holders (.dict entries) observer := by
  have hsame : Configuration.ofDocument (.dict (overlayEntries defaultEntries entries)) =
      Configuration.ofDocument (.dict entries) := by
    rw [Configuration.ofDocument_dict, configuration_ofEntries_overlay h,
      Configuration.ofDocument_dict]
  refine ⟨_, combine_eq h, hsame, ?_, fun env holders observer => ?_⟩
  · cases hdocument : Configuration.ofDocument (.dict entries) with
    | ok c => exact Or.inl ⟨c, rfl⟩
    | error f =>
      obtain ⟨issues, rfl, hsome, -⟩ := Configuration.exists_issues_of_ofDocument hdocument
      exact Or.inr ⟨issues, rfl, hsome⟩
  · have hargument : Configuration.ofArgument env (.dict (overlayEntries defaultEntries entries)) =
        Configuration.ofArgument env (.dict entries) := hsame
    rw [Evaluator.ofArgument, hargument]
    rfl

/-! ### A document with gaps, and one with mistakes -/

namespace Sample

/-- A document that mentions one field only, and a key that names none. -/
def partialEntries : List (Value × Value) := [
  (.str "policy", .dict [(.str "verify_root", .int 0)]), (.int 7, .list [])]

/-- A document with a word that is no truth value, an empty section, and surplus keys. -/
def faultyEntries : List (Value × Value) := [
  (.str "colour", .str "red"),
  (.str "truststore", .null),
  (.str "policy", .dict [(.str "verify_root", .str "maybe"), (.str "speed", .int 3)])]

/-- The settings of the first document. -/
def partialSettings : Configuration := { Configuration.standard with
  policy := { Policy.standard with verifyRoot := false } }

/-- The issues of the second document. -/
def faultyIssues : List Issue := [
  ⟨["policy", "verify_root"], .boolParsing⟩, ⟨["truststore"], .modelType "TrustStoreConfig"⟩]

theorem isDocument_partialEntries : Layers.IsDocument (fun _ => false) partialEntries :=
  ⟨rfl, by decide, by simp [partialEntries, keyTexts]; decide⟩

theorem isDocument_faultyEntries : Layers.IsDocument (fun _ => false) faultyEntries :=
  ⟨rfl, by decide, by simp [faultyEntries, keyTexts]; decide⟩

end Sample

/-- On top of the defaults, the first document has the same settings, and the second the same
issues. -/
theorem Layers.combine_agrees_on_faulty :
    Configuration.ofDocument (.dict Sample.partialEntries) = .ok Sample.partialSettings ∧
      (∃ merged, combine (fun _ => false) (.dict []) (.dict Sample.partialEntries) = .ok merged ∧
        Configuration.ofDocument merged = .ok Sample.partialSettings) ∧
      Configuration.ofDocument (.dict Sample.faultyEntries) =
        .error (.invalidConfiguration Sample.faultyIssues) ∧
      ∃ merged, combine (fun _ => false) (.dict []) (.dict Sample.faultyEntries) = .ok merged ∧
        Configuration.ofDocument merged = .error (.invalidConfiguration Sample.faultyIssues) := by
  have hpartial : Configuration.ofDocument (.dict Sample.partialEntries) =
      .ok Sample.partialSettings := rfl
  have hfaulty : Configuration.ofDocument (.dict Sample.faultyEntries) =
      .error (.invalidConfiguration Sample.faultyIssues) := rfl
  obtain ⟨merged, hmerged, hsame, -⟩ := combine_agrees Sample.isDocument_partialEntries
  obtain ⟨merged', hmerged', hsame', -⟩ := combine_agrees Sample.isDocument_faultyEntries
  exact ⟨hpartial, ⟨merged, hmerged, hsame.trans hpartial⟩, hfaulty,
    ⟨merged', hmerged', hsame'.trans hfaulty⟩⟩

end PeerTrust
