/-
  `Proofs.Configuration.Precedence` — which layer a setting comes from.

  A section of the merged settings is the stack of the section in the layers that mention it
  (`lookup_stack_of_isFlat`), and a setting of that stack is the value of the last layer that
  has it (`lookup_stack_sections`). Both steps are `lookup_stack`, once for dictionaries only
  and once for values none of which is a dictionary. The layers are the defaults, the user's
  file and the project's, so the project's settings prevail over the user's, and those over
  the defaults.

  `merge_layered` states the law of merging, what it rejects, and this consequence.
-/
import PeerTrust.Proofs.Configuration.Defaults
import PeerTrust.Proofs.Configuration.Merge
import PeerTrust.Proofs.Evaluator.Request

namespace PeerTrust

namespace Layers

open Value

variable {key : Value} {name : String} {vs : List Value} {user custom : List (Value × Value)}
  {layers : List (List (Value × Value))} {copies : Value → Bool}

/-! ### Values of one kind -/

theorem topRun_map_dict (dicts : List (List (Value × Value))) :
    topRun (dicts.map .dict) = dicts := by
  have hall : (dicts.map Value.dict).rtakeWhile isDictionary = dicts.map .dict := by
    rw [List.rtakeWhile_eq_self_iff]
    intro v hv
    obtain ⟨entries, -, rfl⟩ := List.mem_map.mp hv
    rfl
  have hentries : entries? ∘ Value.dict = some := rfl
  rw [topRun, hall, List.filterMap_map, hentries, List.filterMap_some]

/-- **Dictionaries only** settle to their stack. -/
theorem settle_map_dict {dicts : List (List (Value × Value))} (hne : dicts ≠ []) :
    settle (dicts.map .dict) = some (.dict (stack dicts)) := by
  have hlast : (dicts.map Value.dict).getLast? = some (.dict (dicts.getLast hne)) := by
    rw [List.getLast?_map, List.getLast?_eq_some_getLast hne]
    rfl
  rw [settle, hlast, topRun_map_dict]
  rfl

/-- **Values none of which is a dictionary** settle to the last one. -/
theorem settle_eq_getLast? (h : ∀ v ∈ vs, v.isDictionary = false) : settle vs = vs.getLast? := by
  rw [settle]
  cases hlast : vs.getLast? with
  | none => rfl
  | some v => simp only [h v (List.mem_of_getLast? hlast), Bool.false_eq_true, if_false]

/-! ### Sections -/

/-- The settings of a section; a layer that does not mention the section has none. -/
def settings (key : Value) (layer : List (Value × Value)) : List (Value × Value) :=
  ((lookup key layer).bind entries?).getD []

/-- **The section is flat:** if the layer mentions it, it is a dictionary of settings that are
none. -/
def IsFlat (key : Value) (layer : List (Value × Value)) : Prop :=
  ∀ v, lookup key layer = some v →
    ∃ entries, v = .dict entries ∧ ∀ e ∈ entries, e.2.isDictionary = false

/-- The dictionaries that layers have at a key, from the lowest layer to the highest. -/
def sections (key : Value) (layers : List (List (Value × Value))) : List (List (Value × Value)) :=
  layers.filterMap fun l => (lookup key l).bind entries?

theorem exists_of_mem_sections {s : List (Value × Value)} (h : s ∈ sections key layers) :
    ∃ l ∈ layers, lookup key l = some (.dict s) := by
  obtain ⟨l, hl, hbind⟩ := List.mem_filterMap.mp h
  obtain ⟨v, hv, hentries⟩ := Option.bind_eq_some_iff.mp hbind
  cases v with
  | dict entries =>
    obtain rfl := Option.some.inj hentries
    exact ⟨l, hl, hv⟩
  | _ => cases hentries

/-- Flat layers have nothing but dictionaries at the section. -/
theorem filterMap_lookup_of_isFlat (h : ∀ l ∈ layers, IsFlat key l) :
    layers.filterMap (lookup key) = (sections key layers).map .dict := by
  rw [sections, List.map_filterMap]
  refine List.filterMap_congr fun l hl => ?_
  cases hlookup : lookup key l with
  | none => rfl
  | some v =>
    obtain ⟨entries, rfl, -⟩ := h l hl v hlookup
    rfl

/-- What the sections have at a setting is what the layers have there. -/
theorem filterMap_lookup_sections (key setting : Value) (layers : List (List (Value × Value))) :
    (sections key layers).filterMap (lookup setting) =
      layers.filterMap fun l => lookup setting (settings key l) := by
  rw [sections, List.filterMap_filterMap]
  refine List.filterMap_congr fun l _ => ?_
  rw [settings]
  cases (lookup key l).bind entries? <;> rfl

/-- **A flat section of merged layers** is the stack of the sections, if one of the layers mentions
it: no value at its key resets the run. -/
theorem lookup_stack_of_isFlat (honce : ∀ l ∈ layers, Once key l)
    (hflat : ∀ l ∈ layers, IsFlat key l) (hmentioned : ∃ l ∈ layers, lookup key l ≠ none) :
    lookup key (stack layers) = some (.dict (stack (sections key layers))) := by
  have hvalues := filterMap_lookup_of_isFlat hflat
  have hne : sections key layers ≠ [] := by
    intro hnil
    rw [hnil] at hvalues
    obtain ⟨l, hl, hsome⟩ := hmentioned
    exact hsome (List.filterMap_eq_nil_iff.mp hvalues l hl)
  rw [lookup_stack honce ?_, hvalues, settle_map_dict hne]
  intro u hu
  rw [hvalues] at hu
  obtain ⟨s, -, rfl⟩ := List.mem_map.mp hu
  exact nofun

/-- **A setting of a flat section** is the one of the last layer that has it: every value at the
setting resets the run. -/
theorem lookup_stack_sections {setting : Value} (hflat : ∀ l ∈ layers, IsFlat key l)
    (honce : ∀ l ∈ layers, Once setting (settings key l)) :
    lookup setting (stack (sections key layers)) =
      (layers.filterMap fun l => lookup setting (settings key l)).getLast? := by
  have hplain : ∀ u ∈ (sections key layers).filterMap (lookup setting),
      u.isDictionary = false := by
    intro u hu
    obtain ⟨s, hs, hlookup⟩ := List.mem_filterMap.mp hu
    obtain ⟨l, hl, hl'⟩ := exists_of_mem_sections hs
    obtain ⟨entries, heq, hentries⟩ := hflat l hl _ hl'
    obtain rfl := Value.dict.inj heq
    obtain ⟨e, he, rfl⟩ := exists_mem_of_lookup hlookup
    exact hentries e he
  have honce' : ∀ s ∈ sections key layers, Once setting s := by
    intro s hs
    obtain ⟨l, hl, hl'⟩ := exists_of_mem_sections hs
    have hsettings : settings key l = s := by rw [settings, hl']; rfl
    exact hsettings ▸ honce l hl
  rw [lookup_stack honce' ?_, settle_eq_getLast? hplain, filterMap_lookup_sections]
  intro u hu
  rintro rfl
  cases hplain _ hu

/-! ### The three layers -/

/-- **The later layer prevails,** setting by setting: the merged section has the settings of the
project's layer, then those of the user's, and then the defaults. -/
def Prevails (custom user merged : List (Value × Value)) (name : String) : Prop :=
  ∃ entries, lookup (.str name) merged = some (.dict entries) ∧ ∀ setting : String,
    lookup (.str setting) entries =
      (lookup (.str setting) (settings (.str name) custom)).or
        ((lookup (.str setting) (settings (.str name) user)).or
          (lookup (.str setting) (settings (.str name) defaultEntries)))

/-- The names of the sections. -/
def sectionNames : List String := ["policy", "truststore"]

theorem isDocument_defaultEntries : IsDocument copies defaultEntries :=
  ⟨rfl, by decide, by simp [defaultEntries, keyTexts]; decide⟩

/-- The defaults mention both sections and have no dictionary in them. -/
theorem isFlat_defaultEntries (hname : name ∈ sectionNames) :
    IsFlat (.str name) defaultEntries ∧ lookup (.str name) defaultEntries ≠ none := by
  have hflags : ∀ e ∈ policyDefaults, e.2.isDictionary = false := by
    simp [policyDefaults, isDictionary]
  have hfields : ∀ e ∈ storeDefaults, e.2.isDictionary = false := by
    simp [storeDefaults, isDictionary]
  rcases List.mem_pair.mp hname with rfl | rfl
  · have hpolicy : lookup (.str "policy") defaultEntries = some (.dict policyDefaults) := rfl
    rw [IsFlat, hpolicy]
    exact ⟨fun v hv => ⟨policyDefaults, (Option.some.inj hv).symm, hflags⟩, nofun⟩
  · have hstore : lookup (.str "truststore") defaultEntries = some (.dict storeDefaults) := rfl
    rw [IsFlat, hstore]
    exact ⟨fun v hv => ⟨storeDefaults, (Option.some.inj hv).symm, hfields⟩, nofun⟩

/-- No text is a key of a section twice. -/
theorem IsDocument.once_settings {layer : List (Value × Value)} (h : IsDocument copies layer)
    (name setting : String) : Once (.str setting) (settings (.str name) layer) := by
  rw [settings]
  cases hlookup : lookup (.str name) layer with
  | none => exact trivial
  | some v =>
    cases v with
    | dict entries =>
      obtain ⟨e, he, hvalue⟩ := exists_mem_of_lookup hlookup
      exact forall_once_str_iff.mpr (h.sections_once e he entries hvalue) setting
    | _ => exact trivial

/-- The last of three values that may be absent. -/
theorem getLast?_of_three (a b c : Option Value) :
    ([a, b, c].filterMap id).getLast? = c.or (b.or a) := by
  cases a <;> cases b <;> cases c <;> rfl

/-- **Three documents on each other** prevail from the last to the first. -/
theorem prevails_stack (huser : IsDocument copies user) (hcustom : IsDocument copies custom)
    (hname : name ∈ sectionNames) (hflatUser : IsFlat (.str name) user)
    (hflatCustom : IsFlat (.str name) custom) :
    Prevails custom user (stack [defaultEntries, user, custom]) name := by
  obtain ⟨hflatDefault, hmentioned⟩ := isFlat_defaultEntries hname
  have hdocuments : ∀ l ∈ [defaultEntries, user, custom], IsDocument copies l := by
    simpa using ⟨isDocument_defaultEntries, huser, hcustom⟩
  have honce : ∀ l ∈ [defaultEntries, user, custom], Once (.str name) l := fun l hl =>
    forall_once_str_iff.mpr (hdocuments l hl).once name
  have hflat : ∀ l ∈ [defaultEntries, user, custom], IsFlat (.str name) l := by
    simpa using ⟨hflatDefault, hflatUser, hflatCustom⟩
  have hsome : ∃ l ∈ [defaultEntries, user, custom], lookup (.str name) l ≠ none :=
    ⟨defaultEntries, List.mem_cons_self, hmentioned⟩
  refine ⟨_, lookup_stack_of_isFlat honce hflat hsome, fun setting => ?_⟩
  rw [lookup_stack_sections hflat fun l hl => (hdocuments l hl).once_settings name setting]
  exact getLast?_of_three _ _ _

/-! ### Files -/

theorem orEmpty_dict (entries : List (Value × Value)) :
    orEmpty (.dict entries) = .dict entries := by
  cases entries <;> rfl

/-- **Layers of a user and of a project** are stacked on the defaults. -/
theorem combine_eq_stack {given : Value} (huser : IsDocument copies user)
    (hcustom : IsDocument copies custom) (hgiven : orEmpty given = .dict custom)
    (hends : bothEndless (.dict user) given = false) :
    combine copies (.dict user) given = .ok (.dict (stack [defaultEntries, user, custom])) := by
  have hcopies : ∀ l ∈ [defaultEntries, user, custom], IsSelfCopy copies (.dict l) := by
    simpa using ⟨isDocument_defaultEntries.selfCopy, huser.selfCopy, hcustom.selfCopy⟩
  have hmerge := merge_eq_stack (by simp) hcopies
  rw [combine, hends, hgiven, orEmpty_dict, defaults_eq]
  exact hmerge

/-- **A file that holds a dictionary** is a document of settings, also if it is not there. -/
theorem isDocument_of_ofFile {files : FileSystem} {path : String} {entries : List (Value × Value)}
    (h : ofFile files path = .ok (.dict entries)) : IsDocument copies entries := by
  have hempty : (Value.dict []).IsContent := .dict (fun _ => trivial) nofun nofun
  have hcontent : (Value.dict entries).IsContent := by
    unfold ofFile at h
    split at h
    · obtain rfl := Value.dict.inj (Except.ok.inj h)
      exact hempty
    · split at h
      · cases h
      · obtain rfl := Value.dict.inj (Except.ok.inj h)
        exact hempty
      · obtain ⟨text, -, h⟩ := bind_eq_ok_iff.mp h
        obtain ⟨v, hread, h⟩ := bind_eq_ok_iff.mp h
        have hv := Yaml.isContent_of_read hread
        have hlayer := Except.ok.inj h
        rw [orEmpty] at hlayer
        split at hlayer
        · exact hlayer ▸ hv
        · exact hlayer ▸ hempty
  exact isDocument_of_isContent hcontent

/-- **The settings on top of the user's file** are stacked on the file and the defaults. -/
theorem onUserFile_eq_stack {env : Environment} {given : Value}
    (huser : ofFile env.files (userPath env) = .ok (.dict user))
    (hgiven : orEmpty given = .dict custom) (hcustom : IsDocument copies custom)
    (hends : bothEndless (.dict user) given = false) :
    onUserFile env copies given = .ok (.dict (stack [defaultEntries, user, custom])) := by
  rw [onUserFile, huser]
  exact combine_eq_stack (isDocument_of_ofFile huser) hcustom hgiven hends

/-! ### Layered settings -/

/-- **Layers merge key by key, and the last one wins,** if they are equal to their copies. A layer
twice in a row and an empty layer change nothing. Arguments of which one is no dictionary are
rejected for the first of them, unless copying fails before the merge comes to it, which it does
not if those before it are equal to their copies. In the settings on top of the user's file, and
in those of both files, each setting of a flat section comes from the last layer that has it. -/
theorem merge_layered (copies : Value → Bool) :
    (∀ layers, 2 ≤ layers.length → (∀ l ∈ layers, IsLayer copies l) →
      ∃ merged, merge copies (layers.map .dict) = .ok (.dict merged) ∧
        KeyByKey copies layers merged) ∧
    (∀ below top above v, (∀ l ∈ below ++ top :: above, IsLayer copies l) →
      (Yields copies ((below ++ top :: top :: above).map .dict) v ↔
        Yields copies ((below ++ top :: above).map .dict) v)) ∧
    (∀ below above v, below ++ above ≠ [] → (∀ l ∈ below ++ above, IsLayer copies l) →
      (Yields copies ((below ++ [] :: above).map .dict) v ↔
        Yields copies ((below ++ above).map .dict) v)) ∧
    (∀ args, 2 ≤ args.length → (∀ v ∈ args, v ≠ .recurring true) →
      (∃ v ∈ args, v.isDictionary = false) →
      ∃ f, Rejects copies args f ∧ merge copies args = .error f) ∧
    (∀ below w after, 2 ≤ (below.map Value.dict ++ w :: after).length → w.isDictionary = false →
      (∀ l ∈ below, IsSelfCopy copies (.dict l)) → (below = [] → IsSelfCopy copies w) →
      merge copies (below.map Value.dict ++ w :: after) = .error (.notDictionary w)) ∧
    (∀ env user custom given, ofFile env.files (userPath env) = .ok (.dict user) →
      orEmpty given = .dict custom → IsDocument copies custom →
      bothEndless (.dict user) given = false →
      ∃ merged, onUserFile env copies given = .ok (.dict merged) ∧ ∀ name ∈ sectionNames,
        IsFlat (.str name) user → IsFlat (.str name) custom → Prevails custom user merged name) ∧
    ∀ env user custom, ofFile env.files (userPath env) = .ok (.dict user) →
      ofFile env.files fileName = .ok (.dict custom) →
      bothEndless (.dict user) (.dict custom) = false →
      ∃ merged, (∀ holders observer, Evaluator.ofArgument env holders .null observer =
          Evaluator.ofArgument env holders (.dict merged) observer) ∧ ∀ name ∈ sectionNames,
        IsFlat (.str name) user → IsFlat (.str name) custom → Prevails custom user merged name := by
  refine ⟨?_, fun _ _ _ _ => yields_twice_iff, fun _ _ _ => yields_empty_iff,
    fun args hlength hwritten hother => exists_rejects hlength hother hwritten,
    fun below w after => merge_of_isSelfCopy, ?_, ?_⟩
  · intro layers hlength hlayers
    exact ⟨stack layers, merge_eq_stack hlength fun l hl => (hlayers l hl).selfCopy,
      keyByKey_stack hlayers⟩
  · intro env user custom given huser hgiven hcustom hends
    refine ⟨_, onUserFile_eq_stack huser hgiven hcustom hends,
      fun name hname hflat hflat' => ?_⟩
    exact prevails_stack (isDocument_of_ofFile huser) hcustom hname hflat hflat'
  · intro env user custom huser hfile hends
    have hcustom : IsDocument (fun _ => false) custom := isDocument_of_ofFile hfile
    have hfiles : ofFiles env = .ok (.dict (stack [defaultEntries, user, custom])) := by
      rw [ofFiles, hfile]
      exact onUserFile_eq_stack huser (orEmpty_dict custom) hcustom hends
    refine ⟨stack [defaultEntries, user, custom], fun holders observer => ?_,
      fun name hname hflat hflat' => ?_⟩
    · rw [Evaluator.ofArgument, Configuration.ofArgument, hfiles]
      rfl
    · exact prevails_stack (isDocument_of_ofFile huser) hcustom hname hflat hflat'

end Layers

namespace Sample

/-- A layer with a dictionary. -/
def lowLayer : List (Value × Value) := [(.str "limits", .dict [(.str "depth", .int 1)])]

/-- A layer with a number in its place. -/
def plainLayer : List (Value × Value) := [(.str "limits", .int 5)]

/-- A layer with another dictionary there. -/
def highLayer : List (Value × Value) := [(.str "limits", .dict [(.str "width", .int 2)])]

/-- A layer with a holder, which cannot be copied. -/
def liveLayer : List (Value × Value) := [(.str "limits", .holder 0)]

/-- A layer with an evaluator as a key, which is equal to itself only. -/
def uniqueLayer : List (Value × Value) := [(.evaluator 0, .int 1)]

/-- Settings that mention one field of a section. -/
def lenientEntries : List (Value × Value) := [
  (.str "policy", .dict [(.str "accept_self_signed", .bool true)])]

/-- One key is there once. -/
theorem isNested_singleton {key v : Value} (h : v.IsNested) :
    (Value.dict [(key, v)]).IsNested :=
  .dict (fun _ => ⟨trivial, fun _ => rfl⟩) (by simpa using h)

/-- No live object can be copied. -/
def noCopies : Value → Bool := fun _ => false

theorem isLayer_lowLayer : Layers.IsLayer noCopies lowLayer :=
  ⟨isNested_singleton (isNested_singleton (.leaf rfl)), rfl⟩

theorem isLayer_plainLayer : Layers.IsLayer noCopies plainLayer :=
  ⟨isNested_singleton (.leaf rfl), rfl⟩

theorem isLayer_highLayer : Layers.IsLayer noCopies highLayer :=
  ⟨isNested_singleton (isNested_singleton (.leaf rfl)), rfl⟩

end Sample

namespace Layers

open Value

/-- The number in the middle makes the lowest layer's dictionary count for nothing, a layer twice
in a row and an empty one change nothing, the first of two arguments that are no dictionaries is
named, and the settings of a caller and of files that are not there prevail. -/
theorem merge_layered_of_reset :
    (∃ merged, merge Sample.noCopies
        [.dict Sample.lowLayer, .dict Sample.plainLayer, .dict Sample.highLayer] =
        .ok (.dict merged) ∧
      lookup (.str "limits") merged = some (.dict [(.str "width", .int 2)])) ∧
    Yields Sample.noCopies [.dict Sample.highLayer, .dict Sample.highLayer]
      (.dict Sample.highLayer) ∧
    Yields Sample.noCopies [.dict Sample.highLayer, .dict []] (.dict Sample.highLayer) ∧
    (∃ f, Rejects Sample.noCopies [.dict Sample.liveLayer, .int 5, .null] f ∧
      merge Sample.noCopies [.dict Sample.liveLayer, .int 5, .null] = .error f) ∧
    merge Sample.noCopies [.dict Sample.lowLayer, .int 5, .null] =
      .error (.notDictionary (.int 5)) ∧
    (∃ merged, onUserFile Sample.env Sample.noCopies (.dict Sample.lenientEntries) =
        .ok (.dict merged) ∧
      Prevails Sample.lenientEntries [] merged "policy") ∧
    ∃ merged, Evaluator.ofArgument Sample.env .empty .null .absent =
        Evaluator.ofArgument Sample.env .empty (.dict merged) .absent ∧
      Prevails [] [] merged "truststore" := by
  obtain ⟨hmerges, htwice, hempty, hrejects, hnames, hgiven, hfiles⟩ :=
    merge_layered Sample.noCopies
  have hsingle : Yields Sample.noCopies ([Sample.highLayer].map .dict) (.dict Sample.highLayer) :=
    Or.inl rfl
  have hhigh : ∀ l ∈ [Sample.highLayer], IsLayer Sample.noCopies l := by
    simpa using Sample.isLayer_highLayer
  have hmissing : ofFile Sample.env.files (userPath Sample.env) = .ok (.dict []) := rfl
  have hmissing' : ofFile Sample.env.files fileName = .ok (.dict []) := rfl
  have hflat : ∀ key, IsFlat key [] := fun _ _ hv => by cases hv
  refine ⟨?_, (htwice [] Sample.highLayer [] _ hhigh).mpr hsingle,
    (hempty [Sample.highLayer] [] _ nofun hhigh).mpr hsingle, ?_, ?_, ?_, ?_⟩
  · have hlayers : ∀ l ∈ [Sample.lowLayer, Sample.plainLayer, Sample.highLayer],
        IsLayer Sample.noCopies l := by
      simpa using ⟨Sample.isLayer_lowLayer, Sample.isLayer_plainLayer, Sample.isLayer_highLayer⟩
    obtain ⟨merged, hmerge, hkeys⟩ := hmerges _ (by decide) hlayers
    obtain ⟨w, hlookup, hyields⟩ := hkeys.merged_run (.str "limits")
      [.dict [(.str "depth", .int 1)], .int 5] (.dict [(.str "width", .int 2)]) rfl rfl
    refine ⟨merged, hmerge, hlookup.trans (congrArg some ?_)⟩
    -- the run of dictionaries at the end is the last one alone
    rcases hyields with hone | hmany
    · exact (List.singleton_inj.mp hone).symm
    · cases hmany
  · exact hrejects _ (by decide) (by simp) ⟨.int 5, by simp, rfl⟩
  · exact hnames [Sample.lowLayer] (.int 5) [.null] (by decide) rfl
      (by simpa using Sample.isLayer_lowLayer.selfCopy) nofun
  · obtain ⟨merged, hmerged, hprevails⟩ := hgiven Sample.env [] Sample.lenientEntries
      (.dict Sample.lenientEntries) hmissing rfl
      ⟨rfl, by decide, by simp [Sample.lenientEntries, keyTexts]; decide⟩ rfl
    refine ⟨merged, hmerged, hprevails "policy" (by decide) (hflat _) ?_⟩
    rintro v hv
    obtain rfl := Option.some.inj hv
    exact ⟨_, rfl, by simp [isDictionary]⟩
  · obtain ⟨merged, hsame, hprevails⟩ := hfiles Sample.env [] [] hmissing hmissing' rfl
    exact ⟨merged, hsame .empty .absent, hprevails "truststore" (by decide) (hflat _) (hflat _)⟩

/-- **An argument that is no dictionary may go unnoticed,** since an earlier one that cannot be
copied fails the merge before its class is looked at. **A key may be lost,** since the lowest
layer is copied with its keys, and the copy of an object that is equal to itself only is another
key. -/
theorem merge_of_live_layer :
    (¬∀ (copies : Value → Bool) (args : List Value), 2 ≤ args.length →
      (∃ v ∈ args, v.isDictionary = false) →
        ∃ v, merge copies args = .error (.notDictionary v)) ∧
    ¬∀ (copies : Value → Bool) (layers : List (List (Value × Value))), 2 ≤ layers.length →
      ∀ merged, merge copies (layers.map .dict) = .ok (.dict merged) →
        ∀ key, (∃ l ∈ layers, lookup key l ≠ none) → lookup key merged ≠ none := by
  constructor
  · intro hall
    have hother : ∃ v ∈ [Value.dict Sample.liveLayer, .int 5], v.isDictionary = false :=
      ⟨.int 5, by simp, rfl⟩
    obtain ⟨v, hv⟩ := hall Sample.noCopies [.dict Sample.liveLayer, .int 5] (by decide) hother
    have hfails : merge Sample.noCopies [.dict Sample.liveLayer, .int 5] = .error .misuse := rfl
    cases hv.symm.trans hfails
  · intro hall
    have hmerge : merge (fun _ => true) [.dict Sample.uniqueLayer, .dict []] =
        .ok (.dict [(.copied (.evaluator 0), .int 1)]) := rfl
    exact hall (fun _ => true) [Sample.uniqueLayer, []] (by decide) _ hmerge (.evaluator 0)
      ⟨Sample.uniqueLayer, List.mem_cons_self, nofun⟩ rfl

end Layers
end PeerTrust
