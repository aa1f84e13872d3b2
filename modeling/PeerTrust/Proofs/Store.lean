/-
  `Proofs.Store` — how loading trusted roots ends.

  Loading is meant to end in one of two ways (`RootSet.LoadEnds`): with roots, at
  least one, or with a load error that names the path as it was given and the type.
  Two things escape this (`RootSet.Escapes`). The text of a path can be one that no
  system accepts, and a file can hold something that its reader fails over in a way
  that nobody expects: a certificate without a version of certificates, or a key for
  an algorithm that nobody knows. `loadEnds_loadFrom_iff` says that these are all,
  and `outcome_loadFrom_of_escapes` what they lead to.
-/
import PeerTrust.Proofs.Armor
import PeerTrust.Proofs.Journal
import PeerTrust.Store

namespace PeerTrust

open Traced

/-! ### Members of root sets -/

namespace RootSet

theorem mem_insert_iff {roots : RootSet} {c d : Certificate} :
    d ∈ (roots.insert c).anchors ↔ d ∈ roots.anchors ∨ d = c := by
  rw [insert]
  split
  · next hmem => exact ⟨Or.inl, fun h => h.elim id fun heq => heq ▸ hmem⟩
  · rw [List.mem_append, List.mem_singleton]

theorem mem_foldl_insert_iff {cs : List Certificate} {roots : RootSet} {d : Certificate} :
    d ∈ (cs.foldl insert roots).anchors ↔ d ∈ roots.anchors ∨ d ∈ cs := by
  induction cs generalizing roots with
  | nil => simp
  | cons c rest ih => rw [List.foldl_cons, ih, mem_insert_iff, List.mem_cons, or_assoc]

/-- **The set of given certificates has them as its members,** and no others. -/
theorem mem_ofList_iff {source : Option String} {cs : List Certificate} {d : Certificate} :
    d ∈ (ofList source cs).anchors ↔ d ∈ cs := by
  rw [ofList, mem_foldl_insert_iff]
  exact or_iff_right List.not_mem_nil

theorem anchors_ofList_ne_nil {source : Option String} {cs : List Certificate} (h : cs ≠ []) :
    (ofList source cs).anchors ≠ [] := by
  obtain ⟨c, hc⟩ := List.exists_mem_of_ne_nil cs h
  exact List.ne_nil_of_mem (mem_ofList_iff.mpr hc)

end RootSet

/-! ### Types of stores -/

theorem StoreType.text_of_ofText? {s : String} {type : StoreType} (h : ofText? s = some type) :
    type.text = s := by
  have hname := List.find?_some h
  exact eq_of_beq hname

/-- **A supported type is named by the text of its normal form.** -/
theorem RootSet.text_typeName {v : Value} {type : StoreType} (h : typeArgument? v = some type) :
    (typeName v).text = type.text := by
  rw [typeArgument?] at h
  split at h
  · next s hname =>
    rw [hname, StoreType.text_of_ofText? h]
    rfl
  · cases h

/-! ### Paths -/

namespace Path

/-- The text of a path that some system accepts: no code point is the null character, and a half of
a surrogate pair stands for an octet. -/
def IsUsable (path : String) : Prop :=
  ∀ p ∈ Text.codePoints path,
    p ≠ .character '\x00' ∧ (p.isHalf = true → 0xDC80 ≤ p.code ∧ p.code ≤ 0xDCFF)

instance (path : String) : Decidable (IsUsable path) := inferInstanceAs (Decidable (∀ p ∈ _, _))

theorem isUsable_iff (path : String) :
    IsUsable path ↔ isEncodable path = true ∧ isImpossible path = false := by
  have hhalf : ∀ p : Text.CodePoint, (p.isHalf = true → 0xDC80 ≤ p.code ∧ p.code ≤ 0xDCFF) ↔
      (!p.isHalf || (0xDC80 ≤ p.code && p.code < 0xDD00)) = true := by
    intro p
    cases p.isHalf <;> simp [Nat.lt_succ_iff]
  have himpossible : isImpossible path = false ↔
      ∀ p ∈ Text.codePoints path, p ≠ .character '\x00' := by
    rw [isImpossible, ← Bool.not_eq_true, List.contains_iff_mem]
    exact ⟨fun hnone p hp heq => hnone (heq ▸ hp), fun h hmem => h _ hmem rfl⟩
  rw [himpossible, isEncodable, List.all_eq_true]
  exact ⟨fun h => ⟨fun p hp => (hhalf p).mp (h p hp).2, fun p hp => (h p hp).1⟩,
    fun h p hp => ⟨h.2 p hp, (hhalf p).mpr (h.1 p hp)⟩⟩

/-- The failure for a path that no system accepts. -/
def refusal (path : String) : Failure :=
  if isEncodable path then .impossiblePath else .textNotEncodable

theorem refusal_cases (path : String) :
    refusal path = .impossiblePath ∨ refusal path = .textNotEncodable := by
  rw [refusal]
  split
  · exact Or.inl rfl
  · exact Or.inr rfl

theorem refusal_ne_storeLoad (path : String) (e : StoreLoadError) :
    refusal path ≠ .storeLoad e := by
  rcases refusal_cases path with h | h <;> rw [h] <;> nofun

end Path

/-! ### Contents that a reader does not expect -/

namespace Content

/-- Bodies of blocks fail with the first one that encodes no certificate. -/
theorem mapM_encodedCertificate_eq_error_iff {bodies : List Content} {fault : ReadFault} :
    bodies.mapM encodedCertificate = .error fault ↔
      ∃ (cs : List Certificate) (body : Content) (after : List Content),
        bodies = (cs.map fun c => [.der c]) ++ body :: after ∧
          body.encodedCertificate = .error fault := by
  induction bodies with
  | nil => simp [pure, Except.pure]
  | cons body rest ih =>
    rw [List.mapM_cons, bind_eq_error_iff]
    constructor
    · rintro (hbody | ⟨c, hbody, hrest⟩)
      · exact ⟨[], body, rest, rfl, hbody⟩
      · obtain hrest | ⟨_, -, hpure⟩ := bind_eq_error_iff.mp hrest
        · obtain ⟨cs, body', after, rfl, hfails⟩ := ih.mp hrest
          obtain rfl := eq_of_encodedCertificate hbody
          exact ⟨c :: cs, body', after, rfl, hfails⟩
        · cases hpure
    · rintro ⟨cs, body', after, hsplit, hfails⟩
      cases cs with
      | nil =>
        obtain ⟨rfl, rfl⟩ := List.cons.inj hsplit
        exact Or.inl hfails
      | cons c cs =>
        obtain ⟨rfl, rfl⟩ := List.cons.inj hsplit
        have hrest := ih.mpr ⟨cs, body', after, rfl, hfails⟩
        exact Or.inr ⟨c, rfl, bind_eq_error_iff.mpr (Or.inl hrest)⟩

theorem encodedCertificate_eq_invalidVersion_iff {content : Content} :
    content.encodedCertificate = .error .invalidVersion ↔ ∃ c, content = [.misversioned c] := by
  rw [encodedCertificate.eq_def]
  constructor
  · intro h
    split at h
    · cases h
    · exact ⟨_, rfl⟩
    · cases h
  · rintro ⟨c, rfl⟩
    rfl

/-- **Armor fails over a version** exactly if all blocks of certificates before one without a
version are sound. -/
theorem armoredCertificates_eq_invalidVersion_iff {content : Content} :
    content.armoredCertificates = .error .invalidVersion ↔
      ∃ (cs : List Certificate) (c : Certificate) (after : List Content),
        Armor.certificateBodies? content =
          some ((cs.map fun c => [.der c]) ++ [.misversioned c] :: after) := by
  rw [armoredCertificates]
  cases Armor.certificateBodies? content with
  | none => simp
  | some bodies =>
    simp only [Option.some.injEq]
    constructor
    · intro h
      rcases bind_eq_error_iff.mp h with hfails | ⟨cs, -, hempty⟩
      · obtain ⟨cs, body, after, hsplit, hbody⟩ := mapM_encodedCertificate_eq_error_iff.mp hfails
        obtain ⟨c, rfl⟩ := encodedCertificate_eq_invalidVersion_iff.mp hbody
        exact ⟨cs, c, after, hsplit⟩
      · split at hempty <;> cases hempty
    · rintro ⟨cs, c, after, hsplit⟩
      exact bind_eq_error_iff.mpr
        (Or.inl (mapM_encodedCertificate_eq_error_iff.mpr ⟨cs, _, after, hsplit, rfl⟩))

theorem fault_of_armoredCertificates {content : Content} {fault : ReadFault}
    (h : content.armoredCertificates = .error fault) :
    fault = .malformed ∨ fault = .invalidVersion := by
  rw [armoredCertificates] at h
  cases hbodies : Armor.certificateBodies? content with
  | none =>
    rw [hbodies] at h
    exact Or.inl (Except.error.inj h).symm
  | some bodies =>
    rw [hbodies] at h
    rcases bind_eq_error_iff.mp h with hfails | ⟨cs, -, hempty⟩
    · obtain ⟨cs, body, after, -, hbody⟩ := mapM_encodedCertificate_eq_error_iff.mp hfails
      exact fault_of_encodedCertificate hbody
    · split at hempty
      · exact Or.inl (Except.error.inj hempty).symm
      · cases hempty

/-- Reading an archive fails in a way that nobody expects exactly over a fault of an archive that
the password opens. -/
theorem archivedCertificates_eq_error_iff {password : Option String} {content : Content}
    {fault : ReadFault} (hunexpected : fault ≠ .malformed) :
    archivedCertificates password content = .error fault ↔
      ∃ a, content = [.archive a] ∧ a.password.getD "" = password.getD "" ∧
        a.fault = some fault := by
  constructor
  · intro h
    rw [archivedCertificates.eq_def] at h
    split at h
    · next a =>
      by_cases hopens : a.password.getD "" = password.getD ""
      · rw [if_pos hopens] at h
        cases hflawed : a.fault with
        | none =>
          rw [hflawed] at h
          cases h
        | some found =>
          rw [hflawed] at h
          obtain rfl := Except.error.inj h
          exact ⟨a, rfl, hopens, hflawed⟩
      · rw [if_neg hopens] at h
        exact absurd (Except.error.inj h).symm hunexpected
    · exact absurd (Except.error.inj h).symm hunexpected
  · rintro ⟨a, rfl, hopens, hflawed⟩
    simp [archivedCertificates, hopens, hflawed]

end Content

namespace StoreType

/-- **A content baffles the reader of a format:** an encoding without a version of certificates, a
block of armor around one, behind sound ones, or an archive that the password opens and that
holds such an encoding or a key for an unknown algorithm. -/
inductive Baffles (password : Option String) : StoreType → Content → Failure → Prop
  | encoding (c : Certificate) : Baffles password .der [.misversioned c] .invalidVersion
  | block {content : Content} {cs : List Certificate} {c : Certificate} {after : List Content}
      (blocks : Armor.certificateBodies? content =
        some ((cs.map fun c => [.der c]) ++ [.misversioned c] :: after)) :
      Baffles password .pem content .invalidVersion
  | archive {a : Archive} {fault : ReadFault} (encodable : password.any Text.holdsHalf = false)
      (opens : a.password.getD "" = password.getD "") (flawed : a.fault = some fault)
      (unexpected : fault ≠ .malformed) : Baffles password .pkcs12 [.archive a] fault.failure

end StoreType

theorem ReadFault.isRefusal_failure_iff (fault : ReadFault) :
    fault.failure.isRefusal = true ↔ fault = .malformed := by
  cases fault <;> simp [failure, Failure.isRefusal]

namespace StoreType

variable {type : StoreType} {password : Option String} {content : Content} {f : Failure}

/-- The reader of archives fails in a way that nobody expects over what is in one that opens. -/
theorem parse_pkcs12_eq_error_iff (hf : f.isRefusal = false) :
    parse .pkcs12 password content = .error f ↔ Baffles password .pkcs12 content f := by
  rw [parse]
  constructor
  · intro h
    by_cases hencodable : password.any Text.holdsHalf = true
    · rw [if_pos hencodable] at h
      cases h
      cases hf
    · rw [if_neg hencodable] at h
      obtain ⟨fault, hfails, rfl⟩ := mapError_eq_error_iff.mp h
      have hunexpected : fault ≠ .malformed := by
        rintro rfl
        cases hf
      obtain ⟨a, rfl, hopens, hflawed⟩ :=
        (Content.archivedCertificates_eq_error_iff hunexpected).mp hfails
      exact .archive (Bool.not_eq_true _ ▸ hencodable) hopens hflawed hunexpected
  · intro h
    cases h with
    | @archive a fault encodable opens flawed unexpected =>
      rw [encodable, if_neg Bool.false_ne_true, mapError_eq_error_iff]
      exact ⟨fault, (Content.archivedCertificates_eq_error_iff unexpected).mpr
        ⟨a, rfl, opens, flawed⟩, rfl⟩

/-- **A reader fails in a way that nobody expects** exactly over what baffles it. -/
theorem parse_eq_error_iff (hf : f.isRefusal = false) :
    type.parse password content = .error f ↔ Baffles password type content f := by
  cases type with
  | pkcs12 => exact parse_pkcs12_eq_error_iff hf
  | pem =>
    rw [parse, mapError_eq_error_iff]
    constructor
    · rintro ⟨fault, hfails, rfl⟩
      rcases Content.fault_of_armoredCertificates hfails with rfl | rfl
      · cases hf
      · obtain ⟨cs, c, after, hblocks⟩ :=
          Content.armoredCertificates_eq_invalidVersion_iff.mp hfails
        exact .block hblocks
    · rintro (_ | ⟨blocks⟩)
      exact ⟨_, Content.armoredCertificates_eq_invalidVersion_iff.mpr ⟨_, _, _, blocks⟩, rfl⟩
  | der =>
    have hsingle : ∀ fault, (content.encodedCertificate.map fun c => [c]) = .error fault ↔
        content.encodedCertificate = .error fault := by
      intro fault
      cases content.encodedCertificate <;> simp [Except.map]
    rw [parse, mapError_eq_error_iff]
    simp only [hsingle]
    constructor
    · rintro ⟨fault, hfails, rfl⟩
      rcases Content.fault_of_encodedCertificate hfails with rfl | rfl
      · cases hf
      · obtain ⟨c, rfl⟩ := Content.encodedCertificate_eq_invalidVersion_iff.mp hfails
        exact .encoding c
    · rintro ⟨c⟩
      exact ⟨_, rfl, rfl⟩

/-- What baffles a reader is no refusal. -/
theorem Baffles.isRefusal_eq (h : Baffles password type content f) : f.isRefusal = false := by
  cases h with
  | encoding c => rfl
  | block blocks => rfl
  | archive encodable opens flawed unexpected =>
    rw [Bool.eq_false_iff, ne_eq, ReadFault.isRefusal_failure_iff]
    exact unexpected

/-- A baffled reader never takes its failure for one of loading. -/
theorem Baffles.ne_storeLoad (h : Baffles password type content f) (e : StoreLoadError) :
    f ≠ .storeLoad e := by
  cases h with
  | encoding c => nofun
  | block blocks => nofun
  | @archive a fault encodable opens flawed unexpected => cases fault <;> nofun

end StoreType

/-! ### Ends of loading -/

namespace RootSet

/-- **Loading ends as it should:** with at least one root, or with a load error that names the
path and the type of store. -/
def LoadEnds (path type : String) (outcome : Except Failure RootSet) : Prop :=
  (∃ roots, outcome = .ok roots ∧ roots.anchors ≠ []) ∨
    ∃ fault, outcome = .error (.storeLoad ⟨.str path, .str type, fault⟩)

/-- **What escapes loading,** with the failure that it leads to: a path that no system accepts, or
a file whose content baffles the reader. -/
inductive Escapes (files : FileSystem) (path : String) (type : StoreType)
    (password : Option String) : Failure → Prop
  | path (unusable : ¬Path.IsUsable path) : Escapes files path type password (Path.refusal path)
  | content {content : Content} {f : Failure} (usable : Path.IsUsable path)
      (found : files.read (Path.ofText path) = .ok content)
      (baffles : StoreType.Baffles password type content f) : Escapes files path type password f

variable {files : FileSystem} {path : String} {type : StoreType} {password : Option String}
  {f : Failure}

theorem Escapes.ne_storeLoad (h : Escapes files path type password f) (e : StoreLoadError) :
    f ≠ .storeLoad e := by
  cases h with
  | path unusable => exact Path.refusal_ne_storeLoad path e
  | content usable found baffles => exact baffles.ne_storeLoad e

theorem readFile_of_usable (h : Path.IsUsable path) :
    readFile files path = (files.read (Path.ofText path)).mapError .system := by
  obtain ⟨hencodable, hpossible⟩ := (Path.isUsable_iff path).mp h
  have hcoded : ¬((!Path.isEncodable path) = true) := by rw [hencodable]; decide
  have hnamed : ¬(Path.isImpossible path = true) := by rw [hpossible]; decide
  rw [readFile, if_neg hcoded, if_neg hnamed]

theorem readFile_of_not_usable (h : ¬Path.IsUsable path) :
    readFile files path = .error (Path.refusal path) := by
  rw [readFile, Path.refusal]
  by_cases hencodable : Path.isEncodable path = true
  · have hnamed : Path.isImpossible path = true := by
      rw [← Bool.not_eq_false]
      exact fun hpossible => h ((Path.isUsable_iff path).mpr ⟨hencodable, hpossible⟩)
    simp [hencodable, hnamed]
  · simp [hencodable]

/-- **Reading a store at a usable path,** whose content is found or not. -/
theorem readStore_of_usable (h : Path.IsUsable path) :
    readStore files path type password =
      match files.read (Path.ofText path) with
      | .error fault => .error (.storeLoad ⟨.str path, .str type.text, .system fault⟩)
      | .ok content =>
        match type.parse password content with
        | .error f =>
          .error (if f.isRefusal then .storeLoad ⟨.str path, .str type.text, .unreadable⟩ else f)
        | .ok [] => .error (.storeLoad ⟨.str path, .str type.text, .noCertificates⟩)
        | .ok certificates => .ok certificates := by
  rw [readStore, readFile_of_usable h]
  cases files.read (Path.ofText path) <;> rfl

/-- **How reading a store ends:** with certificates, with a load error, or with what escapes. -/
theorem readStore_cases (files : FileSystem) (path : String) (type : StoreType)
    (password : Option String) :
    (∃ c rest, readStore files path type password = .ok (c :: rest)) ∨
      (∃ fault, readStore files path type password =
        .error (.storeLoad ⟨.str path, .str type.text, fault⟩)) ∨
      ∃ f, Escapes files path type password f ∧
        readStore files path type password = .error f := by
  by_cases husable : Path.IsUsable path
  · rw [readStore_of_usable husable]
    cases hfound : files.read (Path.ofText path) with
    | error fault => exact Or.inr (Or.inl ⟨.system fault, rfl⟩)
    | ok content =>
      cases hparse : type.parse password content with
      | error f =>
        cases hrefusal : f.isRefusal with
        | true => exact Or.inr (Or.inl ⟨.unreadable, by simp [hparse, hrefusal]⟩)
        | false =>
          have hbaffles := (StoreType.parse_eq_error_iff hrefusal).mp hparse
          exact Or.inr (Or.inr ⟨f, .content husable hfound hbaffles, by simp [hparse, hrefusal]⟩)
      | ok certificates => cases certificates with
        | nil => exact Or.inr (Or.inl ⟨.noCertificates, by simp [hparse]⟩)
        | cons c rest => exact Or.inl ⟨c, rest, by simp [hparse]⟩
  · refine Or.inr (Or.inr ⟨_, .path husable, ?_⟩)
    rw [readStore, readFile_of_not_usable husable]
    rcases Path.refusal_cases path with h | h <;> rw [h]

/-- **What escapes, leaves loading as it is.** -/
theorem readStore_of_escapes (h : Escapes files path type password f) :
    readStore files path type password = .error f := by
  cases h with
  | path unusable =>
    rw [readStore, readFile_of_not_usable unusable]
    rcases Path.refusal_cases path with h | h <;> rw [h]
  | content usable found baffles =>
    have hparse := (StoreType.parse_eq_error_iff baffles.isRefusal_eq).mpr baffles
    rw [readStore_of_usable usable, found]
    simp [hparse, baffles.isRefusal_eq]

/-- **Loading gives the set of the certificates that are read,** or fails as reading does. -/
theorem outcome_loadFrom (files : FileSystem) (path : String) (type : StoreType)
    (password : Option String) :
    (loadFrom files path type password).outcome =
      (readStore files path type password).map (ofList (some (Path.ofText path).text)) := by
  rw [loadFrom]
  cases readStore files path type password with
  | error f => rfl
  | ok cs => rw [outcome_report_bind, outcome_pure]; rfl

theorem outcome_loadFrom_of_escapes (h : Escapes files path type password f) :
    (loadFrom files path type password).outcome = .error f := by
  rw [outcome_loadFrom, readStore_of_escapes h]
  rfl

/-- **Loading ends as it should** exactly if nothing escapes. -/
theorem loadEnds_loadFrom_iff :
    LoadEnds path type.text (loadFrom files path type password).outcome ↔
      ∀ f, ¬Escapes files path type password f := by
  constructor
  · intro hends f hescapes
    rw [outcome_loadFrom_of_escapes hescapes] at hends
    rcases hends with ⟨roots, heq, -⟩ | ⟨fault, heq⟩
    · cases heq
    · exact hescapes.ne_storeLoad _ (Except.error.inj heq)
  · intro hclear
    rw [outcome_loadFrom]
    rcases readStore_cases files path type password with
      ⟨c, rest, hread⟩ | ⟨fault, hread⟩ | ⟨f, hescapes, -⟩
    · rw [hread]
      exact Or.inl ⟨_, rfl, anchors_ofList_ne_nil (List.cons_ne_nil c rest)⟩
    · rw [hread]
      exact Or.inr ⟨fault, rfl⟩
    · exact absurd hescapes (hclear f)

/-! ### Loading what a caller describes -/

variable {env : Environment} {pathValue typeValue passwordValue : Value}

theorem outcome_load (hpath : pathArgument env pathValue = .ok path)
    (hpassword : passwordArgument passwordValue = .ok password) :
    (load env pathValue typeValue passwordValue).outcome =
      match typeArgument? typeValue with
      | none => .error (.storeLoad ⟨.str path, .str (typeName typeValue).text, .unsupportedType⟩)
      | some type => (loadFrom env.files path type password).outcome := by
  rw [load, hpath, hpassword, ofExcept_ok_bind, ofExcept_ok_bind]
  cases typeArgument? typeValue <;> rfl

/-- **Loading what a caller describes ends as it should** exactly if the type is not supported,
and then nothing is read, or nothing escapes. -/
theorem loadEnds_load_iff (hpath : pathArgument env pathValue = .ok path)
    (hpassword : passwordArgument passwordValue = .ok password) :
    LoadEnds path (typeName typeValue).text (load env pathValue typeValue passwordValue).outcome ↔
      ∀ type f, typeArgument? typeValue = some type →
        ¬Escapes env.files path type password f := by
  rw [outcome_load hpath hpassword]
  cases htype : typeArgument? typeValue with
  | none => exact iff_of_true (.inr ⟨.unsupportedType, rfl⟩) nofun
  | some type =>
    show LoadEnds path _ (loadFrom env.files path type password).outcome ↔ _
    rw [text_typeName htype, loadEnds_loadFrom_iff]
    exact ⟨fun h other f hother => Option.some.inj hother ▸ h f, fun h f => h type f rfl⟩

theorem outcome_load_of_escapes (hpath : pathArgument env pathValue = .ok path)
    (hpassword : passwordArgument passwordValue = .ok password)
    (htype : typeArgument? typeValue = some type)
    (h : Escapes env.files path type password f) :
    (load env pathValue typeValue passwordValue).outcome = .error f := by
  rw [outcome_load hpath hpassword, htype]
  exact outcome_loadFrom_of_escapes h

end RootSet
end PeerTrust
