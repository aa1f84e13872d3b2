/-
  `Proofs.Identity.Extensions` — what the other extensions do to the names of a certificate.

  The names stand in one extension, but all extensions are decoded before one of them is
  read. What hinders that is one fault of the whole list (`Extension.Hindered`): an
  identifier that comes up again, or the first extension with a defect. Whatever is
  computed from the names is therefore the same for two certificates that share them
  exactly if their extensions are hindered alike, or if both come to names, of which the
  computation makes as much as of none (`bind_altNameList_eq_iff`).

  Host names, addresses and the identity are three such computations. A certificate with
  a well-formed address has its identity from that address only if no other extension is
  in the way (`names_beside_extensions`).
-/
import PeerTrust.Proofs.Identity.Precedence

namespace PeerTrust

open Traced

/-! ### Hindrances -/

namespace Extension

variable {extensions others : List Extension} {fault : ExtensionFault}

/-- **What hinders extensions from being decoded:** one of them comes up again, or the first of
those with a defect. -/
inductive Hindered (extensions : List Extension) : ExtensionFault → Prop
  | repeated {oid : String} (again : FirstRepeated extensions oid) :
      Hindered extensions (.repeated oid)
  | defective {defect : ExtensionDefect} (distinct : (extensions.map Extension.oid).Nodup)
      (first : FirstDefective extensions defect) : Hindered extensions (.defective defect)

theorem fault?_eq_some_iff : fault? extensions = some fault ↔ Hindered extensions fault := by
  cases fault with
  | repeated oid =>
    rw [fault?_eq_repeated_iff]
    exact ⟨.repeated, fun | .repeated again => again⟩
  | defective defect =>
    rw [fault?_eq_defective_iff]
    exact ⟨fun ⟨distinct, first⟩ => .defective distinct first,
      fun | .defective distinct first => ⟨distinct, first⟩⟩

/-- Two lists are hindered alike exactly if they have the same fault. -/
theorem hindered_alike_iff : (∀ fault, Hindered others fault ↔ Hindered extensions fault) ↔
    fault? others = fault? extensions := by
  simp only [← fault?_eq_some_iff]
  exact ⟨Option.ext, fun h fault => by rw [h]⟩

/-- **Other extensions have no part in finding the names.** -/
theorem findSome?_altNames?_filter (extensions : List Extension) :
    (extensions.filter fun e => e.oid = Oid.altNames).findSome? altNames? =
      extensions.findSome? altNames? := by
  induction extensions with
  | nil => rfl
  | cons e rest ih =>
    by_cases hoid : e.oid = Oid.altNames
    · rw [List.filter_cons_of_pos (by simpa using hoid), List.findSome?_cons, List.findSome?_cons,
        ih]
    · rw [List.filter_cons_of_neg (by simpa using hoid), ih, List.findSome?_cons,
        altNames?_of_oid hoid]

end Extension

namespace Certificate

variable {c d : Certificate} {first : String} {rest : List String} {names : List GeneralName}
  {malformed : Nat}

/-! ### Two certificates with the same names -/

/-- **The names in the extension for them,** whatever the other extensions are. There are none
if it is absent or not well formed. -/
def ownNames (c : Certificate) : List GeneralName :=
  (c.extensions.findSome? Extension.altNames?).getD []

/-- **The certificates share their subject and the extension for names.** Nothing is said about
their other extensions and their places, nor about what else they consist of. -/
structure SharesNames (c d : Certificate) : Prop where
  subject : d.subject = c.subject
  altNames : (d.extensions.filter fun e => e.oid = Oid.altNames) =
    c.extensions.filter fun e => e.oid = Oid.altNames

/-- The addresses in the extension for names. -/
def ownAddresses (c : Certificate) : List String := c.ownNames.filterMap GeneralName.address?

theorem SharesNames.ownNames_eq (h : c.SharesNames d) : d.ownNames = c.ownNames := by
  rw [ownNames, ownNames, ← Extension.findSome?_altNames?_filter, h.altNames,
    Extension.findSome?_altNames?_filter]

/-- The same hindrances, if any, keep the extensions of both certificates from being decoded. -/
def HinderedAlike (c d : Certificate) : Prop :=
  ∀ fault, Extension.Hindered d.extensions fault ↔ Extension.Hindered c.extensions fault

/-- **Extensions come to names,** though to none if one of them is malformed. -/
def ComesToNames (c : Certificate) : Prop :=
  ∀ oid, ¬Extension.Hindered c.extensions (.repeated oid) ∧
    ¬Extension.Hindered c.extensions (.defective .unsupportedName)

theorem comesToNames_iff : c.ComesToNames ↔ ∀ f, ¬c.Bars f := by
  simp only [ComesToNames, ← Extension.fault?_eq_some_iff, bars_iff, not_exists, not_and]
  constructor
  · intro h f fault hfault hfailure
    cases fault with
    | repeated oid => exact (h oid).1 hfault
    | defective defect => cases defect with
      | malformed => cases hfailure
      | unsupportedName => exact (h "").2 hfault
  · intro h oid
    exact ⟨fun hfault => h _ _ hfault rfl, fun hfault => h _ _ hfault rfl⟩

/-- What a computation makes of the names: of the own ones where nothing is at fault, and of
none where an extension is malformed. -/
theorem bind_altNameList_of_comesToNames {β : Type} {g : List GeneralName → Except Failure β}
    (h : c.ComesToNames) :
    (Extension.fault? c.extensions = none ∧ (c.altNameList.outcome >>= g) = g c.ownNames) ∨
      (Extension.fault? c.extensions = some (.defective .malformed) ∧
        (c.altNameList.outcome >>= g) = g []) := by
  rcases fault?_cases_of_not_bars (comesToNames_iff.mp h) with hnone | hmalformed
  · exact Or.inl ⟨hnone, by rw [altNameList_of_faultless hnone]; rfl⟩
  · exact Or.inr ⟨hmalformed, by rw [altNameList_of_malformed hmalformed]; rfl⟩

theorem comesToNames_or_bars (c : Certificate) : c.ComesToNames ∨ ∃ f, c.Bars f := by
  rw [comesToNames_iff, ← not_exists]
  exact (Classical.em _).symm

/-! ### What a computation makes of shared names -/

section Continuation

variable {β : Type} {g : List GeneralName → Except Failure β} {f f' : Failure}

/-- One certificate is barred and the other comes to names: they differ in their faults, and in
what comes of their names if no computation from names fails as a barred one does. -/
theorem apart_of_bars (hg : ∀ names fault f, failureOf? fault = some f → g names ≠ .error f)
    (hbars : c.Bars f) (hnames : d.ComesToNames) :
    Extension.fault? c.extensions ≠ Extension.fault? d.extensions ∧
      (c.altNameList.outcome >>= g) ≠ (d.altNameList.outcome >>= g) := by
  obtain ⟨fault, hfault, hfailure⟩ := bars_iff.mp hbars
  refine ⟨fun hsame => ?_, fun hsame => ?_⟩
  · exact comesToNames_iff.mp hnames f (bars_iff.mpr ⟨fault, hsame ▸ hfault, hfailure⟩)
  · rw [altNameList_of_bars hbars] at hsame
    rcases bind_altNameList_of_comesToNames (g := g) hnames with ⟨-, hread⟩ | ⟨-, hread⟩
    · exact hg _ fault f hfailure (hread.symm.trans hsame.symm)
    · exact hg _ fault f hfailure (hread.symm.trans hsame.symm)

/-- Both certificates are barred: the failure tells the fault. -/
theorem bind_altNameList_eq_iff_of_bars (hc : c.Bars f) (hd : d.Bars f') :
    (d.altNameList.outcome >>= g) = (c.altNameList.outcome >>= g) ↔
      Extension.fault? d.extensions = Extension.fault? c.extensions := by
  obtain ⟨fault, hfault, hfailure⟩ := bars_iff.mp hc
  obtain ⟨fault', hfault', hfailure'⟩ := bars_iff.mp hd
  rw [altNameList_of_bars hc, altNameList_of_bars hd, hfault, hfault', Option.some.injEq]
  constructor
  · intro hsame
    obtain rfl := Except.error.inj hsame
    exact eq_of_failureOf? hfailure' hfailure
  · rintro rfl
    rw [Option.some.inj (hfailure.symm.trans hfailure')]

/-- Both certificates come to names: a malformed extension in one of them alone is told from the
names by what comes of none. -/
theorem bind_altNameList_eq_iff_of_comesToNames (h : c.SharesNames d) (hc : c.ComesToNames)
    (hd : d.ComesToNames) :
    (d.altNameList.outcome >>= g) = (c.altNameList.outcome >>= g) ↔
      Extension.fault? d.extensions = Extension.fault? c.extensions ∨ g c.ownNames = g [] := by
  rcases bind_altNameList_of_comesToNames (g := g) hc with ⟨hcf, hcr⟩ | ⟨hcf, hcr⟩
  · rcases bind_altNameList_of_comesToNames (g := g) hd with ⟨hdf, hdr⟩ | ⟨hdf, hdr⟩
    · simp [hcf, hcr, hdf, hdr, h.ownNames_eq]
    · simp [hcf, hcr, hdf, hdr, eq_comm]
  · rcases bind_altNameList_of_comesToNames (g := g) hd with ⟨hdf, hdr⟩ | ⟨hdf, hdr⟩
    · simp [hcf, hcr, hdf, hdr, h.ownNames_eq]
    · simp [hcf, hcr, hdf, hdr]

/-- **Two certificates that share their names,** and a computation that goes on from what is read.
It comes to the same for both exactly if their extensions are hindered alike, or both come to
names and the computation makes as much of these as of none. -/
theorem bind_altNameList_eq_iff
    (hg : ∀ names fault f, failureOf? fault = some f → g names ≠ .error f)
    (h : c.SharesNames d) :
    (d.altNameList.outcome >>= g) = (c.altNameList.outcome >>= g) ↔
      c.HinderedAlike d ∨ c.ComesToNames ∧ d.ComesToNames ∧ g c.ownNames = g [] := by
  rw [HinderedAlike, Extension.hindered_alike_iff]
  rcases c.comesToNames_or_bars with hc | ⟨f, hc⟩
  · rcases d.comesToNames_or_bars with hd | ⟨f', hd⟩
    · rw [bind_altNameList_eq_iff_of_comesToNames h hc hd]
      simp only [hc, hd, true_and]
    · obtain ⟨hfaults, hends⟩ := apart_of_bars hg hd hc
      simp only [hends, hfaults, comesToNames_iff.not.mpr (not_forall_not.mpr ⟨f', hd⟩), false_and,
        and_false, or_false]
  · simp only [comesToNames_iff.not.mpr (not_forall_not.mpr ⟨f, hc⟩), false_and, or_false]
    rcases d.comesToNames_or_bars with hd | ⟨f', hd⟩
    · obtain ⟨hfaults, hends⟩ := apart_of_bars hg hc hd
      simp only [hends.symm, hfaults.symm]
    · exact bind_altNameList_eq_iff_of_bars hc hd

end Continuation

/-! ### Three computations from the names -/

theorem dnsNames_nil : dnsNames [] = [] := by
  rw [dnsNames, List.filterMap_nil, List.mergeSort_nil]

theorem outcome_hostNames_eq (c : Certificate) :
    c.hostNames.outcome = (c.altNameList.outcome >>= fun names => .ok (dnsNames names)) := by
  rw [hostNames]
  cases hlist : c.altNameList.outcome with
  | error f => exact outcome_bind_of_error hlist _
  | ok names => exact outcome_bind_of_ok hlist _

theorem outcome_xmppAddresses_eq (c : Certificate) :
    c.xmppAddresses.outcome =
      (c.altNameList.outcome >>= fun names => .ok (names.filterMap GeneralName.address?)) := by
  rw [xmppAddresses]
  cases hlist : c.altNameList.outcome with
  | error f => exact outcome_bind_of_error hlist _
  | ok names => exact (outcome_bind_of_ok hlist _).trans (outcome_collectAddresses names)

/-- **The identity without an address:** the common name, or without that the subject. The
extensions have no part in it. -/
def fallback (c : Certificate) : Except Failure String :=
  c.commonName?.map fun name => Identity.choose [] name c.subject.render

/-- The identity that names lead to: their first address, or the fallback. -/
def identityAmong (c : Certificate) (names : List GeneralName) : Except Failure String :=
  match names.filterMap GeneralName.address? with
  | first :: _ => .ok first
  | [] => c.fallback

theorem identityAmong_nil (c : Certificate) : c.identityAmong [] = c.fallback := rfl

theorem SharesNames.identityAmong_eq (h : c.SharesNames d) :
    d.identityAmong = c.identityAmong := by
  funext names
  rw [identityAmong, identityAmong, fallback, fallback, commonName?, commonName?, h.subject]

/-- The fallback fails only if the subject cannot be read. -/
theorem fallback_eq_error {f : Failure} (h : c.fallback = .error f) :
    ∃ defect, f = .illegibleName defect := by
  cases hdefect : c.subject.defect? with
  | none =>
    rw [fallback, commonName?_of_legible hdefect] at h
    cases h
  | some defect =>
    rw [fallback, commonName?_of_defect hdefect] at h
    exact ⟨defect, (Except.error.inj h).symm⟩

theorem identityAmong_ne_error (c : Certificate) (names : List GeneralName)
    (fault : ExtensionFault) (f : Failure) (h : failureOf? fault = some f) :
    c.identityAmong names ≠ .error f := by
  rw [identityAmong]
  cases names.filterMap GeneralName.address? with
  | cons first rest => nofun
  | nil =>
    intro hfails
    obtain ⟨defect, rfl⟩ := fallback_eq_error hfails
    cases fault with
    | repeated oid => cases h
    | defective defect => cases defect <;> cases h

theorem outcome_peerIdentity_eq (c : Certificate) :
    c.peerIdentity.outcome = (c.altNameList.outcome >>= c.identityAmong) := by
  rw [peerIdentity]
  have haddresses := c.outcome_xmppAddresses_eq
  cases hlist : c.altNameList.outcome with
  | error f =>
    rw [hlist] at haddresses
    exact outcome_bind_of_error haddresses _
  | ok names =>
    rw [hlist] at haddresses
    rw [outcome_bind_of_ok haddresses]
    -- the common name is looked at only if there is no address
    show _ = c.identityAmong names
    rw [identityAmong]
    cases names.filterMap GeneralName.address? with
    | cons first rest => rfl
    | nil =>
      rw [fallback]
      cases c.commonName? <;> rfl

/-- The names come to as much as none for the identity exactly if the fallback is the first
address among them, or there is none. -/
theorem identityAmong_ownNames_eq_iff (c : Certificate) :
    c.identityAmong c.ownNames = c.identityAmong [] ↔
      ∀ first rest, c.ownAddresses = first :: rest → c.fallback = .ok first := by
  rw [identityAmong_nil, identityAmong, ← ownAddresses]
  cases c.ownAddresses with
  | nil => simp
  | cons a others =>
    constructor
    · intro heq first rest hcons
      obtain ⟨rfl, -⟩ := List.cons.inj hcons
      exact heq.symm
    · intro hfirst
      exact (hfirst a others rfl).symm

/-- **What is read alike in two certificates that share their names:** the hosts, the addresses or
the identity, each exactly if the extensions are hindered alike, or those of both come to names
and there is nothing to find in these. For the identity there is also nothing to find if the
fallback is the first address. -/
structure ReadAlike (c d : Certificate) : Prop where
  hosts : d.hostNames.outcome = c.hostNames.outcome ↔ c.HinderedAlike d ∨
    c.ComesToNames ∧ d.ComesToNames ∧ dnsNames c.ownNames = []
  addresses : d.xmppAddresses.outcome = c.xmppAddresses.outcome ↔ c.HinderedAlike d ∨
    c.ComesToNames ∧ d.ComesToNames ∧ c.ownAddresses = []
  identity : d.peerIdentity.outcome = c.peerIdentity.outcome ↔ c.HinderedAlike d ∨
    c.ComesToNames ∧ d.ComesToNames ∧
      ∀ first rest, c.ownAddresses = first :: rest → c.fallback = .ok first

theorem SharesNames.readAlike (h : c.SharesNames d) : c.ReadAlike d := by
  refine ⟨?_, ?_, ?_⟩
  · have hhosts := bind_altNameList_eq_iff (g := fun names => .ok (dnsNames names))
      (fun _ _ _ _ => nofun) h
    rwa [dnsNames_nil, Except.ok.injEq, ← outcome_hostNames_eq, ← outcome_hostNames_eq] at hhosts
  · have haddresses := bind_altNameList_eq_iff
      (g := fun names => .ok (names.filterMap GeneralName.address?)) (fun _ _ _ _ => nofun) h
    rwa [List.filterMap_nil, Except.ok.injEq, ← outcome_xmppAddresses_eq,
      ← outcome_xmppAddresses_eq] at haddresses
  · rw [outcome_peerIdentity_eq, outcome_peerIdentity_eq, h.identityAmong_eq,
      bind_altNameList_eq_iff c.identityAmong_ne_error h, identityAmong_ownNames_eq_iff]

/-! ### Certificates with an address -/

/-- **What the extensions of a certificate do to names** with an address first among those that
they hold. Where each has an identifier of its own and can be decoded, hosts, addresses and the
identity come from the names. The first one with a defect takes all names away and hands the
identity over to the fallback, or makes everything fail if it holds an unsupported name; and so
does one that comes up again. -/
structure NamesBeside (c : Certificate) (names : List GeneralName) (first : String)
    (rest : List String) (malformed : Nat) : Prop where
  fine : (c.extensions.map Extension.oid).Nodup → (∀ e ∈ c.extensions, e.defect? = none) →
    c.hostNames = ⟨[], .ok (dnsNames names)⟩ ∧
      c.xmppAddresses =
        ⟨List.replicate malformed (.report .xmppAddressIgnored), .ok (first :: rest)⟩ ∧
      c.peerIdentity = ⟨List.replicate malformed (.report .xmppAddressIgnored), .ok first⟩
  spoiled : (c.extensions.map Extension.oid).Nodup →
    Extension.FirstDefective c.extensions .malformed →
    c.hostNames = ⟨[.report .altNamesIgnored], .ok []⟩ ∧
      c.xmppAddresses = ⟨[.report .altNamesIgnored], .ok []⟩ ∧
      c.peerIdentity = ⟨[.report .altNamesIgnored], c.fallback⟩
  unsupported : (c.extensions.map Extension.oid).Nodup →
    Extension.FirstDefective c.extensions .unsupportedName →
    c.hostNames = .fail .unsupportedName ∧ c.xmppAddresses = .fail .unsupportedName ∧
      c.peerIdentity = .fail .unsupportedName
  repeated : ∀ oid, Extension.FirstRepeated c.extensions oid →
    c.hostNames = .fail (.duplicateExtension oid) ∧
      c.xmppAddresses = .fail (.duplicateExtension oid) ∧
      c.peerIdentity = .fail (.duplicateExtension oid)
  identity : c.peerIdentity.outcome = .ok first ↔ (c.extensions.map Extension.oid).Nodup ∧
    ((∀ e ∈ c.extensions, e.defect? = none) ∨
      Extension.FirstDefective c.extensions .malformed ∧ c.fallback = .ok first)

/-- Names that are barred make all three readings fail. -/
theorem readings_of_bars {f : Failure} (h : c.Bars f) :
    c.hostNames = .fail f ∧ c.xmppAddresses = .fail f ∧ c.peerIdentity = .fail f := by
  have hlist := altNameList_of_bars h
  have haddresses : c.xmppAddresses = .fail f := by rw [xmppAddresses, hlist]; rfl
  refine ⟨?_, haddresses, ?_⟩
  · rw [hostNames, hlist]
    rfl
  · rw [peerIdentity, haddresses]
    rfl

/-- **A malformed extension takes all names away.** Each of the three readings warns of it. -/
theorem readings_of_malformed
    (h : Extension.fault? c.extensions = some (.defective .malformed)) :
    c.hostNames = ⟨[.report .altNamesIgnored], .ok []⟩ ∧
      c.xmppAddresses = ⟨[.report .altNamesIgnored], .ok []⟩ ∧
      c.peerIdentity = ⟨[.report .altNamesIgnored], c.fallback⟩ := by
  have hlist := altNameList_of_malformed h
  have haddresses : c.xmppAddresses = ⟨[.report .altNamesIgnored], .ok []⟩ := by
    rw [xmppAddresses, hlist]
    rfl
  refine ⟨?_, haddresses, ?_⟩
  · rw [hostNames, hlist]
    show (⟨[.report .altNamesIgnored], .ok (dnsNames [])⟩ : Traced (List String)) = _
    rw [dnsNames_nil]
  · rw [peerIdentity, haddresses, fallback]
    cases c.commonName? <;> rfl

/-- **Where nothing is at fault,** the three readings go by the names. -/
theorem readings_of_faultless {before after : List Extension}
    (hfaultless : Extension.fault? c.extensions = none)
    (hplace : c.extensions = before ++ .altNames (.listed names) :: after)
    (hdecodable : ∀ name ∈ names, name.isDecodable = true)
    (hholds : GeneralName.HoldAddresses names (first :: rest) malformed) :
    c.hostNames = ⟨[], .ok (dnsNames names)⟩ ∧
      c.xmppAddresses =
        ⟨List.replicate malformed (.report .xmppAddressIgnored), .ok (first :: rest)⟩ ∧
      c.peerIdentity = ⟨List.replicate malformed (.report .xmppAddressIgnored), .ok first⟩ := by
  have hdistinct := (Extension.fault?_eq_none_iff.mp hfaultless).1
  have hlist : c.altNameList = ⟨[], .ok names⟩ := by
    rw [altNameList_of_faultless hfaultless]
    rw [hplace] at hdistinct ⊢
    rw [Extension.findSome?_altNames? hdistinct hdecodable, Option.getD_some]
  have haddresses : c.xmppAddresses =
      ⟨List.replicate malformed (.report .xmppAddressIgnored), .ok (first :: rest)⟩ := by
    rw [xmppAddresses, hlist]
    exact collectAddresses_eq hdecodable hholds
  refine ⟨?_, haddresses, ?_⟩
  · rw [hostNames, hlist]
    rfl
  · rw [peerIdentity, haddresses]
    exact congrArg (Traced.mk · _) (List.append_nil _)

theorem namesBeside {before after : List Extension}
    (hplace : c.extensions = before ++ .altNames (.listed names) :: after)
    (hdecodable : ∀ name ∈ names, name.isDecodable = true)
    (hholds : GeneralName.HoldAddresses names (first :: rest) malformed) :
    c.NamesBeside names first rest malformed := by
  refine ⟨fun hdistinct hgood => ?_, fun hdistinct hbad => ?_, fun hdistinct hforeign => ?_,
    fun oid hagain => readings_of_bars (.repeated hagain), ?_⟩
  · exact readings_of_faultless (Extension.fault?_eq_none_iff.mpr ⟨hdistinct, hgood⟩) hplace
      hdecodable hholds
  · exact readings_of_malformed (Extension.fault?_eq_defective_iff.mpr ⟨hdistinct, hbad⟩)
  · exact readings_of_bars (.unsupported hdistinct hforeign)
  · rw [and_or_left, ← and_assoc, ← Extension.fault?_eq_none_iff,
      ← Extension.fault?_eq_defective_iff]
    by_cases hnames : c.ComesToNames
    · rcases fault?_cases_of_not_bars (comesToNames_iff.mp hnames) with hnone | hmalformed
      · simp [(readings_of_faultless hnone hplace hdecodable hholds).2.2, hnone]
      · simp [(readings_of_malformed hmalformed).2.2, hmalformed]
    · obtain ⟨f, hbars⟩ := not_forall_not.mp (mt comesToNames_iff.mpr hnames)
      have hfails : c.peerIdentity.outcome ≠ .ok first := by
        rw [(readings_of_bars hbars).2.2]
        nofun
      obtain ⟨fault, hfault, hfailure⟩ := bars_iff.mp hbars
      refine iff_of_false hfails ?_
      rintro (hnone | ⟨hmalformed, -⟩)
      · cases hnone.symm.trans hfault
      · obtain rfl := Option.some.inj (hmalformed.symm.trans hfault)
        cases hfailure

/-- **What the other extensions do to the names.** Take a certificate with an extension in which
all names can be decoded, and some of them hold addresses; beside it are any other extensions.
They decide what is read as `NamesBeside` says. Two certificates that differ in nothing but
other extensions read alike as `ReadAlike` says. -/
theorem names_beside_extensions (c : Certificate) :
    (∀ before after names first rest malformed,
      c.extensions = before ++ .altNames (.listed names) :: after →
      (∀ name ∈ names, name.isDecodable = true) →
      GeneralName.HoldAddresses names (first :: rest) malformed →
      c.NamesBeside names first rest malformed) ∧
    ∀ d, c.SharesNames d → c.ReadAlike d :=
  ⟨fun _ _ _ _ _ _ hplace hdecodable hholds => namesBeside hplace hdecodable hholds,
    fun _ hshares => hshares.readAlike⟩

end Certificate

namespace Sample

/-- A leaf with a host name and an address beside its common name. -/
def named : Certificate :=
  { leaf with
    extensions := [.altNames (.listed [.dns "www.example.com", .xmpp "romeo@example.com"])] }

/-- The same leaf with a key usage that cannot be decoded. -/
def obscured : Certificate :=
  { named with
    extensions := named.extensions ++
      [.other "2.5.29.15" [0x05, 0x00] (some .malformed) (by decide)] }

end Sample

namespace Certificate

/-- An address is the identity of one certificate and not of the other, which differs from it in
its key usage alone: that one claims its common name, and its hosts and addresses are gone. -/
theorem names_beside_extensions_of_obscured :
    Sample.named.SharesNames Sample.obscured ∧
      Sample.named.peerIdentity.outcome = .ok "romeo@example.com" ∧
      Sample.obscured.peerIdentity = ⟨[.report .altNamesIgnored], .ok "chat.example.com"⟩ ∧
      Sample.obscured.hostNames.outcome ≠ Sample.named.hostNames.outcome ∧
      Sample.obscured.xmppAddresses.outcome ≠ Sample.named.xmppAddresses.outcome ∧
      Sample.obscured.peerIdentity.outcome ≠ Sample.named.peerIdentity.outcome := by
  have hshares : Sample.named.SharesNames Sample.obscured := ⟨rfl, rfl⟩
  have hdecodable : ∀ name ∈ [GeneralName.dns "www.example.com", .xmpp "romeo@example.com"],
      name.isDecodable = true := by decide +kernel
  have hholds : GeneralName.HoldAddresses [.dns "www.example.com", .xmpp "romeo@example.com"]
      ["romeo@example.com"] 0 :=
    .unrelated rfl (.address (Text.isWhole_of_lt (by decide)) .nil)
  obtain ⟨hnamed, htwo⟩ := names_beside_extensions Sample.named
  have hone := hnamed [] [] _ _ _ _ rfl hdecodable hholds
  have hother := (names_beside_extensions Sample.obscured).1 [] _ _ _ _ _ rfl hdecodable hholds
  have halike := htwo _ hshares
  have hgood : ∀ e ∈ Sample.named.extensions, e.defect? = none :=
    List.forall_mem_singleton.mpr (Extension.defect?_listed_eq_none_iff.mpr hdecodable)
  have hbad : Extension.FirstDefective Sample.obscured.extensions .malformed :=
    ⟨Sample.named.extensions, _, [], rfl, rfl, hgood⟩
  have hdistinct : (Sample.obscured.extensions.map Extension.oid).Nodup := by decide
  have hspoiled := (hother.spoiled hdistinct hbad).2.2
  have hdiffer : ¬Sample.named.HinderedAlike Sample.obscured := by
    intro hsame
    cases (hsame (.defective .malformed)).mp (.defective hdistinct hbad) with
    | defective _ first =>
      refine Extension.not_firstDefective (fun e he => ?_) first
      rw [hgood e he]
      nofun
  refine ⟨hshares, hone.identity.mpr ⟨by decide, Or.inl hgood⟩, hspoiled, ?_, ?_, ?_⟩
  · rw [ne_eq, halike.hosts, not_or]
    exact ⟨hdiffer, fun hnone => absurd hnone.2.2 (by decide +kernel)⟩
  · rw [ne_eq, halike.addresses, not_or]
    exact ⟨hdiffer, fun hnone => absurd hnone.2.2 (by decide +kernel)⟩
  · rw [ne_eq, halike.identity, not_or]
    refine ⟨hdiffer, fun hnone => ?_⟩
    have hfallback : Sample.named.fallback = .ok "chat.example.com" := by rfl
    have hfirst : Sample.named.ownAddresses = ["romeo@example.com"] := by decide +kernel
    have htext := Except.ok.inj (hfallback.symm.trans (hnone.2.2 _ _ hfirst))
    exact absurd htext (by decide)

end Certificate
end PeerTrust
