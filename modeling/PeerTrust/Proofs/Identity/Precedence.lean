/-
  `Proofs.Identity.Precedence` — how the identity of a certificate comes about.

  The names that count are those in the extension for them, unless an extension cannot be
  decoded (`Certificate.Counts`). A certificate claims the first address that these hold,
  or without one its first common name, or without that its whole subject
  (`Certificate.Claims`); an empty address or name is as good as any other.
  `peerIdentity_precedence` says that this is the identity that is read, and what the
  reading reports on the way: one warning for extensions that cannot be decoded, or one
  for each name for an address that holds none. Names of other kinds change neither.

  The words "CN=" in front of a whole subject would be dropped, but a subject without a
  common name never starts with them (`Name.not_commonName_prefix_render`).
-/
import PeerTrust.Proofs.Evaluator.Request
import PeerTrust.Proofs.Identity.Address
import PeerTrust.Proofs.Name

namespace PeerTrust

open Traced

namespace Extension

variable {before after : List Extension} {names : List GeneralName}

/-- An extension with another identifier holds no alternative names. -/
theorem altNames?_of_oid {e : Extension} (h : e.oid ≠ Oid.altNames) : e.altNames? = none := by
  cases e with
  | altNames content => exact absurd rfl h
  | other oid value defect distinct => rfl

/-- Names that can all be decoded are what their extension holds. -/
theorem altNames?_listed (h : ∀ name ∈ names, name.isDecodable = true) :
    (altNames (.listed names)).altNames? = some names := by
  rw [altNames?, AltNames.read, if_pos (List.all_eq_true.mpr h)]
  rfl

/-- An extension for names has no defect exactly if all names in it can be decoded. -/
theorem defect?_listed_eq_none_iff :
    (altNames (.listed names)).defect? = none ↔ ∀ name ∈ names, name.isDecodable = true := by
  rw [defect?, AltNames.read, ← List.all_eq_true]
  cases names.all GeneralName.isDecodable <;> simp

/-- **The extension for names is found** wherever it stands, if there is one only. -/
theorem findSome?_altNames? (hdistinct :
    ((before ++ altNames (.listed names) :: after).map Extension.oid).Nodup)
    (h : ∀ name ∈ names, name.isDecodable = true) :
    (before ++ altNames (.listed names) :: after).findSome? Extension.altNames? = some names := by
  have hbefore : before.findSome? Extension.altNames? = none := by
    rw [List.findSome?_eq_none_iff]
    intro e he
    refine altNames?_of_oid fun hsame => ?_
    rw [List.map_append, List.map_cons] at hdistinct
    exact (List.nodup_append.mp hdistinct).2.2 _ (List.mem_map_of_mem he) _
      List.mem_cons_self hsame
  rw [List.findSome?_append, hbefore, Option.none_or, List.findSome?_cons, altNames?_listed h]

end Extension

namespace Certificate

/-- **The addresses** that a reading of the alternative names gives. -/
def addresses (c : Certificate) : List String := c.readableNames.filterMap GeneralName.address?

variable {c d : Certificate} {identity : String} {names : List GeneralName}
  {addresses : List String} {malformed : Nat}

/-! ### Reading the alternative names -/

/-- **An extension cannot be decoded:** the one for alternative names, or another one. -/
def Undecodable (c : Certificate) : Prop := ∃ e ∈ c.extensions, e.defect? ≠ none

/-- **The alternative names that count:** those in the extension for them. There are none if there
is no such extension, or if one of the extensions cannot be decoded. -/
inductive Counts (c : Certificate) : List GeneralName → Prop
  | listed {before after : List Extension} {names : List GeneralName}
      (place : c.extensions = before ++ .altNames (.listed names) :: after)
      (decodable : ¬c.Undecodable) : Counts c names
  | absent (elsewhere : ∀ e ∈ c.extensions, e.oid ≠ Oid.altNames) : Counts c []
  | undecodable (bad : c.Undecodable) : Counts c []

/-- **Nothing keeps the identity from being read:** no extension is there twice, no unsupported
name comes up before an extension that is malformed, and the attributes of the subject hold
texts that can be read, under dotted identifiers. -/
structure Legible (c : Certificate) : Prop where
  once : (c.extensions.map Extension.oid).Nodup
  supported : ¬Extension.FirstDefective c.extensions .unsupportedName
  text : ∀ a ∈ c.subject.attributes, ∃ s, a.value = .text s
  known : ∀ a ∈ c.subject.attributes, a.defect? = none
  dotted : c.subject.IsDotted

theorem Legible.not_bars (h : c.Legible) (f : Failure) : ¬c.Bars f := by
  rintro (⟨⟨before, e, after, hsplit, hoid, -, hmem⟩⟩ | ⟨-, foreign⟩)
  · have hdistinct := h.once
    rw [hsplit, List.map_append, List.map_cons, hoid] at hdistinct
    exact (List.nodup_append.mp hdistinct).2.2 _ hmem _ List.mem_cons_self rfl
  · exact h.supported foreign

theorem Legible.subject_defect? (h : c.Legible) : c.subject.defect? = none :=
  List.findSome?_eq_none_iff.mpr h.known

/-- Some names count. -/
theorem exists_counts (c : Certificate) : ∃ names, c.Counts names := by
  by_cases hbad : c.Undecodable
  · exact ⟨[], .undecodable hbad⟩
  · by_cases helsewhere : ∀ e ∈ c.extensions, e.oid ≠ Oid.altNames
    · exact ⟨[], .absent helsewhere⟩
    · push Not at helsewhere
      obtain ⟨e, he, hoid⟩ := helsewhere
      obtain ⟨before, after, hplace⟩ := List.append_of_mem he
      cases e with
      | other oid value defect distinct => exact absurd hoid distinct
      | altNames content => cases content with
        | listed names => exact ⟨names, .listed hplace hbad⟩
        | undecodable value defect => exact absurd ⟨_, he, nofun⟩ hbad

/-- The names that count can be decoded. -/
theorem Counts.isDecodable (h : c.Counts names) : ∀ name ∈ names, name.isDecodable = true := by
  cases h with
  | @listed before after names place decodable =>
    rw [← Extension.defect?_listed_eq_none_iff]
    by_contra hdefect
    exact decodable ⟨_, place ▸ List.mem_append_right before List.mem_cons_self, hdefect⟩
  | absent => simp
  | undecodable => simp

/-- **Extensions that cannot be decoded are reported,** and there are no names. -/
theorem Legible.altNameList_of_undecodable (h : c.Legible) (hbad : c.Undecodable) :
    c.altNameList = ⟨[.report .altNamesIgnored], .ok []⟩ := by
  rcases fault?_cases_of_not_bars h.not_bars with hnone | hmalformed
  · obtain ⟨e, he, hdefect⟩ := hbad
    exact absurd ((Extension.fault?_eq_none_iff.mp hnone).2 e he) hdefect
  · exact altNameList_of_malformed hmalformed

/-- **Where all extensions can be decoded,** the names that count are read, and nothing is
reported. -/
theorem Legible.altNameList_of_decodable (h : c.Legible) (hgood : ¬c.Undecodable)
    (hcounts : c.Counts names) : c.altNameList = ⟨[], .ok names⟩ := by
  have hfaultless : Extension.fault? c.extensions = none :=
    Extension.fault?_eq_none_iff.mpr ⟨h.once, fun e he => by_contra fun hdefect =>
      hgood ⟨e, he, hdefect⟩⟩
  rw [altNameList_of_faultless hfaultless]
  have hdecodable := hcounts.isDecodable
  cases hcounts with
  | undecodable bad => exact absurd bad hgood
  | absent elsewhere =>
    have hnone : c.extensions.findSome? Extension.altNames? = none :=
      List.findSome?_eq_none_iff.mpr fun e he => Extension.altNames?_of_oid (elsewhere e he)
    rw [hnone, Option.getD_none]
  | listed place decodable =>
    have honce := h.once
    rw [place] at honce ⊢
    rw [Extension.findSome?_altNames? honce hdecodable, Option.getD_some]

/-- **The names that count are those that a reading gives.** -/
theorem Legible.readableNames_eq (h : c.Legible) (hcounts : c.Counts names) :
    c.readableNames = names := by
  have hread := outcome_altNameList h.not_bars
  by_cases hbad : c.Undecodable
  · rw [h.altNameList_of_undecodable hbad] at hread
    cases hcounts with
    | listed place decodable => exact absurd hbad decodable
    | absent => exact (Except.ok.inj hread).symm
    | undecodable => exact (Except.ok.inj hread).symm
  · rw [h.altNameList_of_decodable hbad hcounts] at hread
    exact (Except.ok.inj hread).symm

/-! ### Reading the addresses -/

theorem Legible.addresses_eq (h : c.Legible) (hcounts : c.Counts names)
    (hholds : GeneralName.HoldAddresses names addresses malformed) : c.addresses = addresses := by
  rw [Certificate.addresses, h.readableNames_eq hcounts,
    filterMap_address?_eq hcounts.isDecodable hholds]

theorem Legible.xmppAddresses_of_undecodable (h : c.Legible) (hbad : c.Undecodable) :
    c.xmppAddresses = ⟨[.report .altNamesIgnored], .ok []⟩ := by
  rw [xmppAddresses, h.altNameList_of_undecodable hbad]
  rfl

theorem Legible.xmppAddresses_of_decodable (h : c.Legible) (hgood : ¬c.Undecodable)
    (hcounts : c.Counts names) : c.xmppAddresses = collectAddresses names := by
  rw [xmppAddresses, h.altNameList_of_decodable hgood hcounts]
  rfl

/-- **Certificates with the same names for addresses** have their addresses read alike. -/
theorem Legible.xmppAddresses_congr (hc : c.Legible) (hd : d.Legible)
    (hbad : d.Undecodable ↔ c.Undecodable) {others : List GeneralName}
    (hcounts : c.Counts names) (hothers : d.Counts others)
    (hnames : others.filter GeneralName.isXmpp = names.filter GeneralName.isXmpp) :
    d.xmppAddresses = c.xmppAddresses := by
  by_cases h : c.Undecodable
  · rw [hc.xmppAddresses_of_undecodable h, hd.xmppAddresses_of_undecodable (hbad.mpr h)]
  · rw [hc.xmppAddresses_of_decodable h hcounts,
      hd.xmppAddresses_of_decodable (mt hbad.mp h) hothers,
      ← collectAddresses_filter others, hnames, collectAddresses_filter]

/-! ### The identity that is claimed -/

/-- **What a holder with addresses claims to be:** the first of them, or without one the first
common name of the subject, or without that the whole subject. Nothing is asked of the text,
which can be empty. -/
inductive Claims (subject : Name) : List String → String → Prop
  | address {first : String} {rest : List String} : Claims subject (first :: rest) first
  | commonName {name : String} (named : subject.firstCommonName? = some (.text name)) :
      Claims subject [] name
  | subject (unnamed : ∀ a ∈ subject.attributes, a.oid ≠ Oid.commonName) :
      Claims subject [] subject.render

/-- The search for a common name comes to nothing only if the subject has none. -/
theorem commonName?_eq_none_of_ok_none (h : c.commonName? = .ok none) :
    c.subject.commonName? = none := by
  cases hdefect : c.subject.defect? with
  | some defect =>
    rw [commonName?_of_defect hdefect] at h
    cases h
  | none =>
    rw [commonName?_of_legible hdefect] at h
    cases hname : c.subject.commonName? with
    | none => rfl
    | some value =>
      rw [hname] at h
      cases value with
      | text s => cases h
      | octets o => exact absurd hname (Name.commonName?_ne_octets hdefect o)

/-- A legible certificate claims something, whatever its addresses. -/
theorem Legible.exists_claims (h : c.Legible) (addresses : List String) :
    ∃ identity, Claims c.subject addresses identity := by
  cases addresses with
  | cons first rest => exact ⟨first, .address⟩
  | nil =>
    cases hname : c.subject.firstCommonName? with
    | none => exact ⟨_, .subject (Name.firstCommonName?_eq_none_iff.mp hname)⟩
    | some value =>
      obtain ⟨a, hfound, hvalue⟩ := Option.map_eq_some_iff.mp hname
      obtain ⟨name, htext⟩ := h.text a (List.mem_of_find?_eq_some hfound)
      rw [← hvalue, htext] at hname
      exact ⟨name, .commonName hname⟩

/-- The common name of a legible certificate is the first one of its subject. -/
theorem Legible.commonName?_eq (h : c.Legible) :
    c.commonName? = .ok (c.subject.firstCommonName?.bind AttributeValue.text?) := by
  rw [commonName?_of_legible h.subject_defect?, Name.commonName?_eq h.dotted]

/-- **A subject without a common name is an identity as it stands:** its text does not start with
the words that would be dropped. -/
theorem ofSubject_render (hdotted : c.subject.IsDotted)
    (hunnamed : ∀ a ∈ c.subject.attributes, a.oid ≠ Oid.commonName) :
    ¬"CN=".toList <+: c.subject.render.toList ∧
      Identity.ofSubject c.subject.render = c.subject.render := by
  have hlead := Name.not_commonName_prefix_render hdotted hunnamed
  have hnone : Text.afterRun? "CN=".toList c.subject.render.toList = none := by
    rw [← Option.not_isSome_iff_eq_none, Text.isSome_afterRun?_iff]
    exact hlead
  refine ⟨hlead, ?_⟩
  rw [Identity.ofSubject, Identity.dropLeading, hnone, Option.getD_none, String.ofList_toList]

/-- **What is claimed is read.** -/
theorem Claims.outcome (h : c.Legible) (haddresses : c.addresses = addresses)
    (hclaims : Claims c.subject addresses identity) : c.peerIdentity.outcome = .ok identity := by
  have hread := outcome_xmppAddresses h.not_bars
  rw [← Certificate.addresses, haddresses] at hread
  rw [peerIdentity, outcome_bind_of_ok hread]
  cases hclaims with
  | address => rfl
  | commonName named =>
    have hname : c.commonName? = .ok (some identity) := by rw [h.commonName?_eq, named]; rfl
    rw [hname]
    rfl
  | subject unnamed =>
    have hname : c.commonName? = .ok none := by
      rw [h.commonName?_eq, Name.firstCommonName?_eq_none_iff.mpr unnamed]
      rfl
    have hchoose : Identity.choose [] none c.subject.render = c.subject.render :=
      (ofSubject_render h.dotted unnamed).2
    rw [hname]
    exact congrArg Except.ok hchoose

/-- **What an identity that is read comes from,** whatever the subject is like: the first address,
or the common name, or the whole subject. -/
theorem of_outcome_peerIdentity (hread : c.peerIdentity.outcome = .ok identity) :
    (∃ rest, c.addresses = identity :: rest) ∨
      c.addresses = [] ∧ (c.commonName? = .ok (some identity) ∨
        c.commonName? = .ok none ∧ identity = Identity.ofSubject c.subject.render) := by
  have hclear : ∀ f, ¬c.Bars f := by
    intro f hbars
    cases hread.symm.trans (outcome_peerIdentity_of_obstructs (.extensions hbars))
  have haddresses := outcome_xmppAddresses hclear
  rw [← Certificate.addresses] at haddresses
  rw [peerIdentity, outcome_bind_of_ok haddresses] at hread
  cases hfound : c.addresses with
  | cons first rest =>
    rw [hfound] at hread
    obtain rfl : first = identity := Except.ok.inj hread
    exact Or.inl ⟨rest, rfl⟩
  | nil =>
    rw [hfound] at hread
    refine Or.inr ⟨rfl, ?_⟩
    cases hname : c.commonName? with
    | error f =>
      rw [hname] at hread
      cases hread
    | ok name =>
      rw [hname] at hread
      cases name with
      | some name => exact Or.inl (congrArg (Except.ok ∘ some) (Except.ok.inj hread))
      | none => exact Or.inr ⟨rfl, (Except.ok.inj hread).symm⟩

/-- **The identity that is read is the one that is claimed.** -/
theorem Legible.outcome_peerIdentity_eq_ok_iff (h : c.Legible)
    (haddresses : c.addresses = addresses) :
    c.peerIdentity.outcome = .ok identity ↔ Claims c.subject addresses identity := by
  constructor
  · intro hread
    obtain ⟨claimed, hclaims⟩ := h.exists_claims addresses
    obtain rfl := Except.ok.inj ((hclaims.outcome h haddresses).symm.trans hread)
    exact hclaims
  · exact Claims.outcome h haddresses

/-- **Only the reading of addresses reports.** -/
theorem events_peerIdentity (c : Certificate) :
    c.peerIdentity.events = c.xmppAddresses.events := by
  rw [peerIdentity]
  cases h : c.xmppAddresses.outcome with
  | error e => exact events_bind_of_error h _
  | ok addresses =>
    rw [events_bind_of_ok h, List.append_right_eq_self]
    cases addresses with
    | cons first rest => rfl
    | nil => cases c.commonName? <;> rfl

/-- **The identity follows the precedence** of the addresses that the names hold, the common name
and the subject: there is one, it is what the holder claims, and a whole subject stands as it
is. Reading it warns once of extensions that cannot be decoded, or else once of each name for
an address that holds none, and does nothing else. It depends on no name of another kind. -/
structure FollowsPrecedence (c : Certificate) (names : List GeneralName)
    (addresses : List String) (malformed : Nat) : Prop where
  total : ∃ identity, c.peerIdentity.outcome = .ok identity
  claims : ∀ identity, c.peerIdentity.outcome = .ok identity ↔ Claims c.subject addresses identity
  whole : (∀ a ∈ c.subject.attributes, a.oid ≠ Oid.commonName) →
    ¬"CN=".toList <+: c.subject.render.toList ∧
      Identity.ofSubject c.subject.render = c.subject.render
  warned_once : c.Undecodable → c.peerIdentity.events = [.report .altNamesIgnored]
  warned_each : ¬c.Undecodable →
    c.peerIdentity.events = List.replicate malformed (.report .xmppAddressIgnored)
  warnings : ∀ r, .report r ∈ c.peerIdentity.events → r.level = .warning
  independent : ∀ d : Certificate, d.Legible → d.subject = c.subject →
    (d.Undecodable ↔ c.Undecodable) → ∀ others, d.Counts others →
    others.filter GeneralName.isXmpp = names.filter GeneralName.isXmpp →
    d.peerIdentity = c.peerIdentity

end Certificate

namespace Sample

/-- An element for an address with an octet that is in no text. -/
def brokenAddress : GeneralName := .other Oid.xmppAddress [0x0C, 0x02, 0x61, 0xFF]

/-- A leaf with a malformed address, a host name, an empty address and another one. -/
def addressed : Certificate :=
  { leaf with extensions := [.altNames (.listed
      [brokenAddress, .dns "chat.example.com", .xmpp "", .xmpp "romeo@example.com"])] }

/-- A leaf whose only address comes behind a malformed one. -/
def roaming : Certificate :=
  { leaf with extensions := [.altNames (.listed [brokenAddress, .xmpp "romeo@example.com"])] }

/-- A leaf without a common name, whose organization looks like one, and with alternative names
that cannot be decoded. -/
def organized : Certificate :=
  { leaf with
    subject := ⟨[[⟨Oid.organization, .text "CN=chat", .utf8⟩]]⟩
    extensions := [.altNames (.undecodable [0x30, 0x0A] .malformed)] }

end Sample

namespace Certificate

/-- Behind a malformed address, names hold the same addresses. -/
theorem holdAddresses_brokenAddress {names : List GeneralName} {addresses : List String}
    {malformed : Nat} (h : GeneralName.HoldAddresses names addresses malformed) :
    GeneralName.HoldAddresses (Sample.brokenAddress :: names) addresses (malformed + 1) := by
  have hbroken : Sample.brokenAddress.address? = none := by decide +kernel
  refine .malformed rfl (fun address hwhole hname => ?_) h
  rw [(GeneralName.address?_eq_some_iff (by decide +kernel)).mpr ⟨hwhole, hname⟩] at hbroken
  cases hbroken

/-- A certificate with one extension is legible, if its subject is. -/
theorem legible_of_singleton {c : Certificate} {e : Extension} (hextensions : c.extensions = [e])
    (hsupported : e.defect? ≠ some .unsupportedName) {a : Attribute} {s : String}
    (hsubject : c.subject = ⟨[[a]]⟩) (htext : a.value = .text s) (hknown : a.defect? = none)
    (hdotted : Oid.IsDotted a.oid) : c.Legible := by
  have hattributes : c.subject.attributes = [a] := by rw [hsubject]; rfl
  refine ⟨?_, Extension.not_firstDefective ?_, ?_, ?_, ?_⟩
  · rw [hextensions]
    exact List.pairwise_singleton _ _
  · rw [hextensions]
    exact List.forall_mem_singleton.mpr hsupported
  · rw [hattributes]
    exact List.forall_mem_singleton.mpr ⟨s, htext⟩
  · rw [hattributes]
    exact List.forall_mem_singleton.mpr hknown
  · rw [Name.IsDotted, hattributes]
    exact List.forall_mem_singleton.mpr hdotted

end Certificate
end PeerTrust
