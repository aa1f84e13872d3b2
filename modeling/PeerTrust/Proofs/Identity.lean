/-
  `Proofs.Identity` — when a certificate claims an identity, and when it claims none.

  The extensions of a certificate are decoded together. What that comes to is said by
  two relations on the list of them, the first identifier that comes up again
  (`Extension.FirstRepeated`) and the first extension with a defect
  (`Extension.FirstDefective`); the walks over the list find these and nothing else
  (`fault?_eq_repeated_iff`, `fault?_eq_defective_iff`).

  The addresses among the alternative names are a plain filter of them
  (`outcome_collectAddresses`). Reading the identity has three ways to fail
  (`Certificate.Obstructs`), all of them in content that the peer wrote: a repeated
  extension, a name of an unsupported kind in any extension, and a subject that cannot be
  read where no address comes before it. `peerIdentity_eq_error_iff` says that these are
  all.
-/
import PeerTrust.Identity
import PeerTrust.Proofs.Journal
import PeerTrust.Proofs.Name

namespace PeerTrust

open Traced

/-! ### Faults in extensions -/

namespace Extension

variable {e : Extension} {extensions rest : List Extension} {seen : List String} {oid : String}
  {defect : ExtensionDefect}

/-- **The first identifier that comes up again:** the extensions before it have one identifier
each, and it is among them. -/
def FirstRepeated (extensions : List Extension) (oid : String) : Prop :=
  ∃ before e after, extensions = before ++ e :: after ∧ e.oid = oid ∧
    (before.map Extension.oid).Nodup ∧ oid ∈ before.map Extension.oid

/-- **The first defect:** all extensions before the one that has it can be decoded. -/
def FirstDefective (extensions : List Extension) (defect : ExtensionDefect) : Prop :=
  ∃ before e after, extensions = before ++ e :: after ∧ e.defect? = some defect ∧
    ∀ x ∈ before, x.defect? = none

theorem not_firstDefective (h : ∀ e ∈ extensions, e.defect? ≠ some defect) :
    ¬FirstDefective extensions defect := by
  rintro ⟨before, e, after, rfl, hdefect, -⟩
  exact h e (List.mem_append_right before List.mem_cons_self) hdefect

/-- An extension counts as seen for those behind it: they have one identifier each and none that
was seen, with it in front exactly if they do so after it. -/
theorem distinct_cons_iff (hfresh : e.oid ∉ seen) :
    ((e :: rest).map Extension.oid).Nodup ∧ (∀ x ∈ e :: rest, x.oid ∉ seen) ↔
      (rest.map Extension.oid).Nodup ∧ ∀ x ∈ rest, x.oid ∉ e.oid :: seen := by
  simp only [List.map_cons, List.nodup_cons, List.mem_map, not_exists, not_and,
    List.mem_cons, forall_eq_or_imp, not_or]
  constructor
  · rintro ⟨⟨hapart, hnodup⟩, -, hnew⟩
    exact ⟨hnodup, fun x hx => ⟨hapart x hx, hnew x hx⟩⟩
  · rintro ⟨hnodup, hnew⟩
    exact ⟨⟨fun x hx => (hnew x hx).1, hnodup⟩, hfresh, fun x hx => (hnew x hx).2⟩

/-- Nothing is repeated exactly if all identifiers are different, and none was seen before. -/
theorem repeatedAfter?_eq_none_iff : repeatedAfter? seen extensions = none ↔
    (extensions.map Extension.oid).Nodup ∧ ∀ e ∈ extensions, e.oid ∉ seen := by
  induction extensions generalizing seen with
  | nil => simp [repeatedAfter?]
  | cons e rest ih =>
    rw [repeatedAfter?]
    by_cases hseen : seen.contains e.oid = true
    · simp only [hseen, if_true, reduceCtorEq, false_iff, not_and]
      intro _ hnew
      exact hnew e List.mem_cons_self (List.contains_iff_mem.mp hseen)
    · rw [if_neg hseen, ih, distinct_cons_iff (mt List.contains_iff_mem.mpr hseen)]

/-- The walk stops at the first extension whose identifier came before. -/
theorem repeatedAfter?_eq_some_iff : repeatedAfter? seen extensions = some oid ↔
    ∃ before e after, extensions = before ++ e :: after ∧ e.oid = oid ∧
      ((before.map Extension.oid).Nodup ∧ ∀ x ∈ before, x.oid ∉ seen) ∧
        (oid ∈ seen ∨ oid ∈ before.map Extension.oid) := by
  induction extensions generalizing seen with
  | nil => simp [repeatedAfter?]
  | cons e rest ih =>
    rw [repeatedAfter?]
    by_cases hseen : seen.contains e.oid = true
    · have hmem := List.contains_iff_mem.mp hseen
      rw [if_pos hseen, Option.some.injEq]
      constructor
      · rintro rfl
        exact ⟨[], e, rest, rfl, rfl, ⟨List.nodup_nil, by simp⟩, Or.inl hmem⟩
      · rintro ⟨before, e', after, hsplit, rfl, ⟨-, hfresh⟩, -⟩
        cases before with
        | nil => rw [(List.cons.inj hsplit).1]
        | cons x before =>
          obtain ⟨rfl, -⟩ := List.cons.inj hsplit
          exact absurd hmem (hfresh _ List.mem_cons_self)
    · have hfresh := mt List.contains_iff_mem.mpr hseen
      rw [if_neg hseen, ih]
      constructor
      · rintro ⟨before, e', after, rfl, rfl, hdistinct, hmem⟩
        refine ⟨e :: before, e', after, rfl, rfl, (distinct_cons_iff hfresh).mpr hdistinct, ?_⟩
        rw [List.mem_cons, or_assoc] at hmem
        rwa [List.map_cons, List.mem_cons, or_left_comm]
      · rintro ⟨before, e', after, hsplit, rfl, hdistinct, hmem⟩
        cases before with
        | nil =>
          obtain ⟨rfl, -⟩ := List.cons.inj hsplit
          exact absurd (hmem.resolve_right List.not_mem_nil) hfresh
        | cons x before =>
          obtain ⟨rfl, rfl⟩ := List.cons.inj hsplit
          refine ⟨before, e', after, rfl, rfl, (distinct_cons_iff hfresh).mp hdistinct, ?_⟩
          rw [List.map_cons, List.mem_cons, or_left_comm] at hmem
          rwa [List.mem_cons, or_assoc]

theorem fault?_eq_repeated_iff :
    fault? extensions = some (.repeated oid) ↔ FirstRepeated extensions oid := by
  have hwalk := @repeatedAfter?_eq_some_iff extensions [] oid
  simp only [List.not_mem_nil, not_false_eq_true, implies_true, and_true, false_or] at hwalk
  rw [fault?, FirstRepeated, ← hwalk]
  cases repeatedAfter? [] extensions with
  | some other => simp
  | none => cases extensions.findSome? defect? <;> simp

theorem fault?_eq_defective_iff : fault? extensions = some (.defective defect) ↔
    (extensions.map Extension.oid).Nodup ∧ FirstDefective extensions defect := by
  have hwalk := @repeatedAfter?_eq_none_iff extensions []
  simp only [List.not_mem_nil, not_false_eq_true, implies_true, and_true] at hwalk
  rw [fault?, ← hwalk, FirstDefective]
  cases repeatedAfter? [] extensions with
  | some other => simp
  | none => simp [List.findSome?_eq_some_iff]

/-- **Nothing is at fault** exactly if all identifiers are different and all extensions can be
decoded. -/
theorem fault?_eq_none_iff : fault? extensions = none ↔
    (extensions.map Extension.oid).Nodup ∧ ∀ e ∈ extensions, e.defect? = none := by
  have hwalk := @repeatedAfter?_eq_none_iff extensions []
  simp only [List.not_mem_nil, not_false_eq_true, implies_true, and_true] at hwalk
  rw [fault?, ← hwalk]
  cases repeatedAfter? [] extensions with
  | some other => simp
  | none => simp

end Extension

/-! ### Reading the alternative names -/

/-- The text of an attribute that holds one. -/
def AttributeValue.text? : AttributeValue → Option String
  | .text s => some s
  | .octets _ => none

/-- The address in a name: that of an XMPP name, if its element holds one. -/
def GeneralName.address? : GeneralName → Option String
  | .other oid element => if oid = Oid.xmppAddress then xmppAddressOf? element else none
  | _ => none

namespace Certificate

variable {c : Certificate} {f : Failure}

/-- The alternative names that a reading of them gives. -/
def readableNames (c : Certificate) : List GeneralName :=
  match c.readAltNames with
  | .ok names => names.getD []
  | .error _ => []

/-- **What keeps the alternative names from being asked for,** with the failure that it leads
to: a repeated extension, or an unsupported name if there is none. A malformed extension is
not among this, unless an unsupported name comes behind it. -/
inductive Bars (c : Certificate) : Failure → Prop
  | repeated {oid : String} (again : Extension.FirstRepeated c.extensions oid) :
      Bars c (.duplicateExtension oid)
  | unsupported (distinct : (c.extensions.map Extension.oid).Nodup)
      (foreign : Extension.FirstDefective c.extensions .unsupportedName) :
      Bars c .unsupportedName

/-- The failure that a fault in the extensions leads to. Malformed ones lead to none. -/
def failureOf? : ExtensionFault → Option Failure
  | .repeated oid => some (.duplicateExtension oid)
  | .defective .malformed => none
  | .defective .unsupportedName => some .unsupportedName

/-- Different faults lead to different failures. -/
theorem eq_of_failureOf? {fault other : ExtensionFault} (h : failureOf? fault = some f)
    (hother : failureOf? other = some f) : fault = other := by
  rw [← hother] at h
  cases fault with
  | repeated oid => cases other with
    | repeated oid' =>
      rw [Failure.duplicateExtension.inj (Option.some.inj h)]
    | defective defect => cases defect <;> cases h
  | defective defect => cases defect with
    | malformed => cases other with
      | repeated oid => cases h
      | defective defect => cases defect <;> first | rfl | cases h
    | unsupportedName => cases other with
      | repeated oid => cases h
      | defective defect => cases defect <;> first | rfl | cases h

/-- **The names are barred** exactly by faults that lead to a failure. -/
theorem bars_iff :
    c.Bars f ↔ ∃ fault, Extension.fault? c.extensions = some fault ∧ failureOf? fault = some f := by
  constructor
  · rintro (⟨again⟩ | ⟨distinct, foreign⟩)
    · exact ⟨_, Extension.fault?_eq_repeated_iff.mpr again, rfl⟩
    · exact ⟨_, Extension.fault?_eq_defective_iff.mpr ⟨distinct, foreign⟩, rfl⟩
  · rintro ⟨fault, hfault, hfailure⟩
    cases fault with
    | repeated oid =>
      obtain rfl := Option.some.inj hfailure
      exact .repeated (Extension.fault?_eq_repeated_iff.mp hfault)
    | defective defect => cases defect with
      | malformed => cases hfailure
      | unsupportedName =>
        obtain rfl := Option.some.inj hfailure
        obtain ⟨distinct, foreign⟩ := Extension.fault?_eq_defective_iff.mp hfault
        exact .unsupported distinct foreign

/-- A certificate has one bar at most, since its extensions have one first fault. -/
theorem Bars.unique {g : Failure} (hf : c.Bars f) (hg : c.Bars g) : f = g := by
  obtain ⟨fault, hfault, hfailure⟩ := bars_iff.mp hf
  obtain ⟨other, hother, hfailure'⟩ := bars_iff.mp hg
  obtain rfl := Option.some.inj (hfault.symm.trans hother)
  exact Option.some.inj (hfailure.symm.trans hfailure')

/-- **Barred names are never reported.** -/
theorem altNameList_of_bars (h : c.Bars f) : c.altNameList = .fail f := by
  obtain ⟨fault, hfault, hfailure⟩ := bars_iff.mp h
  rw [altNameList, readAltNames, hfault]
  cases fault with
  | repeated oid => rw [← Option.some.inj hfailure]
  | defective defect => cases defect with
    | malformed => cases hfailure
    | unsupportedName => rw [← Option.some.inj hfailure]

/-- **Where nothing is at fault,** the names are read, and nothing is reported. -/
theorem altNameList_of_faultless (h : Extension.fault? c.extensions = none) :
    c.altNameList = ⟨[], .ok ((c.extensions.findSome? Extension.altNames?).getD [])⟩ := by
  rw [altNameList, readAltNames, h]
  rfl

/-- **Malformed extensions are reported,** and there are no names. -/
theorem altNameList_of_malformed
    (h : Extension.fault? c.extensions = some (.defective .malformed)) :
    c.altNameList = ⟨[.report .altNamesIgnored], .ok []⟩ := by
  rw [altNameList, readAltNames, h]
  rfl

/-- Unless the names are barred, nothing is at fault or an extension is malformed. -/
theorem fault?_cases_of_not_bars (h : ∀ f, ¬c.Bars f) :
    Extension.fault? c.extensions = none ∨
      Extension.fault? c.extensions = some (.defective .malformed) := by
  cases hfault : Extension.fault? c.extensions with
  | none => exact Or.inl rfl
  | some fault => cases fault with
    | repeated oid => exact absurd (bars_iff.mpr ⟨_, hfault, rfl⟩) (h _)
    | defective defect => cases defect with
      | malformed => exact Or.inr rfl
      | unsupportedName => exact absurd (bars_iff.mpr ⟨_, hfault, rfl⟩) (h _)

theorem outcome_altNameList (h : ∀ f, ¬c.Bars f) :
    c.altNameList.outcome = .ok c.readableNames := by
  rcases fault?_cases_of_not_bars h with hnone | hmalformed
  · rw [altNameList_of_faultless hnone, readableNames, readAltNames, hnone]
  · rw [altNameList_of_malformed hmalformed, readableNames, readAltNames, hmalformed]

/-- **Asking for the names fails exactly with what bars them.** -/
theorem outcome_altNameList_eq_error_iff : c.altNameList.outcome = .error f ↔ c.Bars f := by
  constructor
  · intro h
    by_cases hclear : ∀ g, ¬c.Bars g
    · rw [outcome_altNameList hclear] at h
      cases h
    · obtain ⟨g, hbars⟩ := not_forall_not.mp hclear
      rw [altNameList_of_bars hbars] at h
      obtain rfl := Except.error.inj h
      exact hbars
  · intro h
    rw [altNameList_of_bars h]
    rfl

/-- **Collecting the addresses never fails,** and it filters them out of the names. -/
theorem outcome_collectAddresses (names : List GeneralName) :
    (collectAddresses names).outcome = .ok (names.filterMap GeneralName.address?) := by
  induction names with
  | nil => rfl
  | cons name rest ih =>
    cases name with
    | other oid element =>
      rw [collectAddresses, List.filterMap_cons, GeneralName.address?]
      by_cases hoid : oid = Oid.xmppAddress
      · rw [if_pos hoid, if_pos hoid]
        cases xmppAddressOf? element with
        | none => exact (outcome_report_bind _ _).trans ih
        | some address => exact outcome_bind_of_ok ih _
      · rw [if_neg hoid, if_neg hoid]
        exact ih
    | _ => exact ih

theorem outcome_xmppAddresses (h : ∀ f, ¬c.Bars f) :
    c.xmppAddresses.outcome = .ok (c.readableNames.filterMap GeneralName.address?) := by
  rw [xmppAddresses, outcome_bind_of_ok (outcome_altNameList h)]
  exact outcome_collectAddresses _

/-! ### The common name -/

theorem commonName?_of_defect {defect : NameDefect} (h : c.subject.defect? = some defect) :
    c.commonName? = .error (.illegibleName defect) := by
  rw [commonName?, Name.read_of_defect h]
  rfl

theorem commonName?_of_legible (h : c.subject.defect? = none) :
    c.commonName? = .ok (c.subject.commonName?.bind AttributeValue.text?) := by
  rw [commonName?, Name.read_of_legible h]
  dsimp only [bind, Except.bind]
  cases hname : c.subject.commonName? with
  | none => rfl
  | some value => cases value with
    | text s => rfl
    | octets o => exact absurd hname (Name.commonName?_ne_octets h o)

/-! ### Obstructions -/

/-- **What keeps an identity from being read,** with the failure that it leads to. The subject
is looked at only where nothing bars the names and there is no address among them. -/
inductive Obstructs (c : Certificate) : Failure → Prop
  | extensions {f : Failure} (bars : c.Bars f) : Obstructs c f
  | subject {defect : NameDefect} (clear : ∀ f, ¬c.Bars f)
      (unaddressed : ∀ name ∈ c.readableNames, name.address? = none)
      (illegible : c.subject.defect? = some defect) : Obstructs c (.illegibleName defect)

/-- No obstruction is a verdict against the peer. -/
theorem Obstructs.ne_trust (h : c.Obstructs f) (e : TrustError) : f ≠ .trust e := by
  rcases h with ⟨⟨again⟩ | ⟨distinct, foreign⟩⟩ | _ <;> nofun

theorem outcome_peerIdentity_of_error (h : c.altNameList.outcome = .error f) :
    c.peerIdentity.outcome = .error f := by
  rw [peerIdentity, outcome_bind_of_error]
  rw [xmppAddresses, outcome_bind_of_error h]

theorem outcome_peerIdentity_of_obstructs (h : c.Obstructs f) :
    c.peerIdentity.outcome = .error f := by
  cases h with
  | extensions bars =>
    exact outcome_peerIdentity_of_error (outcome_altNameList_eq_error_iff.mpr bars)
  | subject clear unaddressed illegible =>
    have haddresses := outcome_xmppAddresses clear
    rw [List.filterMap_eq_nil_iff.mpr unaddressed] at haddresses
    rw [peerIdentity, outcome_bind_of_ok haddresses, commonName?_of_defect illegible]
    rfl

/-- **An identity can be read unless something obstructs it.** -/
theorem exists_peerIdentity_or_obstructs (c : Certificate) :
    (∃ identity, c.peerIdentity.outcome = .ok identity) ∨ ∃ f, c.Obstructs f := by
  by_cases hclear : ∀ f, ¬c.Bars f
  · rw [peerIdentity, outcome_bind_of_ok (outcome_xmppAddresses hclear)]
    cases hfound : c.readableNames.filterMap GeneralName.address? with
    | cons address rest => exact Or.inl ⟨_, rfl⟩
    | nil =>
      -- without an address, the subject has to be read
      cases hdefect : c.subject.defect? with
      | none =>
        rw [commonName?_of_legible hdefect]
        exact Or.inl ⟨_, rfl⟩
      | some defect =>
        exact Or.inr ⟨_, .subject hclear (List.filterMap_eq_nil_iff.mp hfound) hdefect⟩
  · obtain ⟨f, hbars⟩ := not_forall_not.mp hclear
    exact Or.inr ⟨f, .extensions hbars⟩

/-- **Reading an identity fails exactly with the obstructions.** -/
theorem peerIdentity_eq_error_iff : c.peerIdentity.outcome = .error f ↔ c.Obstructs f := by
  constructor
  · intro h
    rcases c.exists_peerIdentity_or_obstructs with ⟨identity, hread⟩ | ⟨g, hobstructs⟩
    · rw [hread] at h
      cases h
    · have hfails := outcome_peerIdentity_of_obstructs hobstructs
      rw [h, Except.error.injEq] at hfails
      rwa [hfails]
  · exact outcome_peerIdentity_of_obstructs

end Certificate
end PeerTrust
