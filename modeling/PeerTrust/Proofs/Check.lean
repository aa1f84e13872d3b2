/-
  `Proofs.Check` — what each check demands, and how it objects.

  `CheckContext.Meets` says when a check is content, `CheckContext.Objects` which
  verdict it gives against the peer when it is not, and `CheckContext.Stumbles` when
  it gives none since a name cannot be read. All three are relations on the parts of
  the context: they mention no walk, no order of comparisons and no early exit.
  `ends_run` is the only statement that opens the checks; it says that a check whose
  observer returns ends in one of these three ways.
-/
import PeerTrust.Evaluator
import PeerTrust.Proofs.Chain
import PeerTrust.Proofs.Journal

namespace PeerTrust

open Traced

/-! ### Observers -/

/-- An observer that returns, whatever identity it is told about. -/
def Observer.Returns (observer : Option Observer) : Prop :=
  ∀ identity, (Observer.tell observer identity).outcome = .ok ()

/-- Putting an acceptance on record ends as the observer does. -/
theorem outcome_recordSelfSigned (identity : String) (target : Option String)
    (observer : Option Observer) :
    (recordSelfSigned identity target observer).outcome =
      (Observer.tell observer identity).outcome :=
  outcome_report_bind _ _

namespace CheckContext

/-! ### Demands and objections -/

/-- The last certificate of the chain is one of the trusted roots, as a whole certificate. -/
def Anchored (ctx : CheckContext) : Prop :=
  ∃ roots last, ctx.roots = some roots ∧ ctx.chain.toList.getLast? = some last ∧
    last ∈ roots.anchors

/-- The chain is a lone certificate, and the policy accepts such certificates. -/
def Excepted (ctx : CheckContext) : Prop :=
  ctx.chain.toList.length = 1 ∧ ctx.policy.acceptSelfSigned = true

/-- **What a check demands.** Every certificate is issued and signed by the next; the root
is anchored or excepted; the identity covers the target; the reference lies in all windows. -/
def Meets (ctx : CheckContext) : CheckName → Prop
  | .chain => ∀ i c issuer, ctx.chain.Adjacent i c issuer →
      c.issuedBy issuer = true ∧ c.signedWith issuer = true
  | .root => ctx.Anchored ∨ ctx.Excepted
  | .identity => Identity.covers ctx.peerIdentity ctx.target = true
  | .validity => ∃ t, ctx.reference.toUtc? = some t ∧
      ∀ c ∈ ctx.chain.toList, c.notBefore ≤ t ∧ t ≤ c.notAfter

/-- **The verdict a check gives against the peer.** Of several faulty links the one
nearest to the root is reported, with its names before its signature; of several
certificates outside their windows it is the one nearest to the leaf. A verdict names
the subject that it is about, so that one can be read. -/
inductive Objects (ctx : CheckContext) : CheckName → TrustError → Prop
  | linkage {i : Nat} {c issuer : Certificate} (fault : ctx.chain.FaultAt i c issuer)
      (unnamed : c.askIssuedBy issuer = .ok false) :
      Objects ctx .chain (.chainLinkage (.str ctx.peerIdentity) (.str ctx.target))
  | signature {i : Nat} {c issuer : Certificate} (fault : ctx.chain.FaultAt i c issuer)
      (named : c.askIssuedBy issuer = .ok true) (unsigned : c.signedWith issuer = false) :
      Objects ctx .chain (.signature (.str ctx.peerIdentity) (.str ctx.target))
  | root (unanchored : ¬ctx.Anchored) (unexcepted : ¬ctx.Excepted)
      (legible : ctx.chain.root.subject.defect? = none) :
      Objects ctx .root
        (.rootNotTrusted (.str ctx.peerIdentity) (.str ctx.target) ctx.chain.isAlone)
  | identity (uncovered : Identity.covers ctx.peerIdentity ctx.target = false) :
      Objects ctx .identity (.identityMismatch (.str ctx.peerIdentity) (.str ctx.target))
  | window {t : Instant} {i : Nat} {c : Certificate} (reference : ctx.reference.toUtc? = some t)
      (outside : ctx.chain.OutsideAt t i c) (legible : c.subject.defect? = none) :
      Objects ctx .validity
        (.expired (.str ctx.target) (decide (t < c.notBefore)) (.str ctx.peerIdentity))

/-- **A check stumbles** over a name that it has to read and cannot: the names of the faulty link
nearest to the root, or the subject that a verdict would be about. -/
inductive Stumbles (ctx : CheckContext) : CheckName → NameDefect → Prop
  | link {i : Nat} {c issuer : Certificate} {defect : NameDefect}
      (fault : ctx.chain.FaultAt i c issuer)
      (unread : c.askIssuedBy issuer = .error (.illegibleName defect)) :
      Stumbles ctx .chain defect
  | root {defect : NameDefect} (unanchored : ¬ctx.Anchored) (unexcepted : ¬ctx.Excepted)
      (illegible : ctx.chain.root.subject.defect? = some defect) : Stumbles ctx .root defect
  | window {t : Instant} {i : Nat} {c : Certificate} {defect : NameDefect}
      (reference : ctx.reference.toUtc? = some t) (outside : ctx.chain.OutsideAt t i c)
      (illegible : c.subject.defect? = some defect) : Stumbles ctx .validity defect

variable {ctx : CheckContext} {check : CheckName}

/-- What a check demands is not met while a link is at fault. -/
theorem not_meets_of_faultAt {i : Nat} {c issuer : Certificate}
    (h : ctx.chain.FaultAt i c issuer) : ¬ctx.Meets .chain :=
  fun hmeets => h.unsound (hmeets _ _ _ h.adjacent)

/-- Nor is it while the reference lies outside a window. -/
theorem not_meets_of_outsideAt {t : Instant} {i : Nat} {c : Certificate}
    (reference : ctx.reference.toUtc? = some t) (h : ctx.chain.OutsideAt t i c) :
    ¬ctx.Meets .validity := by
  rintro ⟨u, hu, hall⟩
  obtain rfl := Option.some.inj (reference.symm.trans hu)
  exact h.outside (hall _ (List.mem_of_getElem? h.atDepth))

/-- A check never objects to what it demands. -/
theorem not_meets_of_objects {e : TrustError} (h : ctx.Objects check e) : ¬ctx.Meets check := by
  cases h with
  | linkage fault unnamed => exact not_meets_of_faultAt fault
  | signature fault named unsigned => exact not_meets_of_faultAt fault
  | root unanchored unexcepted legible => exact fun hmeets => hmeets.elim unanchored unexcepted
  | identity uncovered =>
    intro hmeets
    rw [Meets, uncovered] at hmeets
    exact Bool.false_ne_true hmeets
  | window reference outside legible => exact not_meets_of_outsideAt reference outside

/-- A check never stumbles over what it demands. -/
theorem not_meets_of_stumbles {defect : NameDefect} (h : ctx.Stumbles check defect) :
    ¬ctx.Meets check := by
  cases h with
  | link fault unread => exact not_meets_of_faultAt fault
  | root unanchored unexcepted illegible => exact fun hmeets => hmeets.elim unanchored unexcepted
  | window reference outside illegible => exact not_meets_of_outsideAt reference outside

/-- **No check stumbles over names that can be read.** -/
theorem not_stumbles_of_legible
    (h : ∀ c ∈ ctx.chain.toList, c.subject.defect? = none ∧ c.issuer.defect? = none)
    (defect : NameDefect) : ¬ctx.Stumbles check defect := by
  intro hstumbles
  cases hstumbles with
  | link fault unread =>
    obtain ⟨found, hfound, -⟩ := Certificate.askIssuedBy_eq_error_iff.mp unread
    obtain ⟨hhere, hnext⟩ := fault.adjacent
    rw [(h _ (List.mem_of_getElem? hhere)).2, (h _ (List.mem_of_getElem? hnext)).1] at hfound
    simp at hfound
  | root unanchored unexcepted illegible =>
    have hroot := List.mem_of_getLast? ctx.chain.getLast?_toList
    rw [(h _ hroot).1] at illegible
    cases illegible
  | window reference outside illegible =>
    rw [(h _ (List.mem_of_getElem? outside.atDepth)).1] at illegible
    cases illegible

/-- **How a check ends:** it is content, or it objects, or it stumbles. -/
inductive Ends (ctx : CheckContext) (check : CheckName) (x : Traced Unit) : Prop
  | content (meets : ctx.Meets check) (outcome : x.outcome = .ok ())
  | objection {e : TrustError} (objects : ctx.Objects check e)
      (outcome : x.outcome = .error (.trust e))
  | stumble {defect : NameDefect} (stumbles : ctx.Stumbles check defect)
      (outcome : x.outcome = .error (.illegibleName defect))

/-- **A check ends without a failure exactly if its demand is met.** -/
theorem Ends.outcome_eq_ok_iff {x : Traced Unit} (h : ctx.Ends check x) :
    x.outcome = .ok () ↔ ctx.Meets check := by
  cases h with
  | content meets outcome => exact ⟨fun _ => meets, fun _ => outcome⟩
  | objection objects outcome =>
    rw [outcome]
    exact ⟨nofun, fun hmeets => absurd hmeets (not_meets_of_objects objects)⟩
  | stumble stumbles outcome =>
    rw [outcome]
    exact ⟨nofun, fun hmeets => absurd hmeets (not_meets_of_stumbles stumbles)⟩

/-! ### The links -/

section Links

variable {i : Nat} {c issuer : Certificate} {f : Failure}

/-- A pair whose names cannot be read ends the check. -/
theorem checkLinks_of_unread (h : ctx.chain.FaultAt i c issuer)
    (hunread : c.askIssuedBy issuer = .error f) : ctx.checkLinks = .fail f := by
  rw [checkLinks, (ctx.chain.fault?_eq_some_iff i c issuer).mpr h]
  simp only [hunread]
  rfl

/-- A pair that does not name its issuer is blamed for that, whatever its signature. -/
theorem checkLinks_of_unnamed (h : ctx.chain.FaultAt i c issuer)
    (hunnamed : c.askIssuedBy issuer = .ok false) :
    ctx.checkLinks = (do
      .report (.issuerMismatch ctx.target i c.issuer issuer.subject)
      .fail (.trust (.chainLinkage (.str ctx.peerIdentity) (.str ctx.target)))) := by
  rw [checkLinks, (ctx.chain.fault?_eq_some_iff i c issuer).mpr h]
  simp only [hunnamed]
  rfl

/-- A pair that names its issuer is blamed for its signature. -/
theorem checkLinks_of_named (h : ctx.chain.FaultAt i c issuer)
    (hnamed : c.askIssuedBy issuer = .ok true) :
    ctx.checkLinks = (do
      .report (.signatureMismatch ctx.target i issuer.subject)
      .fail (.trust (.signature (.str ctx.peerIdentity) (.str ctx.target)))) := by
  rw [checkLinks, (ctx.chain.fault?_eq_some_iff i c issuer).mpr h]
  simp only [hnamed]
  rfl

end Links

theorem ends_checkLinks (ctx : CheckContext) : ctx.Ends .chain ctx.checkLinks := by
  cases hfault : ctx.chain.fault? with
  | none =>
    refine .content (ctx.chain.fault?_eq_none_iff.mp hfault) ?_
    rw [checkLinks, hfault]
    rfl
  | some l =>
    have hat := Chain.FaultAt.of_fault? hfault
    cases hnamed : l.certificate.askIssuedBy l.issuer with
    | error f =>
      obtain ⟨defect, -, rfl⟩ := Certificate.askIssuedBy_eq_error_iff.mp hnamed
      exact .stumble (.link hat hnamed) (by rw [checkLinks_of_unread hat hnamed, outcome_fail])
    | ok answer => cases answer with
      | true =>
        have hunsigned : l.certificate.signedWith l.issuer = false := by
          rw [← Bool.not_eq_true]
          exact fun hsigned => hat.unsound ⟨Certificate.issuedBy_iff.mpr hnamed, hsigned⟩
        refine .objection (.signature hat hnamed hunsigned) ?_
        rw [checkLinks_of_named hat hnamed, outcome_report_bind, outcome_fail]
      | false =>
        refine .objection (.linkage hat hnamed) ?_
        rw [checkLinks_of_unnamed hat hnamed, outcome_report_bind, outcome_fail]

/-! ### The root -/

theorem hasTrustedRoot_iff (ctx : CheckContext) : ctx.hasTrustedRoot = true ↔ ctx.Anchored := by
  unfold hasTrustedRoot Anchored
  rw [Chain.getLast?_toList]
  cases ctx.roots with
  | none => simp
  | some roots => simp [RootSet.contains]

theorem excepted_iff (ctx : CheckContext) :
    (ctx.chain.isAlone && ctx.policy.acceptSelfSigned) = true ↔ ctx.Excepted := by
  rw [Bool.and_eq_true, Chain.isAlone_iff, Excepted]

theorem checkRoot_of_anchored {ctx : CheckContext} (h : ctx.Anchored) :
    ctx.checkRoot = pure () := by
  rw [checkRoot, if_pos (ctx.hasTrustedRoot_iff.mpr h)]

theorem checkRoot_of_excepted {ctx : CheckContext} (h : ¬ctx.Anchored) (hex : ctx.Excepted) :
    ctx.checkRoot = recordSelfSigned ctx.peerIdentity (some ctx.target) ctx.observer := by
  rw [checkRoot, if_neg (mt ctx.hasTrustedRoot_iff.mp h), if_pos (ctx.excepted_iff.mpr hex)]

theorem checkRoot_of_neither (h : ¬ctx.Anchored) (hex : ¬ctx.Excepted) :
    ctx.checkRoot = (do
      let subject ← .ofExcept ctx.chain.root.subject.read
      .report (.rootNotFound ctx.target subject)
      .fail (.trust
        (.rootNotTrusted (.str ctx.peerIdentity) (.str ctx.target) ctx.chain.isAlone))) := by
  rw [checkRoot, if_neg (mt ctx.hasTrustedRoot_iff.mp h), if_neg (mt ctx.excepted_iff.mp hex)]

/-- The verdict against a root, if its subject can be read. -/
theorem outcome_checkRoot_of_neither (h : ¬ctx.Anchored) (hex : ¬ctx.Excepted)
    (hlegible : ctx.chain.root.subject.defect? = none) :
    ctx.checkRoot.outcome = .error (.trust
      (.rootNotTrusted (.str ctx.peerIdentity) (.str ctx.target) ctx.chain.isAlone)) := by
  rw [checkRoot_of_neither h hex, Name.read_of_legible hlegible]
  rfl

/-- There is no other verdict against a root. -/
theorem eq_of_checkRoot_of_neither (h : ¬ctx.Anchored) (hex : ¬ctx.Excepted) {e : TrustError}
    (hobjects : ctx.checkRoot.outcome = .error (.trust e)) :
    e = .rootNotTrusted (.str ctx.peerIdentity) (.str ctx.target) ctx.chain.isAlone := by
  cases hsubject : ctx.chain.root.subject.defect? with
  | none =>
    rw [outcome_checkRoot_of_neither h hex hsubject] at hobjects
    exact (Failure.trust.inj (Except.error.inj hobjects)).symm
  | some defect =>
    rw [checkRoot_of_neither h hex, Name.read_of_defect hsubject] at hobjects
    cases hobjects

/-- **A root that passes is anchored or excepted.** Neither the verdict against another root nor a
subject that cannot be read is a pass. -/
theorem anchored_or_excepted_of_checkRoot (h : ctx.checkRoot.outcome = .ok ()) :
    ctx.Anchored ∨ ctx.Excepted := by
  by_contra hneither
  obtain ⟨hunanchored, hunexcepted⟩ := not_or.mp hneither
  rw [checkRoot_of_neither hunanchored hunexcepted] at h
  obtain ⟨subject, -, hfails⟩ := outcome_bind_eq_ok_iff.mp h
  cases hfails

theorem ends_checkRoot (ctx : CheckContext) (hobserver : Observer.Returns ctx.observer) :
    ctx.Ends .root ctx.checkRoot := by
  by_cases hanchored : ctx.Anchored
  · exact .content (Or.inl hanchored) (by rw [checkRoot_of_anchored hanchored]; rfl)
  · by_cases hexcepted : ctx.Excepted
    · refine .content (Or.inr hexcepted) ?_
      rw [checkRoot_of_excepted hanchored hexcepted, outcome_recordSelfSigned]
      exact hobserver ctx.peerIdentity
    · cases hsubject : ctx.chain.root.subject.defect? with
      | none =>
        exact .objection (.root hanchored hexcepted hsubject)
          (outcome_checkRoot_of_neither hanchored hexcepted hsubject)
      | some defect =>
        refine .stumble (.root hanchored hexcepted hsubject) ?_
        rw [checkRoot_of_neither hanchored hexcepted, Name.read_of_defect hsubject]
        rfl

/-! ### The identity and the windows -/

theorem ends_checkIdentity (ctx : CheckContext) : ctx.Ends .identity ctx.checkIdentity := by
  unfold checkIdentity
  by_cases hcovers : Identity.covers ctx.peerIdentity ctx.target = true
  · rw [if_pos hcovers]
    exact .content hcovers rfl
  · rw [if_neg hcovers]
    rw [Bool.not_eq_true] at hcovers
    exact .objection (.identity hcovers) (outcome_report_bind _ _)

theorem ends_checkValidity (ctx : CheckContext) {t : Instant}
    (hreference : ctx.reference = .ofInstant t) : ctx.Ends .validity ctx.checkValidity := by
  have hutc : ctx.reference.toUtc? = some t := by rw [hreference, Reading.toUtc?_ofInstant]
  simp only [checkValidity, hutc]
  cases hout : ctx.chain.outside? t with
  | none => exact .content ⟨t, hutc, (ctx.chain.outside?_eq_none_iff t).mp hout⟩ rfl
  | some found =>
    obtain ⟨n, c⟩ := found
    have hat := Chain.OutsideAt.of_outside? hout
    simp only [hreference, Reading.ofInstant, Option.isNone_some, Bool.false_eq_true, if_false]
    cases hsubject : c.subject.defect? with
    | none =>
      refine .objection (.window hutc hat hsubject) ?_
      rw [rejectOutside, Name.read_of_legible hsubject]
      rfl
    | some defect =>
      refine .stumble (.window hutc hat hsubject) ?_
      rw [rejectOutside, Name.read_of_defect hsubject]
      rfl

/-! ### All checks -/

/-- **A check is content, or it objects, or it stumbles.** In a context with a clock that shows
UTC and an observer that returns, a check ends without a failure exactly if its demand is met,
and else with the objection to it, or with the defect of a name that it has to read. -/
theorem ends_run (ctx : CheckContext) {t : Instant} (hreference : ctx.reference = .ofInstant t)
    (hobserver : Observer.Returns ctx.observer) (check : CheckName) :
    ctx.Ends check (ctx.run check) := by
  cases check with
  | chain => exact ctx.ends_checkLinks
  | root => exact ctx.ends_checkRoot hobserver
  | identity => exact ctx.ends_checkIdentity
  | validity => exact ctx.ends_checkValidity hreference

/-- **A check that stumbles fails** over the name, and gives no verdict. -/
theorem outcome_run_of_stumbles {t : Instant} (hreference : ctx.reference = .ofInstant t)
    {defect : NameDefect} (h : ctx.Stumbles check defect) :
    (ctx.run check).outcome = .error (.illegibleName defect) := by
  cases h with
  | link fault unread => rw [run, checkLinks_of_unread fault unread, outcome_fail]
  | root unanchored unexcepted illegible =>
    rw [run, checkRoot_of_neither unanchored unexcepted, Name.read_of_defect illegible]
    rfl
  | window reference outside illegible =>
    have hoffset : ctx.reference.offset.isNone = false := by rw [hreference]; rfl
    simp only [run, checkValidity, reference, Chain.outside?_eq_some_iff.mpr outside, hoffset,
      Bool.false_eq_true, if_false]
    rw [rejectOutside, Name.read_of_defect illegible]
    rfl

end CheckContext
end PeerTrust
