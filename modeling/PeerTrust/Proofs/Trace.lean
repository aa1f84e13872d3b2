/-
  `Proofs.Trace` — what actions leave behind, and how they end.

  Reading an identity keeps to one channel. A check passes in silence, or objects with
  one warning on a channel of its own, or stumbles without a word, or grants the exception
  for a lone certificate; then it leaves the record and ends as its observer does
  (`CheckContext.Leaves`). A run of checks is silent but for such records up to the check
  that ends it (`CheckContext.RunLeaves`). `leaves_run` is the only statement that opens
  the checks, and `runLeaves_runAll` carries it through a run by induction over the checks.
-/
import PeerTrust.Proofs.Evaluator.Decision
import PeerTrust.Proofs.Identity

namespace PeerTrust

open Traced

/-! ### Channels -/

namespace Traced

variable {α β : Type} {channel : Channel}

/-- **The action keeps to a channel:** it tells no observer, and all its reports go there. -/
def KeepsTo (x : Traced α) (channel : Channel) : Prop :=
  ∀ e ∈ x.events, ∃ r, e = .report r ∧ r.channel = channel

theorem keepsTo_of_events_eq_nil {x : Traced α} (h : x.events = []) : x.KeepsTo channel := by
  intro e he
  rw [h] at he
  cases he

theorem keepsTo_report {r : Report} (h : r.channel = channel) : (report r).KeepsTo channel := by
  intro e he
  obtain rfl := List.mem_singleton.mp he
  exact ⟨r, rfl, h⟩

/-- A sequence keeps to a channel if both of its parts do. -/
theorem KeepsTo.bind {x : Traced α} {f : α → Traced β} (hx : x.KeepsTo channel)
    (hf : ∀ a, (f a).KeepsTo channel) : (x >>= f).KeepsTo channel := by
  intro e he
  cases h : x.outcome with
  | error g =>
    rw [events_bind_of_error h] at he
    exact hx e he
  | ok a =>
    rw [events_bind_of_ok h] at he
    exact (List.mem_append.mp he).elim (hx e) (hf a e)

end Traced

/-! ### Reading an identity -/

namespace Certificate

theorem keepsTo_altNameList (c : Certificate) : c.altNameList.KeepsTo .util := by
  unfold altNameList
  cases c.readAltNames with
  | ok names => exact keepsTo_of_events_eq_nil rfl
  | error fault =>
    cases fault with
    | repeated oid => exact keepsTo_of_events_eq_nil rfl
    | defective defect => cases defect with
      | malformed => exact (keepsTo_report rfl).bind fun _ => keepsTo_of_events_eq_nil rfl
      | unsupportedName => exact keepsTo_of_events_eq_nil rfl

theorem keepsTo_collectAddresses (names : List GeneralName) :
    (collectAddresses names).KeepsTo .util := by
  induction names with
  | nil => exact keepsTo_of_events_eq_nil rfl
  | cons name rest ih =>
    cases name with
    | other oid element =>
      rw [collectAddresses]
      by_cases hoid : oid = Oid.xmppAddress
      · rw [if_pos hoid]
        cases xmppAddressOf? element with
        | none => exact (keepsTo_report rfl).bind fun _ => ih
        | some address => exact ih.bind fun _ => keepsTo_of_events_eq_nil rfl
      · rw [if_neg hoid]
        exact ih
    | dns value => exact ih
    | email value => exact ih
    | uri value => exact ih
    | ip value => exact ih
    | directory name legible => exact ih
    | registered oid => exact ih

/-- **Reading an identity keeps to its channel.** No observer is told, and nothing is said
where checks and decisions are reported. -/
theorem keepsTo_peerIdentity (c : Certificate) : c.peerIdentity.KeepsTo .util := by
  unfold peerIdentity xmppAddresses
  refine (c.keepsTo_altNameList.bind keepsTo_collectAddresses).bind fun addresses => ?_
  by_cases hempty : addresses.isEmpty = true
  · rw [if_pos hempty]
    have hname : (ofExcept c.commonName?).KeepsTo .util := keepsTo_of_events_eq_nil rfl
    exact hname.bind fun _ => keepsTo_of_events_eq_nil rfl
  · rw [if_neg hempty]
    exact keepsTo_of_events_eq_nil rfl

end Certificate

/-! ### Single checks -/

/-- The channel on which a check objects. -/
def CheckName.channel : CheckName → Channel
  | .chain => .chainCheck
  | .root => .rootCheck
  | .identity => .identityCheck
  | .validity => .validityCheck

namespace CheckContext

/-- The record of the exception. -/
def exceptionRecord (ctx : CheckContext) : Report :=
  .selfSignedAccepted ctx.peerIdentity (some ctx.target)

/-- **What a check leaves, and how it ends.** It passes in silence; it objects, with a warning
on its channel; it stumbles over a name, and says nothing; it grants the exception, with a
record, and ends as the observer does; or it cannot place its reference in time, which no
reference in UTC leads to. -/
inductive Leaves (ctx : CheckContext) : CheckName → List Event → Except Failure Unit → Prop
  | silent {check : CheckName} : Leaves ctx check [] (.ok ())
  | objection {check : CheckName} {r : Report} {e : TrustError} (loud : r.level = .warning)
      (own : r.channel = check.channel) : Leaves ctx check [.report r] (.error (.trust e))
  | stumbled {check : CheckName} {defect : NameDefect} (stumbles : ctx.Stumbles check defect) :
      Leaves ctx check [] (.error (.illegibleName defect))
  | exempted (unanchored : ¬ctx.Anchored) (excepted : ctx.Excepted) :
      Leaves ctx .root
        (.report ctx.exceptionRecord :: (Observer.tell ctx.observer ctx.peerIdentity).events)
        (Observer.tell ctx.observer ctx.peerIdentity).outcome
  | unplaced {f : Failure} (elsewhere : ∀ t, ctx.reference ≠ .ofInstant t) :
      Leaves ctx .validity [] (.error f)

theorem leaves_checkLinks (ctx : CheckContext) :
    ctx.Leaves .chain ctx.checkLinks.events ctx.checkLinks.outcome := by
  cases hfault : ctx.chain.fault? with
  | none =>
    rw [checkLinks, hfault]
    exact .silent
  | some l =>
    have hat := Chain.FaultAt.of_fault? hfault
    cases hnamed : l.certificate.askIssuedBy l.issuer with
    | error f =>
      obtain ⟨defect, -, rfl⟩ := Certificate.askIssuedBy_eq_error_iff.mp hnamed
      rw [checkLinks_of_unread hat hnamed]
      exact .stumbled (.link hat hnamed)
    | ok answer => cases answer with
      | true =>
        rw [checkLinks_of_named hat hnamed]
        exact .objection (r := .signatureMismatch _ _ _) rfl rfl
      | false =>
        rw [checkLinks_of_unnamed hat hnamed]
        exact .objection (r := .issuerMismatch _ _ _ _) rfl rfl

theorem leaves_checkRoot (ctx : CheckContext) :
    ctx.Leaves .root ctx.checkRoot.events ctx.checkRoot.outcome := by
  by_cases hanchored : ctx.Anchored
  · rw [checkRoot_of_anchored hanchored]
    exact .silent
  · by_cases hexcepted : ctx.Excepted
    · rw [checkRoot_of_excepted hanchored hexcepted, outcome_recordSelfSigned, recordSelfSigned,
        events_report_bind]
      exact .exempted hanchored hexcepted
    · rw [checkRoot_of_neither hanchored hexcepted]
      cases hsubject : ctx.chain.root.subject.defect? with
      | none =>
        rw [Name.read_of_legible hsubject, ofExcept_ok_bind]
        exact .objection (r := .rootNotFound _ _) rfl rfl
      | some defect =>
        rw [Name.read_of_defect hsubject, ofExcept_error_bind]
        exact .stumbled (.root hanchored hexcepted hsubject)

theorem leaves_checkIdentity (ctx : CheckContext) :
    ctx.Leaves .identity ctx.checkIdentity.events ctx.checkIdentity.outcome := by
  unfold checkIdentity
  by_cases hcovers : Identity.covers ctx.peerIdentity ctx.target = true
  · rw [if_pos hcovers]
    exact .silent
  · rw [if_neg hcovers]
    exact .objection (r := .identityMismatch _ _) rfl rfl

theorem leaves_rejectOutside {ctx : CheckContext} {t : Instant} {depth : Nat} {c : Certificate}
    (hreference : ctx.reference.toUtc? = some t) (houtside : ctx.chain.OutsideAt t depth c) :
    ctx.Leaves .validity (ctx.rejectOutside t depth c).events
      (ctx.rejectOutside t depth c).outcome := by
  unfold rejectOutside
  cases hsubject : c.subject.defect? with
  | some defect =>
    rw [Name.read_of_defect hsubject, ofExcept_error_bind]
    exact .stumbled (.window hreference houtside hsubject)
  | none =>
    rw [Name.read_of_legible hsubject, ofExcept_ok_bind]
    by_cases hearly : t < c.notBefore
    · simp only [hearly, decide_true, if_true]
      exact .objection (r := .notYetValid _ _ _ _) rfl rfl
    · simp only [hearly, decide_false, Bool.false_eq_true, if_false]
      exact .objection (r := .noLongerValid _ _ _ _ _) rfl rfl

theorem leaves_checkValidity (ctx : CheckContext) :
    ctx.Leaves .validity ctx.checkValidity.events ctx.checkValidity.outcome := by
  unfold checkValidity
  cases hutc : ctx.reference.toUtc? with
  | none =>
    refine .unplaced fun t ht => ?_
    rw [ht, Reading.toUtc?_ofInstant] at hutc
    cases hutc
  | some t =>
    cases hout : ctx.chain.outside? t with
    | none =>
      simp only [hout]
      exact .silent
    | some found =>
      obtain ⟨depth, c⟩ := found
      simp only [hout]
      cases hoffset : ctx.reference.offset with
      | none =>
        refine .unplaced fun u hu => ?_
        rw [hu] at hoffset
        cases hoffset
      | some offset => exact leaves_rejectOutside hutc (Chain.OutsideAt.of_outside? hout)

/-- **Every check leaves what is listed, and nothing else.** -/
theorem leaves_run (ctx : CheckContext) (check : CheckName) :
    ctx.Leaves check (ctx.run check).events (ctx.run check).outcome := by
  cases check with
  | chain => exact ctx.leaves_checkLinks
  | root => exact ctx.leaves_checkRoot
  | identity => exact ctx.leaves_checkIdentity
  | validity => exact ctx.leaves_checkValidity

/-! ### Runs of checks -/

/-- The events hold no report but records of the exception. -/
def Unobtrusive (events : List Event) : Prop := ∀ r, .report r ∈ events → r.channel = .audit

/-- **What a run of checks leaves, and how it ends.** Up to the check that ends it, it makes no
report but records of the exception. That check objects; or it stumbles, or it is the check of the
root before an observer that fails otherwise, and then the run has no result. -/
inductive RunLeaves (ctx : CheckContext) (checks : List CheckName) :
    List Event → Except Failure (List CheckName × Option TrustError) → Prop
  | clear {events : List Event} {ran : List CheckName} (unobtrusive : Unobtrusive events) :
      RunLeaves ctx checks events (.ok (ran, none))
  | stopped {earlier last : List Event} {ran : List CheckName} {check : CheckName}
      {e : TrustError} (unobtrusive : Unobtrusive earlier) (listed : ran.getLast? = some check)
      (leaves : ctx.Leaves check last (.error (.trust e))) :
      RunLeaves ctx checks (earlier ++ last) (.ok (ran, some e))
  | failed {earlier last : List Event} {before after : List CheckName} {check : CheckName}
      {f : Failure} (unobtrusive : Unobtrusive earlier) (split : checks = before ++ check :: after)
      (passed : ∀ c ∈ before, (ctx.run c).outcome = .ok ())
      (leaves : ctx.Leaves check last (.error f)) (undecided : ∀ e, f ≠ .trust e) :
      RunLeaves ctx checks (earlier ++ last) (.error f)

variable {ctx : CheckContext} {check : CheckName}

theorem Unobtrusive.append {events later : List Event} (h : Unobtrusive events)
    (hlater : Unobtrusive later) : Unobtrusive (events ++ later) := by
  intro r hr
  exact (List.mem_append.mp hr).elim (h r) (hlater r)

/-- The observer makes no reports. -/
theorem unobtrusive_tell (observer : Option Observer) (identity : String) :
    Unobtrusive (Observer.tell observer identity).events := by
  intro r hr
  cases observer with
  | none => cases hr
  | some observer =>
    cases observer with
    | uncallable => cases hr
    | callable react =>
      have hevents : (Observer.tell (some (.callable react)) identity).events =
          [.observed identity] :=
        events_bind_of_ok rfl _
      rw [hevents] at hr
      cases List.mem_singleton.mp hr

/-- **A check reports on its own channel,** or it puts the exception on record. -/
theorem Leaves.channel_cases {events : List Event} {ends : Except Failure Unit}
    (h : ctx.Leaves check events ends) {r : Report} (hr : .report r ∈ events) :
    r.channel = .audit ∨ r.channel = check.channel := by
  cases h with
  | silent => cases hr
  | stumbled stumbles => cases hr
  | unplaced elsewhere => cases hr
  | objection loud own =>
    obtain rfl : r = _ := by simpa using hr
    exact Or.inr own
  | exempted unanchored excepted =>
    rcases List.mem_cons.mp hr with hrecord | htold
    · obtain rfl : r = ctx.exceptionRecord := by simpa using hrecord
      exact Or.inl rfl
    · exact Or.inl (unobtrusive_tell _ _ r htold)

/-- A check that passes is unobtrusive. -/
theorem Leaves.unobtrusive {events : List Event} (h : ctx.Leaves check events (.ok ())) :
    Unobtrusive events := by
  generalize hends : (Except.ok () : Except Failure Unit) = ends at h
  cases h with
  | silent => exact fun r hr => by cases hr
  | objection => cases hends
  | stumbled => cases hends
  | unplaced => cases hends
  | exempted =>
    intro r hr
    rcases List.mem_cons.mp hr with hrecord | htold
    · obtain rfl : r = ctx.exceptionRecord := by simpa using hrecord
      rfl
    · exact unobtrusive_tell _ _ r htold

theorem unobtrusive_nil : Unobtrusive [] := by
  intro r hr
  cases hr

/-- A check that passes in front of a run belongs to it. -/
theorem RunLeaves.cons {checks : List CheckName} {events before : List Event}
    {result : Except Failure (List CheckName × Option TrustError)}
    (hpasses : (ctx.run check).outcome = .ok ()) (hbefore : Unobtrusive before)
    (h : ctx.RunLeaves checks events result) :
    ctx.RunLeaves (check :: checks) (before ++ events)
      (result.map fun (ran, error) => (check :: ran, error)) := by
  cases h with
  | clear unobtrusive => exact .clear (hbefore.append unobtrusive)
  | stopped unobtrusive listed leaves =>
    rw [← List.append_assoc]
    refine .stopped (hbefore.append unobtrusive) ?_ leaves
    rw [List.getLast?_cons, listed]
    rfl
  | failed unobtrusive split passed leaves undecided =>
    rename_i earlier last first after failing f
    rw [← List.append_assoc]
    have hsplit : check :: checks = (check :: first) ++ failing :: after := by rw [split]; rfl
    exact .failed (hbefore.append unobtrusive) hsplit
      (List.forall_mem_cons.mpr ⟨hpasses, passed⟩) leaves undecided

/-- **Every run of checks leaves what is listed, and nothing else.** -/
theorem runLeaves_runAll (ctx : CheckContext) (checks : List CheckName) :
    ctx.RunLeaves checks (ctx.runAll checks).events (ctx.runAll checks).outcome := by
  induction checks with
  | nil => exact .clear unobtrusive_nil
  | cons check rest ih =>
    have hleaves := ctx.leaves_run check
    cases hrun : (ctx.run check).outcome with
    | ok u =>
      -- the check passes, and what follows is the run of the others
      rw [hrun] at hleaves
      have hfirst : ∀ c ∈ [check], (ctx.run c).outcome = .ok () := by simpa using hrun
      have happend := outcome_runAll_append hfirst rest
      rw [events_runAll_cons_of_ok hrun]
      exact happend ▸ ih.cons hrun hleaves.unobtrusive
    | error f =>
      -- the run ends here: with a verdict if the check objects, and without one if it fails
      rw [hrun] at hleaves
      by_cases hobjects : ∃ e, f = .trust e
      · obtain ⟨e, rfl⟩ := hobjects
        rw [outcome_runAll_cons_of_trust hrun, events_runAll_cons_of_trust hrun]
        exact .stopped unobtrusive_nil rfl hleaves
      · have hf : ∀ e, f ≠ .trust e := fun e he => hobjects ⟨e, he⟩
        rw [outcome_runAll_cons_of_failure hrun hf, events_runAll_cons_of_failure hrun hf]
        exact .failed unobtrusive_nil (List.nil_append _).symm (by simp) hleaves hf

/-- **A run with a result** is unobtrusive throughout, or up to the check that objects. -/
theorem RunLeaves.of_ok {checks : List CheckName} {events : List Event} {ran : List CheckName}
    {error : Option TrustError} (h : ctx.RunLeaves checks events (.ok (ran, error))) :
    (error = none ∧ Unobtrusive events) ∨
      ∃ earlier last check e, error = some e ∧ events = earlier ++ last ∧ Unobtrusive earlier ∧
        ran.getLast? = some check ∧ ctx.Leaves check last (.error (.trust e)) := by
  cases h with
  | clear unobtrusive => exact Or.inl ⟨rfl, unobtrusive⟩
  | stopped unobtrusive listed leaves =>
    exact Or.inr ⟨_, _, _, _, rfl, rfl, unobtrusive, listed, leaves⟩

/-- **A run without a result** is unobtrusive up to the check that fails, which is the first one
that does not pass. -/
theorem RunLeaves.of_error {checks : List CheckName} {events : List Event} {f : Failure}
    (h : ctx.RunLeaves checks events (.error f)) :
    ∃ earlier last before check after, events = earlier ++ last ∧ Unobtrusive earlier ∧
      checks = before ++ check :: after ∧ (∀ c ∈ before, (ctx.run c).outcome = .ok ()) ∧
      ctx.Leaves check last (.error f) ∧ ∀ e, f ≠ .trust e := by
  cases h with
  | failed unobtrusive split passed leaves undecided =>
    exact ⟨_, _, _, _, _, rfl, unobtrusive, split, passed, leaves, undecided⟩

end CheckContext

/-! ### Evaluations that never come to a check -/

/-- **An evaluation that never reaches its checks keeps to the channel of identities.** -/
theorem Evaluator.keepsTo_evaluate_of_not_reaches {env : Environment} {holders : Holders}
    {ev : Evaluator} {r : Request} (h : ∀ ctx, ¬ev.Reaches env holders r ctx) :
    (ev.evaluate env holders r).KeepsTo .util := by
  rcases exists_asks_or_evaluate_eq_fail env holders ev r with
    ⟨chain, target, override, reading, hasks⟩ | ⟨f, hf, -⟩
  · -- the request is well formed, so what is missing shows in the decision
    rw [evaluate_eq_decide hasks, decide]
    by_cases hguard :
        ((override.getD ev.policy).verifyRoot && (ev.rootsIn holders).isNone) = true
    · rw [if_pos hguard]
      exact keepsTo_of_events_eq_nil rfl
    · rw [if_neg hguard]
      intro e he
      cases hidentity : chain.leaf.peerIdentity.outcome with
      | error f =>
        rw [events_bind_of_error hidentity] at he
        exact chain.leaf.keepsTo_peerIdentity e he
      | ok identity =>
        rw [events_bind_of_ok hidentity] at he
        cases ht : (reading.getD (.ofInstant env.now)).toUtc? with
        | none =>
          have hidle : (fail .outOfCalendar : Traced Verdict).events = [] := rfl
          simp only [ht, hidle, List.append_nil] at he
          exact chain.leaf.keepsTo_peerIdentity e he
        | some t =>
          have hrooted : (override.getD ev.policy).verifyRoot = true → ev.source ≠ none := by
            rw [← ev.rootsIn_ne_none_iff holders]
            exact verifyRoot_and_isNone_eq_false_iff.mp (Bool.eq_false_iff.mpr hguard)
          exact absurd (Reaches.intro hasks hrooted ht hidentity) (h _)
  · rw [hf]
    exact keepsTo_of_events_eq_nil rfl

end PeerTrust
