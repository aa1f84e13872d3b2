/-
  `Proofs.Clock` — what depends on a clock reading depends on its moment only.

  Validity, the words for an expiry and every decision look at a reading through its instant, so
  readings of one moment of UTC are interchangeable in all of them, however they are written
  (`Reading.interchangeable_of_toUtc?_eq`). For a decision this is one law about what it does with
  its reading (`Evaluator.decide_congr`); requests, host names and connections pass the reading on.

  A reading outside the calendar has no instant. A decision finds this before it makes a context
  for its checks, so none of them runs (`Evaluator.not_reaches_of_toUtc?`), and what is left of the
  evaluation is to read the identity and to fail (`Evaluator.evaluate_eq_of_toUtc?_eq_none`).
-/
import PeerTrust.Clock
import PeerTrust.Manager
import PeerTrust.Proofs.Instant
import PeerTrust.Proofs.Trace

namespace PeerTrust

open Traced

variable {r s : Reading}

/-! ### Questions about readings -/

namespace Reading

theorem instant_eq_ok_iff {t : Instant} : r.instant = .ok t ↔ r.toUtc? = some t := by
  unfold instant
  cases hutc : r.toUtc? with
  | none => exact iff_of_false nofun nofun
  | some u => simp only [Except.ok.injEq, Option.some.injEq]

theorem instant_eq_error_iff : r.instant = .error .outOfCalendar ↔ r.toUtc? = none := by
  unfold instant
  cases hutc : r.toUtc? with
  | none => exact iff_of_true rfl rfl
  | some u => exact iff_of_false nofun nofun

theorem instant_congr (h : r.toUtc? = s.toUtc?) : r.instant = s.instant := by
  rw [instant, instant, h]

end Reading

/-- The text about an expiry looks at the expiry first, and at the reference only if that has an
instant. -/
theorem Expiry.ofValues_eq (now : Instant) (expiry reference : Value) :
    ofValues now expiry reference = expiry.instant >>= fun t =>
      (if reference.isTruthy then reference.instant else .ok now) >>= fun u =>
        .ok (describe t u) := by
  unfold ofValues
  by_cases hpresent : reference.isTruthy = true
  · simp only [hpresent, if_true]
    rfl
  · simp only [hpresent, Bool.false_eq_true, if_false]
    rfl

/-! ### Decisions -/

namespace Evaluator

variable {env : Environment} {holders : Holders} {ev : Evaluator} {roots : Option RootSet}
  {policy : Policy} {chain : Chain} {target : String} {override : Option Policy} {q : Request}

/-- **A decision depends on its reading through the instant.** -/
theorem decide_congr (h : r.toUtc? = s.toUtc?) :
    ev.decide roots policy chain target r = ev.decide roots policy chain target s := by
  unfold decide
  rw [h]

/-- **An evaluation depends on its reference through the instant,** whatever else it is asked. -/
theorem evaluate_congr (h : r.toUtc? = s.toUtc?) (chain target policy : Value) :
    ev.evaluate env holders ⟨chain, target, policy, .dateTime r⟩ =
      ev.evaluate env holders ⟨chain, target, policy, .dateTime s⟩ := by
  -- what is decided is known only when the other values have been read
  have hdecide : ∀ roots policy chain target,
      ev.decide roots policy chain target r = ev.decide roots policy chain target s :=
    fun _ _ _ _ => decide_congr h
  unfold evaluate
  simp only [Request.referenceReading, ofExcept_ok_bind, Option.getD_some, hdecide]
  rfl

theorem demandTrust_congr (h : r.toUtc? = s.toUtc?) (chain target policy : Value) :
    ev.demandTrust env holders ⟨chain, target, policy, .dateTime r⟩ =
      ev.demandTrust env holders ⟨chain, target, policy, .dateTime s⟩ := by
  rw [demandTrust, demandTrust, evaluate_congr h]

/-- **Without an instant a decision never comes to its checks:** it reads the identity and
fails. -/
theorem decide_eq_of_toUtc?_eq_none (h : r.toUtc? = none)
    (hroots : policy.verifyRoot = true → roots ≠ none) :
    ev.decide roots policy chain target r =
      chain.leaf.peerIdentity >>= fun _ => fail .outOfCalendar := by
  unfold decide
  rw [verifyRoot_and_isNone_eq_false_iff.mpr hroots, h]
  rfl

theorem evaluate_eq_of_toUtc?_eq_none (h : r.toUtc? = none)
    (hasks : q.Asks chain target override (some r))
    (hroots : (override.getD ev.policy).verifyRoot = true → ev.source ≠ none) :
    ev.evaluate env holders q = chain.leaf.peerIdentity >>= fun _ => fail .outOfCalendar := by
  rw [evaluate_eq_decide hasks]
  exact decide_eq_of_toUtc?_eq_none h fun hp => (ev.rootsIn_ne_none_iff holders).mpr (hroots hp)

/-- **No check runs for a reference without an instant.** -/
theorem not_reaches_of_toUtc? (h : r.toUtc? = none) (hreference : q.reference = .dateTime r)
    (ctx : CheckContext) : ¬ev.Reaches env holders q ctx := by
  rintro ⟨hasks, -, hclock, -⟩
  have hreading := hasks.reading_eq
  rw [hreference] at hreading
  obtain rfl := Except.ok.inj hreading
  rw [Option.getD_some, h] at hclock
  cases hclock

end Evaluator

/-! ### Readings of one moment -/

namespace Reading

/-- **The readings are interchangeable:** they have one instant or fail alike, and nothing that is
asked at one of them has another answer at the other, with all that is reported on the way. -/
structure Interchangeable (r s : Reading) : Prop where
  instant_eq : r.instant = s.instant
  evaluate_eq : ∀ (env : Environment) (holders : Holders) (ev : Evaluator)
      (chain target policy : Value),
    ev.evaluate env holders ⟨chain, target, policy, .dateTime r⟩ =
      ev.evaluate env holders ⟨chain, target, policy, .dateTime s⟩
  demandTrust_eq : ∀ (env : Environment) (holders : Holders) (ev : Evaluator)
      (chain target policy : Value),
    ev.demandTrust env holders ⟨chain, target, policy, .dateTime r⟩ =
      ev.demandTrust env holders ⟨chain, target, policy, .dateTime s⟩
  validAt_eq : ∀ c : Certificate, c.validAtValue (.dateTime r) = c.validAtValue (.dateTime s)
  check_eq : ∀ (env : Environment) (holders : Holders) (m : Manager) (chain : Value),
    m.check env holders chain (.dateTime r) = m.check env holders chain (.dateTime s)
  verifyConnection_eq : ∀ (env : Environment) (holders : Holders) (m : Manager)
      (chain leaf : Value),
    m.verifyConnection env holders chain leaf (.dateTime r) =
      m.verifyConnection env holders chain leaf (.dateTime s)
  expiry_eq : ∀ (now : Instant) (reference : Value),
    Expiry.ofValues now (.dateTime r) reference = Expiry.ofValues now (.dateTime s) reference
  reference_eq : ∀ (now : Instant) (expiry : Value),
    Expiry.ofValues now expiry (.dateTime r) = Expiry.ofValues now expiry (.dateTime s)

/-- **Readings with one instant, or with none, are interchangeable.** -/
theorem interchangeable_of_toUtc?_eq (h : r.toUtc? = s.toUtc?) : r.Interchangeable s := by
  have hinstant : r.instant = s.instant := instant_congr h
  have hvalue : (Value.dateTime r).instant = (Value.dateTime s).instant := hinstant
  have hcheck : ∀ env holders (m : Manager) chain,
      m.check env holders chain (.dateTime r) = m.check env holders chain (.dateTime s) :=
    fun _ _ _ _ => Evaluator.demandTrust_congr h _ _ _
  refine ⟨hinstant, fun _ _ _ => Evaluator.evaluate_congr h,
    fun _ _ _ => Evaluator.demandTrust_congr h, fun c => ?_, hcheck, ?_, ?_, ?_⟩
  · rw [Certificate.validAtValue, Certificate.validAtValue, hvalue]
  · intro env holders m chain leaf
    unfold Manager.verifyConnection
    simp only [hcheck]
  · intro now reference
    rw [Expiry.ofValues_eq, Expiry.ofValues_eq, hvalue]
  · intro now expiry
    have hpresent : (Value.dateTime r).isTruthy = (Value.dateTime s).isTruthy := rfl
    rw [Expiry.ofValues_eq, Expiry.ofValues_eq, hpresent, hvalue]

/-- **A reading has the instant of its moment,** or it fails because the moment lies outside the
calendar. -/
theorem instant_cases (r : Reading) :
    (Instant.InCalendar r.utcMicros ∧
      ∃ t, r.instant = .ok t ∧ (t.micros : Int) = r.utcMicros) ∨
    (¬Instant.InCalendar r.utcMicros ∧ r.instant = .error .outOfCalendar) := by
  cases hutc : r.toUtc? with
  | some t =>
    have hinside : ¬¬Instant.InCalendar r.utcMicros := by
      rw [← toUtc?_eq_none_iff, hutc]
      exact nofun
    exact Or.inl ⟨Decidable.not_not.mp hinside, t, instant_eq_ok_iff.mpr hutc,
      toUtc?_eq_some_iff.mp hutc⟩
  | none => exact Or.inr ⟨toUtc?_eq_none_iff.mp hutc, instant_eq_error_iff.mpr hutc⟩

end Reading
end PeerTrust
