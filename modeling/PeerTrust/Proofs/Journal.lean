/-
  `Proofs.Journal` — the end and the events of actions in sequence.

  A sequence ends with a value exactly if both of its parts do, and it fails
  exactly if its first part fails, or its second part does after the first. The
  events of the first part stand before those of the second. Whatever is proved
  about evaluations rests on these laws and never opens the sequence itself.
-/
import PeerTrust.Journal

namespace PeerTrust

/-- **A computation in two parts gives a value** exactly if its first part gives one from which
the second part gives that value. -/
theorem bind_eq_ok_iff {ε α β : Type} {x : Except ε α} {f : α → Except ε β} {b : β} :
    (x >>= f) = .ok b ↔ ∃ a, x = .ok a ∧ f a = .ok b := by
  cases x with
  | error e => simp [bind, Except.bind]
  | ok a => simp [bind, Except.bind]

/-- **A computation in two parts fails** exactly if its first part does, or gives a value from
which the second part does. -/
theorem bind_eq_error_iff {ε α β : Type} {x : Except ε α} {f : α → Except ε β} {e : ε} :
    (x >>= f) = .error e ↔ x = .error e ∨ ∃ a, x = .ok a ∧ f a = .error e := by
  cases x with
  | error e => simp [bind, Except.bind]
  | ok a => simp [bind, Except.bind]

/-- Naming an error in another way leaves a value as it is. -/
theorem mapError_eq_ok_iff {ε ε' α : Type} {x : Except ε α} {g : ε → ε'} {a : α} :
    x.mapError g = .ok a ↔ x = .ok a := by
  cases x with
  | ok b =>
    show Except.ok b = Except.ok a ↔ _
    rw [Except.ok.injEq, Except.ok.injEq]
  | error e =>
    constructor
    · intro h
      cases h
    · intro h
      cases h

theorem mapError_eq_error_iff {ε ε' α : Type} {x : Except ε α} {g : ε → ε'} {f : ε'} :
    x.mapError g = .error f ↔ ∃ e, x = .error e ∧ g e = f := by
  cases x with
  | ok a =>
    constructor
    · intro h
      cases h
    · rintro ⟨e, h, -⟩
      cases h
  | error e =>
    constructor
    · intro h
      exact ⟨e, rfl, Except.error.inj h⟩
    · rintro ⟨e', he, rfl⟩
      obtain rfl := Except.error.inj he
      rfl

namespace Traced

variable {α β : Type}

/-! ### Single actions -/

@[simp] theorem outcome_pure (a : α) : (pure a : Traced α).outcome = .ok a := rfl
@[simp] theorem events_pure (a : α) : (pure a : Traced α).events = [] := rfl
@[simp] theorem outcome_fail (e : Failure) : (fail e : Traced α).outcome = .error e := rfl
@[simp] theorem outcome_ofExcept (x : Except Failure α) : (ofExcept x).outcome = x := rfl

/-! ### Sequences -/

theorem outcome_bind_of_ok {x : Traced α} {a : α} (h : x.outcome = .ok a) (f : α → Traced β) :
    (x >>= f).outcome = (f a).outcome := by
  simp only [bind, Traced.bind, h]

theorem events_bind_of_ok {x : Traced α} {a : α} (h : x.outcome = .ok a) (f : α → Traced β) :
    (x >>= f).events = x.events ++ (f a).events := by
  simp only [bind, Traced.bind, h]

theorem outcome_bind_of_error {x : Traced α} {e : Failure} (h : x.outcome = .error e)
    (f : α → Traced β) : (x >>= f).outcome = .error e := by
  simp only [bind, Traced.bind, h]

theorem events_bind_of_error {x : Traced α} {e : Failure} (h : x.outcome = .error e)
    (f : α → Traced β) : (x >>= f).events = x.events := by
  simp only [bind, Traced.bind, h]

/-- **A sequence ends with a value** exactly if its first part gives a value from which
the second part ends with that value. -/
theorem outcome_bind_eq_ok_iff {x : Traced α} {f : α → Traced β} {b : β} :
    (x >>= f).outcome = .ok b ↔ ∃ a, x.outcome = .ok a ∧ (f a).outcome = .ok b := by
  cases h : x.outcome with
  | ok a => simp [outcome_bind_of_ok h]
  | error e => simp [outcome_bind_of_error h]

/-- **A sequence fails** exactly if its first part does, or gives a value from which the second
part does. -/
theorem outcome_bind_eq_error_iff {x : Traced α} {f : α → Traced β} {e : Failure} :
    (x >>= f).outcome = .error e ↔
      x.outcome = .error e ∨ ∃ a, x.outcome = .ok a ∧ (f a).outcome = .error e := by
  cases h : x.outcome with
  | ok a => simp [outcome_bind_of_ok h]
  | error g => simp [outcome_bind_of_error h]

/-- **What a sequence that ends with a value was made of,** with its events. -/
theorem exists_of_outcome_bind {x : Traced α} {f : α → Traced β} {b : β}
    (h : (x >>= f).outcome = .ok b) :
    ∃ a, x.outcome = .ok a ∧ (f a).outcome = .ok b ∧
      (x >>= f).events = x.events ++ (f a).events := by
  obtain ⟨a, hx, hf⟩ := outcome_bind_eq_ok_iff.mp h
  exact ⟨a, hx, hf, events_bind_of_ok hx f⟩

/-- **An action that cannot fail itself passes its value on.** The sequence is then the
second part with no events in front. -/
@[simp] theorem ofExcept_ok_bind (a : α) (f : α → Traced β) : ofExcept (.ok a) >>= f = f a := by
  simp [bind, Traced.bind, ofExcept]

@[simp] theorem ofExcept_error_bind (e : Failure) (f : α → Traced β) :
    ofExcept (.error e) >>= f = fail e := rfl

@[simp] theorem outcome_report_bind (r : Report) (f : Unit → Traced β) :
    (report r >>= f).outcome = (f ()).outcome :=
  outcome_bind_of_ok rfl f

@[simp] theorem events_report_bind (r : Report) (f : Unit → Traced β) :
    (report r >>= f).events = .report r :: (f ()).events :=
  events_bind_of_ok rfl f

@[simp] theorem outcome_note_bind (e : Event) (f : Unit → Traced β) :
    (note e >>= f).outcome = (f ()).outcome :=
  outcome_bind_of_ok rfl f

/-! ### Reports among the events -/

theorem mem_reports_iff {x : Traced α} {r : Report} : r ∈ x.reports ↔ .report r ∈ x.events := by
  rw [reports, List.mem_filterMap]
  constructor
  · rintro ⟨e, he, hr⟩
    cases e with
    | report s =>
      obtain rfl := Option.some.inj hr
      exact he
    | observed identity => cases hr
  · intro he
    exact ⟨.report r, he, rfl⟩

/-- **The action warns:** it makes the report, as a warning on the channel. -/
def Warns (x : Traced α) (channel : Channel) (r : Report) : Prop :=
  r ∈ x.reports ∧ r.level = .warning ∧ r.channel = channel

/-- An action that leaves the events of another makes its warnings. -/
theorem Warns.mono {x : Traced α} {y : Traced β} {channel : Channel} {r : Report}
    (h : x.Warns channel r) (hsub : x.events ⊆ y.events) : y.Warns channel r :=
  ⟨mem_reports_iff.mpr (hsub (mem_reports_iff.mp h.1)), h.2⟩

/-! ### Failures turned into values -/

@[simp] theorem events_catchTrust (x : Traced α) : x.catchTrust.events = x.events := by
  unfold catchTrust
  split <;> rfl

theorem outcome_catchTrust_of_ok {x : Traced α} {a : α} (h : x.outcome = .ok a) :
    x.catchTrust.outcome = .ok (.ok a) := by
  simp [catchTrust, h]

theorem outcome_catchTrust_of_trust {x : Traced α} {e : TrustError}
    (h : x.outcome = .error (.trust e)) : x.catchTrust.outcome = .ok (.error e) := by
  simp [catchTrust, h]

theorem outcome_catchTrust_of_failure {x : Traced α} {f : Failure} (h : x.outcome = .error f)
    (hf : ∀ e, f ≠ .trust e) : x.catchTrust.outcome = .error f := by
  unfold catchTrust
  split
  · simp_all
  · rename_i e he
    exact absurd (Except.error.inj (h.symm.trans he)) (hf e)
  · simp_all

/-- **A caught action gives a value** exactly if the action itself ends with that value. -/
theorem outcome_catchTrust_eq_ok_iff {x : Traced α} {a : α} :
    x.catchTrust.outcome = .ok (.ok a) ↔ x.outcome = .ok a := by
  unfold catchTrust
  split <;> simp_all

/-- **A caught verdict against the peer** is the failure of the action itself. -/
theorem outcome_catchTrust_eq_error_iff {x : Traced α} {e : TrustError} :
    x.catchTrust.outcome = .ok (.error e) ↔ x.outcome = .error (.trust e) := by
  unfold catchTrust
  split <;> simp_all

theorem outcome_catchStoreLoad_eq_ok_iff {x : Traced α} {a : α} :
    x.catchStoreLoad.outcome = .ok (.ok a) ↔ x.outcome = .ok a := by
  unfold catchStoreLoad
  split <;> simp_all

/-- **A caught failure to load roots** is the failure of the action itself. -/
theorem outcome_catchStoreLoad_eq_error_iff {x : Traced α} {e : StoreLoadError} :
    x.catchStoreLoad.outcome = .ok (.error e) ↔ x.outcome = .error (.storeLoad e) := by
  unfold catchStoreLoad
  split <;> simp_all

theorem outcome_catchStoreLoad_of_failure {x : Traced α} {f : Failure}
    (h : x.outcome = .error f) (hf : ∀ e, f ≠ .storeLoad e) :
    x.catchStoreLoad.outcome = .error f := by
  unfold catchStoreLoad
  split
  · simp_all
  · rename_i e he
    exact absurd (Except.error.inj (h.symm.trans he)) (hf e)
  · simp_all

/-! ### Failures that are no verdicts -/

/-- **The action does not fail with a verdict** against the peer. -/
def Undecided (x : Traced α) : Prop := ∀ e, x.outcome ≠ .error (.trust e)

/-- A sequence fails with no verdict if neither of its parts does. -/
theorem Undecided.bind {x : Traced α} {g : α → Traced β} (hx : x.Undecided)
    (hg : ∀ a, (g a).Undecided) : (x >>= g).Undecided := by
  intro e he
  cases h : x.outcome with
  | error f =>
    rw [outcome_bind_of_error h] at he
    exact hx e (by rw [h, Except.error.inj he])
  | ok a =>
    rw [outcome_bind_of_ok h] at he
    exact hg a e he

/-- A verdict that is turned into a value is no failure. -/
theorem undecided_catchTrust (x : Traced α) : x.catchTrust.Undecided := by
  intro e he
  unfold catchTrust at he
  split at he
  · cases he
  · cases he
  · rename_i f hf hends
    exact hf e (Except.error.inj he)

end Traced

/-! ### Actions on a state -/

namespace Stateful

variable {σ α β : Type} {s : σ} {x : Traced α} {a : α} {e : Failure}

theorem get_bind (f : σ → Stateful σ β) (s : σ) : (get >>= f) s = f s s := rfl

/-- **What comes after an action that succeeds** starts in the same state, and its events are
added. -/
theorem ofTraced_bind_of_ok (h : x.outcome = .ok a) (f : α → Stateful σ β) (s : σ) :
    (ofTraced x >>= f) s =
      ((f a s).1, ⟨x.events ++ (f a s).2.events, (f a s).2.outcome⟩) := by
  simp only [bind, Stateful.bind, ofTraced, h]

/-- **An action that fails ends the sequence** in the state that it found. -/
theorem ofTraced_bind_of_error (h : x.outcome = .error e) (f : α → Stateful σ β) (s : σ) :
    (ofTraced x >>= f) s = (s, ⟨x.events, .error e⟩) := by
  simp only [bind, Stateful.bind, ofTraced, h]

end Stateful
end PeerTrust
