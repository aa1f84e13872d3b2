/-
  `Proofs.Session.Step` — what one operation does to the holders of a session.

  A step is an operation on a holder, on the files or with an evaluator, with
  whatever arguments a caller passes. `Reloads` and `Supplies` say when a step
  gives a holder new roots, by the arguments and the files alone; an operation
  that gives none is shown to change nothing before it fails. `Transition` lists
  all that a step can do, and `transition_after` is the only statement that opens
  the operations.
-/
import PeerTrust.Proofs.Journal
import PeerTrust.Session

namespace PeerTrust

open Traced

/-! ### Holders by number -/

namespace Holders

variable {hs : Holders} {id other : Nat} {h : Holder}

theorem get_set_self (hid : id < hs.cells.length) : (hs.set id h).get id = h := by
  simp [get, set, List.getD, hid]

theorem get_set_of_ne (hne : id ≠ other) : (hs.set id h).get other = hs.get other := by
  simp [get, set, List.getD, List.getElem?_set_ne hne]

/-- A holder that is put back in its own place changes nothing. -/
theorem set_get (hs : Holders) (id : Nat) : hs.set id (hs.get id) = hs := by
  obtain ⟨cells⟩ := hs
  rw [set, get, Holders.mk.injEq]
  by_cases hid : id < cells.length
  · simp [List.getD, hid]
  · exact List.set_eq_of_length_le (Nat.le_of_not_lt hid)

@[simp] theorem length_cells_set (hs : Holders) (id : Nat) (h : Holder) :
    (hs.set id h).cells.length = hs.cells.length :=
  List.length_set

end Holders

/-- The settings that a renewal uses: those that are passed, or else the remembered ones. -/
theorem RenewalSource.asked_getD_eq_settings_iff {v : Value} {held : RenewalSource}
    {config : StoreConfig} :
    (asked v).getD held = .settings config ↔
      v = .storeConfig config ∨ v.isTruthy = false ∧ held = .settings config := by
  have hgiven : ofValue v = .settings config ↔ v = .storeConfig config := by
    cases v <;> simp [ofValue]
  cases htruthy : v.isTruthy with
  | true => simp [asked, htruthy, hgiven]
  | false =>
    have hother : v ≠ .storeConfig config := by
      rintro rfl
      cases htruthy
    simp [asked, htruthy, hother]

namespace Session

/-! ### Steps -/

/-- **One operation,** with the arguments that a caller passes. -/
inductive Step
  | replace (holder roots : Value)
  | reload (holder config : Value)
  | write (path : String) (entry : FileEntry)
  | delete (path : String)
  | evaluate (evaluator : Value) (request : Request)

/-- The session after an operation that gives one only if it succeeds. -/
def keep {α : Type} (s : Session) : Except Failure (Session × α) → Session
  | .ok (after, _) => after
  | .error _ => s

/-- **The session after a step:** for an operation on a holder, the one that it leaves, whether it
fails or not. -/
def after (s : Session) : Step → Session
  | .replace holder roots => (s.replaceRoots holder roots).1
  | .reload holder config => (s.reloadRoots holder config).1
  | .write path entry => s.writeFile path entry
  | .delete path => s.keep ((s.deleteFile path).map fun after => (after, ()))
  | .evaluate _ _ => s

theorem after_replace (s : Session) (holder roots : Value) :
    s.after (.replace holder roots) = (s.replaceRoots holder roots).1 :=
  rfl

theorem after_reload (s : Session) (holder v : Value) :
    s.after (.reload holder v) = (s.reloadRoots holder v).1 :=
  rfl

theorem after_delete (s : Session) (path : String) :
    s.after (.delete path) = s.keep ((s.deleteFile path).map fun after => (after, ())) :=
  rfl

/-- The session after some steps in a row. -/
def run (s : Session) (steps : List Step) : Session := steps.foldl after s

theorem run_concat (s : Session) (steps : List Step) (step : Step) :
    s.run (steps ++ [step]) = (s.run steps).after step := by
  rw [run, List.foldl_append]
  rfl

/-! ### Steps that give roots -/

/-- **The step reloads the holder** with settings that give the roots, as the files are
now. The settings are passed; or what is passed counts as absent, and the holder has
remembered them. -/
inductive Reloads (id : Nat) (s : Session) : Step → StoreConfig → RootSet → Prop
  | given {config : StoreConfig} {roots : RootSet}
      (load : (RootSet.ofConfig s.env config).outcome = .ok roots) :
      Reloads id s (.reload (.holder id) (.storeConfig config)) config roots
  | remembered {v : Value} {config : StoreConfig} {roots : RootSet} (absent : v.isTruthy = false)
      (held : (s.holders.get id).renewal = .settings config)
      (load : (RootSet.ofConfig s.env config).outcome = .ok roots) :
      Reloads id s (.reload (.holder id) v) config roots

/-- **The step gives the holder the roots:** they are passed for it, or loaded for it. -/
inductive Supplies (id : Nat) (s : Session) : Step → RootSet → Prop
  | replaced (roots : RootSet) : Supplies id s (.replace (.holder id) (.roots roots)) roots
  | reloaded {step : Step} {config : StoreConfig} {roots : RootSet}
      (loads : Reloads id s step config roots) : Supplies id s step roots

variable {s : Session} {id : Nat} {v : Value} {config : StoreConfig} {roots : RootSet} {f : Failure}

theorem reloads_iff : Reloads id s (.reload (.holder id) v) config roots ↔
    (RenewalSource.asked v).getD (s.holders.get id).renewal = .settings config ∧
      (RootSet.ofConfig s.env config).outcome = .ok roots := by
  rw [RenewalSource.asked_getD_eq_settings_iff]
  constructor
  · intro h
    cases h with
    | given load => exact ⟨Or.inl rfl, load⟩
    | remembered absent held load => exact ⟨Or.inr ⟨absent, held⟩, load⟩
  · rintro ⟨rfl | ⟨absent, held⟩, load⟩
    · exact .given load
    · exact .remembered absent held load

theorem Reloads.step_eq {step : Step} (h : Reloads id s step config roots) :
    ∃ v, step = .reload (.holder id) v := by
  cases h <;> exact ⟨_, rfl⟩

theorem reloads_of_supplies (h : Supplies id s (.reload (.holder id) v) roots) :
    ∃ config, Reloads id s (.reload (.holder id) v) config roots := by
  cases h with
  | reloaded loads => exact ⟨_, loads⟩

/-- Only an exchange of a holder's roots and a reload of it supply the holder. -/
theorem not_supplies {step : Step} (hreplace : ∀ r, step ≠ .replace (.holder id) (.roots r))
    (hreload : ∀ v, step ≠ .reload (.holder id) v) : ¬Supplies id s step roots := by
  intro h
  cases h with
  | replaced => exact hreplace roots rfl
  | reloaded loads =>
    obtain ⟨v, hstep⟩ := loads.step_eq
    exact hreload v hstep

/-! ### Exchanging and reloading -/

theorem holderArgument_eq_ok_iff : holderArgument v = .ok id ↔ v = .holder id := by
  cases v <;> simp [holderArgument]

theorem withHolder_holder (s : Session) (id : Nat) (action : Stateful Holder RootSet) :
    s.withHolder (.holder id) action =
      ({ s with holders := s.holders.set id (action (s.holders.get id)).1 },
        (action (s.holders.get id)).2) :=
  rfl

/-- What is no holder is refused. -/
theorem withHolder_of_error (h : holderArgument v = .error f) (action : Stateful Holder RootSet) :
    s.withHolder v action = (s, .fail f) := by
  rw [withHolder, h]

/-- **An action that leaves the holder as it was leaves the whole session so.** -/
theorem withHolder_of_eq {action : Stateful Holder RootSet} {result : Traced RootSet}
    (h : action (s.holders.get id) = (s.holders.get id, result)) :
    s.withHolder (.holder id) action = (s, result) := by
  rw [withHolder_holder, h, Holders.set_get]

/-- **Roots that are passed are exchanged,** the settings stay, and the previous roots come
back. -/
theorem replaceRoots_roots (s : Session) (id : Nat) (roots : RootSet) :
    s.replaceRoots (.holder id) (.roots roots) =
      ({ s with holders := s.holders.set id { s.holders.get id with roots := roots } },
        ⟨[.report (.rootsReplaced (s.holders.get id).roots roots)],
          .ok (s.holders.get id).roots⟩) :=
  rfl

/-- **Nothing but a root set can be exchanged for roots,** and what is refused changes nothing. -/
theorem exists_replaceRoots_eq_fail (hother : ∀ roots, v ≠ .roots roots) (id : Nat) :
    ∃ f, s.replaceRoots (.holder id) v = (s, .fail f) := by
  have hroots : ∃ f, Holder.rootsArgument v = .error f := by
    cases v with
    | roots r => exact absurd rfl (hother r)
    | _ => exact ⟨_, rfl⟩
  obtain ⟨f, hf⟩ := hroots
  refine ⟨f, withHolder_of_eq ?_⟩
  unfold Holder.replace
  rw [hf]
  rfl

/-- **A reload that loads roots keeps its settings with them.** -/
theorem reloadRoots_of_reloads (h : Reloads id s (.reload (.holder id) v) config roots) :
    (s.reloadRoots (.holder id) v).1 =
        { s with holders := s.holders.set id ⟨roots, .settings config⟩ } ∧
      (s.reloadRoots (.holder id) v).2.outcome = .ok roots := by
  obtain ⟨hsettings, hload⟩ := reloads_iff.mp h
  have hreload : Holder.reload s.env v (s.holders.get id) =
      (⟨roots, .settings config⟩,
        ⟨(RootSet.ofConfig s.env config).events ++
          [.report (.rootsReplaced (s.holders.get id).roots roots)], .ok roots⟩) := by
    rw [Holder.reload, Stateful.get_bind]
    simp only [hsettings]
    rw [Stateful.ofTraced_bind_of_ok hload]
    rfl
  rw [reloadRoots, withHolder_holder, hreload]
  exact ⟨rfl, rfl⟩

/-- **A reload that loads no roots fails and changes nothing,** whatever the reason: the settings
are kept only after the roots have been loaded. -/
theorem exists_reloadRoots_eq_error
    (h : ∀ config roots, ¬Reloads id s (.reload (.holder id) v) config roots) :
    ∃ f, (s.reloadRoots (.holder id) v).1 = s ∧
      (s.reloadRoots (.holder id) v).2.outcome = .error f := by
  have hreload : ∃ f events, Holder.reload s.env v (s.holders.get id) =
      (s.holders.get id, ⟨events, .error f⟩) := by
    rw [Holder.reload, Stateful.get_bind]
    cases hsettings : (RenewalSource.asked v).getD (s.holders.get id).renewal with
    | absent => exact ⟨_, _, rfl⟩
    | unusable => exact ⟨_, _, rfl⟩
    | settings config =>
      cases hload : (RootSet.ofConfig s.env config).outcome with
      | error f => exact ⟨f, _, Stateful.ofTraced_bind_of_error hload _ _⟩
      | ok roots => exact absurd (reloads_iff.mpr ⟨hsettings, hload⟩) (h config roots)
  obtain ⟨f, events, hf⟩ := hreload
  rw [reloadRoots, withHolder_of_eq hf]
  exact ⟨f, rfl, rfl⟩

/-! ### All that a step can do -/

/-- **What a step does:** it exchanges the roots of one holder, or reloads one holder, or
leaves all holders alone and at most changes the files. -/
inductive Transition (s : Session) : Step → Session → Prop
  | replaced (id : Nat) (roots : RootSet) :
      Transition s (.replace (.holder id) (.roots roots))
        { s with holders := s.holders.set id { s.holders.get id with roots := roots } }
  | reloaded {id : Nat} {v : Value} {config : StoreConfig} {roots : RootSet}
      (loads : Reloads id s (.reload (.holder id) v) config roots) :
      Transition s (.reload (.holder id) v)
        { s with holders := s.holders.set id ⟨roots, .settings config⟩ }
  | kept {step : Step} (files : FileSystem) (idle : ∀ id roots, ¬Supplies id s step roots) :
      Transition s step { s with env := { s.env with files := files } }

/-- A step that supplies no holder may leave the session as it is. -/
theorem Transition.refl {step : Step} (idle : ∀ id roots, ¬Supplies id s step roots) :
    Transition s step s :=
  .kept s.env.files idle

theorem transition_replace (s : Session) (holder roots : Value) :
    Transition s (.replace holder roots) (s.after (.replace holder roots)) := by
  by_cases hboth : ∃ id r, holder = .holder id ∧ roots = .roots r
  · obtain ⟨id, r, rfl, rfl⟩ := hboth
    rw [after_replace, replaceRoots_roots]
    exact .replaced id r
  · obtain ⟨f, hf⟩ : ∃ f, s.replaceRoots holder roots = (s, .fail f) := by
      cases hholder : holderArgument holder with
      | error f => exact ⟨f, withHolder_of_error hholder _⟩
      | ok id =>
        obtain rfl := holderArgument_eq_ok_iff.mp hholder
        exact exists_replaceRoots_eq_fail (fun r hr => hboth ⟨id, r, rfl, hr⟩) id
    rw [after_replace, hf]
    refine .refl fun id r => not_supplies ?_ fun _ => nofun
    rintro r' ⟨⟩
    exact hboth ⟨id, r', rfl, rfl⟩

theorem transition_reload (s : Session) (holder v : Value) :
    Transition s (.reload holder v) (s.after (.reload holder v)) := by
  cases hholder : holderArgument holder with
  | ok id =>
    obtain rfl := holderArgument_eq_ok_iff.mp hholder
    -- whether roots are loaded depends on the settings in use and on the files
    by_cases hloads : ∃ config roots, Reloads id s (.reload (.holder id) v) config roots
    · obtain ⟨config, roots, hloads⟩ := hloads
      rw [after_reload, (reloadRoots_of_reloads hloads).1]
      exact .reloaded hloads
    · obtain ⟨f, hsame, -⟩ :=
        exists_reloadRoots_eq_error fun config roots h => hloads ⟨config, roots, h⟩
      rw [after_reload, hsame]
      refine .refl fun other roots hsupplies => ?_
      by_cases hid : id = other
      · subst hid
        obtain ⟨config, h⟩ := reloads_of_supplies hsupplies
        exact hloads ⟨config, roots, h⟩
      · refine absurd hsupplies (not_supplies (fun _ => nofun) ?_)
        rintro w ⟨⟩
        exact hid rfl
  | error f =>
    rw [after_reload, reloadRoots, withHolder_of_error hholder]
    refine .refl fun id roots => not_supplies (fun _ => nofun) ?_
    rintro w ⟨⟩
    cases hholder

/-- **A step does nothing else.** -/
theorem transition_after (s : Session) (step : Step) : Transition s step (s.after step) := by
  cases step with
  | replace holder roots => exact s.transition_replace holder roots
  | reload holder v => exact s.transition_reload holder v
  | write path entry => exact .kept _ fun _ _ => not_supplies (fun _ => nofun) fun _ => nofun
  | evaluate evaluator request =>
    exact .refl fun _ _ => not_supplies (fun _ => nofun) fun _ => nofun
  | delete path =>
    have hidle : ∀ id roots, ¬Supplies id s (.delete path) roots :=
      fun _ _ => not_supplies (fun _ => nofun) fun _ => nofun
    rw [after_delete]
    unfold deleteFile
    cases s.env.files.delete (Path.ofText path) with
    | ok files => exact .kept files hidle
    | error fault => exact .refl hidle

end Session
end PeerTrust
