/-
  `Proofs.Session.History` — a holder is a function of what happened to it.

  After any run of steps, the settings of a holder are those of its latest reload
  that succeeded, and its roots are those of its latest exchange or reload that
  did, each as the files were at that step. `Latest` and `Never` say this of a
  run by its decompositions, without a second state. The step is
  `Transition.get_cases`; `latest_or_never` carries an observation of the session
  through a run, and `run_holder` assembles the laws of a holder.
-/
import Mathlib.Data.List.Induction
import PeerTrust.Proofs.Evaluator.Decision
import PeerTrust.Proofs.Session.Step

namespace PeerTrust.Session

open Traced

/-! ### The latest effect of a run -/

section Latest

variable {α β : Type} (Effect : Session → Step → α → Prop) (start : Session)

/-- **The latest effect in a run:** one of its steps had it, and none of the later ones had
any. Each step is looked at in the session that it found. -/
def Latest (steps : List Step) (a : α) : Prop :=
  ∃ before step later, steps = before ++ step :: later ∧ Effect (start.run before) step a ∧
    ∀ between next rest, later = between ++ next :: rest →
      ∀ b, ¬Effect (start.run (before ++ step :: between)) next b

/-- No step of the run had the effect. -/
def Never (steps : List Step) : Prop :=
  ∀ before step later, steps = before ++ step :: later → ∀ a, ¬Effect (start.run before) step a

variable {Effect start} {steps : List Step} {step : Step} {a : α}

/-- Where a step can stand in a run with a last step: it is the last one, or it stands in
the run before. -/
theorem concat_eq_append_cons {before later : List Step} {last : Step}
    (h : steps ++ [last] = before ++ step :: later) :
    (before = steps ∧ step = last ∧ later = []) ∨
      ∃ later', later = later' ++ [last] ∧ steps = before ++ step :: later' := by
  rcases List.eq_nil_or_concat later with rfl | ⟨later', other, rfl⟩
  · obtain ⟨hsteps, hlast⟩ := List.append_inj' h rfl
    exact Or.inl ⟨hsteps.symm, (List.cons.inj hlast).1.symm, rfl⟩
  · rw [List.concat_eq_append] at h ⊢
    rw [← List.cons_append, ← List.append_assoc] at h
    obtain ⟨hsteps, hlast⟩ := List.append_inj' h rfl
    obtain rfl := (List.cons.inj hlast).1
    exact Or.inr ⟨later', rfl, hsteps⟩

theorem latest_concat (h : Effect (start.run steps) step a) :
    Latest Effect start (steps ++ [step]) a :=
  ⟨steps, step, [], rfl, h, by simp⟩

theorem Latest.concat (h : Latest Effect start steps a)
    (hstep : ∀ b, ¬Effect (start.run steps) step b) :
    Latest Effect start (steps ++ [step]) a := by
  obtain ⟨before, was, later, rfl, heffect, hlater⟩ := h
  refine ⟨before, was, later ++ [step], by simp, heffect, ?_⟩
  intro between next rest hsplit b
  rcases concat_eq_append_cons hsplit with ⟨rfl, rfl, rfl⟩ | ⟨rest', rfl, hsplit'⟩
  · exact hstep b
  · exact hlater between next rest' hsplit' b

theorem Never.concat (h : Never Effect start steps)
    (hstep : ∀ b, ¬Effect (start.run steps) step b) : Never Effect start (steps ++ [step]) := by
  intro before was later hsplit b
  rcases concat_eq_append_cons hsplit with ⟨rfl, rfl, rfl⟩ | ⟨later', rfl, hsplit'⟩
  · exact hstep b
  · exact h before was later' hsplit' b

/-- **An observation follows the latest effect.** If each step with the effect sets what is
observed and every other step leaves it, then after a run it is what the latest effect
set, or what it was at the start. -/
theorem latest_or_never (observe : Session → β) (set : α → β) (Inv : Session → Prop)
    (hinv : ∀ s step, Inv s → Inv (s.after step))
    (hstep : ∀ s step, Inv s → (∃ a, Effect s step a ∧ observe (s.after step) = set a) ∨
      ((∀ a, ¬Effect s step a) ∧ observe (s.after step) = observe s))
    (hstart : Inv start) (steps : List Step) :
    (∃ a, Latest Effect start steps a ∧ observe (start.run steps) = set a) ∨
      (Never Effect start steps ∧ observe (start.run steps) = observe start) := by
  have hrun : ∀ steps, Inv (start.run steps) := by
    intro steps
    induction steps using List.reverseRecOn with
    | nil => exact hstart
    | append_singleton steps step ih =>
      rw [run_concat]
      exact hinv _ step ih
  -- from the end, so that the last step is looked at in the session that it found
  induction steps using List.reverseRecOn with
  | nil => exact Or.inr ⟨by intro before step later hsplit; simp at hsplit, rfl⟩
  | append_singleton steps step ih =>
    rw [run_concat]
    rcases hstep _ step (hrun steps) with ⟨a, heffect, hset⟩ | ⟨hnone, hleft⟩
    · exact Or.inl ⟨a, latest_concat heffect, hset⟩
    · rw [hleft]
      rcases ih with ⟨a, hlatest, hset⟩ | ⟨hnever, hkept⟩
      · exact Or.inl ⟨a, hlatest.concat hnone, hset⟩
      · exact Or.inr ⟨hnever.concat hnone, hkept⟩

end Latest

/-! ### One step of a holder -/

variable {s now start : Session} {step : Step} {id : Nat}

/-- **What a step does to one holder:** it exchanges the roots, it reloads, or it leaves the
holder as it was. The last is so for all steps on other holders and for all that fail. -/
theorem Transition.get_cases (h : Transition s step now) (hid : id < s.holders.cells.length) :
    (∃ roots, step = .replace (.holder id) (.roots roots) ∧
      now.holders.get id = { s.holders.get id with roots := roots }) ∨
    (∃ config roots, Reloads id s step config roots ∧
      now.holders.get id = ⟨roots, .settings config⟩) ∨
    ((∀ roots, ¬Supplies id s step roots) ∧ now.holders.get id = s.holders.get id) := by
  cases h with
  | @replaced other roots =>
    -- a step on another holder does not reach this one
    by_cases hother : other = id
    · subst hother
      exact Or.inl ⟨roots, rfl, Holders.get_set_self hid⟩
    · refine Or.inr (Or.inr ⟨fun _ => not_supplies ?_ fun _ => nofun, ?_⟩)
      · rintro r ⟨⟩
        exact hother rfl
      · exact Holders.get_set_of_ne hother
  | @reloaded other v config roots loads =>
    by_cases hother : other = id
    · subst hother
      exact Or.inr (Or.inl ⟨config, roots, loads, Holders.get_set_self hid⟩)
    · refine Or.inr (Or.inr ⟨fun _ => not_supplies (fun _ => nofun) ?_, ?_⟩)
      · rintro w ⟨⟩
        exact hother rfl
      · exact Holders.get_set_of_ne hother
  | kept files idle => exact Or.inr (Or.inr ⟨idle id, rfl⟩)

/-- No step adds or drops a holder or an evaluator. -/
theorem Transition.frame (h : Transition s step now) :
    now.holders.cells.length = s.holders.cells.length ∧ now.evaluators = s.evaluators := by
  cases h with
  | replaced other roots => exact ⟨Holders.length_cells_set _ _ _, rfl⟩
  | reloaded loads => exact ⟨Holders.length_cells_set _ _ _, rfl⟩
  | kept files idle => exact ⟨rfl, rfl⟩

theorem frame_run (start : Session) (steps : List Step) :
    (start.run steps).holders.cells.length = start.holders.cells.length ∧
      (start.run steps).evaluators = start.evaluators := by
  induction steps using List.reverseRecOn with
  | nil => exact ⟨rfl, rfl⟩
  | append_singleton steps step ih =>
    obtain ⟨hlength, hevaluators⟩ := (transition_after (start.run steps) step).frame
    rw [run_concat, hlength, hevaluators]
    exact ih

/-! ### The laws of a holder -/

/-- The step reloads the holder with the settings. -/
def Renews (id : Nat) (s : Session) (step : Step) (config : StoreConfig) : Prop :=
  ∃ roots, Reloads id s step config roots

/-- **The settings of a holder** are those of the latest reload that succeeded. -/
theorem renewal_run (hid : id < start.holders.cells.length) (steps : List Step) :
    (∃ config, Latest (Renews id) start steps config ∧
      ((start.run steps).holders.get id).renewal = .settings config) ∨
    (Never (Renews id) start steps ∧
      ((start.run steps).holders.get id).renewal = (start.holders.get id).renewal) := by
  refine latest_or_never (fun s => (s.holders.get id).renewal) .settings
    (fun s => id < s.holders.cells.length) ?_ ?_ hid steps
  · intro s step hs
    rwa [(s.transition_after step).frame.1]
  · intro s step hs
    rcases (s.transition_after step).get_cases hs with
      ⟨roots, rfl, hget⟩ | ⟨config, roots, hloads, hget⟩ | ⟨hidle, hget⟩
    · -- an exchange is no reload, and it keeps the settings
      refine Or.inr ⟨?_, by rw [hget]⟩
      rintro config ⟨_, hloads⟩
      obtain ⟨v, hv⟩ := hloads.step_eq
      cases hv
    · exact Or.inl ⟨config, ⟨roots, hloads⟩, by rw [hget]⟩
    · refine Or.inr ⟨?_, by rw [hget]⟩
      rintro config ⟨roots, hloads⟩
      exact hidle roots (.reloaded hloads)

/-- **The roots of a holder** are those that were exchanged or loaded for it latest. -/
theorem roots_run (hid : id < start.holders.cells.length) (steps : List Step) :
    (∃ roots, Latest (Supplies id) start steps roots ∧
      ((start.run steps).holders.get id).roots = roots) ∨
    (Never (Supplies id) start steps ∧
      ((start.run steps).holders.get id).roots = (start.holders.get id).roots) := by
  refine latest_or_never (fun s => (s.holders.get id).roots) (fun roots => roots)
    (fun s => id < s.holders.cells.length) ?_ ?_ hid steps
  · intro s step hs
    rwa [(s.transition_after step).frame.1]
  · intro s step hs
    rcases (s.transition_after step).get_cases hs with
      ⟨roots, rfl, hget⟩ | ⟨config, roots, hloads, hget⟩ | ⟨hidle, hget⟩
    · exact Or.inl ⟨roots, .replaced roots, by rw [hget]⟩
    · exact Or.inl ⟨roots, .reloaded hloads, by rw [hget]⟩
    · exact Or.inr ⟨hidle, by rw [hget]⟩

/-- **An evaluator with a holder decides as one with the holder's roots,** which needs no
holders any more. -/
theorem evaluate_eq_fixed {e : Nat} {ev : Evaluator} (hev : s.evaluators[e]? = some ev)
    (hsource : ev.source = some (.held id)) (request : Request) :
    s.evaluate (.evaluator e) request =
      { ev with source := some (.fixed (s.holders.get id).roots) }.evaluate s.env .empty
        request := by
  obtain ⟨source, policy, observer⟩ := ev
  obtain rfl : source = some (.held id) := hsource
  rw [evaluate, evaluatorArgument, hev]
  exact ofExcept_ok_bind _ _

/-- **An evaluation goes by the roots that the holder has at that moment.** -/
theorem goesBy_evaluate {e : Nat} {ev : Evaluator} (hid : id < s.holders.cells.length)
    (hev : s.evaluators[e]? = some ev) (hsource : ev.source = some (.held id))
    (request : Request) :
    ev.GoesBy s.env (some (s.holders.get id).roots) request
      (s.evaluate (.evaluator e) request) := by
  have hshows : RootSource.Shows s.holders ev.source (some (s.holders.get id).roots) := by
    rw [hsource]
    exact .held (by simp [Holders.get, List.getD, hid])
  have hevaluate : s.evaluate (.evaluator e) request = ev.evaluate s.env s.holders request := by
    rw [evaluate, evaluatorArgument, hev]
    exact ofExcept_ok_bind _ _
  rw [hevaluate]
  exact Evaluator.goesBy_evaluate hshows request

/-- **What the operations on a holder do in a session.** A refused exchange and a reload
without roots fail and change nothing; an exchange keeps the settings and gives the previous
roots; a reload brings roots and settings together; files change no holder; and an evaluation
goes by the roots of this moment, and sees nothing else of the holder. -/
structure HolderLaws (s : Session) (id : Nat) : Prop where
  refused : ∀ v, (∀ roots, v ≠ .roots roots) →
    ∃ f, (s.replaceRoots (.holder id) v).2.outcome = .error f ∧
      s.after (.replace (.holder id) v) = s
  unloaded : ∀ v, (∀ config roots, ¬Reloads id s (.reload (.holder id) v) config roots) →
    ∃ f, (s.reloadRoots (.holder id) v).2.outcome = .error f ∧
      s.after (.reload (.holder id) v) = s
  exchanged : ∀ roots,
    (s.replaceRoots (.holder id) (.roots roots)).2.outcome = .ok (s.holders.get id).roots ∧
      (s.after (.replace (.holder id) (.roots roots))).holders.get id =
        ⟨roots, (s.holders.get id).renewal⟩
  loaded : ∀ v config roots, Reloads id s (.reload (.holder id) v) config roots →
    (s.reloadRoots (.holder id) v).2.outcome = .ok roots ∧
      (s.after (.reload (.holder id) v)).holders.get id = ⟨roots, .settings config⟩
  written : ∀ path entry, (s.after (.write path entry)).holders = s.holders
  deleted : ∀ path, (s.after (.delete path)).holders = s.holders
  evaluated : ∀ e ev request, s.evaluators[e]? = some ev → ev.source = some (.held id) →
    s.after (.evaluate (.evaluator e) request) = s ∧
      ev.GoesBy s.env (some (s.holders.get id).roots) request
        (s.evaluate (.evaluator e) request) ∧
      s.evaluate (.evaluator e) request =
        { ev with source := some (.fixed (s.holders.get id).roots) }.evaluate s.env .empty
          request

/-- Every holder of a session obeys these laws. -/
theorem holderLaws (hid : id < s.holders.cells.length) : s.HolderLaws id where
  refused v hv := by
    obtain ⟨f, hf⟩ := exists_replaceRoots_eq_fail hv id
    rw [after_replace, hf]
    exact ⟨f, rfl, rfl⟩
  unloaded v hv := by
    obtain ⟨f, hsame, hf⟩ := exists_reloadRoots_eq_error hv
    exact ⟨f, hf, by rw [after_reload, hsame]⟩
  exchanged roots := by
    rw [after_replace, replaceRoots_roots]
    exact ⟨rfl, Holders.get_set_self hid⟩
  loaded v config roots h := by
    obtain ⟨hsession, houtcome⟩ := reloadRoots_of_reloads h
    rw [after_reload, hsession]
    exact ⟨houtcome, Holders.get_set_self hid⟩
  written path entry := rfl
  deleted path := by
    rw [after_delete]
    unfold deleteFile
    cases s.env.files.delete (Path.ofText path) <;> rfl
  evaluated e ev request hev hsource :=
    ⟨rfl, goesBy_evaluate hid hev hsource request, evaluate_eq_fixed hev hsource request⟩

/-- **A holder is a reference that changes only as a whole.** After every run of steps, in
any order and with any arguments, the settings of a holder are those of the latest reload
that succeeded, its roots those that were exchanged or loaded latest, and the operations
on it obey the laws of a holder. -/
theorem run_holder (hid : id < start.holders.cells.length) (steps : List Step) :
    ((∃ config, Latest (Renews id) start steps config ∧
        ((start.run steps).holders.get id).renewal = .settings config) ∨
      (Never (Renews id) start steps ∧
        ((start.run steps).holders.get id).renewal = (start.holders.get id).renewal)) ∧
    ((∃ roots, Latest (Supplies id) start steps roots ∧
        ((start.run steps).holders.get id).roots = roots) ∨
      (Never (Supplies id) start steps ∧
        ((start.run steps).holders.get id).roots = (start.holders.get id).roots)) ∧
    (start.run steps).evaluators = start.evaluators ∧ (start.run steps).HolderLaws id := by
  obtain ⟨hlength, hevaluators⟩ := frame_run start steps
  refine ⟨renewal_run hid steps, roots_run hid steps, hevaluators, holderLaws ?_⟩
  rwa [hlength]

/-- A reload from a file, the deletion of the file, and then a reload and an exchange that
fail: the root of the file stays, and so do the settings that lead to it. An evaluator that
trusted no root before goes by this one. -/
theorem run_holder_after_deletion :
    let config : StoreConfig := ⟨some "roots.der", .der, none, .refuse⟩
    let files : FileSystem := ⟨[], [(["roots.der"], .file [.der Sample.root])]⟩
    let ev : Evaluator := ⟨some (.held 0), { Policy.disabled with verifyRoot := true }, none⟩
    let start : Session := ⟨{ Sample.env with files := files }, ⟨[default]⟩, [ev], [], []⟩
    let steps : List Step := [.reload (.holder 0) (.storeConfig config), .delete "roots.der",
      .reload (.holder 0) .null, .replace (.holder 0) (.bool true)]
    let request := Request.ofParts .tls Sample.forgedChain "chat.example.com" none none
    0 < start.holders.cells.length ∧
      ((start.run steps).holders.get 0).renewal = .settings config ∧
      ((start.run steps).holders.get 0).roots.anchors = [Sample.root] ∧
      (start.evaluate (.evaluator 0) request).outcome.map Verdict.trusted = .ok false ∧
      ((start.run steps).evaluate (.evaluator 0) request).outcome.map Verdict.trusted =
        .ok true ∧
      ((∃ config, Latest (Renews 0) start steps config ∧
          ((start.run steps).holders.get 0).renewal = .settings config) ∨
        (Never (Renews 0) start steps ∧
          ((start.run steps).holders.get 0).renewal = (start.holders.get 0).renewal)) ∧
      ((∃ roots, Latest (Supplies 0) start steps roots ∧
          ((start.run steps).holders.get 0).roots = roots) ∨
        (Never (Supplies 0) start steps ∧
          ((start.run steps).holders.get 0).roots = (start.holders.get 0).roots)) ∧
      (start.run steps).evaluators = start.evaluators ∧ (start.run steps).HolderLaws 0 :=
  ⟨Nat.zero_lt_one, rfl, rfl, rfl, rfl, run_holder Nat.zero_lt_one _⟩

end PeerTrust.Session
