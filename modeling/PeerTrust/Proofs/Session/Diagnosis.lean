/-
  `Proofs.Session.Diagnosis` — what a manager remembers of a handshake.

  A call back adds to the manager's own list if its code has an explanation, and does
  nothing at all otherwise (`after_callback`). Everything else that can happen leaves that
  list alone: decisions do not touch it, and whoever reads it is given another list, so
  that no change by a caller reaches it (`Separate`). `Transition` lists what a turn can
  do; `Transition.entries_own` is the step, and `recollection_run_of_separate` carries it through a
  run by induction over its turns.

  So what is remembered are the call backs with explained codes, and not all that report
  an error: the codes of most errors have no explanation.
-/
import Mathlib.Data.List.Basic
import PeerTrust.Proofs.Session.Handshake
import PeerTrust.Session.Diagnosis

namespace PeerTrust

/-! ### Codes -/

namespace VerifyCode

/-- The codes that have an explanation. -/
def explained : List Int := explanations.map Prod.fst

theorem isSome_explanation?_iff {code : Int} : (explanation? code).isSome ↔ code ∈ explained := by
  have hnone : explanation? code = none ↔ code ∉ explained := by
    rw [explanation?, List.lookup_eq_none_iff, explained]
    simp only [bne_iff_ne, List.mem_map, not_exists, not_and]
    exact ⟨fun h p hp he => h p hp he.symm, fun h p hp he => h p hp he.symm⟩
  rw [Option.isSome_iff_ne_none, Ne, hnone, not_not]

example : explained = [7, 9, 10, 18, 20, 27, 29, 62] := rfl

/-- Success has no explanation. -/
theorem ne_zero_of_mem_explained {code : Int} (h : code ∈ explained) : code ≠ 0 := by
  rintro rfl
  exact absurd h (by decide)

end VerifyCode

open VerifyCode (explained)

theorem Manager.isKnownCode_int_iff {code : Int} :
    Manager.isKnownCode (.int code) = true ↔ code ∈ explained :=
  VerifyCode.isSome_explanation?_iff

/-- **A call back is remembered if its code has an explanation,** and is accepted in any case. -/
theorem Manager.record_int (m : Manager) (certificate depth : Value) (code : Int) :
    m.record certificate (.int code) depth =
      .ok (if code ∈ explained then
          { m with diagnostics := m.diagnostics ++ [⟨certificate, .int code, depth⟩] }
        else m, true) := by
  have hhashable : (Value.int code).isHashable = true := rfl
  rw [record, hhashable]
  by_cases hcode : code ∈ explained
  · simp only [isKnownCode_int_iff.mpr hcode, hcode, Bool.not_true, Bool.false_eq_true, if_false,
      if_true]
  · simp only [mt isKnownCode_int_iff.mp hcode, hcode, Bool.not_true, Bool.false_eq_true, if_false]

namespace Diagnosis

variable {d : Diagnosis} {list other : ListRef} {f : List Diagnostic → List Diagnostic} {id : Nat}

/-! ### Changes of lists -/

@[simp] theorem held_change : (d.change list f).held = d.held := by
  cases list <;> rfl

@[simp] theorem length_managers_change :
    (d.change list f).session.managers.length = d.session.managers.length := by
  cases list with
  | own id => exact List.length_modify ..
  | copy number => rfl

/-- A manager's own list has what it was changed to. -/
theorem entries_change_own (hid : id < d.session.managers.length) :
    (d.change (.own id) f).entries (.own id) = f (d.entries (.own id)) := by
  simp [change, entries, hid]

/-- **A change reaches one list only.** -/
theorem entries_change_of_ne (hne : list ≠ other) :
    (d.change list f).entries other = d.entries other := by
  cases list with
  | own id =>
    cases other with
    | own id' =>
      have hid : id ≠ id' := fun h => hne (congrArg ListRef.own h)
      simp [change, entries, hid]
    | copy number => rfl
  | copy number =>
    cases other with
    | own id => rfl
    | copy number' =>
      have hnumber : number ≠ number' := fun h => hne (congrArg ListRef.copy h)
      simp [change, entries, List.getD, hnumber]

/-! ### Turns -/

/-- **What can happen:** the TLS library calls back, somebody asks for a decision about a
connection, somebody reads what a manager remembers, or somebody changes a list that an
earlier reading gave. Lists are counted in the order of the readings. -/
inductive Turn
  | callback (manager : Nat) (certificate : Value) (code depth : Int)
  | connection (manager : Nat) (chain leaf reference : Value)
  | read (manager : Nat)
  | change (number : Nat) (f : List Diagnostic → List Diagnostic)

/-- **The state after a turn.** A reading that fails gives nothing, and who was given no
list has none to change. -/
def after (d : Diagnosis) : Turn → Diagnosis
  | .callback id certificate code depth =>
    let call := Session.Call.callback (.manager id) certificate (.int code) (.int depth)
    { d with session := d.session.afterCall call }
  | .connection id chain leaf reference =>
    { d with session := d.session.afterCall (.connection (.manager id) chain leaf reference) }
  | .read id =>
    match d.read (.manager id) with
    | .ok (now, _) => now
    | .error _ => d
  | .change number f => (d.held[number]?).elim d fun list => d.change list f

/-- The state after some turns in a row. -/
def run (d : Diagnosis) (turns : List Turn) : Diagnosis := turns.foldl after d

/-- **What a caller is told who reads what a manager remembers.** -/
def recollection (d : Diagnosis) (id : Nat) : Option (List Diagnostic) :=
  match d.read (.manager id) with
  | .ok (now, list) => some (now.entries list)
  | .error _ => none

theorem recordCallback_of_some {s : Session} {m : Manager} (hm : s.managers[id]? = some m)
    (certificate depth : Value) (code : Int) :
    s.recordCallback (.manager id) certificate (.int code) depth =
      .ok ({ s with managers := s.managers.set id (if code ∈ explained then
          { m with diagnostics := m.diagnostics ++ [⟨certificate, .int code, depth⟩] }
        else m) }, true) := by
  have hargument : s.managerArgument (.manager id) = .ok (id, m) :=
    Session.managerArgument_eq_ok_iff.mpr ⟨rfl, hm⟩
  rw [Session.recordCallback, hargument]
  change (m.record certificate (.int code) depth >>= fun noted =>
    pure ({ s with managers := s.managers.set id noted.1 }, noted.2)) = _
  rw [m.record_int]
  rfl

/-- **A call back adds to the manager's own list** if its code has an explanation, and changes
nothing otherwise. -/
theorem after_callback (d : Diagnosis) (id : Nat) (certificate : Value) (code depth : Int) :
    d.after (.callback id certificate code depth) =
      if code ∈ explained then
        d.change (.own id) (· ++ [⟨certificate, .int code, .int depth⟩])
      else d := by
  cases hm : d.session.managers[id]? with
  | none =>
    have hargument : d.session.managerArgument (.manager id) = .error .noSuchAttribute := by
      rw [Session.managerArgument, hm]
      rfl
    have hrecord : d.session.recordCallback (.manager id) certificate (.int code) (.int depth) =
        .error .noSuchAttribute := by
      rw [Session.recordCallback, hargument]
      rfl
    have hlist : d.session.managers.length ≤ id := List.getElem?_eq_none_iff.mp hm
    simp [after, Session.afterCall, hrecord, Session.keep, change, List.modify_eq_self hlist]
  | some m =>
    obtain ⟨hid, hget⟩ := List.getElem?_eq_some_iff.mp hm
    simp only [after, Session.afterCall, recordCallback_of_some hm, Session.keep]
    by_cases hcode : code ∈ explained
    · simp only [hcode, if_true, change, List.modify_eq_set_getElem?, hm]
      rfl
    · simp only [hcode, if_false, ← hget, List.set_getElem_self]

/-! ### Readings -/

theorem read_of_none (hid : d.session.managers[id]? = none) :
    d.read (.manager id) = .error .noSuchAttribute := by
  rw [read, Session.managerArgument, hid]
  rfl

/-- **Who reads is given a new list,** which has in it what the manager's own list has. -/
theorem read_of_some {m : Manager} (hm : d.session.managers[id]? = some m) :
    d.read (.manager id) = .ok ({ d with
      copies := d.copies ++ [d.entries (.own id)]
      held := d.held ++ [.copy d.copies.length] }, .copy d.copies.length) := by
  rw [read, Session.managerArgument, hm]
  rfl

theorem recollection_eq (hid : id < d.session.managers.length) :
    d.recollection id = some (d.entries (.own id)) := by
  rw [recollection, read_of_some (List.getElem?_eq_getElem hid)]
  simp [entries]

/-! ### All that a turn can do -/

/-- **What a turn does:** it adds an explained diagnostic to a manager's own list, changes a
list that a caller was given, gives a new list to a caller, or leaves everything as it was. -/
inductive Transition (d : Diagnosis) : Turn → Diagnosis → Prop
  | noted (manager : Nat) (certificate : Value) {code : Int} (depth : Int)
      (known : code ∈ explained) :
      Transition d (.callback manager certificate code depth)
        (d.change (.own manager) (· ++ [⟨certificate, .int code, .int depth⟩]))
  | changed {number : Nat} {list : ListRef} (f : List Diagnostic → List Diagnostic)
      (given : list ∈ d.held) : Transition d (.change number f) (d.change list f)
  | given (manager : Nat) (entries : List Diagnostic) :
      Transition d (.read manager)
        { d with copies := d.copies ++ [entries], held := d.held ++ [.copy d.copies.length] }
  | kept {turn : Turn} (idle : ∀ manager certificate code depth,
      turn = .callback manager certificate code depth → code ∉ explained) : Transition d turn d

theorem transition_after (d : Diagnosis) (turn : Turn) : Transition d turn (d.after turn) := by
  cases turn with
  | callback manager certificate code depth =>
    rw [after_callback]
    by_cases hcode : code ∈ explained
    · rw [if_pos hcode]
      exact .noted manager certificate depth hcode
    · rw [if_neg hcode]
      refine .kept ?_
      rintro _ _ _ _ ⟨⟩
      exact hcode
  | connection manager chain leaf reference => exact .kept fun _ _ _ _ => nofun
  | read manager =>
    cases hm : d.session.managers[manager]? with
    | none =>
      rw [after, read_of_none hm]
      exact .kept fun _ _ _ _ => nofun
    | some m =>
      rw [after, read_of_some hm]
      exact .given manager _
  | change number f =>
    cases hheld : d.held[number]? with
    | none =>
      rw [after, hheld, Option.elim_none]
      exact .kept fun _ _ _ _ => nofun
    | some list =>
      rw [after, hheld, Option.elim_some]
      exact .changed f (List.mem_of_getElem? hheld)

variable {turn : Turn} {now : Diagnosis}

/-- No turn adds or drops a manager. -/
theorem Transition.length_managers (h : Transition d turn now) :
    now.session.managers.length = d.session.managers.length := by
  cases h with
  | noted => exact length_managers_change
  | changed => exact length_managers_change
  | given => rfl
  | kept => rfl

/-- **No caller holds the list that a manager adds to.** -/
def Separate (d : Diagnosis) : Prop := ∀ id, .own id ∉ d.held

theorem separate_start (s : Session) : (start s).Separate := fun _ => List.not_mem_nil

/-- **Callers are given new lists only.** -/
theorem Transition.separate (h : Transition d turn now) (hd : d.Separate) : now.Separate := by
  intro id
  cases h with
  | noted =>
    rw [held_change]
    exact hd id
  | changed =>
    rw [held_change]
    exact hd id
  | given =>
    rw [List.mem_append, List.mem_singleton]
    rintro (hold | hnew)
    · exact hd id hold
    · cases hnew
  | kept => exact hd id

theorem Separate.run (h : d.Separate) (turns : List Turn) : (d.run turns).Separate := by
  induction turns generalizing d with
  | nil => exact h
  | cons turn rest ih => exact ih ((d.transition_after turn).separate h)

theorem length_managers_run (d : Diagnosis) (turns : List Turn) :
    (d.run turns).session.managers.length = d.session.managers.length := by
  induction turns generalizing d with
  | nil => rfl
  | cons turn rest ih => exact (ih (d.after turn)).trans (d.transition_after turn).length_managers

/-! ### What is remembered -/

/-- The diagnostic that a turn brings to a manager, if the code is of the kind in question. -/
def Turn.diagnostic? (id : Nat) (kind : Int → Prop) [DecidablePred kind] : Turn → Option Diagnostic
  | .callback manager certificate code depth =>
    if manager = id ∧ kind code then some ⟨certificate, .int code, .int depth⟩ else none
  | _ => none

/-- **The call backs to a manager with codes of a kind,** in order, each as often as it came. -/
def diagnosticsOf (id : Nat) (kind : Int → Prop) [DecidablePred kind] (turns : List Turn) :
    List Diagnostic :=
  turns.filterMap (Turn.diagnostic? id kind)

section Kinds

variable {kind wider : Int → Prop} [DecidablePred kind] [DecidablePred wider] {turns : List Turn}

theorem Turn.diagnostic?_eq_none
    (h : ∀ certificate code depth, turn = .callback id certificate code depth → ¬kind code) :
    turn.diagnostic? id kind = none := by
  cases turn with
  | callback manager certificate code depth =>
    refine if_neg ?_
    rintro ⟨rfl, hkind⟩
    exact h certificate code depth rfl hkind
  | _ => rfl

theorem diagnosticsOf_cons (turn : Turn) (rest : List Turn) :
    diagnosticsOf id kind (turn :: rest) =
      (turn.diagnostic? id kind).toList ++ diagnosticsOf id kind rest := by
  rw [diagnosticsOf, List.filterMap_cons]
  cases turn.diagnostic? id kind <;> rfl

theorem diagnosticsOf_append (turns rest : List Turn) :
    diagnosticsOf id kind (turns ++ rest) =
      diagnosticsOf id kind turns ++ diagnosticsOf id kind rest :=
  List.filterMap_append

/-- A wider kind of codes has more call backs, in the same order. -/
theorem diagnosticsOf_sublist (h : ∀ code, kind code → wider code) (turns : List Turn) :
    (diagnosticsOf id kind turns).Sublist (diagnosticsOf id wider turns) := by
  induction turns with
  | nil => exact List.Sublist.slnil
  | cons turn rest ih =>
    rw [diagnosticsOf_cons, diagnosticsOf_cons]
    refine List.Sublist.append ?_ ih
    cases turn with
    | callback manager certificate code depth =>
      rw [Turn.diagnostic?, Turn.diagnostic?]
      by_cases hkind : manager = id ∧ kind code
      · rw [if_pos hkind, if_pos ⟨hkind.1, h code hkind.2⟩]
      · rw [if_neg hkind]
        exact List.nil_sublist _
    | _ => exact List.nil_sublist _

/-- **A wider kind has no more call backs exactly if every code of it that came was of the
narrower kind.** -/
theorem diagnosticsOf_eq_iff (h : ∀ code, kind code → wider code) :
    diagnosticsOf id kind turns = diagnosticsOf id wider turns ↔
      ∀ certificate code depth, .callback id certificate code depth ∈ turns →
        wider code → kind code := by
  constructor
  · intro heq certificate code depth hmem hwider
    by_contra hkind
    -- a call back of the wider kind alone makes the wider list longer
    obtain ⟨before, later, rfl⟩ := List.append_of_mem hmem
    have hmissing : Turn.diagnostic? id kind (.callback id certificate code depth) = none :=
      if_neg fun h => hkind h.2
    have hpresent : Turn.diagnostic? id wider (.callback id certificate code depth) =
        some ⟨certificate, .int code, .int depth⟩ := if_pos ⟨rfl, hwider⟩
    have hlength := congrArg List.length heq
    rw [diagnosticsOf_append, diagnosticsOf_append, diagnosticsOf_cons, diagnosticsOf_cons,
      hmissing, hpresent] at hlength
    have hbefore : (diagnosticsOf id kind before).length ≤ (diagnosticsOf id wider before).length :=
      (diagnosticsOf_sublist h before).length_le
    have hlater : (diagnosticsOf id kind later).length ≤ (diagnosticsOf id wider later).length :=
      (diagnosticsOf_sublist h later).length_le
    simp only [List.length_append, Option.toList_none, Option.toList_some, List.length_nil,
      List.length_singleton] at hlength
    omega
  · intro hall
    refine List.filterMap_congr fun turn hturn => ?_
    cases turn with
    | callback manager certificate code depth =>
      have hiff : (manager = id ∧ kind code) ↔ (manager = id ∧ wider code) := by
        refine and_congr_right ?_
        rintro rfl
        exact ⟨h code, hall certificate code depth hturn⟩
      simp only [Turn.diagnostic?, hiff]
    | _ => rfl

end Kinds

/-- **A turn adds its diagnostic if the code has an explanation,** and leaves what is remembered
as it was otherwise. -/
theorem Transition.entries_own (h : Transition d turn now) (hd : d.Separate)
    (hid : id < d.session.managers.length) :
    now.entries (.own id) =
      d.entries (.own id) ++ (turn.diagnostic? id (· ∈ explained)).toList := by
  cases h with
  | noted manager certificate depth known =>
    by_cases hmanager : manager = id
    · subst hmanager
      rw [entries_change_own hid, Turn.diagnostic?, if_pos ⟨rfl, known⟩]
      rfl
    · have hother : ListRef.own manager ≠ .own id := fun h => hmanager (ListRef.own.inj h)
      rw [entries_change_of_ne hother, Turn.diagnostic?, if_neg fun h => hmanager h.1]
      exact (List.append_nil _).symm
  | @changed number list f given =>
    -- the list is one that a caller was given, so it is not the manager's own
    have hother : list ≠ .own id := fun hown => hd id (hown ▸ given)
    rw [entries_change_of_ne hother]
    exact (List.append_nil _).symm
  | given => exact (List.append_nil _).symm
  | kept idle =>
    rw [Turn.diagnostic?_eq_none (idle id)]
    exact (List.append_nil _).symm

/-- **After a run, the diagnostics with explained codes have been added.** -/
theorem recollection_run_of_separate (h : d.Separate) (hid : id < d.session.managers.length)
    (turns : List Turn) :
    (d.run turns).recollection id =
      some (d.entries (.own id) ++ diagnosticsOf id (· ∈ explained) turns) := by
  induction turns generalizing d with
  | nil =>
    rw [run, List.foldl_nil, recollection_eq hid, diagnosticsOf, List.filterMap_nil,
      List.append_nil]
  | cons turn rest ih =>
    have hstep := d.transition_after turn
    have hid' : id < (d.after turn).session.managers.length := by
      rw [hstep.length_managers]
      exact hid
    rw [diagnosticsOf_cons, ← List.append_assoc, ← hstep.entries_own h hid]
    exact ih (hstep.separate h) hid'

/-- **A new manager remembers nothing,** and no caller has a list of it. -/
theorem of_make_eq_ok {hostname evaluator : Value}
    (h : d.make hostname evaluator = .ok (now, .manager id)) :
    id < now.session.managers.length ∧ now.entries (.own id) = [] ∧ now.held = d.held := by
  obtain ⟨⟨s, v⟩, hnew, h⟩ := bind_eq_ok_iff.mp h
  obtain ⟨rfl, rfl⟩ := Prod.mk.inj (Except.ok.inj h)
  obtain ⟨host, -, hnew⟩ := bind_eq_ok_iff.mp hnew
  cases evaluator with
  | evaluator number =>
    obtain ⟨ev, -, hnew⟩ := bind_eq_ok_iff.mp hnew
    obtain ⟨rfl, hid⟩ := Prod.mk.inj (Except.ok.inj hnew)
    obtain rfl := Value.manager.inj hid
    exact ⟨by simp, by simp [entries], rfl⟩
  | _ => cases hnew

/-- **What is remembered of the errors of a handshake.** A manager is made in a session in
which anything has happened before. After any turns, who reads it is told the call backs whose
codes have an explanation, in order, each as often as it came, and nothing else. These are
some of the errors that were reported, and all of them exactly if every code but zero that
came has an explanation. So no turn but the report of an error changes what is told, and an
error without an explanation is accepted like any other and leaves no trace. -/
theorem recollection_run {s : Session} {before : List Turn} {hostname evaluator : Value}
    {made : Diagnosis} {id : Nat}
    (hmade : ((start s).run before).make hostname evaluator = .ok (made, .manager id))
    (turns : List Turn) :
    (made.run turns).recollection id = some (diagnosticsOf id (· ∈ explained) turns) ∧
      (diagnosticsOf id (· ∈ explained) turns).Sublist (diagnosticsOf id (· ≠ 0) turns) ∧
      ((made.run turns).recollection id = some (diagnosticsOf id (· ≠ 0) turns) ↔
        ∀ certificate code depth, .callback id certificate code depth ∈ turns →
          code ≠ 0 → code ∈ explained) ∧
      (∀ turn, (∀ certificate code depth, turn = .callback id certificate code depth → code = 0) →
        (made.run (turns ++ [turn])).recollection id = (made.run turns).recollection id) ∧
      ∀ certificate code depth,
        (∃ next, (made.run turns).session.recordCallback (.manager id) certificate (.int code)
          (.int depth) = .ok (next, true)) ∧
        (code ∉ explained →
          (made.run (turns ++ [.callback id certificate code depth])).recollection id =
            (made.run turns).recollection id) := by
  obtain ⟨hid, hnothing, hheld⟩ := of_make_eq_ok hmade
  have hseparate : made.Separate := by
    rw [Separate, hheld]
    exact (separate_start s).run before
  have hread : ∀ turns, (made.run turns).recollection id =
      some (diagnosticsOf id (· ∈ explained) turns) := by
    intro turns
    rw [recollection_run_of_separate hseparate hid, hnothing, List.nil_append]
  have hnarrow : ∀ code, code ∈ explained → code ≠ 0 := fun _ => VerifyCode.ne_zero_of_mem_explained
  -- a turn without an explained code for this manager adds nothing to the list
  have hframe : ∀ turn, (∀ certificate code depth, turn = .callback id certificate code depth →
      code ∉ explained) →
      (made.run (turns ++ [turn])).recollection id = (made.run turns).recollection id := by
    intro turn hturn
    rw [hread, hread, diagnosticsOf_append, diagnosticsOf_cons, Turn.diagnostic?_eq_none hturn]
    exact congrArg some (List.append_nil _)
  refine ⟨hread turns, diagnosticsOf_sublist hnarrow turns, ?_, fun turn hturn => ?_,
    fun certificate code depth => ⟨?_, fun hcode => ?_⟩⟩
  · rw [hread, Option.some.injEq]
    exact diagnosticsOf_eq_iff hnarrow
  · refine hframe turn fun certificate code depth hcallback hcode => ?_
    exact hnarrow code hcode (hturn certificate code depth hcallback)
  · have hid' : id < (made.run turns).session.managers.length := by
      rw [length_managers_run]
      exact hid
    exact ⟨_, recordCallback_of_some (List.getElem?_eq_getElem hid') _ _ _⟩
  · refine hframe _ ?_
    rintro _ _ _ ⟨⟩
    exact hcode

end Diagnosis

/-! ### An error that leaves no trace -/

namespace Sample

open Diagnosis (Turn)

/-- The session with an evaluator, and with a manager that has been called back and read. -/
def attended : Diagnosis :=
  (Diagnosis.start { session with evaluators := [manager.evaluator] }).run
    [.callback 0 (.certificate .tls root) 10 0, .read 0]

/-- The library finds the root self-signed, as code 18 and as code 19, and then again as code
18. In between the list is read and emptied, and the leaf is found in order. -/
def findings : List Turn := [
  .callback 1 (.certificate .tls root) 18 1,
  .read 1,
  .change 1 fun _ => [],
  .callback 1 (.certificate .tls root) 19 1,
  .callback 1 (.certificate .tls leaf) 0 0,
  .connection 1 (.list [.certificate .tls leaf, .certificate .tls root]) .null .null,
  .callback 1 (.certificate .tls root) 18 1]

end Sample

/-- Code 19 is not remembered, and nothing else is lost. -/
theorem Diagnosis.recollection_run_of_findings :
    ∃ made,
      Sample.attended.make (.str "chat.example.com") (.evaluator 0) = .ok (made, .manager 1) ∧
      (made.run Sample.findings).recollection 1 =
        some [⟨.certificate .tls Sample.root, .int 18, .int 1⟩,
          ⟨.certificate .tls Sample.root, .int 18, .int 1⟩] ∧
      (made.run Sample.findings).recollection 1 ≠
        some (diagnosticsOf 1 (· ≠ 0) Sample.findings) := by
  obtain ⟨made, hmade⟩ : ∃ made,
      Sample.attended.make (.str "chat.example.com") (.evaluator 0) = .ok (made, .manager 1) :=
    ⟨_, rfl⟩
  obtain ⟨hread, -, hall, -⟩ := Diagnosis.recollection_run hmade Sample.findings
  refine ⟨made, hmade, hread.trans rfl, fun hsame => ?_⟩
  have hcode := hall.mp hsame (.certificate .tls Sample.root) 19 1 (by simp [Sample.findings])
  exact absurd (hcode (by decide)) (by decide)

end PeerTrust
