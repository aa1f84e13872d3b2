/-
  `Proofs.Text.Search` — what the searches for a run find.

  `hasRun` decides whether a run stands anywhere in a list. The search without
  going back is sound: what it gives, with the run in between, is the list
  (`eq_of_seek?`). It misses an occurrence that starts inside a broken one, but not
  one behind elements that cannot start an occurrence (`seek?_append`), nor one behind
  a line that has none (`seek?_line`). What it has found it finds again if the list
  goes on (`seek?_append_right`).
-/
import PeerTrust.Text.Search

namespace PeerTrust.Text

section Elements

/-! ### Elements that a run has not -/

variable {α : Type} {a : α} {run xs ys : List α}

/-- A run cannot start in front of an element that it has not and end behind it. -/
theorem prefix_append_cons_iff (ha : a ∉ run) :
    run <+: xs ++ a :: ys ↔ run <+: xs := by
  constructor
  · rintro ⟨rest, h⟩
    rcases List.append_eq_append_iff.mp h with ⟨left, hxs, -⟩ | ⟨left, hrun, hleft⟩
    · exact ⟨left, hxs.symm⟩
    · cases left with
      | nil =>
        have hwhole : run = xs := by rw [hrun, List.append_nil]
        exact hwhole ▸ List.prefix_refl run
      | cons b left =>
        -- the rest of the run would start with the element
        obtain ⟨rfl, -⟩ := List.cons_eq_cons.mp hleft
        exact absurd (hrun ▸ List.mem_append_right xs List.mem_cons_self) ha
  · intro h
    exact h.trans (List.prefix_append xs _)

/-- **A run stands on one side of an element that it has not.** -/
theorem infix_append_cons_iff (ha : a ∉ run) :
    run <:+: xs ++ a :: ys ↔ run <:+: xs ∨ run <:+: ys := by
  induction xs with
  | nil =>
    have hstart : run <+: [] ++ a :: ys ↔ run <+: [] := prefix_append_cons_iff ha
    rw [List.nil_append] at hstart ⊢
    rw [List.infix_cons_iff, hstart, List.prefix_nil, List.infix_nil]
  | cons b xs ih =>
    have hstart : run <+: b :: xs ++ a :: ys ↔ run <+: b :: xs := prefix_append_cons_iff ha
    rw [List.cons_append] at hstart ⊢
    rw [List.infix_cons_iff, List.infix_cons_iff, hstart, ih, or_assoc]

end Elements

/-- A text that goes on starts with what it goes on from. -/
theorem toList_prefix_append (s t : String) : s.toList <+: (s ++ t).toList := by
  rw [String.toList_append]
  exact List.prefix_append _ _

variable {α : Type} [DecidableEq α] {run xs before rest : List α}

/-! ### Occurrences -/

theorem isSome_afterRun?_iff : (afterRun? run xs).isSome = true ↔ run <+: xs := by
  rw [Option.isSome_iff_exists]
  constructor
  · rintro ⟨rest, h⟩
    exact ⟨rest, (afterRun?_eq_some_iff.mp h).symm⟩
  · rintro ⟨rest, h⟩
    exact ⟨rest, afterRun?_eq_some_iff.mpr h.symm⟩

/-- **A list has a run** exactly if the run stands somewhere in it. -/
theorem hasRun_iff : hasRun run xs = true ↔ run <:+: xs := by
  induction xs with
  | nil => rw [hasRun, List.isEmpty_iff, List.infix_nil]
  | cons a tail ih =>
    rw [hasRun, Bool.or_eq_true, isSome_afterRun?_iff, ih, List.infix_cons_iff]

/-! ### Search without going back -/

/-- **The search keeps what it passes.** The part of the run that it has met is the end of
what it has passed; so in the end the whole run is, and nothing of the list is lost. -/
theorem of_seekFrom? {passed met left : List α} (hrun : run = met ++ left)
    (hmet : met.reverse <+: passed)
    (h : seekFrom? run passed left xs = some (before, rest)) :
    run.reverse <+: before ∧ before.reverse ++ rest = passed.reverse ++ xs := by
  induction xs generalizing passed met left with
  | nil =>
    cases left with
    | nil =>
      obtain ⟨rfl, rfl⟩ : passed = before ∧ [] = rest := by simpa [seekFrom?] using h
      rw [hrun, List.append_nil]
      exact ⟨hmet, rfl⟩
    | cons m left => cases h
  | cons a tail ih =>
    cases left with
    | nil =>
      obtain ⟨rfl, rfl⟩ : passed = before ∧ a :: tail = rest := by simpa [seekFrom?] using h
      rw [hrun, List.append_nil]
      exact ⟨hmet, rfl⟩
    | cons m left =>
      have hsplit : (a :: passed).reverse ++ tail = passed.reverse ++ a :: tail := by
        rw [List.reverse_cons, List.append_assoc, List.singleton_append]
      rw [seekFrom?] at h
      rw [← hsplit]
      by_cases ha : a = m
      · -- one element more of the run is met
        subst ha
        rw [if_pos rfl] at h
        have hmore : (met ++ [a]).reverse <+: a :: passed := by
          rw [List.reverse_append, List.reverse_singleton, List.singleton_append]
          exact (List.prefix_cons_inj a).mpr hmet
        exact ih (by rw [hrun, List.append_assoc, List.singleton_append]) hmore h
      · -- the occurrence is broken, and nothing of the run is met
        have hnone : ([] : List α).reverse <+: a :: passed := List.nil_prefix
        rw [if_neg ha] at h
        exact ih (List.nil_append run).symm hnone h

theorem seek?_of_seekFrom? {front : List α}
    (h : seekFrom? run [] run xs = some (run.reverse ++ front, rest)) :
    seek? run xs = some (front.reverse, rest) := by
  have hdrop : (run.reverse ++ front).drop run.length = front :=
    List.drop_left' List.length_reverse
  rw [seek?, h, Option.map_some]
  show some (((run.reverse ++ front).drop run.length).reverse, rest) = some (front.reverse, rest)
  rw [hdrop]

/-- **What a search gives,** with the run in between, is the list. -/
theorem eq_of_seek? (h : seek? run xs = some (before, rest)) : xs = before ++ run ++ rest := by
  obtain ⟨⟨passed, after⟩, hseek, -⟩ := Option.map_eq_some_iff.mp h
  have hnone : ([] : List α).reverse <+: [] := List.nil_prefix
  obtain ⟨⟨front, rfl⟩, hxs⟩ := of_seekFrom? (List.nil_append run).symm hnone hseek
  obtain ⟨rfl, rfl⟩ : front.reverse = before ∧ after = rest := by
    simpa using (seek?_of_seekFrom? hseek).symm.trans h
  rw [List.reverse_append, List.reverse_reverse] at hxs
  exact hxs.symm

theorem seekFrom?_of_not_mem {m : α} {left front : List α} (hm : m ∉ front) (passed : List α) :
    seekFrom? (m :: left) passed (m :: left) (front ++ xs) =
      seekFrom? (m :: left) (front.reverse ++ passed) (m :: left) xs := by
  induction front generalizing passed with
  | nil => rfl
  | cons a front ih =>
    have ha : ¬a = m := fun heq => hm (heq ▸ List.mem_cons_self)
    have hfront : m ∉ front := fun hmem => hm (List.mem_cons_of_mem a hmem)
    rw [List.cons_append, seekFrom?, if_neg ha, ih hfront, List.reverse_cons, List.append_assoc,
      List.singleton_append]

theorem seekFrom?_append (passed left : List α) :
    seekFrom? run passed left (left ++ rest) = some (left.reverse ++ passed, rest) := by
  induction left generalizing passed with
  | nil => simp [seekFrom?]
  | cons m left ih =>
    rw [List.cons_append, seekFrom?, if_pos rfl, ih, List.reverse_cons, List.append_assoc,
      List.singleton_append]

/-- **A run behind elements that cannot start it is found.** -/
theorem seek?_append {m : α} (hrun : run.head? = some m) (hm : m ∉ before) :
    seek? run (before ++ (run ++ rest)) = some (before, rest) := by
  obtain ⟨left, rfl⟩ := List.head?_eq_some_iff.mp hrun
  have hseek : seekFrom? (m :: left) [] (m :: left) (before ++ (m :: left ++ rest)) =
      some ((m :: left).reverse ++ before.reverse, rest) := by
    rw [seekFrom?_of_not_mem hm, seekFrom?_append, List.append_nil]
  rw [seek?_of_seekFrom? hseek, List.reverse_reverse]

/-- What has been passed before is kept behind what is passed. -/
theorem seekFrom?_passed (passed left : List α) :
    seekFrom? run passed left xs =
      (seekFrom? run [] left xs).map fun (found, rest) => (found ++ passed, rest) := by
  induction xs generalizing passed left with
  | nil => cases left <;> rfl
  | cons a tail ih =>
    cases left with
    | nil => rfl
    | cons m left =>
      have hstep : ∀ next, seekFrom? run (a :: passed) next tail =
          (seekFrom? run [a] next tail).map fun (found, rest) => (found ++ passed, rest) := by
        intro next
        rw [ih (a :: passed), ih [a], Option.map_map]
        simp [Function.comp_def]
      by_cases ha : a = m
      · rw [seekFrom?, if_pos ha, seekFrom?, if_pos ha, hstep]
      · rw [seekFrom?, if_neg ha, seekFrom?, if_neg ha, hstep]

/-- **A search gets over a line that has no occurrence,** and starts anew behind its end, which the
run has not. A part of the run may have been met right before the line. -/
theorem seekFrom?_line {e : α} {met left line : List α} (hrun : run = met ++ left)
    (hleft : left ≠ []) (hend : e ∉ run) (hline : ¬run <:+: met ++ line) (passed : List α) :
    seekFrom? run passed left (line ++ e :: xs) =
      seekFrom? run (e :: (line.reverse ++ passed)) run xs := by
  obtain ⟨m, left, rfl⟩ := List.exists_cons_of_ne_nil hleft
  induction line generalizing met m left passed with
  | nil =>
    have hother : ¬e = m := by
      rintro rfl
      exact hend (hrun ▸ List.mem_append_right met List.mem_cons_self)
    rw [List.nil_append, seekFrom?, if_neg hother]
    rfl
  | cons a line ih =>
    rw [List.cons_append, seekFrom?, List.reverse_cons, List.append_assoc, List.singleton_append]
    by_cases ha : a = m
    · -- one element more of the run is met, but not its last one
      subst ha
      rw [if_pos rfl]
      rw [List.append_cons] at hrun hline
      obtain ⟨m, left, rfl⟩ : ∃ m rest, left = m :: rest := by
        refine List.exists_cons_of_ne_nil fun hnil => hline ?_
        rw [hnil, List.append_nil] at hrun
        rw [← hrun]
        exact (List.prefix_append run line).isInfix
      exact ih hline (a :: passed) m left hrun (List.cons_ne_nil m left)
    · rw [if_neg ha]
      have hbehind : ¬run <:+: [] ++ line := fun hstands =>
        hline (hstands.trans (List.suffix_append_of_suffix (List.suffix_cons a line)).isInfix)
      obtain ⟨n, rest, rfl⟩ : ∃ n rest, run = n :: rest := by
        refine List.exists_cons_of_ne_nil fun hnil => ?_
        rw [hnil] at hrun
        exact absurd hrun.symm (List.append_ne_nil_of_right_ne_nil met (List.cons_ne_nil m left))
      exact ih hbehind (a :: passed) n rest rfl (List.cons_ne_nil n rest)

/-- **An occurrence behind a line is found** as it would be without the line. -/
theorem seek?_line {e : α} {line : List α} (hrun : run ≠ []) (hend : e ∉ run)
    (hline : ¬run <:+: line) :
    seek? run (line ++ e :: xs) =
      (seek? run xs).map fun (before, rest) => (line ++ e :: before, rest) := by
  rw [seek?, seekFrom?_line (List.nil_append run).symm hrun hend hline, seekFrom?_passed, seek?,
    Option.map_map, Option.map_map]
  cases hseek : seekFrom? run [] run xs with
  | none => rfl
  | some found =>
    obtain ⟨passed, rest⟩ := found
    have hnone : ([] : List α).reverse <+: [] := List.nil_prefix
    obtain ⟨⟨front, rfl⟩, -⟩ := of_seekFrom? (List.nil_append run).symm hnone hseek
    simp

/-- The search does not look at what comes behind an occurrence. -/
theorem seekFrom?_append_right {passed left : List α}
    (h : seekFrom? run passed left xs = some (before, rest)) (more : List α) :
    seekFrom? run passed left (xs ++ more) = some (before, rest ++ more) := by
  induction xs generalizing passed left with
  | nil =>
    cases left with
    | nil =>
      obtain ⟨rfl, rfl⟩ : passed = before ∧ [] = rest := by simpa [seekFrom?] using h
      cases more <;> rfl
    | cons m left => cases h
  | cons a tail ih =>
    cases left with
    | nil =>
      obtain ⟨rfl, rfl⟩ : passed = before ∧ a :: tail = rest := by simpa [seekFrom?] using h
      rfl
    | cons m left =>
      rw [seekFrom?] at h
      rw [List.cons_append, seekFrom?]
      by_cases ha : a = m
      · rw [if_pos ha] at h ⊢
        exact ih h
      · rw [if_neg ha] at h ⊢
        exact ih h

theorem seek?_append_right (h : seek? run xs = some (before, rest)) (more : List α) :
    seek? run (xs ++ more) = some (before, rest ++ more) := by
  obtain ⟨⟨passed, after⟩, hseek, hfound⟩ := Option.map_eq_some_iff.mp h
  obtain ⟨rfl, rfl⟩ := Prod.mk.inj hfound
  rw [seek?, seekFrom?_append_right hseek more]
  rfl

end PeerTrust.Text
