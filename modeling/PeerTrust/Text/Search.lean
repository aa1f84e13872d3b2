/-
  `Text.Search` — finding elements and runs of elements inside a list.

  The lists are characters of a text or octets of a file; the functions ask only
  for a decidable equality. There are two searches for a run. `hasRun` finds it
  wherever it is. `seek?` never goes back: an element that breaks an occurrence
  is passed for good, so an occurrence that starts inside a broken one is missed.
-/
namespace PeerTrust.Text

variable {α : Type} [DecidableEq α]

/-! ### Parts -/

/-- The parts of a list between the occurrences of an element; there is at least one. -/
def splitOn (a : α) : List α → List (List α)
  | [] => [[]]
  | b :: rest =>
    if b = a then [] :: splitOn a rest
    else
      match splitOn a rest with
      | part :: parts => (b :: part) :: parts
      | [] => [[b]]

/-! ### Occurrences -/

/-- What follows `run` if the list starts with it. -/
def afterRun? : List α → List α → Option (List α)
  | [], rest => some rest
  | _ :: _, [] => none
  | a :: run, b :: rest => if a = b then afterRun? run rest else none

/-- **The list contains `run`.** -/
def hasRun (run : List α) : List α → Bool
  | [] => run.isEmpty
  | a :: tail => (afterRun? run (a :: tail)).isSome || hasRun run tail

theorem afterRun?_eq_some_iff {run xs rest : List α} :
    afterRun? run xs = some rest ↔ xs = run ++ rest := by
  induction run generalizing xs with
  | nil => simp [afterRun?, eq_comm]
  | cons a run ih =>
    cases xs with
    | nil => simp [afterRun?]
    | cons b xs =>
      by_cases h : a = b
      · simp [afterRun?, h, ih]
      · simp [afterRun?, h, Ne.symm h]

/-! ### Search without going back -/

/-- Goes on with a search that has passed some elements, the last one first, when
`left` of the run is still to come. -/
def seekFrom? (run passed : List α) : List α → List α → Option (List α × List α)
  | [], rest => some (passed, rest)
  | _ :: _, [] => none
  | m :: left, a :: tail =>
    if a = m then seekFrom? run (a :: passed) left tail
    else seekFrom? run (a :: passed) run tail

/-- **The first occurrence of `run` that a search without going back meets:** what
comes before it and what comes after it. -/
def seek? (run xs : List α) : Option (List α × List α) :=
  (seekFrom? run [] run xs).map fun (passed, rest) => ((passed.drop run.length).reverse, rest)

/-- What follows an occurrence is no longer than the list. -/
theorem length_of_seekFrom? {run passed left xs before rest : List α}
    (h : seekFrom? run passed left xs = some (before, rest)) : rest.length ≤ xs.length := by
  induction xs generalizing passed left with
  | nil =>
    cases left with
    | nil => simp_all [seekFrom?]
    | cons => simp [seekFrom?] at h
  | cons a tail ih =>
    cases left with
    | nil => simp_all [seekFrom?]
    | cons m left =>
      unfold seekFrom? at h
      split at h
      all_goals
        have := ih h
        simp
        omega

/-- What follows an occurrence of a run that is not empty is shorter than the list. -/
theorem length_of_seek? {run xs before rest : List α} (hr : run ≠ [])
    (h : seek? run xs = some (before, rest)) : rest.length < xs.length := by
  obtain ⟨⟨p, r⟩, hs, he⟩ := Option.map_eq_some_iff.1 h
  simp only [Prod.mk.injEq] at he
  obtain ⟨-, rfl⟩ := he
  cases run with
  | nil => exact absurd rfl hr
  | cons m left =>
    cases xs with
    | nil => simp [seekFrom?] at hs
    | cons a tail =>
      unfold seekFrom? at hs
      split at hs
      all_goals
        have := length_of_seekFrom? hs
        simp
        omega

end PeerTrust.Text
