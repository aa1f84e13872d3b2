/-
  `Proofs.Expiry.Days` — which number of days a text about an expiry tells.

  Between two instants there is a number of complete days, and a number of days that have begun,
  of which the last one may be incomplete. They are the distance between the instants in days,
  rounded down and rounded up, so they agree exactly if nothing is left over
  (`begunDays_eq_completeDays_iff`).

  An expiry ahead is told by complete days. The distance to one that has passed is negative, and
  rounding it toward the past rounds its size up, so such an expiry is told by the days that have
  begun: the text is one day ahead of the complete days unless the distance is a whole number of
  days. No text tells two different numbers (`ToldAsPast.unique`), since a decimal ends where the
  space behind it is.
-/
import Mathlib.Data.List.Basic
import PeerTrust.Proofs.Clock
import PeerTrust.Proofs.Expiry

namespace PeerTrust.Expiry

variable {expiry reference : Instant} {k m n : Nat}

/-! ### Days between instants -/

/-- The microseconds between two instants, whichever of them is the first. -/
def gap (a b : Instant) : Nat := ((a.micros : Int) - b.micros).natAbs

/-- **The complete periods of 24 hours** between two instants. -/
def completeDays (a b : Instant) : Nat := gap a b / microsPerDay

/-- **The periods of 24 hours that have begun** between two instants. -/
def begunDays (a b : Instant) : Nat := (gap a b + (microsPerDay - 1)) / microsPerDay

theorem begunDays_of_dvd (h : microsPerDay ∣ gap expiry reference) :
    begunDays expiry reference = completeDays expiry reference := by
  obtain ⟨days, hdays⟩ := h
  rw [begunDays, completeDays, hdays]
  unfold microsPerDay
  omega

theorem begunDays_of_not_dvd (h : ¬microsPerDay ∣ gap expiry reference) :
    begunDays expiry reference = completeDays expiry reference + 1 := by
  rw [begunDays, completeDays]
  unfold microsPerDay at h ⊢
  omega

/-- **The two numbers agree** exactly if the instants are a whole number of days apart. -/
theorem begunDays_eq_completeDays_iff :
    begunDays expiry reference = completeDays expiry reference ↔
      microsPerDay ∣ gap expiry reference := by
  refine ⟨fun heq => Decidable.byContradiction fun hnot => ?_, begunDays_of_dvd⟩
  have hmore := begunDays_of_not_dvd hnot
  omega

/-- An expiry before the reference is at least begun. -/
theorem one_le_begunDays (h : expiry < reference) : 1 ≤ begunDays expiry reference := by
  have hlt : expiry.micros < reference.micros := h
  rw [begunDays, gap]
  unfold microsPerDay
  omega

/-- **Ahead the distance is the number of complete days.** -/
theorem dayDistance_of_not_lt (h : ¬expiry < reference) :
    dayDistance expiry reference = completeDays expiry reference := by
  have hle : reference.micros ≤ expiry.micros := Nat.le_of_not_lt h
  have hday : (0 : Int) ≤ microsPerDay := by decide
  rw [dayDistance, Int.fdiv_eq_ediv_of_nonneg _ hday, completeDays, gap]
  unfold microsPerDay
  omega

/-- **In the past its size is the number of days that have begun.** -/
theorem dayDistance_of_lt (h : expiry < reference) :
    dayDistance expiry reference = -(begunDays expiry reference : Int) := by
  have hlt : expiry.micros < reference.micros := h
  have hday : (0 : Int) ≤ microsPerDay := by decide
  rw [dayDistance, Int.fdiv_eq_ediv_of_nonneg _ hday, begunDays, gap]
  unfold microsPerDay
  omega

/-! ### Decimals in texts -/

/-- **A number is read back from a text** that does not go on with a digit behind it. -/
theorem takeWhile_toDigits_append {c : Char} (hc : c.isDigit = false) (n : Nat) (xs : List Char) :
    (Nat.toDigits 10 n ++ c :: xs).takeWhile Char.isDigit = Nat.toDigits 10 n := by
  have hdigits : ∀ d ∈ Nat.toDigits 10 n, d.isDigit = true := fun d hd =>
    Nat.isDigit_of_mem_toDigits (by decide) (by decide) hd
  have hnot : ¬c.isDigit = true := by
    rw [hc]
    decide
  rw [List.takeWhile_append_of_pos hdigits, List.takeWhile_cons_of_neg hnot, List.append_nil]

theorem toDigits_append_cons_inj {c : Char} {xs ys : List Char} (hc : c.isDigit = false)
    (h : Nat.toDigits 10 k ++ c :: xs = Nat.toDigits 10 n ++ c :: ys) : k = n := by
  have hdigits := congrArg (List.takeWhile Char.isDigit) h
  rw [takeWhile_toDigits_append hc, takeWhile_toDigits_append hc] at hdigits
  rw [← Nat.ofDigitChars_ten_toDigits (n := k), hdigits, Nat.ofDigitChars_ten_toDigits]

/-- The digits of a number do not start with anything else. -/
theorem toDigits_append_ne_cons {c : Char} {xs ys : List Char} (hc : c.isDigit = false) :
    Nat.toDigits 10 k ++ xs ≠ c :: ys := by
  intro h
  cases hdigits : Nat.toDigits 10 k with
  | nil => exact Nat.toDigits_ne_nil hdigits
  | cons d rest =>
    have hdigit : d.isDigit = true := by
      refine Nat.isDigit_of_mem_toDigits (b := 10) (n := k) (by decide) (by decide) ?_
      rw [hdigits]
      exact List.mem_cons_self
    rw [hdigits, List.cons_append] at h
    obtain ⟨rfl, -⟩ := List.cons_eq_cons.mp h
    rw [hc] at hdigit
    cases hdigit

/-! ### Texts that tell a number of days -/

/-- The words for an expiry a number of days ago. -/
def daysAgo (n : Nat) : String := "Expired " ++ toString n ++ " days ago"

/-- What the words for an expiry in a number of days start with. -/
def inDays (n : Nat) : String := "Expires in " ++ toString n ++ " days"

/-- **The text tells an expiry in the past:** yesterday for one day, and with the number for more
days, and not any other number. -/
structure ToldAsPast (text : String) (n : Nat) : Prop where
  positive : 1 ≤ n
  yesterday_iff : text = "Expired yesterday" ↔ n = 1
  daysAgo_iff : ∀ k, text = daysAgo k ↔ k = n ∧ 2 ≤ n

/-- **The text tells an expiry ahead:** today, tomorrow, or with the number of days. -/
structure ToldAsAhead (text : String) (n : Nat) : Prop where
  today_iff : text = "Expires today" ↔ n = 0
  tomorrow_iff : text = "Expires tomorrow" ↔ n = 1
  inDays_iff : ∀ k, (inDays k).toList <+: text.toList ↔ k = n ∧ 2 ≤ n

/-- **A text in the past tells one number.** -/
theorem ToldAsPast.unique {text : String} (h : ToldAsPast text m) (h' : ToldAsPast text n) :
    m = n := by
  have hm := h.positive
  by_cases hone : m = 1
  · rw [hone, h'.yesterday_iff.mp (h.yesterday_iff.mpr hone)]
  · have htext := (h.daysAgo_iff m).mpr ⟨rfl, by omega⟩
    exact ((h'.daysAgo_iff m).mp htext).1

theorem toList_daysAgo (n : Nat) :
    (daysAgo n).toList = "Expired ".toList ++ (Nat.toDigits 10 n ++ " days ago".toList) := by
  rw [daysAgo, String.toList_append, String.toList_append, Nat.toString_eq_repr, Nat.toList_repr,
    List.append_assoc]

theorem toList_inDays (n : Nat) :
    (inDays n).toList = "Expires in ".toList ++ (Nat.toDigits 10 n ++ " days".toList) := by
  rw [inDays, String.toList_append, String.toList_append, Nat.toString_eq_repr, Nat.toList_repr,
    List.append_assoc]

theorem daysAgo_inj : daysAgo k = daysAgo n ↔ k = n := by
  refine ⟨fun h => ?_, fun h => h ▸ rfl⟩
  have hlists := congrArg String.toList h
  rw [toList_daysAgo, toList_daysAgo] at hlists
  have hdigits := List.append_cancel_left hlists
  exact toDigits_append_cons_inj (by decide) hdigits

theorem daysAgo_ne_yesterday (n : Nat) : daysAgo n ≠ "Expired yesterday" := by
  intro h
  have hlists := congrArg String.toList h
  have hword : "Expired yesterday".toList = "Expired ".toList ++ 'y' :: "esterday".toList := rfl
  rw [toList_daysAgo, hword] at hlists
  exact toDigits_append_ne_cons (by decide) (List.append_cancel_left hlists)

theorem inDays_prefix_iff {rest : List Char} :
    (inDays k).toList <+: (inDays n).toList ++ rest ↔ k = n := by
  constructor
  · rintro ⟨more, h⟩
    rw [toList_inDays, toList_inDays, List.append_assoc, List.append_assoc, List.append_assoc,
      List.append_assoc] at h
    have hdigits := List.append_cancel_left h
    exact toDigits_append_cons_inj (by decide) hdigits
  · rintro rfl
    exact List.prefix_append _ rest

/-- A text with another letter where the word in stands tells no number. -/
theorem not_prefix_of_other {c : Char} (hc : c ≠ 'i') (k : Nat) (rest : List Char) :
    ¬(inDays k).toList <+: "Expires ".toList ++ c :: rest := by
  rintro ⟨more, h⟩
  have hword : "Expires in ".toList = "Expires ".toList ++ 'i' :: "n ".toList := rfl
  rw [toList_inDays, hword, List.append_assoc, List.append_assoc] at h
  exact hc (List.cons_eq_cons.mp (List.append_cancel_left h)).1.symm

/-! ### The text of a distance -/

theorem toldAsPast_phrase (h : 1 ≤ n) : ToldAsPast (phrase (-(n : Int))) n := by
  by_cases hone : n = 1
  · subst hone
    have hphrase : phrase (-((1 : Nat) : Int)) = "Expired yesterday" := rfl
    rw [hphrase]
    refine ⟨h, iff_of_true rfl rfl, fun k => iff_of_false (daysAgo_ne_yesterday k).symm ?_⟩
    omega
  · have hlong : -(n : Int) < -1 := by omega
    have hphrase : phrase (-(n : Int)) = daysAgo n := by
      rw [phrase, if_pos hlong, Int.natAbs_neg, Int.natAbs_natCast, daysAgo]
    rw [hphrase]
    refine ⟨h, iff_of_false (daysAgo_ne_yesterday n) hone, fun k => ?_⟩
    rw [daysAgo_inj]
    omega

/-- **A longer distance ahead** is told with its number, and maybe with years behind it. -/
theorem exists_toList_phrase (h : 2 ≤ n) :
    ∃ rest, (phrase (n : Int)).toList = (inDays n).toList ++ rest := by
  have hnumber : toString (n : Int) = toString n := rfl
  have h₁ : ¬(n : Int) < -1 := by omega
  have h₂ : ¬(n : Int) = -1 := by omega
  have h₃ : ¬(n : Int) = 0 := by omega
  have h₄ : ¬(n : Int) = 1 := by omega
  rw [phrase, if_neg h₁, if_neg h₂, if_neg h₃, if_neg h₄]
  by_cases hyears : (n : Int) > 365
  · rw [if_pos hyears, hnumber]
    exact ⟨(" (" ++ toString (nearestYears n) ++ " years)").toList, by
      simp only [inDays, String.toList_append, List.append_assoc]; rfl⟩
  · rw [if_neg hyears, hnumber]
    exact ⟨[], (List.append_nil _).symm⟩

theorem toldAsAhead_phrase (n : Nat) : ToldAsAhead (phrase (n : Int)) n := by
  by_cases hmany : 2 ≤ n
  · obtain ⟨rest, hrest⟩ := exists_toList_phrase hmany
    have hshort : ∀ {c : Char} {word : List Char} {text : String}, c ≠ 'i' →
        text.toList = "Expires ".toList ++ c :: word → phrase (n : Int) ≠ text := by
      intro c word text hc htext heq
      refine not_prefix_of_other hc n word ?_
      rw [← htext, ← heq, hrest]
      exact List.prefix_append _ rest
    refine ⟨iff_of_false (hshort (by decide) rfl) (by omega),
      iff_of_false (hshort (by decide) rfl) (by omega), fun k => ?_⟩
    rw [hrest, inDays_prefix_iff]
    omega
  · have hcases : n = 0 ∨ n = 1 := by omega
    rcases hcases with rfl | rfl
    · exact ⟨iff_of_true rfl rfl, iff_of_false (by decide) (by decide),
        fun k => iff_of_false (not_prefix_of_other (c := 't') (by decide) k _) (by omega)⟩
    · exact ⟨iff_of_false (by decide) (by decide), iff_of_true rfl rfl,
        fun k => iff_of_false (not_prefix_of_other (c := 't') (by decide) k _) (by omega)⟩

/-! ### The text of an expiry -/

theorem toldAsPast_describe (h : expiry < reference) :
    ToldAsPast (describe expiry reference) (begunDays expiry reference) := by
  rw [describe, dayDistance_of_lt h]
  exact toldAsPast_phrase (one_le_begunDays h)

theorem toldAsAhead_describe (h : ¬expiry < reference) :
    ToldAsAhead (describe expiry reference) (completeDays expiry reference) := by
  rw [describe, dayDistance_of_not_lt h]
  exact toldAsAhead_phrase _

theorem ofValues_of_toUtc? {now : Instant} {r s : Reading} (hr : r.toUtc? = some expiry)
    (hs : s.toUtc? = some reference) :
    ofValues now (.dateTime r) (.dateTime s) = .ok (describe expiry reference) := by
  have hexpiry : (Value.dateTime r).instant = .ok expiry := Reading.instant_eq_ok_iff.mpr hr
  have hreference : (Value.dateTime s).instant = .ok reference := Reading.instant_eq_ok_iff.mpr hs
  have hpresent : (Value.dateTime s).isTruthy = true := rfl
  rw [ofValues_eq, hexpiry, hpresent, if_pos rfl, hreference]
  rfl

/-- **An expiry ahead is told by the complete days, and one that has passed by the days that have
begun.** The text about two readings is the text about the instants that they denote. For an
expiry before the reference it tells the complete days exactly if the distance is a whole number
of days; otherwise it tells one day more. -/
theorem describe_tells_days (expiry reference : Instant) :
    (∀ (now : Instant) (r s : Reading), r.toUtc? = some expiry → s.toUtc? = some reference →
      ofValues now (.dateTime r) (.dateTime s) = .ok (describe expiry reference)) ∧
    (¬expiry < reference →
      ToldAsAhead (describe expiry reference) (completeDays expiry reference)) ∧
    (expiry < reference →
      ToldAsPast (describe expiry reference) (begunDays expiry reference) ∧
      (ToldAsPast (describe expiry reference) (completeDays expiry reference) ↔
        microsPerDay ∣ gap expiry reference)) ∧
    (begunDays expiry reference =
      completeDays expiry reference + if microsPerDay ∣ gap expiry reference then 0 else 1) := by
  refine ⟨fun now r s => ofValues_of_toUtc?, toldAsAhead_describe, fun hpast => ?_, ?_⟩
  · have htold := toldAsPast_describe hpast
    refine ⟨htold, ?_⟩
    rw [← begunDays_eq_completeDays_iff]
    exact ⟨htold.unique, fun heq => heq ▸ htold⟩
  · by_cases hwhole : microsPerDay ∣ gap expiry reference
    · rw [if_pos hwhole, begunDays_of_dvd hwhole, Nat.add_zero]
    · rw [if_neg hwhole, begunDays_of_not_dvd hwhole]

/-- An expiry 25 hours before the reference has one complete day behind it and is told as two days
ago, while one 48 hours before it has two. As many hours ahead it is tomorrow. -/
theorem describe_tells_days_of_hours :
    let hours (n : Nat) (h : n < 100) : Instant := ⟨n * 3600000000, by
      unfold calendarSpan microsPerDay
      omega⟩
    let start := hours 0 (by decide)
    let later := hours 25 (by decide)
    let shifted : Reading := ⟨hours 26 (by decide), some 3600000000⟩
    shifted.toUtc? = some later ∧ start < later ∧
      ofValues start (.dateTime ⟨start, none⟩) (.dateTime shifted) = .ok (daysAgo 2) ∧
      completeDays start later = 1 ∧ ¬ToldAsPast (daysAgo 2) 1 ∧
      ToldAsPast (describe start (hours 48 (by decide))) 2 ∧
      describe later start = "Expires tomorrow" := by
  intro hours start later shifted
  have hshifted : shifted.toUtc? = some later := by decide +kernel
  have hpast : start < later := by decide +kernel
  obtain ⟨hvalues, -, htold, -⟩ := describe_tells_days start later
  obtain ⟨hbegun, hcomplete⟩ := htold hpast
  obtain ⟨-, -, hwhole, -⟩ := describe_tells_days start (hours 48 (by decide))
  obtain ⟨-, hahead, -⟩ := describe_tells_days later start
  have hbegunDays : begunDays start later = 2 := by decide +kernel
  have hcompleteDays : completeDays start later = 1 := by decide +kernel
  have hgap : ¬microsPerDay ∣ gap start later := by decide +kernel
  have htext : describe start later = daysAgo 2 :=
    (hbegun.daysAgo_iff 2).mpr ⟨hbegunDays.symm, Nat.le_of_eq hbegunDays.symm⟩
  have hone : ¬ToldAsPast (describe start later) (completeDays start later) := mt hcomplete.mp hgap
  rw [htext, hcompleteDays] at hone
  have htwo : begunDays start (hours 48 (by decide)) = 2 := by decide +kernel
  have hahead := (hahead (by decide)).tomorrow_iff.mpr (by decide +kernel)
  exact ⟨hshifted, hpast, (hvalues start _ _ rfl hshifted).trans (congrArg _ htext),
    hcompleteDays, hone, htwo ▸ (hwhole (by decide)).1, hahead⟩

end PeerTrust.Expiry
