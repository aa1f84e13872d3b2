/-
  `Proofs.Expiry` — the words for an expiry, against the order of instants.

  The distance is counted in whole days toward the past, so it lies below a number of
  days exactly if the expiry lies before the reference moved by as many days
  (`le_dayDistance_iff`). At zero this is the order of the two instants itself: however
  short the time between them, an expiry before the reference is told in the past tense
  and every other one in the present (`expired_prefix_iff`, `expires_prefix_iff`).
-/
import PeerTrust.Expiry
import PeerTrust.Proofs.Text.Search

namespace PeerTrust.Expiry

/-! ### The distance -/

/-- **A number of days fits between the instants** exactly if the reference, moved by it, is not
after the expiry. -/
theorem le_dayDistance_iff (n : Int) (expiry reference : Instant) :
    n ≤ dayDistance expiry reference ↔
      (reference.micros : Int) + n * microsPerDay ≤ expiry.micros := by
  have hday : (0 : Int) < microsPerDay := by decide
  rw [dayDistance, Int.fdiv_eq_ediv_of_nonneg _ (Int.le_of_lt hday), Int.le_ediv_iff_mul_le hday]
  omega

/-- **The distance is negative** exactly if the expiry lies before the reference. -/
theorem dayDistance_neg_iff (expiry reference : Instant) :
    dayDistance expiry reference < 0 ↔ expiry < reference := by
  have hzero := le_dayDistance_iff 0 expiry reference
  rw [Int.zero_mul, Int.add_zero, Int.ofNat_le] at hzero
  rw [← Int.not_le, hzero, Nat.not_le]
  exact Iff.rfl

/-! ### The tense of a text -/

/-- **A negative distance is told in the past tense.** -/
theorem expired_prefix_phrase {days : Int} (h : days < 0) :
    "Expired".toList <+: (phrase days).toList := by
  unfold phrase
  by_cases hlong : days < -1
  · rw [if_pos hlong, show "Expired " = "Expired" ++ " " from rfl, String.append_assoc,
      String.append_assoc]
    exact Text.toList_prefix_append _ _
  · have hone : days = -1 := by omega
    rw [if_neg hlong, if_pos hone]
    exact Text.toList_prefix_append _ " yesterday"

/-- **Every other distance is told in the present tense.** -/
theorem expires_prefix_phrase {days : Int} (h : 0 ≤ days) :
    "Expires".toList <+: (phrase days).toList := by
  have hlong : ¬days < -1 := by omega
  have hone : ¬days = -1 := by omega
  have hword : "Expires in " = "Expires" ++ " in " := rfl
  unfold phrase
  rw [if_neg hlong, if_neg hone]
  by_cases htoday : days = 0
  · rw [if_pos htoday]
    exact Text.toList_prefix_append _ " today"
  rw [if_neg htoday]
  by_cases htomorrow : days = 1
  · rw [if_pos htomorrow]
    exact Text.toList_prefix_append _ " tomorrow"
  rw [if_neg htomorrow]
  by_cases hyears : 365 < days
  · rw [if_pos hyears, hword]
    simp only [String.append_assoc]
    exact Text.toList_prefix_append _ _
  · rw [if_neg hyears, hword]
    simp only [String.append_assoc]
    exact Text.toList_prefix_append _ _

/-- No text starts with both words, which are of one length. -/
theorem not_both_prefix {text : List Char} (h : "Expired".toList <+: text)
    (h' : "Expires".toList <+: text) : False := by
  have heq := (List.prefix_of_prefix_length_le h h' (by decide)).eq_of_length (by decide)
  revert heq
  decide

variable {expiry reference : Instant}

/-- **A text in the past tense** is one about an expiry before the reference. -/
theorem expired_prefix_iff :
    "Expired".toList <+: (describe expiry reference).toList ↔ expiry < reference := by
  rw [← dayDistance_neg_iff]
  constructor
  · intro hexpired
    refine Int.not_le.mp fun hfuture => ?_
    exact not_both_prefix hexpired (expires_prefix_phrase hfuture)
  · exact expired_prefix_phrase

/-- **A text in the present tense** is one about any other expiry. -/
theorem expires_prefix_iff :
    "Expires".toList <+: (describe expiry reference).toList ↔ ¬expiry < reference := by
  rw [← dayDistance_neg_iff]
  constructor
  · intro hexpires hpast
    exact not_both_prefix (expired_prefix_phrase hpast) hexpires
  · intro hfuture
    exact expires_prefix_phrase (Int.not_lt.mp hfuture)

end PeerTrust.Expiry
