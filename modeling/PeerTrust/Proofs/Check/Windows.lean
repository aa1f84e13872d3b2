/-
  `Proofs.Check.Windows` — at which instants a chain passes, and which certificate is
  blamed at the others.

  A certificate's window is a closed interval of instants, empty if the window is inverted.
  The check passes at the instants of the intersection, and an intersection of closed
  intervals is the closed interval between the last start and the first end
  (`mem_acceptedInstants_iff`). It is empty exactly if two windows have no instant in
  common, so no third certificate is ever needed to explain a chain that passes at no
  instant (`acceptedInstants_eq_empty_iff`).

  At every other instant there is one certificate outside its window with all certificates
  below it inside theirs (`Chain.OutsideAt`). That one is blamed, for an early or a late
  instant, and nothing on the root's side of it has a say in it.
-/
import Mathlib.Data.List.MinMax
import Mathlib.Order.Bounds.Basic
import PeerTrust.Proofs.Evaluator.Request
import PeerTrust.Proofs.Expiry
import PeerTrust.Proofs.Instant

namespace PeerTrust

open Traced

/-! ### Windows -/

/-- **The window of a certificate,** both ends included. -/
def Certificate.window (c : Certificate) : Set Instant := Set.Icc c.notBefore c.notAfter

/-- A window that ends before it starts is empty. -/
theorem Certificate.window_eq_empty_iff (c : Certificate) :
    c.window = ∅ ↔ c.notAfter < c.notBefore := by
  rw [window, Set.Icc_eq_empty_iff, not_le]

/-- **An instant outside a window that has begun is after its end,** also if the window ends
before it begins. -/
theorem Certificate.notAfter_lt_of_notMem_window {c : Certificate} {t : Instant}
    (h : t ∉ c.window) (hbegun : ¬t < c.notBefore) : c.notAfter < t := by
  rw [window, Set.mem_Icc, not_and] at h
  exact not_le.mp (h (not_lt.mp hbegun))

namespace Chain

variable {chain other : Chain} {t : Instant} {i j : Nat} {c d : Certificate}

theorem length_map_pos (chain : Chain) (f : Certificate → Instant) :
    0 < (chain.toList.map f).length := by
  rw [List.length_map, toList, List.length_cons]
  omega

/-- The last instant at which a window of the chain begins. -/
def lastStart (chain : Chain) : Instant :=
  List.maximum_of_length_pos (chain.length_map_pos Certificate.notBefore)

/-- The first instant at which a window of the chain ends. -/
def firstEnd (chain : Chain) : Instant :=
  List.minimum_of_length_pos (chain.length_map_pos Certificate.notAfter)

theorem isGreatest_lastStart (chain : Chain) :
    IsGreatest {s | ∃ c ∈ chain.toList, c.notBefore = s} chain.lastStart := by
  constructor
  · exact List.mem_map.mp (List.maximum_of_length_pos_mem _)
  · intro s hs
    exact List.le_maximum_of_length_pos_of_mem (List.mem_map.mpr hs) _

theorem isLeast_firstEnd (chain : Chain) :
    IsLeast {s | ∃ c ∈ chain.toList, c.notAfter = s} chain.firstEnd := by
  constructor
  · exact List.mem_map.mp (List.minimum_of_length_pos_mem _)
  · intro s hs
    exact List.minimum_of_length_pos_le_of_mem (List.mem_map.mpr hs) _

/-- **The windows have in common** what lies between the last start and the first end. -/
theorem forall_mem_window_iff (chain : Chain) (t : Instant) :
    (∀ c ∈ chain.toList, t ∈ c.window) ↔ chain.lastStart ≤ t ∧ t ≤ chain.firstEnd := by
  constructor
  · intro h
    obtain ⟨c, hc, hstart⟩ := chain.isGreatest_lastStart.1
    obtain ⟨d, hd, hend⟩ := chain.isLeast_firstEnd.1
    rw [← hstart, ← hend]
    exact ⟨(h c hc).1, (h d hd).2⟩
  · rintro ⟨hstart, hend⟩ c hc
    have hfrom : c.notBefore ≤ chain.lastStart := chain.isGreatest_lastStart.2 ⟨c, hc, rfl⟩
    have hto : chain.firstEnd ≤ c.notAfter := chain.isLeast_firstEnd.2 ⟨c, hc, rfl⟩
    exact ⟨hfrom.trans hstart, hend.trans hto⟩

/-! ### The certificate outside its window -/

/-- **It stays the same when certificates on the root's side of it change.** -/
theorem OutsideAt.congr (h : chain.OutsideAt t i c)
    (hsame : ∀ k, k ≤ i → other.toList[k]? = chain.toList[k]?) : other.OutsideAt t i c := by
  refine ⟨(hsame i (Nat.le_refl i)).trans h.atDepth, h.outside, ?_⟩
  intro k d hk hget
  rw [hsame k (by omega)] at hget
  exact h.below k d hk hget

end Chain

/-! ### The check -/

namespace CheckContext

variable {ctx : CheckContext} {t : Instant} {i : Nat} {c : Certificate}

/-- The same parts with a clock that shows UTC. -/
def seenAt (ctx : CheckContext) (t : Instant) : CheckContext :=
  { ctx with reference := .ofInstant t }

/-- The instants at which the chain passes the check of its windows. -/
def acceptedInstants (ctx : CheckContext) : Set Instant :=
  {t | (ctx.seenAt t).checkValidity.outcome = .ok ()}

theorem mem_acceptedInstants_iff_forall (ctx : CheckContext) (t : Instant) :
    t ∈ ctx.acceptedInstants ↔ ∀ c ∈ ctx.chain.toList, t ∈ c.window := by
  have hmeets := ((ctx.seenAt t).ends_checkValidity rfl).outcome_eq_ok_iff
  have hutc : (ctx.seenAt t).reference.toUtc? = some t := Reading.toUtc?_ofInstant t
  rw [acceptedInstants, Set.mem_ofPred_eq, hmeets]
  constructor
  · rintro ⟨u, hu, hall⟩
    obtain rfl : t = u := Option.some.inj (hutc.symm.trans hu)
    exact hall
  · intro hall
    exact ⟨t, hutc, hall⟩

/-- **The chain passes between the last start and the first end,** both included. -/
theorem mem_acceptedInstants_iff (ctx : CheckContext) (t : Instant) :
    t ∈ ctx.acceptedInstants ↔ ctx.chain.lastStart ≤ t ∧ t ≤ ctx.chain.firstEnd := by
  rw [mem_acceptedInstants_iff_forall, Chain.forall_mem_window_iff]

theorem acceptedInstants_eq_Icc (ctx : CheckContext) :
    ctx.acceptedInstants = Set.Icc ctx.chain.lastStart ctx.chain.firstEnd :=
  Set.ext ctx.mem_acceptedInstants_iff

/-- **A chain passes at no instant** exactly if a window is inverted or two windows have no instant
in common. -/
theorem acceptedInstants_eq_empty_iff (ctx : CheckContext) :
    ctx.acceptedInstants = ∅ ↔
      (∃ c ∈ ctx.chain.toList, c.notAfter < c.notBefore) ∨
        ∃ c ∈ ctx.chain.toList, ∃ d ∈ ctx.chain.toList, ∀ t ∈ c.window, t ∉ d.window := by
  constructor
  · intro hempty
    rw [acceptedInstants_eq_Icc, Set.Icc_eq_empty_iff, not_le] at hempty
    obtain ⟨c, hc, hstart⟩ := ctx.chain.isGreatest_lastStart.1
    obtain ⟨d, hd, hend⟩ := ctx.chain.isLeast_firstEnd.1
    rw [← hstart, ← hend] at hempty
    -- the window that ends first and the one that starts last have nothing in common; this is
    -- also the case if they are one inverted window
    refine Or.inr ⟨d, hd, c, hc, ?_⟩
    intro t ht ht'
    exact not_lt.mpr (ht'.1.trans ht.2) hempty
  · intro h
    rw [Set.eq_empty_iff_forall_notMem]
    intro t ht
    rw [mem_acceptedInstants_iff_forall] at ht
    rcases h with ⟨c, hc, hinverted⟩ | ⟨c, hc, d, hd, hdisjoint⟩
    · rw [← c.window_eq_empty_iff] at hinverted
      exact (hinverted ▸ ht c hc : t ∈ (∅ : Set Instant))
    · exact hdisjoint t (ht c hc) (ht d hd)

/-! ### Blame -/

/-- **The check blames the certificate at a depth.** It fails with an error that carries the target
and the number of an early instant, or else of a late one, and the instant is then after the
end of the window. It makes one report, a warning that names the depth and tells of a late
instant in the past tense. The warning names the subject as well; if that cannot be read, its
defect is the failure, and there is no report. No certificate on the root's side can change
anything about that. -/
structure BlamesOutside (ctx : CheckContext) (t : Instant) (i : Nat) (c : Certificate) :
    Prop where
  failure : c.subject.defect? = none →
    ∃ e, (ctx.seenAt t).checkValidity.outcome = .error (.trust e) ∧ e.kind = .expired ∧
      e.target = .str ctx.target ∧ e.peerIdentity = .str ctx.peerIdentity ∧
      e.code = .int (if t < c.notBefore then 9 else 10)
  late : ¬t < c.notBefore → c.notAfter < t
  warning : c.subject.defect? = none →
    ∃ r, (ctx.seenAt t).checkValidity.events = [.report r] ∧ r.level = .warning ∧
      r.channel = .validityCheck ∧ (Report.atDepth ctx.target i).toList <+: r.text.toList ∧
      (¬t < c.notBefore → r.text = Report.atDepth ctx.target i ++ c.subject.render ++ " " ++
          Expiry.describe c.notAfter t ∧
        "Expired".toList <+: (Expiry.describe c.notAfter t).toList ∧
        ¬"Expires".toList <+: (Expiry.describe c.notAfter t).toList)
  unread : ∀ defect, c.subject.defect? = some defect →
    (ctx.seenAt t).checkValidity = .fail (.illegibleName defect)
  rootward : ∀ other : Chain, (∀ k, k ≤ i → other.toList[k]? = ctx.chain.toList[k]?) →
    (({ ctx with chain := other } : CheckContext).seenAt t).checkValidity =
      (ctx.seenAt t).checkValidity

/-- A certificate outside its window is rejected. -/
theorem checkValidity_of_outsideAt (h : ctx.chain.OutsideAt t i c) :
    (ctx.seenAt t).checkValidity = (ctx.seenAt t).rejectOutside t i c := by
  have hutc : (ctx.seenAt t).reference.toUtc? = some t := Reading.toUtc?_ofInstant t
  have hfound : (ctx.seenAt t).chain.outside? t = some (i, c) := Chain.outside?_eq_some_iff.mpr h
  have hoffset : (ctx.seenAt t).reference.offset.isNone = false := rfl
  simp only [checkValidity, hutc, hfound, hoffset, Bool.false_eq_true, if_false]

/-- A chain that does not pass has a certificate outside its window. -/
theorem exists_outsideAt (h : t ∉ ctx.acceptedInstants) : ∃ i c, ctx.chain.OutsideAt t i c := by
  cases hfound : ctx.chain.outside? t with
  | none =>
    have hinside := (ctx.chain.outside?_eq_none_iff t).mp hfound
    exact absurd ((ctx.mem_acceptedInstants_iff_forall t).mpr hinside) h
  | some found => exact ⟨_, _, Chain.OutsideAt.of_outside? hfound⟩

/-- A report on a certificate that is not valid yet starts with its depth. -/
theorem atDepth_prefix_notYetValid (target : String) (i : Nat) (subject : Name) (start : Instant) :
    (Report.atDepth target i).toList <+:
      (Report.notYetValid target i subject start).text.toList := by
  show _ <+: (Report.atDepth target i ++ subject.render ++ " not valid before " ++
    start.isoText).toList
  simp only [String.append_assoc]
  exact Text.toList_prefix_append _ _

/-- A report on a certificate that is no longer valid starts with its depth. -/
theorem atDepth_prefix_noLongerValid (target : String) (i : Nat) (subject : Name)
    (ended t : Instant) :
    (Report.atDepth target i).toList <+:
      (Report.noLongerValid target i subject ended t).text.toList := by
  show _ <+: (Report.atDepth target i ++ subject.render ++ " " ++
    Expiry.describe ended t).toList
  simp only [String.append_assoc]
  exact Text.toList_prefix_append _ _

/-- **An early instant** makes the check report where the window starts. -/
theorem checkValidity_of_early (h : ctx.chain.OutsideAt t i c)
    (hlegible : c.subject.defect? = none) (hearly : t < c.notBefore) :
    (ctx.seenAt t).checkValidity = (do
      .report (.notYetValid ctx.target i c.subject c.notBefore)
      .fail (.trust (.expired (.str ctx.target) true (.str ctx.peerIdentity)))) := by
  rw [checkValidity_of_outsideAt h, rejectOutside, Name.read_of_legible hlegible,
    ofExcept_ok_bind]
  simp only [hearly, decide_true, if_true]
  rfl

/-- **A late instant** makes it report how long ago the window ended. -/
theorem checkValidity_of_late (h : ctx.chain.OutsideAt t i c)
    (hlegible : c.subject.defect? = none) (hlate : ¬t < c.notBefore) :
    (ctx.seenAt t).checkValidity = (do
      .report (.noLongerValid ctx.target i c.subject c.notAfter t)
      .fail (.trust (.expired (.str ctx.target) false (.str ctx.peerIdentity)))) := by
  rw [checkValidity_of_outsideAt h, rejectOutside, Name.read_of_legible hlegible,
    ofExcept_ok_bind]
  simp only [hlate, decide_false, Bool.false_eq_true, if_false]
  rfl

/-- **A subject that cannot be read** is in the way of either report. -/
theorem checkValidity_of_unread (h : ctx.chain.OutsideAt t i c) {defect : NameDefect}
    (hdefect : c.subject.defect? = some defect) :
    (ctx.seenAt t).checkValidity = .fail (.illegibleName defect) := by
  rw [checkValidity_of_outsideAt h, rejectOutside, Name.read_of_defect hdefect,
    ofExcept_error_bind]

/-- **Certificates on the root's side have no part in a rejection.** -/
theorem checkValidity_rootward (h : ctx.chain.OutsideAt t i c) (other : Chain)
    (hsame : ∀ k, k ≤ i → other.toList[k]? = ctx.chain.toList[k]?) :
    (({ ctx with chain := other } : CheckContext).seenAt t).checkValidity =
      (ctx.seenAt t).checkValidity := by
  have hother : ({ ctx with chain := other } : CheckContext).chain.OutsideAt t i c := h.congr hsame
  rw [checkValidity_of_outsideAt h, checkValidity_of_outsideAt hother]
  rfl

/-- **What an early instant leads to** if the subject can be read. -/
theorem warns_of_early (h : ctx.chain.OutsideAt t i c) (hlegible : c.subject.defect? = none)
    (hearly : t < c.notBefore) :
    (ctx.seenAt t).checkValidity.outcome =
        .error (.trust (.expired (.str ctx.target) true (.str ctx.peerIdentity))) ∧
      (ctx.seenAt t).checkValidity.events =
        [.report (.notYetValid ctx.target i c.subject c.notBefore)] := by
  rw [checkValidity_of_early h hlegible hearly, outcome_report_bind, outcome_fail,
    events_report_bind]
  exact ⟨rfl, rfl⟩

/-- **What a late instant leads to.** -/
theorem warns_of_late (h : ctx.chain.OutsideAt t i c) (hlegible : c.subject.defect? = none)
    (hlate : ¬t < c.notBefore) :
    (ctx.seenAt t).checkValidity.outcome =
        .error (.trust (.expired (.str ctx.target) false (.str ctx.peerIdentity))) ∧
      (ctx.seenAt t).checkValidity.events =
        [.report (.noLongerValid ctx.target i c.subject c.notAfter t)] := by
  rw [checkValidity_of_late h hlegible hlate, outcome_report_bind, outcome_fail,
    events_report_bind]
  exact ⟨rfl, rfl⟩

/-- **The certificate outside its window nearest to the leaf is the one that is blamed.** -/
theorem blamesOutside_of_outsideAt (h : ctx.chain.OutsideAt t i c) :
    ctx.BlamesOutside t i c where
  failure hlegible := by
    by_cases hearly : t < c.notBefore
    · refine ⟨_, (warns_of_early h hlegible hearly).1, rfl, rfl, rfl, ?_⟩
      rw [if_pos hearly]
      rfl
    · refine ⟨_, (warns_of_late h hlegible hearly).1, rfl, rfl, rfl, ?_⟩
      rw [if_neg hearly]
      rfl
  late := Certificate.notAfter_lt_of_notMem_window h.outside
  warning hlegible := by
    by_cases hearly : t < c.notBefore
    · exact ⟨_, (warns_of_early h hlegible hearly).2, rfl, rfl,
        atDepth_prefix_notYetValid ctx.target i c.subject c.notBefore,
        fun hlate => absurd hearly hlate⟩
    · have hend := Certificate.notAfter_lt_of_notMem_window h.outside hearly
      have hpast : "Expired".toList <+: (Expiry.describe c.notAfter t).toList :=
        Expiry.expired_prefix_iff.mpr hend
      exact ⟨_, (warns_of_late h hlegible hearly).2, rfl, rfl,
        atDepth_prefix_noLongerValid ctx.target i c.subject c.notAfter t,
        fun _ => ⟨rfl, hpast, fun hpresent => Expiry.not_both_prefix hpast hpresent⟩⟩
  unread _ hdefect := checkValidity_of_unread h hdefect
  rootward := checkValidity_rootward h

/-- **The check passes the chain exactly between the last start and the first end of its windows
and blames the certificate outside its window nearest to the leaf at every other instant.** -/
theorem checkValidity_windows (ctx : CheckContext) :
    IsGreatest {s | ∃ c ∈ ctx.chain.toList, c.notBefore = s} ctx.chain.lastStart ∧
    IsLeast {s | ∃ c ∈ ctx.chain.toList, c.notAfter = s} ctx.chain.firstEnd ∧
    (∀ t, (ctx.seenAt t).checkValidity.outcome = .ok () ↔
      ctx.chain.lastStart ≤ t ∧ t ≤ ctx.chain.firstEnd) ∧
    ctx.acceptedInstants = Set.Icc ctx.chain.lastStart ctx.chain.firstEnd ∧
    (ctx.acceptedInstants = ∅ ↔
      (∃ c ∈ ctx.chain.toList, c.notAfter < c.notBefore) ∨
        ∃ c ∈ ctx.chain.toList, ∃ d ∈ ctx.chain.toList, ∀ t ∈ c.window, t ∉ d.window) ∧
    ∀ t, (ctx.seenAt t).checkValidity.outcome ≠ .ok () →
      ∃ i c, ctx.chain.OutsideAt t i c ∧ ctx.BlamesOutside t i c := by
  refine ⟨ctx.chain.isGreatest_lastStart, ctx.chain.isLeast_firstEnd,
    ctx.mem_acceptedInstants_iff, ctx.acceptedInstants_eq_Icc,
    ctx.acceptedInstants_eq_empty_iff, ?_⟩
  intro t hfails
  obtain ⟨i, c, houtside⟩ := exists_outsideAt hfails
  exact ⟨i, c, houtside, blamesOutside_of_outsideAt houtside⟩

end CheckContext

namespace Sample

/-- The start of a day of the calendar's first month, counted from `0`. -/
def midnight (n : Fin 31) : Instant :=
  ⟨n * microsPerDay, Nat.lt_trans (Nat.mul_lt_mul_of_pos_right n.isLt (by decide)) (by decide)⟩

/-- A leaf that is valid for ten days. -/
def lasting : Certificate := { leaf with notAfter := midnight 10 }

/-- A root whose window ends a day before it starts. -/
def inverted : Certificate := { root with notBefore := midnight 3, notAfter := midnight 2 }

end Sample

namespace CheckContext

/-- Below a root with an inverted window a chain passes at no instant. The leaf is inside its window
at both instants, and the root is blamed: first it is not valid yet, and where its window starts
it has expired. -/
theorem checkValidity_windows_of_inverted :
    let ctx := Sample.context ⟨Sample.lasting, [Sample.inverted]⟩ "chat.example.com"
    ctx.acceptedInstants = ∅ ∧
      (ctx.seenAt (Sample.midnight 1)).checkValidity.outcome ≠ .ok () ∧
      Sample.midnight 1 < Sample.inverted.notBefore ∧
      ctx.BlamesOutside (Sample.midnight 1) 1 Sample.inverted ∧
      (ctx.seenAt (Sample.midnight 3)).checkValidity.outcome ≠ .ok () ∧
      ¬Sample.midnight 3 < Sample.inverted.notBefore ∧
      ctx.BlamesOutside (Sample.midnight 3) 1 Sample.inverted := by
  intro ctx
  have hinverted : Sample.inverted.notAfter < Sample.inverted.notBefore := by decide
  obtain ⟨-, -, -, -, hempty, hblames⟩ := checkValidity_windows ctx
  have hnever : ctx.acceptedInstants = ∅ :=
    hempty.mpr (Or.inl ⟨Sample.inverted, List.mem_of_getElem? (i := 1) rfl, hinverted⟩)
  have hfails : ∀ t, (ctx.seenAt t).checkValidity.outcome ≠ .ok () := by
    intro t hok
    have hmem : t ∈ ctx.acceptedInstants := hok
    rw [hnever] at hmem
    exact hmem
  have hblamed : ∀ t, ctx.chain.outside? t = some (1, Sample.inverted) →
      ctx.BlamesOutside t 1 Sample.inverted := by
    intro t hfound
    obtain ⟨i, c, houtside, hblame⟩ := hblames t (hfails t)
    obtain ⟨rfl, rfl⟩ := houtside.unique (Chain.outside?_eq_some_iff.mp hfound)
    exact hblame
  exact ⟨hnever, hfails _, by decide, hblamed _ rfl, hfails _, by decide, hblamed _ rfl⟩

end CheckContext
end PeerTrust
