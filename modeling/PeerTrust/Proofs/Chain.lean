/-
  `Proofs.Chain` — what the walks over a chain find.

  Both walks are described by depths. `Chain.fault?` is the greatest depth whose
  link is not sound, and `Chain.outside?` the least depth whose certificate is
  outside its window. Neither description mentions the direction of a walk or
  the certificate it carries along.
-/
import PeerTrust.Check.Links
import PeerTrust.Check.Validity
import PeerTrust.Proofs.Journal
import PeerTrust.Proofs.Name

namespace PeerTrust

theorem Link.isSound_iff (l : Link) :
    l.isSound = true ↔
      l.certificate.issuedBy l.issuer = true ∧ l.certificate.signedWith l.issuer = true := by
  rw [Link.isSound, Bool.and_eq_true]

theorem Certificate.validAt_iff (c : Certificate) (t : Instant) :
    c.validAt t = true ↔ c.notBefore ≤ t ∧ t ≤ c.notAfter := by
  rw [Certificate.validAt, Bool.and_eq_true, decide_eq_true_iff, decide_eq_true_iff]

namespace Certificate

variable {c issuer : Certificate} {f : Failure}

/-- **The issuer vouches for the certificate:** it is named, and the signature passes. -/
def VouchedBy (c issuer : Certificate) : Prop :=
  c.issuedBy issuer = true ∧ c.signedWith issuer = true

/-- **An answer about the issuer** is about two names that can be read. -/
theorem askIssuedBy_eq_ok_iff {answer : Bool} : c.askIssuedBy issuer = .ok answer ↔
    c.issuer.defect? = none ∧ issuer.subject.defect? = none ∧
      c.issuer.agrees issuer.subject = answer := by
  rw [askIssuedBy, bind_eq_ok_iff]
  constructor
  · rintro ⟨name, hname, hrest⟩
    obtain ⟨hissuer, rfl⟩ := Name.read_eq_ok_iff.mp hname
    obtain ⟨subject, hsubject, hanswer⟩ := bind_eq_ok_iff.mp hrest
    obtain ⟨hlegible, rfl⟩ := Name.read_eq_ok_iff.mp hsubject
    exact ⟨hissuer, hlegible, Except.ok.inj hanswer⟩
  · rintro ⟨hissuer, hlegible, rfl⟩
    exact ⟨_, Name.read_of_legible hissuer,
      bind_eq_ok_iff.mpr ⟨_, Name.read_of_legible hlegible, rfl⟩⟩

/-- **Asking about the issuer fails** with the first defect in the names, that of the issuer
before the subject. -/
theorem askIssuedBy_eq_error_iff : c.askIssuedBy issuer = .error f ↔
    ∃ defect, (c.issuer.defect? = some defect ∨
      c.issuer.defect? = none ∧ issuer.subject.defect? = some defect) ∧
        f = .illegibleName defect := by
  rw [askIssuedBy, bind_eq_error_iff]
  constructor
  · rintro (hissuer | ⟨name, hname, hrest⟩)
    · obtain ⟨defect, hdefect, rfl⟩ := Name.read_eq_error_iff.mp hissuer
      exact ⟨defect, Or.inl hdefect, rfl⟩
    · obtain ⟨hissuer, rfl⟩ := Name.read_eq_ok_iff.mp hname
      obtain hsubject | ⟨_, -, hanswer⟩ := bind_eq_error_iff.mp hrest
      · obtain ⟨defect, hdefect, rfl⟩ := Name.read_eq_error_iff.mp hsubject
        exact ⟨defect, Or.inr ⟨hissuer, hdefect⟩, rfl⟩
      · cases hanswer
  · rintro ⟨defect, hissuer | ⟨hissuer, hsubject⟩, rfl⟩
    · exact Or.inl (Name.read_of_defect hissuer)
    · exact Or.inr ⟨_, Name.read_of_legible hissuer,
        bind_eq_error_iff.mpr (Or.inl (Name.read_of_defect hsubject))⟩

theorem issuedBy_iff : c.issuedBy issuer = true ↔ c.askIssuedBy issuer = .ok true := by
  rw [issuedBy]
  cases c.askIssuedBy issuer with
  | error f => simp
  | ok answer => simp

end Certificate

namespace Chain

/-! ### Certificates by depth -/

/-- `chain.Adjacent i c issuer`: `c` is the certificate at depth `i`, and `issuer`
the next one on the way to the root. -/
def Adjacent (chain : Chain) (i : Nat) (c issuer : Certificate) : Prop :=
  chain.toList[i]? = some c ∧ chain.toList[i + 1]? = some issuer

theorem getLast?_toList (chain : Chain) : chain.toList.getLast? = some chain.root := by
  obtain ⟨leaf, issuers⟩ := chain
  rw [toList, root, List.getLast?_cons]

theorem isAlone_iff (chain : Chain) : chain.isAlone = true ↔ chain.toList.length = 1 := by
  rw [isAlone, toList, List.length_cons, List.isEmpty_iff_length_eq_zero]
  omega

/-! ### Links -/

/-- **The links are the adjacent pairs,** numbered from the depth of the leaf. -/
theorem getElem?_linksFrom_eq_some_iff (depth : Nat) (c : Certificate)
    (issuers : List Certificate) (k : Nat) (l : Link) :
    (linksFrom depth c issuers)[k]? = some l ↔
      l.depth = depth + k ∧ (c :: issuers)[k]? = some l.certificate ∧
        (c :: issuers)[k + 1]? = some l.issuer := by
  induction issuers generalizing depth c k with
  | nil => simp [linksFrom]
  | cons issuer rest ih =>
    cases k with
    | zero =>
      obtain ⟨n, a, b⟩ := l
      simp only [linksFrom, List.getElem?_cons_zero, List.getElem?_cons_succ, Option.some.injEq,
        Link.mk.injEq, Nat.add_zero]
      rw [eq_comm (a := depth)]
    | succ k =>
      rw [linksFrom, List.getElem?_cons_succ, ih, show depth + 1 + k = depth + (k + 1) by omega]
      simp only [List.getElem?_cons_succ]

theorem getElem?_links_eq_some_iff (chain : Chain) (k : Nat) (l : Link) :
    chain.links[k]? = some l ↔ l.depth = k ∧ chain.Adjacent k l.certificate l.issuer := by
  rw [links, getElem?_linksFrom_eq_some_iff, Nat.zero_add]
  exact Iff.rfl

theorem mem_links_iff (chain : Chain) (l : Link) :
    l ∈ chain.links ↔ chain.Adjacent l.depth l.certificate l.issuer := by
  rw [List.mem_iff_getElem?]
  constructor
  · rintro ⟨k, hk⟩
    obtain ⟨rfl, hadj⟩ := (chain.getElem?_links_eq_some_iff k l).mp hk
    exact hadj
  · intro hadj
    exact ⟨l.depth, (chain.getElem?_links_eq_some_iff l.depth l).mpr ⟨rfl, hadj⟩⟩

/-- **There is no fault** exactly if every certificate is issued and signed by the next. -/
theorem fault?_eq_none_iff (chain : Chain) :
    chain.fault? = none ↔ ∀ i c issuer, chain.Adjacent i c issuer →
      c.issuedBy issuer = true ∧ c.signedWith issuer = true := by
  rw [fault?, List.find?_eq_none]
  constructor
  · intro h i c issuer hadj
    have hmem : (⟨i, c, issuer⟩ : Link) ∈ chain.links := (chain.mem_links_iff _).mpr hadj
    have hsound := h _ (List.mem_reverse.mpr hmem)
    rw [Bool.not_eq_true, Bool.not_eq_false'] at hsound
    exact (Link.isSound_iff _).mp hsound
  · intro h l hl
    have hadj := (chain.mem_links_iff l).mp (List.mem_reverse.mp hl)
    rw [Bool.not_eq_true, Bool.not_eq_false']
    exact l.isSound_iff.mpr (h _ _ _ hadj)

/-- **The fault is the link nearest to the root that is not sound:** all links at greater
depths are. -/
theorem of_fault?_eq_some {chain : Chain} {l : Link} (h : chain.fault? = some l) :
    chain.Adjacent l.depth l.certificate l.issuer ∧ l.isSound = false ∧
      ∀ j c issuer, l.depth < j → chain.Adjacent j c issuer →
        c.issuedBy issuer = true ∧ c.signedWith issuer = true := by
  obtain ⟨hl, before, after, hsplit, hbefore⟩ := List.find?_eq_some_iff_append.mp h
  have hlinks : chain.links = after.reverse ++ l :: before.reverse := by
    rw [← List.reverse_reverse chain.links, hsplit]
    simp
  have hdepth : chain.links[after.length]? = some l := by
    rw [hlinks, List.getElem?_append_right (by simp)]
    simp
  obtain ⟨hk, hadj⟩ := (chain.getElem?_links_eq_some_iff _ l).mp hdepth
  refine ⟨hk ▸ hadj, by simpa using hl, ?_⟩
  intro j c issuer hj hadj'
  -- A link at a greater depth stands behind the fault, so the search has passed it.
  have hget : chain.links[j]? = some ⟨j, c, issuer⟩ :=
    (chain.getElem?_links_eq_some_iff j _).mpr ⟨rfl, hadj'⟩
  rw [hlinks, List.getElem?_append_right (by simp; omega), List.length_reverse] at hget
  obtain ⟨m, hm⟩ : ∃ m, j - after.length = m + 1 := ⟨j - after.length - 1, by omega⟩
  rw [hm, List.getElem?_cons_succ] at hget
  have hmem := List.mem_reverse.mp (List.mem_of_getElem? hget)
  have hsound := hbefore _ hmem
  rw [Bool.not_not] at hsound
  exact (Link.isSound_iff _).mp hsound

/-! ### The pair at fault -/

section FaultAt

variable {chain : Chain} {i j : Nat} {c d issuer e : Certificate}

/-- **The pair at fault nearest to the root:** its issuer does not vouch for its certificate,
and at all greater depths issuers do. -/
structure FaultAt (chain : Chain) (i : Nat) (c issuer : Certificate) : Prop where
  adjacent : chain.Adjacent i c issuer
  unsound : ¬c.VouchedBy issuer
  above : ∀ j d e, i < j → chain.Adjacent j d e → d.VouchedBy e

/-- There is one pair at a depth. -/
theorem Adjacent.unique (h : chain.Adjacent i c issuer) (h' : chain.Adjacent i d e) :
    c = d ∧ issuer = e :=
  ⟨Option.some.inj (h.1.symm.trans h'.1), Option.some.inj (h.2.symm.trans h'.2)⟩

/-- **There is one pair at fault nearest to the root.** Of two of them, the one at the lesser
depth would have the other one above it. -/
theorem FaultAt.unique (h : chain.FaultAt i c issuer) (h' : chain.FaultAt j d e) :
    i = j ∧ c = d ∧ issuer = e := by
  rcases Nat.lt_trichotomy i j with hlt | rfl | hgt
  · exact absurd (h.above j d e hlt h'.adjacent) h'.unsound
  · exact ⟨rfl, h.adjacent.unique h'.adjacent⟩
  · exact absurd (h'.above i c issuer hgt h.adjacent) h.unsound

theorem FaultAt.of_fault? {l : Link} (h : chain.fault? = some l) :
    chain.FaultAt l.depth l.certificate l.issuer := by
  obtain ⟨hadjacent, hunsound, habove⟩ := of_fault?_eq_some h
  refine ⟨hadjacent, fun hvouched => ?_, habove⟩
  have hsound : l.isSound = true := l.isSound_iff.mpr hvouched
  rw [hunsound] at hsound
  exact Bool.false_ne_true hsound

/-- **The search from the root finds the pair at fault,** and only that one. -/
theorem fault?_eq_some_iff (chain : Chain) (i : Nat) (c issuer : Certificate) :
    chain.fault? = some ⟨i, c, issuer⟩ ↔ chain.FaultAt i c issuer := by
  constructor
  · intro h
    exact FaultAt.of_fault? h
  · intro h
    cases hfault : chain.fault? with
    | none =>
      have hvouched := chain.fault?_eq_none_iff.mp hfault i c issuer h.adjacent
      exact absurd hvouched h.unsound
    | some l =>
      obtain ⟨rfl, rfl, rfl⟩ := h.unique (FaultAt.of_fault? hfault)
      rfl

end FaultAt

/-! ### Validity windows -/

theorem outsideFrom?_eq_none_iff (t : Instant) (depth : Nat) (cs : List Certificate) :
    outsideFrom? t depth cs = none ↔ ∀ c ∈ cs, c.notBefore ≤ t ∧ t ≤ c.notAfter := by
  induction cs generalizing depth with
  | nil => simp [outsideFrom?]
  | cons c rest ih =>
    rw [outsideFrom?, List.forall_mem_cons, ← Certificate.validAt_iff, ← ih (depth + 1)]
    by_cases hc : c.validAt t = true
    · simp [hc]
    · simp [hc]

/-- **No certificate is outside** exactly if the instant lies in all windows. -/
theorem outside?_eq_none_iff (chain : Chain) (t : Instant) :
    chain.outside? t = none ↔ ∀ c ∈ chain.toList, c.notBefore ≤ t ∧ t ≤ c.notAfter :=
  outsideFrom?_eq_none_iff t 0 chain.toList

theorem of_outsideFrom?_eq_some {t : Instant} {depth n : Nat} {cs : List Certificate}
    {c : Certificate} (h : outsideFrom? t depth cs = some (n, c)) :
    ∃ i, n = depth + i ∧ cs[i]? = some c ∧ ¬(c.notBefore ≤ t ∧ t ≤ c.notAfter) ∧
      ∀ j d, j < i → cs[j]? = some d → d.notBefore ≤ t ∧ t ≤ d.notAfter := by
  induction cs generalizing depth with
  | nil => simp [outsideFrom?] at h
  | cons a rest ih =>
    rw [outsideFrom?] at h
    by_cases ha : a.validAt t = true
    · rw [if_pos ha] at h
      obtain ⟨i, hn, hget, hout, hbefore⟩ := ih h
      refine ⟨i + 1, by omega, by rwa [List.getElem?_cons_succ], hout, ?_⟩
      intro j d hj hd
      cases j with
      | zero =>
        rw [List.getElem?_cons_zero, Option.some.injEq] at hd
        rw [← hd]
        exact (a.validAt_iff t).mp ha
      | succ j => exact hbefore j d (by omega) (by rwa [List.getElem?_cons_succ] at hd)
    · rw [if_neg ha, Option.some.injEq, Prod.mk.injEq] at h
      obtain ⟨rfl, rfl⟩ := h
      exact ⟨0, rfl, rfl, fun hin => ha ((a.validAt_iff t).mpr hin), fun j d hj => by omega⟩

/-- **The certificate found outside is the one nearest to the leaf:** those before it are
inside their windows. -/
theorem of_outside?_eq_some {chain : Chain} {t : Instant} {n : Nat} {c : Certificate}
    (h : chain.outside? t = some (n, c)) :
    chain.toList[n]? = some c ∧ ¬(c.notBefore ≤ t ∧ t ≤ c.notAfter) ∧
      ∀ j d, j < n → chain.toList[j]? = some d → d.notBefore ≤ t ∧ t ≤ d.notAfter := by
  obtain ⟨i, hn, hget, hout, hbefore⟩ := of_outsideFrom?_eq_some h
  rw [Nat.zero_add] at hn
  subst hn
  exact ⟨hget, hout, hbefore⟩

/-- **The certificate outside its window nearest to the leaf:** those at lesser depths are inside
theirs. -/
structure OutsideAt (chain : Chain) (t : Instant) (i : Nat) (c : Certificate) : Prop where
  atDepth : chain.toList[i]? = some c
  outside : ¬(c.notBefore ≤ t ∧ t ≤ c.notAfter)
  below : ∀ j d, j < i → chain.toList[j]? = some d → d.notBefore ≤ t ∧ t ≤ d.notAfter

section OutsideAt

variable {chain : Chain} {t : Instant} {i j : Nat} {c d : Certificate}

/-- **There is one certificate outside its window nearest to the leaf.** Of two of them, the one
at the greater depth would have the other one below it. -/
theorem OutsideAt.unique (h : chain.OutsideAt t i c) (h' : chain.OutsideAt t j d) :
    i = j ∧ c = d := by
  rcases Nat.lt_trichotomy i j with hlt | rfl | hgt
  · exact absurd (h'.below i c hlt h.atDepth) h.outside
  · exact ⟨rfl, Option.some.inj (h.atDepth.symm.trans h'.atDepth)⟩
  · exact absurd (h.below j d hgt h'.atDepth) h'.outside

theorem OutsideAt.of_outside? (h : chain.outside? t = some (i, c)) : chain.OutsideAt t i c := by
  obtain ⟨hdepth, houtside, hbelow⟩ := of_outside?_eq_some h
  exact ⟨hdepth, houtside, hbelow⟩

/-- **The walk finds it.** -/
theorem outside?_eq_some_iff : chain.outside? t = some (i, c) ↔ chain.OutsideAt t i c := by
  constructor
  · exact OutsideAt.of_outside?
  · intro h
    cases hfound : chain.outside? t with
    | none =>
      have hinside := (chain.outside?_eq_none_iff t).mp hfound
      exact absurd (hinside c (List.mem_of_getElem? h.atDepth)) h.outside
    | some found =>
      obtain ⟨n, d⟩ := found
      obtain ⟨rfl, rfl⟩ := (OutsideAt.of_outside? hfound).unique h
      rfl

end OutsideAt

end Chain
end PeerTrust
