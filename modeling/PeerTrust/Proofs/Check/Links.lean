/-
  `Proofs.Check.Links` — which pair of a chain is blamed, and for what.

  A chain passes the check of its links exactly if every certificate is vouched for by
  the next one, which is `List.IsChain` of one relation; so passing composes where two
  chains share a certificate, and it is inherited by every part
  (`checkLinks_blames`). A chain that does not pass is blamed at its pair at fault
  nearest to the root (`Chain.FaultAt`), and nothing on the leaf's side of that pair has
  a say in it.

  To be vouched for is more than to name the issuer and to be signed by it: the two
  certificates also have to write the issuer's name alike. A pair that falls short of that
  alone is blamed for its signature (`checkLinks_of_verified`), though the signature
  verifies.
-/
import Mathlib.Data.List.Chain
import PeerTrust.Proofs.Evaluator.Request
import PeerTrust.Proofs.Text.Search

namespace PeerTrust

open Traced

/-! ### Pairs of certificates -/

namespace Certificate

/-- **The signature verifies under the issuer's key:** it was made with that key, which is of a
kind that can verify, and nothing was changed since. No name plays a part. -/
def VerifiesUnder (c issuer : Certificate) : Prop :=
  c.tampering = none ∧ c.signedBy = issuer.key ∧ issuer.key.canVerify = true

/-- **What passes for a signature** is one that verifies, and names written alike. -/
theorem signedWith_iff (c issuer : Certificate) :
    c.signedWith issuer = true ↔ c.VerifiesUnder issuer ∧ c.issuer = issuer.subject := by
  simp only [signedWith, VerifiesUnder, Bool.and_eq_true, decide_eq_true_eq, and_assoc]

end Certificate

namespace Chain

variable {chain other : Chain} {i j : Nat} {c d issuer e : Certificate}

/-! ### Chains without a fault -/

/-- **Nothing is at fault** exactly if each certificate vouches for the one before it. -/
theorem forall_adjacent_iff (chain : Chain) :
    (∀ i c issuer, chain.Adjacent i c issuer →
        c.issuedBy issuer = true ∧ c.signedWith issuer = true) ↔
      chain.toList.IsChain Certificate.VouchedBy := by
  rw [List.isChain_iff_getElem]
  constructor
  · intro h i hi
    have hhere : chain.toList[i]? = some chain.toList[i] := List.getElem?_eq_getElem _
    have hnext : chain.toList[i + 1]? = some chain.toList[i + 1] := List.getElem?_eq_getElem hi
    exact h i _ _ ⟨hhere, hnext⟩
  · rintro h i c issuer ⟨hhere, hnext⟩
    obtain ⟨hlt, rfl⟩ := List.getElem?_eq_some_iff.mp hhere
    obtain ⟨hlt', rfl⟩ := List.getElem?_eq_some_iff.mp hnext
    exact h i hlt'

theorem fault?_eq_none_iff_isChain (chain : Chain) :
    chain.fault? = none ↔ chain.toList.IsChain Certificate.VouchedBy := by
  rw [fault?_eq_none_iff, forall_adjacent_iff]

/-! ### The pair at fault -/

/-- A chain of two certificates has one pair. -/
theorem of_adjacent_pair (h : (⟨c, [issuer]⟩ : Chain).Adjacent i d e) :
    i = 0 ∧ c = d ∧ issuer = e := by
  obtain ⟨hhere, hnext⟩ := h
  have hlt : i + 1 < 2 := (List.getElem?_eq_some_iff.mp hnext).1
  obtain rfl : i = 0 := by omega
  exact ⟨rfl, Option.some.inj hhere, Option.some.inj hnext⟩

/-- **The pair at fault stays the same when certificates on the leaf's side of it change.** -/
theorem FaultAt.congr (h : chain.FaultAt i c issuer)
    (hsame : ∀ k, i ≤ k → other.toList[k]? = chain.toList[k]?) : other.FaultAt i c issuer := by
  have hadjacent : ∀ k d e, i ≤ k → (other.Adjacent k d e ↔ chain.Adjacent k d e) := by
    intro k d e hk
    rw [Adjacent, Adjacent, hsame k hk, hsame (k + 1) (by omega)]
  refine ⟨(hadjacent i c issuer (Nat.le_refl i)).mpr h.adjacent, h.unsound, ?_⟩
  intro k d e hk hpair
  exact h.above k d e hk ((hadjacent k d e (by omega)).mp hpair)

end Chain

/-! ### The check -/

namespace CheckContext

variable {ctx : CheckContext} {i : Nat} {c issuer : Certificate}

/-- **The check ends without a failure** exactly if nothing is at fault. -/
theorem outcome_checkLinks_eq_ok_iff (ctx : CheckContext) :
    ctx.checkLinks.outcome = .ok () ↔ ctx.chain.toList.IsChain Certificate.VouchedBy := by
  rw [← Chain.forall_adjacent_iff]
  exact ctx.ends_checkLinks.outcome_eq_ok_iff

/-- A chain that does not pass has a pair at fault. -/
theorem exists_faultAt (h : ctx.checkLinks.outcome ≠ .ok ()) :
    ∃ i c issuer, ctx.chain.FaultAt i c issuer := by
  cases hfault : ctx.chain.fault? with
  | none =>
    have hchain := ctx.chain.fault?_eq_none_iff_isChain.mp hfault
    exact absurd (ctx.outcome_checkLinks_eq_ok_iff.mpr hchain) h
  | some l => exact ⟨_, _, _, Chain.FaultAt.of_fault? hfault⟩

/-! ### Blame -/

/-- **The check blames the pair at a depth.** It fails with an error about the linkage if the
issuer is not named, whatever the signature, and else with one about the signature. It makes
one report, a warning that names the depth. Where the question for the issuer has no answer,
since a name cannot be read, that is the failure, and there is no report. No certificate on the
leaf's side of the pair can change anything about that. -/
structure Blames (ctx : CheckContext) (i : Nat) (c issuer : Certificate) : Prop where
  linkage : c.askIssuedBy issuer = .ok false → ctx.checkLinks.outcome =
    .error (.trust (.chainLinkage (.str ctx.peerIdentity) (.str ctx.target)))
  signature : c.askIssuedBy issuer = .ok true → c.signedWith issuer = false ∧
    ctx.checkLinks.outcome =
      .error (.trust (.signature (.str ctx.peerIdentity) (.str ctx.target)))
  warning : ∀ answer, c.askIssuedBy issuer = .ok answer →
    ∃ r, ctx.checkLinks.events = [.report r] ∧ r.level = .warning ∧
      r.channel = .chainCheck ∧ (Report.atDepth ctx.target i).toList <+: r.text.toList
  unread : ∀ f, c.askIssuedBy issuer = .error f → ctx.checkLinks = .fail f
  leafward : ∀ other : Chain, (∀ k, i ≤ k → other.toList[k]? = ctx.chain.toList[k]?) →
    ({ ctx with chain := other } : CheckContext).checkLinks = ctx.checkLinks

/-- A report on a pair that does not name its issuer starts with its depth. -/
theorem atDepth_prefix_issuerMismatch (target : String) (i : Nat) (name subject : Name) :
    (Report.atDepth target i).toList <+:
      (Report.issuerMismatch target i name subject).text.toList := by
  show _ <+: (Report.atDepth target i ++ "issuer " ++ name.render ++ " does not match subject " ++
    subject.render).toList
  simp only [String.append_assoc]
  exact Text.toList_prefix_append _ _

/-- A report on a signature starts with the depth of its pair. -/
theorem atDepth_prefix_signatureMismatch (target : String) (i : Nat) (name : Name) :
    (Report.atDepth target i).toList <+:
      (Report.signatureMismatch target i name).text.toList := by
  show _ <+: (Report.atDepth target i ++ "signature does not verify against " ++
    name.render).toList
  simp only [String.append_assoc]
  exact Text.toList_prefix_append _ _

/-- **Certificates on the leaf's side have no part in a rejection.** -/
theorem checkLinks_leafward (h : ctx.chain.FaultAt i c issuer) (other : Chain)
    (hsame : ∀ k, i ≤ k → other.toList[k]? = ctx.chain.toList[k]?) :
    ({ ctx with chain := other } : CheckContext).checkLinks = ctx.checkLinks := by
  have hother : other.fault? = some ⟨i, c, issuer⟩ :=
    (other.fault?_eq_some_iff i c issuer).mpr (h.congr hsame)
  rw [checkLinks, checkLinks, (ctx.chain.fault?_eq_some_iff i c issuer).mpr h, hother]

/-- **The pair at fault is the one that is blamed.** -/
theorem blames_of_faultAt (h : ctx.chain.FaultAt i c issuer) : ctx.Blames i c issuer where
  linkage hunnamed := by rw [checkLinks_of_unnamed h hunnamed, outcome_report_bind, outcome_fail]
  signature hnamed := by
    have hunsigned : c.signedWith issuer = false := by
      rw [← Bool.not_eq_true]
      exact fun hsigned => h.unsound ⟨Certificate.issuedBy_iff.mpr hnamed, hsigned⟩
    exact ⟨hunsigned, by rw [checkLinks_of_named h hnamed, outcome_report_bind, outcome_fail]⟩
  warning answer hanswer := by
    cases answer with
    | true =>
      refine ⟨_, ?_, rfl, rfl, atDepth_prefix_signatureMismatch ctx.target i issuer.subject⟩
      rw [checkLinks_of_named h hanswer, events_report_bind]
      rfl
    | false =>
      refine ⟨_, ?_, rfl, rfl, atDepth_prefix_issuerMismatch ctx.target i c.issuer issuer.subject⟩
      rw [checkLinks_of_unnamed h hanswer, events_report_bind]
      rfl
  unread _ hunread := checkLinks_of_unread h hunread
  leafward := checkLinks_leafward h

/-! ### Parts of a chain -/

/-- **A list of certificates passes** if it is a chain that, in the place of the one at hand,
passes the check. -/
def Passes (ctx : CheckContext) (certificates : List Certificate) : Prop :=
  ∃ chain, Chain.ofList? certificates = some chain ∧
    ({ ctx with chain } : CheckContext).checkLinks.outcome = .ok ()

theorem passes_iff (ctx : CheckContext) (certificates : List Certificate) :
    ctx.Passes certificates ↔
      certificates ≠ [] ∧ certificates.IsChain Certificate.VouchedBy := by
  cases certificates with
  | nil => simp [Passes, Chain.ofList?]
  | cons leaf issuers =>
    constructor
    · rintro ⟨chain, hchain, hok⟩
      obtain rfl := Option.some.inj hchain
      exact ⟨List.cons_ne_nil leaf issuers, (outcome_checkLinks_eq_ok_iff _).mp hok⟩
    · rintro ⟨-, hchain⟩
      exact ⟨⟨leaf, issuers⟩, rfl, (outcome_checkLinks_eq_ok_iff _).mpr hchain⟩

/-- **Passing composes** where two lists share a certificate. -/
theorem passes_append_iff (ctx : CheckContext) (xs : List Certificate) (c : Certificate)
    (ys : List Certificate) :
    ctx.Passes (xs ++ [c] ++ ys) ↔ ctx.Passes (xs ++ [c]) ∧ ctx.Passes ([c] ++ ys) := by
  have hjoined : xs ++ [c] ++ ys = xs ++ c :: ys := by
    rw [List.append_assoc, List.singleton_append]
  have hsplit : (xs ++ c :: ys).IsChain Certificate.VouchedBy ↔
      (xs ++ [c]).IsChain Certificate.VouchedBy ∧ (c :: ys).IsChain Certificate.VouchedBy :=
    List.isChain_split
  rw [passes_iff, passes_iff, passes_iff, hjoined, hsplit, List.singleton_append]
  simp

/-- **Passing is inherited by parts.** -/
theorem Passes.part {part whole : List Certificate} (h : ctx.Passes whole) (hne : part ≠ [])
    (hpart : part <:+: whole) : ctx.Passes part := by
  obtain ⟨-, hchain⟩ := (ctx.passes_iff whole).mp h
  exact (ctx.passes_iff part).mpr ⟨hne, hchain.infix hpart⟩

end CheckContext

namespace Sample

/-- A certificate of an authority that names another one but has a stranger's signature. -/
def middle : Certificate := certificate "Middle" "Upper" "middle" "mallory"

/-- The certificate of the authority that is named. -/
def upper : Certificate := certificate "Upper" "Root" "upper" "root"

/-- Two faults: the leaf does not name the next certificate, and that one is not signed by the
certificate above it. -/
def faultyChain : Chain := ⟨certificate "chat.example.com" "Nobody" "leaf" "middle",
  [middle, upper, root]⟩

/-- A certificate that writes its issuer's name in another type of string than the issuer does. -/
def printed : Certificate :=
  { leaf with issuer := ⟨[[⟨Oid.commonName, .text "Root", .printable⟩]]⟩ }

end Sample

namespace CheckContext

/-- **A signature is blamed exactly where the pair at fault is named.** Then the signature does not
verify under the issuer's key, or the two certificates do not write the issuer's name alike. -/
theorem outcome_checkLinks_eq_signature_iff (ctx : CheckContext) :
    ctx.checkLinks.outcome =
        .error (.trust (.signature (.str ctx.peerIdentity) (.str ctx.target))) ↔
      ∃ i c issuer, ctx.chain.FaultAt i c issuer ∧ c.issuedBy issuer = true ∧
        (¬c.VerifiesUnder issuer ∨ c.issuer ≠ issuer.subject) := by
  constructor
  · intro h
    have hfails : ctx.checkLinks.outcome ≠ .ok () := by
      intro hok
      cases h.symm.trans hok
    obtain ⟨i, c, issuer, hfault⟩ := exists_faultAt hfails
    have hblames := blames_of_faultAt hfault
    have hnamed : c.askIssuedBy issuer = .ok true := by
      cases hanswer : c.askIssuedBy issuer with
      | error f =>
        -- the failure would be the one of reading a name, which is no verdict
        obtain ⟨defect, -, rfl⟩ := Certificate.askIssuedBy_eq_error_iff.mp hanswer
        rw [hblames.unread _ hanswer] at h
        cases h
      | ok answer => cases answer with
        | true => rfl
        | false =>
          -- the error would be the one about the linkage, which is of another kind
          have herror := Except.error.inj ((hblames.linkage hanswer).symm.trans h)
          cases congrArg TrustError.kind (Failure.trust.inj herror)
    have hunsigned : ¬c.signedWith issuer = true := by
      rw [(hblames.signature hnamed).1]
      exact Bool.false_ne_true
    rw [Certificate.signedWith_iff, not_and_or] at hunsigned
    exact ⟨i, c, issuer, hfault, Certificate.issuedBy_iff.mpr hnamed, hunsigned⟩
  · rintro ⟨i, c, issuer, hfault, hnamed, -⟩
    exact ((blames_of_faultAt hfault).signature (Certificate.issuedBy_iff.mp hnamed)).2

/-- **A chain of named issuers and verifying signatures** passes exactly if all pairs write the
issuer's name alike, and else it is a signature that is blamed. Where all pairs that match write
it alike, a signature is blamed only if one does not verify. -/
theorem checkLinks_of_verified (ctx : CheckContext) :
    ((∀ i c issuer, ctx.chain.Adjacent i c issuer →
        c.issuedBy issuer = true ∧ c.VerifiesUnder issuer) →
      (ctx.checkLinks.outcome = .ok () ↔
        ∀ i c issuer, ctx.chain.Adjacent i c issuer → c.issuer = issuer.subject) ∧
      (ctx.checkLinks.outcome = .ok () ∨ ctx.checkLinks.outcome =
        .error (.trust (.signature (.str ctx.peerIdentity) (.str ctx.target))))) ∧
    ((∀ i c issuer, ctx.chain.Adjacent i c issuer → c.issuedBy issuer = true →
        c.issuer = issuer.subject) →
      ctx.checkLinks.outcome =
        .error (.trust (.signature (.str ctx.peerIdentity) (.str ctx.target))) →
      ∃ i c issuer, ctx.chain.Adjacent i c issuer ∧ c.issuedBy issuer = true ∧
        ¬c.VerifiesUnder issuer) := by
  refine ⟨fun hverified => ⟨?_, ?_⟩, fun halike herror => ?_⟩
  · rw [outcome_checkLinks_eq_ok_iff, ← Chain.forall_adjacent_iff]
    constructor
    · intro hvouched i c issuer hpair
      exact ((c.signedWith_iff issuer).mp (hvouched i c issuer hpair).2).2
    · intro halike i c issuer hpair
      obtain ⟨hnamed, hverifies⟩ := hverified i c issuer hpair
      exact ⟨hnamed, (c.signedWith_iff issuer).mpr ⟨hverifies, halike i c issuer hpair⟩⟩
  · by_cases hok : ctx.checkLinks.outcome = .ok ()
    · exact Or.inl hok
    · obtain ⟨i, c, issuer, hfault⟩ := exists_faultAt hok
      have hnamed := (hverified i c issuer hfault.adjacent).1
      exact Or.inr ((blames_of_faultAt hfault).signature (Certificate.issuedBy_iff.mp hnamed)).2
  · obtain ⟨i, c, issuer, hfault, hnamed, hunverified | hwritten⟩ :=
      ctx.outcome_checkLinks_eq_signature_iff.mp herror
    · exact ⟨i, c, issuer, hfault.adjacent, hnamed, hunverified⟩
    · exact absurd (halike i c issuer hfault.adjacent hnamed) hwritten

/-- A leaf that the root has signed, with the root's name in another type of string: the names
match and the signature verifies, and yet it is the signature that is blamed. Below the same
root, a forged leaf that writes the name alike is blamed because its signature does not verify. -/
theorem checkLinks_of_verified_on_printed_issuer :
    let ctx := Sample.context ⟨Sample.printed, [Sample.root]⟩ "chat.example.com"
    let other := Sample.context Sample.forgedChain "chat.example.com"
    (Sample.printed.issuedBy Sample.root = true ∧ Sample.printed.VerifiesUnder Sample.root) ∧
      Sample.printed.issuer ≠ Sample.root.subject ∧
      ctx.checkLinks.outcome =
        .error (.trust (.signature (.str "chat.example.com") (.str "chat.example.com"))) ∧
      Sample.forged.issuer = Sample.root.subject ∧
      ∃ i c issuer, other.chain.Adjacent i c issuer ∧ c.issuedBy issuer = true ∧
        ¬c.VerifiesUnder issuer := by
  intro ctx other
  have hverified : Sample.printed.issuedBy Sample.root = true ∧
      Sample.printed.VerifiesUnder Sample.root := ⟨by decide, by decide, by decide, by decide⟩
  have hwritten : Sample.printed.issuer ≠ Sample.root.subject := by decide
  refine ⟨hverified, hwritten, ?_, rfl, ?_⟩
  · have hall : ∀ i c issuer, ctx.chain.Adjacent i c issuer →
        c.issuedBy issuer = true ∧ c.VerifiesUnder issuer := by
      intro i c issuer hpair
      obtain ⟨-, rfl, rfl⟩ := Chain.of_adjacent_pair hpair
      exact hverified
    obtain ⟨hpasses, hok | herror⟩ := (checkLinks_of_verified ctx).1 hall
    · exact absurd (hpasses.mp hok 0 Sample.printed Sample.root ⟨rfl, rfl⟩) hwritten
    · exact herror
  · refine (checkLinks_of_verified other).2 (fun i c issuer hpair _ => ?_) rfl
    obtain ⟨-, rfl, rfl⟩ := Chain.of_adjacent_pair hpair
    rfl

end CheckContext
end PeerTrust
