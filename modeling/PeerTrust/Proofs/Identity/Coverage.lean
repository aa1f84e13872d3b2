/-
  `Proofs.Identity.Coverage` — which hosts an identity covers.

  An identity covers the host of the same name, and behind the mark "*." every host that
  ends with the rest of it (`covers_iff`). The rest can be empty, and every host ends with
  that. So the mark on its own covers all hosts, and it is the only identity that does: one
  that covers two hosts with different last characters is the mark
  (`eq_wildcardMark_of_covers`).

  A certificate can have the mark for its first address or for its first common name. It
  cannot have it for its whole subject, whose text never starts like that
  (`Name.not_wildcard_prefix_render`).
-/
import Mathlib.Data.List.Basic
import PeerTrust.Proofs.Identity.Precedence

namespace PeerTrust

/-! ### Hosts -/

namespace Identity

variable {identity host other : String}

/-- Behind the mark, the rest of the identity decides. -/
theorem covers_mark_append_iff (s host : String) :
    covers (wildcardMark ++ s) host = true ↔ s.toList <:+ host.toList := by
  have hrest : Text.afterRun? wildcardMark.toList (wildcardMark ++ s).toList = some s.toList :=
    Text.afterRun?_eq_some_iff.mpr String.toList_append
  rw [covers, hrest]
  exact List.isSuffixOf_iff_suffix

/-- An identity without the mark covers the host of its name. -/
theorem covers_iff_eq (h : ∀ s, identity ≠ wildcardMark ++ s) :
    covers identity host = true ↔ host = identity := by
  have hnone : Text.afterRun? wildcardMark.toList identity.toList = none := by
    rw [Option.eq_none_iff_forall_ne_some]
    intro rest hrest
    refine h (String.ofList rest) ?_
    rw [← String.toList_inj, String.toList_append, String.toList_ofList]
    exact Text.afterRun?_eq_some_iff.mp hrest
  rw [covers, hnone]
  exact beq_iff_eq

/-- **An identity covers** the host of its name, and behind the mark all hosts that end with the
rest of it. -/
theorem covers_iff (identity host : String) :
    covers identity host = true ↔
      host = identity ∨ ∃ s, identity = wildcardMark ++ s ∧ s.toList <:+ host.toList := by
  by_cases hmark : ∃ s, identity = wildcardMark ++ s
  · obtain ⟨s, rfl⟩ := hmark
    rw [covers_mark_append_iff]
    constructor
    · intro hends
      exact Or.inr ⟨s, rfl, hends⟩
    · rintro (rfl | ⟨t, ht, hends⟩)
      · rw [String.toList_append]
        exact List.suffix_append _ _
      · rwa [(String.append_right_inj wildcardMark).mp ht]
  · have hplain : ∀ s, identity ≠ wildcardMark ++ s := fun s hs => hmark ⟨s, hs⟩
    rw [covers_iff_eq hplain]
    constructor
    · exact Or.inl
    · rintro (heq | ⟨s, hs, -⟩)
      · exact heq
      · exact absurd hs (hplain s)

/-- **The mark covers every host,** since every host ends with nothing. -/
theorem covers_wildcardMark (host : String) : covers wildcardMark host = true :=
  (covers_iff wildcardMark host).mpr (Or.inr ⟨"", rfl, List.nil_suffix⟩)

/-- **An identity that covers two hosts with different last characters is the mark.** Without the
mark it covers one host only, and behind the mark a rest that is not empty has a last character
of its own. -/
theorem eq_wildcardMark_of_covers (hlast : host.toList.getLast? ≠ other.toList.getLast?)
    (hhost : covers identity host = true) (hother : covers identity other = true) :
    identity = wildcardMark := by
  by_cases hmark : ∃ s, identity = wildcardMark ++ s
  · obtain ⟨s, rfl⟩ := hmark
    rw [covers_mark_append_iff] at hhost hother
    by_cases hs : s = ""
    · rw [hs, String.append_empty]
    · have hne : s.toList ≠ [] := fun hnil => hs (String.toList_eq_nil_iff.mp hnil)
      obtain ⟨front, hfront⟩ := hhost
      obtain ⟨front', hfront'⟩ := hother
      refine absurd ?_ hlast
      rw [← hfront, ← hfront', List.getLast?_append_of_ne_nil front hne,
        List.getLast?_append_of_ne_nil front' hne]
  · have hplain : ∀ s, identity ≠ wildcardMark ++ s := fun s hs => hmark ⟨s, hs⟩
    rw [covers_iff_eq hplain] at hhost hother
    rw [hhost, hother] at hlast
    exact absurd rfl hlast

end Identity

/-! ### Certificates that claim the mark -/

namespace Certificate

variable {c : Certificate} {identity : String}

/-- A whole subject is not the mark. -/
theorem ofSubject_render_ne_wildcardMark (hdotted : c.subject.IsDotted)
    (hname : c.commonName? = .ok none) :
    Identity.ofSubject c.subject.render ≠ Identity.wildcardMark := by
  have hunnamed : ∀ a ∈ c.subject.attributes, a.oid ≠ Oid.commonName := by
    rw [← Name.firstCommonName?_eq_none_iff, ← Name.commonName?_eq hdotted]
    exact commonName?_eq_none_of_ok_none hname
  rw [(ofSubject_render hdotted hunnamed).2]
  intro hmark
  refine Name.not_wildcard_prefix_render hdotted ?_
  rw [hmark]
  exact List.prefix_refl _

/-- **A certificate claims the mark** by its first address, or without an address by its first
common name. -/
theorem eq_wildcardMark_iff (hdotted : c.subject.IsDotted)
    (hread : c.peerIdentity.outcome = .ok identity) :
    identity = Identity.wildcardMark ↔
      (∃ rest, c.addresses = Identity.wildcardMark :: rest) ∨
        c.addresses = [] ∧ c.commonName? = .ok (some Identity.wildcardMark) := by
  rcases of_outcome_peerIdentity hread with ⟨rest, hfirst⟩ | ⟨hnone, hname | ⟨hname, hsubject⟩⟩
  · rw [hfirst]
    simp
  · rw [hnone, hname]
    simp
  · have hne := ofSubject_render_ne_wildcardMark hdotted hname
    rw [hnone, hname, hsubject]
    simpa using hne

end Certificate

/-! ### The check -/

namespace CheckContext

theorem outcome_checkIdentity_eq_ok_iff (ctx : CheckContext) :
    ctx.checkIdentity.outcome = .ok () ↔ Identity.covers ctx.peerIdentity ctx.target = true :=
  ctx.ends_checkIdentity.outcome_eq_ok_iff

/-- **The check accepts a target** that is the identity of the leaf, or ends with what stands
behind the mark in it; and every target if the identity is the mark, which is the only such
identity. The leaf has it from an address or from a common name. -/
theorem checkIdentity_accepts (ctx : CheckContext)
    (hread : ctx.chain.leaf.peerIdentity.outcome = .ok ctx.peerIdentity) :
    (ctx.checkIdentity.outcome = .ok () ↔
      ctx.target = ctx.peerIdentity ∨
        (∃ s, s ≠ "" ∧ ctx.peerIdentity = Identity.wildcardMark ++ s ∧
          s.toList <:+ ctx.target.toList) ∨
        ctx.peerIdentity = Identity.wildcardMark) ∧
    ((∀ target, target ≠ "" → ({ ctx with target } : CheckContext).checkIdentity.outcome = .ok ()) ↔
      ctx.peerIdentity = Identity.wildcardMark) ∧
    (ctx.chain.leaf.subject.IsDotted → (ctx.peerIdentity = Identity.wildcardMark ↔
      (∃ rest, ctx.chain.leaf.addresses = Identity.wildcardMark :: rest) ∨
        ctx.chain.leaf.addresses = [] ∧
          ctx.chain.leaf.commonName? = .ok (some Identity.wildcardMark))) := by
  refine ⟨?_, ?_, fun hdotted => Certificate.eq_wildcardMark_iff hdotted hread⟩
  · rw [outcome_checkIdentity_eq_ok_iff, Identity.covers_iff]
    constructor
    · rintro (heq | ⟨s, hs, hends⟩)
      · exact Or.inl heq
      · by_cases hempty : s = ""
        · rw [hempty, String.append_empty] at hs
          exact Or.inr (Or.inr hs)
        · exact Or.inr (Or.inl ⟨s, hempty, hs, hends⟩)
    · rintro (heq | ⟨s, -, hs, hends⟩ | hmark)
      · exact Or.inl heq
      · exact Or.inr ⟨s, hs, hends⟩
      · exact Or.inr ⟨"", by rw [hmark, String.append_empty], List.nil_suffix⟩
  · constructor
    · intro hall
      have hlast : "a".toList.getLast? ≠ "b".toList.getLast? := by decide
      have ha := (outcome_checkIdentity_eq_ok_iff _).mp (hall "a" (by decide))
      have hb := (outcome_checkIdentity_eq_ok_iff _).mp (hall "b" (by decide))
      exact Identity.eq_wildcardMark_of_covers hlast ha hb
    · intro hmark target _
      rw [outcome_checkIdentity_eq_ok_iff]
      show Identity.covers ctx.peerIdentity target = true
      rw [hmark]
      exact Identity.covers_wildcardMark target

end CheckContext

namespace Sample

/-- A leaf whose common name is the mark. -/
def marked : Certificate := { leaf with subject := .ofCommonName Identity.wildcardMark }

end Sample

namespace CheckContext

/-- A leaf whose common name is the mark passes for every target. -/
theorem checkIdentity_accepts_of_marked :
    let ctx := Sample.context ⟨Sample.marked, []⟩ Identity.wildcardMark
    ctx.chain.leaf.peerIdentity.outcome = .ok ctx.peerIdentity ∧
      ctx.checkIdentity.outcome = .ok () ∧
      (∀ target, target ≠ "" →
        ({ ctx with target } : CheckContext).checkIdentity.outcome = .ok ()) ∧
      ctx.chain.leaf.subject.IsDotted ∧ ctx.chain.leaf.addresses = [] ∧
      ctx.chain.leaf.commonName? = .ok (some Identity.wildcardMark) := by
  intro ctx
  have hread : ctx.chain.leaf.peerIdentity.outcome = .ok ctx.peerIdentity := rfl
  have hdotted : ctx.chain.leaf.subject.IsDotted := by decide
  obtain ⟨haccepts, hall, hsource⟩ := checkIdentity_accepts ctx hread
  refine ⟨hread, haccepts.mpr (Or.inr (Or.inr rfl)), hall.mpr rfl, hdotted, ?_⟩
  rcases (hsource hdotted).mp rfl with ⟨rest, haddress⟩ | hnamed
  · cases haddress
  · exact hnamed

/-- **A target can be accepted** though it is not the identity and the identity has nothing behind
the mark that it could end with; and one leaf is accepted for every target. -/
theorem checkIdentity_accepts_vacuously :
    let ctx := Sample.context ⟨Sample.marked, []⟩ Identity.wildcardMark
    ctx.chain.leaf.peerIdentity.outcome = .ok ctx.peerIdentity ∧ ctx.target ≠ "" ∧
      ctx.checkIdentity.outcome = .ok () ∧
      ¬(ctx.target = ctx.peerIdentity ∨ ∃ s, s ≠ "" ∧
        ctx.peerIdentity = Identity.wildcardMark ++ s ∧ s.toList <:+ ctx.target.toList) ∧
      ∀ target, target ≠ "" →
        ({ ctx with target } : CheckContext).checkIdentity.outcome = .ok () := by
  intro ctx
  have hall : ∀ target, ({ ctx with target } : CheckContext).checkIdentity.outcome = .ok () :=
    fun target => (outcome_checkIdentity_eq_ok_iff _).mpr (Identity.covers_wildcardMark target)
  refine ⟨rfl, by decide, hall ctx.target, ?_, fun target _ => hall target⟩
  rintro (heq | ⟨s, hs, hmark, -⟩)
  · exact absurd heq (by decide)
  · refine hs ((String.append_right_inj Identity.wildcardMark).mp ?_)
    rw [← hmark, String.append_empty]
    rfl

end CheckContext
end PeerTrust
