/-
  `RootSet` — sets of trusted roots.

  Membership is equality of whole certificates and never a matter of names, so a
  forged certificate that reuses a trusted subject is no member. The members
  keep the order in which they were first added, and none occurs twice: that is
  part of the type.
-/
import PeerTrust.Certificate

namespace PeerTrust

/-- A set of trusted roots and, if it is known, where they came from. -/
structure RootSet where
  anchors : List Certificate
  nodup : anchors.Nodup
  source : Option String
deriving DecidableEq

namespace RootSet

/-- The set without roots. -/
def empty (source : Option String) : RootSet := ⟨[], List.nodup_nil, source⟩

instance : Inhabited RootSet := ⟨empty none⟩

/-- The certificate is one of the roots. -/
def contains (roots : RootSet) (c : Certificate) : Bool := roots.anchors.contains c

/-- Adds a root at the end unless it is there already. -/
def insert (roots : RootSet) (c : Certificate) : RootSet :=
  if h : c ∈ roots.anchors then roots
  else
    { roots with
      anchors := roots.anchors ++ [c]
      nodup := by
        rw [List.nodup_append]
        refine ⟨roots.nodup, by simp, ?_⟩
        intro a ha b hb
        rw [List.mem_singleton] at hb
        subst hb
        intro hab
        exact h (hab ▸ ha) }

/-- **The set of the given certificates,** in the order of first occurrence. -/
def ofList (source : Option String) (certificates : List Certificate) : RootSet :=
  certificates.foldl insert (empty source)

/-- The number of roots. -/
def size (roots : RootSet) : Nat := roots.anchors.length

end RootSet
end PeerTrust
