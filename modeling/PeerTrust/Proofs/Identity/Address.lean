/-
  `Proofs.Identity.Address` — which addresses alternative names hold.

  A name that can be decoded holds an address exactly if it is the one that is written for
  the address (`address?_eq_some_iff`), so reading an address undoes `GeneralName.xmpp`
  and reads no other element. An address is a text of characters. Names hold addresses,
  in their order, and beside them some for an address that hold none (`HoldAddresses`);
  collecting gives the addresses and reports each name that holds none
  (`HoldAddresses.collectAddresses_eq`).
-/
import PeerTrust.Proofs.Encoding.Der
import PeerTrust.Proofs.Identity
import PeerTrust.Proofs.Text.Charset

namespace PeerTrust

open Traced

/-! ### One name -/

/-- **Only the element that is written for an address holds it.** -/
theorem xmppAddressOf?_eq_some_iff {element : Octets} {address : String}
    (h : Der.isElement element = true) :
    xmppAddressOf? element = some address ↔ Text.IsWhole address ∧
      element = Der.Element.write ⟨Der.utf8StringTag, Text.utf8 address⟩ := by
  have hshort : Der.utf8StringTag.toNat % 32 ≠ 31 := by decide
  have hwritten := Der.readElement?_eq_some_iff h
    (e := ⟨Der.utf8StringTag, Text.utf8 address⟩) hshort
  rw [← hwritten, xmppAddressOf?]
  cases Der.readElement? element with
  | none => simp
  | some read =>
    obtain ⟨⟨tag, content⟩, after⟩ := read
    by_cases htag : tag = Der.utf8StringTag
    · simp [htag, Text.ofUtf8?_eq_some_iff, eq_comm (a := content)]
    · simp [htag]

namespace GeneralName

variable {name : GeneralName} {address : String}

/-- The name is one for an address, well formed or not. -/
def isXmpp : GeneralName → Bool
  | .other oid _ => oid == Oid.xmppAddress
  | _ => false

/-- **A name holds an address** exactly if it is the one that is written for it. -/
theorem address?_eq_some_iff (h : name.isDecodable = true) :
    name.address? = some address ↔ Text.IsWhole address ∧ name = .xmpp address := by
  cases name with
  | other oid element =>
    rw [address?, xmpp, other.injEq]
    by_cases hoid : oid = Oid.xmppAddress
    · rw [if_pos hoid, xmppAddressOf?_eq_some_iff h]
      simp [hoid]
    · simp [hoid]
  | _ => simp [address?, xmpp]

/-! ### All names -/

/-- **Names hold these addresses,** in their order, and so many of them are for an address and
hold none. Names of other kinds have no part in it. -/
inductive HoldAddresses : List GeneralName → List String → Nat → Prop
  | nil : HoldAddresses [] [] 0
  | address {names : List GeneralName} {addresses : List String} {malformed : Nat}
      {address : String} (whole : Text.IsWhole address)
      (rest : HoldAddresses names addresses malformed) :
      HoldAddresses (.xmpp address :: names) (address :: addresses) malformed
  | malformed {names : List GeneralName} {addresses : List String} {malformed : Nat}
      {name : GeneralName} (xmpp : name.isXmpp = true) 
      (blank : ∀ address, Text.IsWhole address → name ≠ .xmpp address)
      (rest : HoldAddresses names addresses malformed) :
      HoldAddresses (name :: names) addresses (malformed + 1)
  | unrelated {names : List GeneralName} {addresses : List String} {malformed : Nat}
      {name : GeneralName} (other : name.isXmpp = false)
      (rest : HoldAddresses names addresses malformed) :
      HoldAddresses (name :: names) addresses malformed

/-- Some addresses are held by any names. -/
theorem exists_holdAddresses (names : List GeneralName) :
    ∃ addresses malformed, HoldAddresses names addresses malformed := by
  induction names with
  | nil => exact ⟨[], 0, .nil⟩
  | cons name rest ih =>
    obtain ⟨addresses, malformed, hrest⟩ := ih
    by_cases haddress : ∃ address, Text.IsWhole address ∧ name = .xmpp address
    · obtain ⟨address, hwhole, rfl⟩ := haddress
      exact ⟨_, _, .address hwhole hrest⟩
    · cases hxmpp : name.isXmpp with
      | true => exact ⟨_, _, .malformed hxmpp (fun a hw heq => haddress ⟨a, hw, heq⟩) hrest⟩
      | false => exact ⟨_, _, .unrelated hxmpp hrest⟩

/-- A name for an address has an element for it. -/
theorem exists_eq_other (h : name.isXmpp = true) :
    ∃ element, name = .other Oid.xmppAddress element := by
  cases name with
  | other oid element =>
    obtain rfl := beq_iff_eq.mp h
    exact ⟨element, rfl⟩
  | _ => cases h

end GeneralName

/-! ### Collecting -/

namespace Certificate

open GeneralName

variable {name : GeneralName} {names rest : List GeneralName} {address : String}
  {addresses : List String} {malformed : Nat}

theorem collectAddresses_of_address (h : name.address? = some address) :
    collectAddresses (name :: rest) = (do
      let addresses ← collectAddresses rest
      return address :: addresses) := by
  cases name with
  | other oid element =>
    rw [GeneralName.address?] at h
    by_cases hoid : oid = Oid.xmppAddress
    · rw [if_pos hoid] at h
      rw [collectAddresses, if_pos hoid, h]
    · rw [if_neg hoid] at h
      cases h
  | _ => cases h

theorem collectAddresses_of_malformed (hxmpp : name.isXmpp = true) (h : name.address? = none) :
    collectAddresses (name :: rest) = (do
      .report .xmppAddressIgnored
      collectAddresses rest) := by
  obtain ⟨element, rfl⟩ := exists_eq_other hxmpp
  have hnone : xmppAddressOf? element = none := by
    rwa [GeneralName.address?, if_pos rfl] at h
  rw [collectAddresses, if_pos rfl, hnone]

theorem collectAddresses_of_unrelated (h : name.isXmpp = false) :
    collectAddresses (name :: rest) = collectAddresses rest := by
  cases name with
  | other oid element => rw [collectAddresses, if_neg (beq_eq_false_iff_ne.mp h)]
  | _ => rfl

/-- **Collecting gives the addresses that names hold,** and reports each name for an address that
holds none. -/
theorem collectAddresses_eq (hdecodable : ∀ name ∈ names, name.isDecodable = true)
    (h : HoldAddresses names addresses malformed) :
    collectAddresses names =
      ⟨List.replicate malformed (.report .xmppAddressIgnored), .ok addresses⟩ := by
  induction h with
  | nil => rfl
  | @address names addresses malformed address whole rest ih =>
    have hread := (address?_eq_some_iff (hdecodable _ List.mem_cons_self)).mpr ⟨whole, rfl⟩
    rw [collectAddresses_of_address hread, ih fun n hn => hdecodable n (List.mem_cons_of_mem _ hn)]
    exact congrArg (Traced.mk · _) (List.append_nil _)
  | @malformed names addresses malformed name xmpp blank rest ih =>
    have hread : name.address? = none := by
      refine Option.eq_none_iff_forall_ne_some.mpr fun address hread => ?_
      obtain ⟨hwhole, hname⟩ := (address?_eq_some_iff (hdecodable _ List.mem_cons_self)).mp hread
      exact blank address hwhole hname
    rw [collectAddresses_of_malformed xmpp hread,
      ih fun n hn => hdecodable n (List.mem_cons_of_mem _ hn)]
    rfl
  | unrelated other rest ih =>
    rw [collectAddresses_of_unrelated other]
    exact ih fun n hn => hdecodable n (List.mem_cons_of_mem _ hn)

/-- The addresses that names hold are those that are read in them. -/
theorem filterMap_address?_eq (hdecodable : ∀ name ∈ names, name.isDecodable = true)
    (h : HoldAddresses names addresses malformed) :
    names.filterMap GeneralName.address? = addresses := by
  have hcollected := outcome_collectAddresses names
  rw [collectAddresses_eq hdecodable h] at hcollected
  exact (Except.ok.inj hcollected).symm

/-- **Names of other kinds are nothing to collecting.** -/
theorem collectAddresses_filter (names : List GeneralName) :
    collectAddresses (names.filter GeneralName.isXmpp) = collectAddresses names := by
  induction names with
  | nil => rfl
  | cons name rest ih =>
    cases hxmpp : name.isXmpp with
    | false =>
      rw [List.filter_cons_of_neg (by simp [hxmpp]), ih, collectAddresses_of_unrelated hxmpp]
    | true =>
      rw [List.filter_cons_of_pos hxmpp]
      cases haddress : name.address? with
      | some address =>
        rw [collectAddresses_of_address haddress, collectAddresses_of_address haddress, ih]
      | none =>
        rw [collectAddresses_of_malformed hxmpp haddress,
          collectAddresses_of_malformed hxmpp haddress, ih]

end Certificate
end PeerTrust
