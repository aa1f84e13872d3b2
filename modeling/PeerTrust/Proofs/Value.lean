/-
  `Proofs.Value` — keys of dictionaries, and copies.

  Two values are the same key if their forms are equal. The form of a tuple lists
  the forms of its items, and since the form of a key tells where it ends
  (`keyForm_append_inj`), tuples are the same key exactly if their items are.
  `lookup_put` is the law of a single assignment.

  A value is equal to its copy (`IsSelfCopy`) if it can be copied and no key in it is
  an object that is equal to itself only.
-/
import Mathlib.Data.List.Forall2
import PeerTrust.Value

namespace PeerTrust.Value

/-! ### Keys -/

section Keys

variable {α : Type} {key other : Value} {entries : List (Value × α)} {s : String}

theorem sameKey_iff {a b : Value} : a.sameKey b = true ↔ a.keyForm = b.keyForm := by
  rw [sameKey, decide_eq_true_iff]

/-- **A key is a tuple, or a copy, or has one part of its own.** -/
inductive HasForm : Value → List KeyPart → Prop
  | tuple (items : List Value) : HasForm (.tuple items) (.tuple items.length :: keyForms items)
  | copied (v : Value) : HasForm (.copied v) (.copy :: v.keyForm)
  | single {v : Value} {part : KeyPart} (size : ∀ n, part ≠ .tuple n) (copy : part ≠ .copy) :
      HasForm v [part]

theorem hasForm_keyForm (v : Value) : v.HasForm v.keyForm := by
  cases v with
  | tuple items => exact .tuple items
  | copied v => exact .copied v
  | float x =>
    rw [keyForm]
    · cases hx : wholeOfFloat? x <;> simp only [keyPart, whole?, hx] <;> exact .single nofun nofun
    all_goals nofun
  | _ => exact .single nofun nofun

/-- Forms of items that are told apart one by one are told apart together. -/
theorem keyForms_append_inj {as bs : List Value} {r s : List KeyPart}
    (h : ∀ a ∈ as, ∀ (b : Value) (r s : List KeyPart), a.keyForm ++ r = b.keyForm ++ s →
      a.keyForm = b.keyForm ∧ r = s)
    (hlength : as.length = bs.length) (heq : keyForms as ++ r = keyForms bs ++ s) :
    List.Forall₂ (fun a b => a.keyForm = b.keyForm) as bs ∧ r = s := by
  induction as generalizing bs with
  | nil =>
    obtain rfl := List.eq_nil_of_length_eq_zero hlength.symm
    exact ⟨.nil, heq⟩
  | cons a as ih =>
    cases bs with
    | nil => cases hlength
    | cons b bs =>
      obtain ⟨ha, has⟩ := List.forall_mem_cons.mp h
      rw [keyForms, keyForms, List.append_assoc, List.append_assoc] at heq
      obtain ⟨hfirst, hrest⟩ := ha b _ _ heq
      obtain ⟨heach, hends⟩ := ih has (Nat.succ.inj hlength) hrest
      exact ⟨.cons hfirst heach, hends⟩

theorem keyForms_congr {as bs : List Value}
    (h : List.Forall₂ (fun a b => a.keyForm = b.keyForm) as bs) : keyForms as = keyForms bs := by
  induction h with
  | nil => rfl
  | cons hfirst _ ih => rw [keyForms, keyForms, hfirst, ih]

/-- **The form of a key tells where it ends.** The induction is on the size of the key. -/
theorem keyForm_append_inj (a b : Value) {r s : List KeyPart}
    (heq : a.keyForm ++ r = b.keyForm ++ s) : a.keyForm = b.keyForm ∧ r = s := by
  induction hn : sizeOf a using Nat.strongRecOn generalizing a b r s with
  | ind n ih =>
    have ha := a.hasForm_keyForm
    have hb := b.hasForm_keyForm
    generalize a.keyForm = formA at ha heq ⊢
    generalize b.keyForm = formB at hb heq ⊢
    cases ha with
    | tuple items =>
      cases hb with
      | tuple items' =>
        obtain ⟨hsize, hforms⟩ := List.cons.inj heq
        have hlength := KeyPart.tuple.inj hsize
        have heach : ∀ a ∈ items, ∀ (b : Value) (r s : List KeyPart),
            a.keyForm ++ r = b.keyForm ++ s → a.keyForm = b.keyForm ∧ r = s := by
          intro a ha b r s h
          have hsmaller := List.sizeOf_lt_of_mem ha
          refine ih (sizeOf a) ?_ a b h rfl
          rw [← hn, Value.tuple.sizeOf_spec]
          omega
        obtain ⟨hitems, hends⟩ := keyForms_append_inj heach hlength hforms
        exact ⟨by rw [hlength, keyForms_congr hitems], hends⟩
      | copied v => cases (List.cons.inj heq).1
      | single size copy => exact absurd (List.cons.inj heq).1.symm (size _)
    | copied v =>
      cases hb with
      | tuple items => cases (List.cons.inj heq).1
      | copied w =>
        obtain ⟨hform, hends⟩ := ih (sizeOf v) (by rw [← hn, Value.copied.sizeOf_spec]; omega) v w
          (List.cons.inj heq).2 rfl
        exact ⟨by rw [hform], hends⟩
      | single size copy => exact absurd (List.cons.inj heq).1.symm copy
    | single size copy =>
      cases hb with
      | tuple items => exact absurd (List.cons.inj heq).1 (size _)
      | copied w => exact absurd (List.cons.inj heq).1 copy
      | single size' copy' =>
        obtain ⟨hpart, hends⟩ := List.cons.inj heq
        exact ⟨by rw [hpart], hends⟩

/-- **Tuples are the same key** exactly if their items are, one by one. -/
theorem sameKey_tuple_iff {as bs : List Value} :
    (Value.tuple as).sameKey (.tuple bs) = true ↔
      List.Forall₂ (fun a b => a.sameKey b = true) as bs := by
  simp only [sameKey_iff]
  constructor
  · intro h
    rw [keyForm, keyForm] at h
    obtain ⟨hsize, hforms⟩ := List.cons.inj h
    have hends : keyForms as ++ [] = keyForms bs ++ [] := by rw [hforms]
    exact (keyForms_append_inj (fun a _ b _ _ => keyForm_append_inj a b)
      (KeyPart.tuple.inj hsize) hends).1
  · intro h
    rw [keyForm, keyForm, keyForms_congr h, h.length_eq]

/-- A key looks up the same as any key that is the same as it. -/
theorem lookup_congr (h : key.sameKey other = true) (entries : List (Value × α)) :
    lookup key entries = lookup other entries := by
  induction entries with
  | nil => rfl
  | cons e rest ih =>
    have hform : e.1.sameKey key = e.1.sameKey other := by
      rw [sameKey, sameKey, sameKey_iff.mp h]
    rw [lookup, lookup, hform, ih]

/-- **A key has what was put there,** and every other key has what it had. -/
theorem lookup_put (key other : Value) (a : α) (entries : List (Value × α)) :
    lookup other (put key a entries) =
      if key.sameKey other = true then some a else lookup other entries := by
  induction entries with
  | nil => rfl
  | cons e rest ih =>
    obtain ⟨k, b⟩ := e
    by_cases hfound : k.sameKey key = true
    · -- the entry is found, and its key stands for the one that is asked about as well
      have hform : k.sameKey other = key.sameKey other := by
        rw [sameKey, sameKey, sameKey_iff.mp hfound]
      rw [put, if_pos hfound, lookup, lookup, hform]
      split <;> rfl
    · rw [put, if_neg hfound, lookup, ih, lookup]
      by_cases hother : k.sameKey other = true
      · have hkey : ¬key.sameKey other = true := by
          intro h
          rw [sameKey_iff] at h hother
          exact hfound (sameKey_iff.mpr (hother.trans h.symm))
        rw [if_pos hother, if_neg hkey, if_pos hother]
      · rw [if_neg hother, if_neg hother]

/-- **The key occurs once at most.** -/
def Once (key : Value) : List (Value × α) → Prop
  | [] => True
  | (k, _) :: rest => Once key rest ∧ (k.sameKey key = true → lookup key rest = none)

/-- Putting something at a key leaves every key where it occurs once. -/
theorem Once.put (h : Once other entries) (key : Value) (a : α) :
    Once other (Value.put key a entries) := by
  induction entries with
  | nil => exact ⟨trivial, fun _ => rfl⟩
  | cons e rest ih =>
    obtain ⟨k, b⟩ := e
    obtain ⟨honce, habsent⟩ := h
    by_cases hfound : k.sameKey key = true
    · rw [Value.put, if_pos hfound]
      exact ⟨honce, habsent⟩
    · rw [Value.put, if_neg hfound]
      refine ⟨ih honce, fun hk => ?_⟩
      have hkey : ¬key.sameKey other = true := by
        intro h
        rw [sameKey_iff] at h hk
        exact hfound (sameKey_iff.mpr (hk.trans h.symm))
      rw [lookup_put, if_neg hkey]
      exact habsent hk

theorem exists_mem_of_lookup {a : α} (h : lookup key entries = some a) :
    ∃ e ∈ entries, e.2 = a := by
  induction entries with
  | nil => cases h
  | cons e rest ih =>
    rw [lookup] at h
    split at h
    · exact ⟨e, List.mem_cons_self, Option.some.inj h⟩
    · obtain ⟨found, hmem, ha⟩ := ih h
      exact ⟨found, List.mem_cons_of_mem e hmem, ha⟩

/-! ### Texts as keys -/

/-- The text that a key is. -/
def keyText? : Value → Option String
  | .str s => some s
  | _ => none

/-- A text is the same key as itself only. -/
theorem sameKey_str_iff {k : Value} : k.sameKey (.str s) = true ↔ k.keyText? = some s := by
  have htext : (Value.str s).keyForm = [.str s] := rfl
  rw [sameKey_iff, htext]
  cases k with
  | str t => simp [keyForm, keyPart, whole?, keyText?]
  | float x => cases hx : wholeOfFloat? x <;> simp [keyForm, keyPart, whole?, keyText?, hx]
  | _ => simp [keyForm, keyPart, whole?, keyText?]

/-- The texts among the keys. -/
def keyTexts (entries : List (Value × α)) : List String := entries.filterMap fun e => e.1.keyText?

theorem lookup_str_eq_none_iff : lookup (.str s) entries = none ↔ s ∉ keyTexts entries := by
  induction entries with
  | nil => simp [lookup, keyTexts]
  | cons e rest ih =>
    obtain ⟨k, a⟩ := e
    rw [keyTexts] at ih
    rw [lookup, keyTexts, List.filterMap_cons]
    by_cases hk : k.sameKey (.str s) = true
    · simp [hk, sameKey_str_iff.mp hk]
    · rw [if_neg hk, ih]
      have hother : k.keyText? ≠ some s := mt sameKey_str_iff.mpr hk
      cases htext : k.keyText? with
      | none => simp
      | some t =>
        have hne : s ≠ t := fun hst => hother (by rw [htext, hst])
        simp [hne]

/-- **No text is a key twice** exactly if the texts among the keys are pairwise different. -/
theorem forall_once_str_iff : (∀ s, Once (.str s) entries) ↔ (keyTexts entries).Nodup := by
  induction entries with
  | nil => simp [Once, keyTexts]
  | cons e rest ih =>
    obtain ⟨k, a⟩ := e
    have hcons : keyTexts ((k, a) :: rest) = k.keyText?.toList ++ keyTexts rest := by
      rw [keyTexts, List.filterMap_cons]
      cases k.keyText? <;> rfl
    rw [hcons]
    simp only [Once, sameKey_str_iff, lookup_str_eq_none_iff, forall_and, ih]
    cases k.keyText? with
    | none => simp
    | some t => simp [and_comm]

end Keys

/-! ### Copies -/

section Copies

variable {copies : Value → Bool} {k v w : Value} {entries : List (Value × Value)}

/-- **The value is equal to its copy:** it can be copied, and no key in it is an object that is
equal to itself only. -/
def IsSelfCopy (copies : Value → Bool) (v : Value) : Prop := v.copy? copies = some v

theorem copy?_of_isSelfCopy (h : IsSelfCopy copies v) : v.copy? copies = some v := h

/-- The key and the value of an entry are equal to their copies. -/
def EntryIsSelfCopy (copies : Value → Bool) (e : Value × Value) : Prop :=
  e.1.copyKey? copies = some e.1 ∧ IsSelfCopy copies e.2

theorem copyEntries?_eq_self_iff :
    copyEntries? copies entries = some entries ↔ ∀ e ∈ entries, EntryIsSelfCopy copies e := by
  induction entries with
  | nil => simp [copyEntries?]
  | cons e rest ih =>
    obtain ⟨k, v⟩ := e
    rw [List.forall_mem_cons, ← ih, EntryIsSelfCopy, IsSelfCopy, copyEntries?]
    cases k.copyKey? copies <;> cases v.copy? copies <;>
      cases copyEntries? copies rest <;> simp [and_assoc]

/-- **A dictionary is equal to its copy** exactly if all that it holds is. -/
theorem isSelfCopy_dict_iff :
    IsSelfCopy copies (.dict entries) ↔ ∀ e ∈ entries, EntryIsSelfCopy copies e := by
  rw [← copyEntries?_eq_self_iff, IsSelfCopy, copy?, Option.map_eq_some_iff]
  simp

/-- An assignment keeps the entries equal to their copies. -/
theorem forall_mem_put (hentries : ∀ e ∈ entries, EntryIsSelfCopy copies e)
    (hkey : k.copyKey? copies = some k) (hv : IsSelfCopy copies v) :
    ∀ e ∈ put k v entries, EntryIsSelfCopy copies e := by
  induction entries with
  | nil => simpa [put] using ⟨hkey, hv⟩
  | cons e rest ih =>
    obtain ⟨hfirst, hrest⟩ := List.forall_mem_cons.mp hentries
    rw [put]
    split
    · exact List.forall_mem_cons.mpr ⟨⟨hfirst.1, hv⟩, hrest⟩
    · exact List.forall_mem_cons.mpr ⟨hfirst, ih hrest⟩

theorem isSelfCopy_of_lookup (hentries : ∀ e ∈ entries, EntryIsSelfCopy copies e)
    (h : lookup key entries = some v) : IsSelfCopy copies v := by
  obtain ⟨e, he, rfl⟩ := exists_mem_of_lookup h
  exact (hentries e he).2

end Copies

end PeerTrust.Value
