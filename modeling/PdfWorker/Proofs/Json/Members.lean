import PdfWorker.Json.Record
import PdfWorker.Proofs.Json.Parser
set_option autoImplicit false

/-! # Members that are written and read

What a member holds is found again among the others, and the value of a field is read as what it
was written from. Members that are there only for a given option are written as
`(o.map fun a => (key, f a)).toList`; `lookup_toList_map` says how they are found.
-/

namespace PdfWorker.Json

/-! ## Finding members -/

@[simp] theorem lookup_nil (key : String) : lookup key [] = none := rfl

theorem lookup_cons_self (key : String) (v : Json) (rest : List (String × Json)) :
    lookup key ((key, v) :: rest) = (lookup key rest).or (some v) := by
  rw [lookup, if_pos rfl]

theorem lookup_append (key : String) (front back : List (String × Json)) :
    lookup key (front ++ back) = (lookup key back).or (lookup key front) := by
  induction front with
  | nil => rw [List.nil_append, lookup_nil, Option.or_none]
  | cons m rest ih =>
      obtain ⟨k, v⟩ := m
      rw [List.cons_append, lookup, lookup, ih, Option.or_assoc]

/-- A member that is there for an option is found for it. -/
theorem lookup_toList_map {α : Type} (key k : String) (f : α → Json) (o : Option α) :
    lookup key (o.map fun a => (k, f a)).toList = if k = key then o.map f else none := by
  cases o with
  | none => simp
  | some a => simp [lookup]

theorem mem_of_lookup {key : String} {members : List (String × Json)} {v : Json}
    (h : lookup key members = some v) : (key, v) ∈ members := by
  induction members with
  | nil => cases h
  | cons m rest ih =>
      obtain ⟨k, w⟩ := m
      rw [lookup] at h
      cases hrest : lookup key rest with
      | some u =>
          rw [hrest, Option.some_or] at h
          exact List.mem_cons_of_mem _ (ih (hrest.trans h))
      | none =>
          rw [hrest, Option.none_or] at h
          split at h
          · rename_i hk
            cases h
            rw [hk]
            exact List.mem_cons_self ..
          · cases h

/-! ## Reading fields -/

theorem asNatBelow?_ofNat {bound n : Nat} (h : n < bound) : asNatBelow? bound (.int n) = some n := by
  have hn : (0 : Int) ≤ n ∧ (n : Int) < bound := by omega
  rw [asNatBelow?, if_pos hn, Int.toNat_natCast]

theorem asNatBelow?_lt {bound n : Nat} {v : Json} (h : asNatBelow? bound v = some n) : n < bound := by
  cases v with
  | int i =>
      rw [asNatBelow?] at h
      split at h
      · cases h
        omega
      · cases h
  | _ => cases h

theorem asInt64?_toInt (n : Int64) : asInt64? (.int n.toInt) = some n := by
  rw [asInt64?, if_pos ⟨n.minValue_le_toInt, n.toInt_le⟩, Int64.ofInt_toInt]

theorem asUInt64?_toNat (n : UInt64) : asUInt64? (.int n.toNat) = some n := by
  rw [asUInt64?, asNatBelow?_ofNat n.toNat_lt, Option.map_some, UInt64.ofNat_toNat]

/-! ## Plain members -/

/-- All values are plain. -/
def PlainMembers (depth : Nat) (members : List (String × Json)) : Prop :=
  ∀ m ∈ members, Plain depth m.2

variable {depth : Nat}

theorem plainMembers_nil : PlainMembers depth [] := by
  intro m hm
  cases hm

theorem PlainMembers.cons {k : String} {v : Json} {rest : List (String × Json)}
    (hv : Plain depth v) (h : PlainMembers depth rest) : PlainMembers depth ((k, v) :: rest) := by
  intro m hm
  rcases List.mem_cons.mp hm with rfl | hm
  · exact hv
  · exact h m hm

theorem PlainMembers.append {front back : List (String × Json)} (h₁ : PlainMembers depth front)
    (h₂ : PlainMembers depth back) : PlainMembers depth (front ++ back) := by
  intro m hm
  rcases List.mem_append.mp hm with hm | hm
  · exact h₁ m hm
  · exact h₂ m hm

theorem plainMembers_toList_map {α : Type} {k : String} {f : α → Json} (h : ∀ a, Plain depth (f a))
    (o : Option α) : PlainMembers depth (o.map fun a => (k, f a)).toList := by
  cases o with
  | none => exact plainMembers_nil
  | some a => exact .cons (h a) plainMembers_nil

theorem PlainMembers.obj {members : List (String × Json)} (h : PlainMembers depth members) :
    Plain (depth + 1) (.obj members) :=
  .obj h

theorem plain_ofNat {n : Nat} (h : n < UInt64.size) : Plain depth (.int n) :=
  .int (Int.le_trans (by decide) (Int.natCast_nonneg n)) (Int.ofNat_lt.mpr h)

theorem plain_toInt (n : Int64) : Plain depth (.int n.toInt) :=
  .int n.minValue_le_toInt (Int.lt_of_le_of_lt n.toInt_le (by decide))

end PdfWorker.Json
