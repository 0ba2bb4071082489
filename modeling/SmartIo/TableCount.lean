import Mathlib.Data.List.AList

/-!
# Counting the entries of a table

A table that keeps at most one value a key is an `AList`, and so is every table
one gets from it by storing or removing a value. This file counts the entries
of a table that pass a test, and says what one operation does to the count: all
that matters is the entry of the key it is about, before and after
(`countWhere_erase`, `countWhere_insert`). The test may read a key that is
looked up elsewhere; what it says about other keys is all the rest of the table
depends on (`countWhere_erase_congr`).
-/

namespace AList

variable {κ α : Type*} [DecidableEq κ]

/-- How many entries pass a test. -/
def countWhere (p : κ → α → Bool) (t : AList fun _ : κ => α) : ℕ :=
  t.entries.countP fun e => p e.1 e.2

/-- What the entry of a key contributes to the count. -/
def countAtKey (p : κ → α → Bool) (k : κ) (t : AList fun _ : κ => α) : ℕ :=
  (t.lookup k).elim 0 fun v => (p k v).toNat

omit [DecidableEq κ] in
@[simp] theorem countWhere_empty (p : κ → α → Bool) :
    countWhere p (∅ : AList fun _ : κ => α) = 0 := rfl

/-- What is stored and removed was never there. -/
theorem erase_insert_self (k : κ) (v : α) (t : AList fun _ : κ => α) :
    (t.insert k v).erase k = t.erase k := by
  refine AList.ext ?_
  exact List.kerase_cons_eq rfl

/-- **Storing a value** counts it, and forgets the value it replaces. -/
theorem countWhere_insert (p : κ → α → Bool) (k : κ) (v : α) (t : AList fun _ : κ => α) :
    countWhere p (t.insert k v) = (p k v).toNat + countWhere p (t.erase k) := by
  show List.countP _ (⟨k, v⟩ :: t.entries.kerase k) = _
  rw [List.countP_cons, Nat.add_comm]
  congr 1
  cases p k v <;> rfl

/-- **The entry of a key and the rest** make up the count. -/
theorem countWhere_erase (p : κ → α → Bool) (k : κ) (t : AList fun _ : κ => α) :
    countWhere p t = countAtKey p k t + countWhere p (t.erase k) := by
  unfold countAtKey
  by_cases hk : k ∈ t.entries.keys
  · obtain ⟨v, l₁, l₂, hnot, hsplit, herase⟩ := List.exists_of_kerase hk
    have hlookup : t.lookup k = some v :=
      mem_lookup_iff.mpr (by rw [hsplit]; exact List.mem_append_right _ List.mem_cons_self)
    rw [hlookup, Option.elim_some]
    show List.countP _ t.entries = _ + List.countP _ (t.entries.kerase k)
    rw [herase, hsplit, List.countP_append, List.countP_append, List.countP_cons]
    cases p k v with
    | false => simp
    | true =>
      simp only [if_true, Bool.toNat_true]
      omega
  · have hlookup : t.lookup k = none := lookup_eq_none.mpr hk
    rw [hlookup, Option.elim_none, Nat.zero_add]
    show List.countP _ t.entries = List.countP _ (t.entries.kerase k)
    rw [List.kerase_of_notMem_keys hk]

/-- Tests that agree on the other keys count the rest of the table alike. -/
theorem countWhere_erase_congr {p q : κ → α → Bool} {k : κ}
    (h : ∀ k' v, k' ≠ k → p k' v = q k' v) (t : AList fun _ : κ => α) :
    countWhere p (t.erase k) = countWhere q (t.erase k) := by
  refine List.countP_congr fun e he => ?_
  have hk : e.1 ∈ t.erase k := mem_keys.mpr (List.mem_map_of_mem he)
  rw [h e.1 e.2 (mem_erase.mp hk).1]

end AList
