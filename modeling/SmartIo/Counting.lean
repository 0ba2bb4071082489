import Mathlib.Data.List.Count
import Mathlib.Data.List.Nodup
import Mathlib.Logic.Function.Basic

/-!
# Counting the records of a list of indices

A store keeps its records in a function on indices and the indices in use in a
list without duplicates. `countAt l f p` is how many records in use pass a
test, and a counter that the program maintains by hand is correct when it
equals such a count.

Each operation of the program changes one record, adds one index or drops one.
The lemmas say what each of the three does to every count: a change moves the
count by the difference of the test before and after (`countAt_update`), and
adding or dropping an index moves it by the test of its record
(`countAt_cons`, `countAt_filter_ne`).
-/

variable {ι α : Type*}

namespace Counting

/-- **How many indices of a list carry a record that passes a test.** -/
def countAt (l : List ι) (f : ι → α) (p : α → Bool) : ℕ :=
  l.countP (fun i => p (f i))

@[simp] theorem countAt_nil (f : ι → α) (p : α → Bool) :
    countAt [] f p = 0 := rfl

/-- A new index counts by its own record. -/
theorem countAt_cons (i : ι) (l : List ι) (f : ι → α) (p : α → Bool) :
    countAt (i :: l) f p = countAt l f p + (p (f i)).toNat := by
  unfold countAt
  rw [List.countP_cons]
  cases p (f i) <;> rfl

/-- A count is at most the number of indices. -/
theorem countAt_le_length (l : List ι) (f : ι → α) (p : α → Bool) :
    countAt l f p ≤ l.length := List.countP_le_length

/-- A count is positive once one record passes the test. -/
theorem countAt_pos {l : List ι} {f : ι → α} {p : α → Bool} {i : ι}
    (hi : i ∈ l) (hp : p (f i) = true) : 0 < countAt l f p :=
  List.countP_pos_iff.mpr ⟨i, hi, hp⟩

/-- A count that misses a member is below the number of indices. -/
theorem countAt_lt_length {l : List ι} {f : ι → α} {p : α → Bool} {i : ι}
    (hi : i ∈ l) (hp : p (f i) = false) : countAt l f p < l.length := by
  refine Nat.lt_of_le_of_ne (countAt_le_length l f p) (fun h => ?_)
  have hpi := List.countP_eq_length.mp h i hi
  rw [hp] at hpi
  exact Bool.false_ne_true hpi

/-- Two stores that pass the test at the same indices count the same. -/
theorem countAt_congr {l : List ι} {f g : ι → α} {p : α → Bool}
    (h : ∀ i ∈ l, p (f i) = p (g i)) : countAt l f p = countAt l g p :=
  List.countP_congr (fun i hi => by rw [h i hi])

/-- **Two disjoint tests count separately** what their union counts. -/
theorem countAt_add {l : List ι} {f : ι → α} {p q r : α → Bool}
    (h : ∀ a, (p a).toNat + (q a).toNat = (r a).toNat) :
    countAt l f p + countAt l f q = countAt l f r := by
  induction l with
  | nil => rfl
  | cons i l ih =>
    rw [countAt_cons, countAt_cons, countAt_cons, ← ih, ← h (f i)]
    omega

section Update

variable [DecidableEq ι]

/-- **Changing one record moves a count by the change of its test.** -/
theorem countAt_update {l : List ι} (hl : l.Nodup) {i : ι} (hi : i ∈ l)
    (f : ι → α) (a : α) (p : α → Bool) :
    countAt l (Function.update f i a) p + (p (f i)).toNat
      = countAt l f p + (p a).toNat := by
  induction l with
  | nil => exact absurd hi List.not_mem_nil
  | cons j l ih =>
    obtain ⟨hj, hl⟩ := List.nodup_cons.mp hl
    rw [countAt_cons, countAt_cons]
    rcases List.mem_cons.mp hi with rfl | hi
    · have hrest : countAt l (Function.update f i a) p = countAt l f p :=
        countAt_congr (fun k hk => by
          rw [Function.update_of_ne (fun h : k = i => hj (h ▸ hk))])
      rw [hrest, Function.update_self]
      omega
    · have hji : j ≠ i := fun h => hj (h ▸ hi)
      rw [Function.update_of_ne hji]
      have := ih hl hi
      omega

/-- A change of a record out of use leaves every count alone. -/
theorem countAt_update_of_notMem {l : List ι} {i : ι} (hi : i ∉ l) (f : ι → α)
    (a : α) (p : α → Bool) :
    countAt l (Function.update f i a) p = countAt l f p :=
  countAt_congr (fun j hj => by
    rw [Function.update_of_ne (fun h : j = i => hi (h ▸ hj))])

/-- **Dropping an index uncounts its record.** -/
theorem countAt_filter_ne {l : List ι} (hl : l.Nodup) {i : ι} (hi : i ∈ l)
    (f : ι → α) (p : α → Bool) :
    countAt (l.filter (fun j => j ≠ i)) f p + (p (f i)).toNat = countAt l f p := by
  induction l with
  | nil => exact absurd hi List.not_mem_nil
  | cons j l ih =>
    obtain ⟨hj, hl⟩ := List.nodup_cons.mp hl
    rcases List.mem_cons.mp hi with rfl | hi
    · have hrest : l.filter (fun j => j ≠ i) = l :=
        List.filter_eq_self.mpr (fun k hk => by
          simpa using fun h : k = i => hj (h ▸ hk))
      rw [List.filter_cons_of_neg (by simp), hrest, countAt_cons]
    · have hji : j ≠ i := fun h => hj (h ▸ hi)
      rw [List.filter_cons_of_pos (by simpa using hji), countAt_cons, countAt_cons]
      have := ih hl hi
      omega

/-- Dropping an index shortens the list by one. -/
theorem length_filter_ne {l : List ι} (hl : l.Nodup) {i : ι} (hi : i ∈ l) :
    (l.filter (fun j => j ≠ i)).length + 1 = l.length := by
  have := countAt_filter_ne hl hi (fun _ => ()) (fun _ => true)
  simpa [countAt] using this

end Update

end Counting
