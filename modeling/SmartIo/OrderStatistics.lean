import Mathlib.Data.List.Sort

/-!
# Order statistics

The `k`-th smallest of a list, duplicates counted. It is characterized without
sorting: it has a property that is inherited by everything smaller exactly if at
least `k` members of the list have it (`orderStatistic_iff`). So a monotone measure of
it is the first value up to which there are `k` members – which is how a histogram
finds the bin of a percentile without having kept the list.
-/

variable {α : Type*} [LinearOrder α]

/-- **The `k`-th smallest** of a list, counted from one. -/
def orderStatistic (l : List α) (k : ℕ) : Option α := (l.insertionSort (· ≤ ·))[k - 1]?

/-- There is one for every rank from one to the length. -/
theorem exists_orderStatistic {l : List α} {k : ℕ} (hpos : 0 < k) (hk : k ≤ l.length) :
    ∃ v, orderStatistic l k = some v := by
  have hlen : k - 1 < (l.insertionSort (· ≤ ·)).length := by
    rw [List.length_insertionSort]
    omega
  exact ⟨_, List.getElem?_eq_getElem hlen⟩

/-- In a sorted list those that have an inherited property come first. -/
theorem getElem?_iff_of_sorted {s : List α} (hs : s.Pairwise (· ≤ ·)) {p : α → Bool}
    (hp : ∀ a b, a ≤ b → p b = true → p a = true) {i : ℕ} {v : α} (hv : s[i]? = some v) :
    p v = true ↔ i + 1 ≤ s.countP p := by
  induction s generalizing i with
  | nil => exact absurd hv.symm (Option.some_ne_none v)
  | cons a s ih =>
    obtain ⟨ha, hs⟩ := List.pairwise_cons.mp hs
    by_cases hpa : p a = true
    · rw [List.countP_cons_of_pos hpa]
      cases i with
      | zero =>
        obtain rfl : a = v := Option.some.inj hv
        exact ⟨fun _ => Nat.le_add_left 1 _, fun _ => hpa⟩
      | succ i => exact (ih hs hv).trans (Nat.succ_le_succ_iff).symm
    · have hnone : ∀ b ∈ s, ¬ p b = true := fun b hb hpb => hpa (hp a b (ha b hb) hpb)
      rw [List.countP_cons_of_neg hpa, List.countP_eq_zero.mpr hnone]
      refine ⟨fun hpv => absurd hpv ?_, fun h => absurd h (Nat.not_succ_le_zero i)⟩
      cases i with
      | zero => exact Option.some.inj hv ▸ hpa
      | succ i => exact hnone v (List.mem_of_getElem? hv)

/-- **The `k`-th smallest has an inherited property** exactly if `k` members have it. -/
theorem orderStatistic_iff {l : List α} {k : ℕ} (hpos : 0 < k) {v : α}
    (hv : orderStatistic l k = some v) {p : α → Bool}
    (hp : ∀ a b, a ≤ b → p b = true → p a = true) : p v = true ↔ k ≤ l.countP p := by
  rw [← (List.perm_insertionSort (· ≤ ·) l).countP_eq p, getElem?_iff_of_sorted
    (List.pairwise_insertionSort (· ≤ ·) l) hp hv, Nat.sub_add_cancel hpos]

/-- A larger rank has no smaller order statistic. -/
theorem orderStatistic_mono {l : List α} {j k : ℕ} (hpos : 0 < j) (hjk : j ≤ k) {u v : α}
    (hu : orderStatistic l j = some u) (hv : orderStatistic l k = some v) : u ≤ v := by
  have hp : ∀ a b, a ≤ b → decide (b ≤ v) = true → decide (a ≤ v) = true :=
    fun a b hab hb => decide_eq_true (hab.trans (of_decide_eq_true hb))
  have hcount := (orderStatistic_iff (hpos.trans_le hjk) hv hp).mp (decide_eq_true (le_refl v))
  exact of_decide_eq_true ((orderStatistic_iff hpos hu hp).mpr (hjk.trans hcount))
