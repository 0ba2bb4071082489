import Mathlib.Algebra.BigOperators.Group.List.Basic
import Mathlib.Algebra.Group.Fin.Basic
import Mathlib.Algebra.Order.Floor.Div
import Mathlib.Data.List.FinRange
import Mathlib.Data.Nat.Log
import Mathlib.GroupTheory.GroupAction.Ring
import Mathlib.Order.MinMax
import SmartIo.Counting
import SmartIo.KernelInt
import SmartIo.OrderStatistics

/-!
# Latency histograms

A latency is counted in a bucket by its binary logarithm, and a percentile is read
off the buckets: the value of the first up to which enough latencies have been
counted. Here are the histogram of the module and the two functions of it, in the
machine's integers, and what they compute: as long as no counter wraps around, the
bucket that is found is the bucket of the order statistic
(`LatHist.percentile_of`).
-/

/-- `HIST_BUCKETS`. -/
abbrev histBuckets : ℕ := 21

/-! ## Buckets -/

/-- The loop of `lat_bucket_idx`, with the rounds that are left of it. -/
def latBucketLoop (latencyUs idx : ℕ) : ℕ → ℕ
  | 0 => idx
  | rounds + 1 => if 1 < latencyUs then latBucketLoop (latencyUs >>> 1) (idx + 1) rounds else idx

/-- `lat_bucket_idx`. -/
def latBucketIdx (latencyUs maxBuckets : ℕ) : ℕ :=
  if maxBuckets = 0 then 0 else latBucketLoop latencyUs 0 (maxBuckets - 1)

/-- `lat_bucket_value`. -/
def latBucketValue (idx : ℕ) : U32 := Fin.ofNat (2 ^ 32) (1 <<< idx)

/-- The loop counts how often a latency can be halved, up to its bound. -/
theorem latBucketLoop_eq (latencyUs idx rounds : ℕ) :
    latBucketLoop latencyUs idx rounds = idx + min rounds (Nat.log 2 latencyUs) := by
  induction rounds generalizing latencyUs idx with
  | zero => rw [Nat.zero_min]; rfl
  | succ rounds ih =>
    unfold latBucketLoop
    split
    · rename_i hlat
      rw [ih, Nat.shiftRight_eq_div_pow, Nat.pow_one, Nat.log_div_base]
      have hlog := Nat.log_pos (b := 2) (by omega) (by omega : 2 ≤ latencyUs)
      omega
    · rename_i hlat
      rw [Nat.log_of_lt (by omega), Nat.min_zero]
      rfl

/-- **The bucket of a latency** is its logarithm, or the last one. -/
theorem latBucketIdx_eq (latencyUs : ℕ) {maxBuckets : ℕ} (h : 0 < maxBuckets) :
    latBucketIdx latencyUs maxBuckets = min (maxBuckets - 1) (Nat.log 2 latencyUs) := by
  unfold latBucketIdx
  rw [if_neg h.ne', latBucketLoop_eq, Nat.zero_add]

theorem latBucketIdx_lt (latencyUs : ℕ) : latBucketIdx latencyUs histBuckets < histBuckets := by
  rw [latBucketIdx_eq latencyUs (by decide)]
  exact Nat.lt_succ_of_le (Nat.min_le_left 20 _)

theorem latBucketValue_val {idx : ℕ} (h : idx < histBuckets) :
    (latBucketValue idx).val = 2 ^ idx := by
  show 1 <<< idx % 2 ^ 32 = 2 ^ idx
  rw [Nat.one_shiftLeft]
  exact Nat.mod_eq_of_lt (Nat.pow_lt_pow_right (by decide) (h.trans (by decide)))

/-! ## Histograms -/

/-- `struct lat_hist`. -/
structure LatHist where
  count : Fin histBuckets → U64
  sumUs : U64
  total : U64

/-- The bucket `hist_add` counts a latency in. -/
def histBucket (latencyUs : U64) : Fin histBuckets :=
  ⟨latBucketIdx (if latencyUs.val ≠ 0 then latencyUs.val else 1) histBuckets, latBucketIdx_lt _⟩

namespace LatHist

/-- An empty histogram. -/
def zero : LatHist := ⟨fun _ => 0, 0, 0⟩

/-- `hist_add`. -/
def add (h : LatHist) (latencyUs : U64) : LatHist where
  count := Function.update h.count (histBucket latencyUs) (h.count (histBucket latencyUs) + 1)
  sumUs := h.sumUs + latencyUs
  total := h.total + 1

/-- What `roll_completed_bucket` does with a histogram of a processor. -/
def merge (h g : LatHist) : LatHist where
  count i := h.count i + g.count i
  sumUs := h.sumUs + g.sumUs
  total := h.total + g.total

/-- The loop of `hist_percentile`, over the buckets that are left. -/
def percentileLoop (h : LatHist) (target : ℕ) : U64 → List (Fin histBuckets) → U32
  | _, [] => latBucketValue (histBuckets - 1)
  | seen, i :: is =>
    if target ≤ (seen + h.count i).val then latBucketValue i
    else h.percentileLoop target (seen + h.count i) is

/-- `hist_percentile`. -/
def percentile (h : LatHist) (pct : ℕ) : U32 :=
  if h.total = 0 then 0
  else h.percentileLoop ((h.total.val * pct + 99) % 2 ^ 64 / 100) 0 (List.finRange histBuckets)

end LatHist

/-! ## The histogram of some latencies -/

/-- The bucket of a latency, without its bounds. -/
theorem histBucket_val (latencyUs : U64) :
    (histBucket latencyUs).val = min 20 (Nat.log 2 (max latencyUs.val 1)) := by
  have hmax : (if latencyUs.val ≠ 0 then latencyUs.val else 1) = max latencyUs.val 1 := by
    split <;> omega
  show latBucketIdx (if latencyUs.val ≠ 0 then latencyUs.val else 1) histBuckets = _
  rw [hmax, latBucketIdx_eq _ (by decide)]
  rfl

/-- A longer latency is in no lower bucket. -/
theorem histBucket_mono {u v : U64} (h : u ≤ v) : histBucket u ≤ histBucket v := by
  show (histBucket u).val ≤ (histBucket v).val
  rw [histBucket_val, histBucket_val]
  exact min_le_min_left 20 (Nat.log_mono_right (max_le_max_right 1 h))

namespace LatHist

open Counting

/-- **The histogram of some latencies.** -/
def of (l : List U64) : LatHist where
  count i := Fin.ofNat (2 ^ 64) (countAt l histBucket (· = i))
  sumUs := l.sum
  total := Fin.ofNat (2 ^ 64) l.length

theorem ofNat_add (a b : ℕ) :
    Fin.ofNat (2 ^ 64) (a + b) = Fin.ofNat (2 ^ 64) a + Fin.ofNat (2 ^ 64) b :=
  Fin.ext (Nat.add_mod a b (2 ^ 64))

@[simp] theorem of_nil : of [] = zero := rfl

/-- **Merging histograms** is counting the latencies of both. -/
theorem of_append (l m : List U64) : of (l ++ m) = (of l).merge (of m) := by
  unfold of merge
  rw [List.sum_append, List.length_append, ofNat_add]
  congr 1
  funext i
  unfold countAt
  rw [List.countP_append, ofNat_add]

theorem of_perm {l m : List U64} (h : l.Perm m) : of l = of m := by
  unfold of countAt
  rw [h.sum_eq, h.length_eq]
  congr 1
  funext i
  rw [h.countP_eq]

/-- **Adding a latency** is counting one more. -/
theorem of_snoc (l : List U64) (latencyUs : U64) :
    of (l ++ [latencyUs]) = (of l).add latencyUs := by
  rw [of_append]
  unfold merge add
  congr 1
  · funext i
    show (of l).count i + Fin.ofNat (2 ^ 64) (countAt [latencyUs] histBucket (· = i)) = _
    rw [countAt_cons, countAt_nil, Nat.zero_add]
    by_cases hi : i = histBucket latencyUs
    · rw [hi, Function.update_self, decide_eq_true rfl]
      rfl
    · rw [Function.update_of_ne hi, decide_eq_false (Ne.symm hi)]
      exact add_zero _
  · exact congrArg ((of l).sumUs + ·) (add_zero latencyUs)

/-- A counter of a histogram that has not wrapped around. -/
theorem count_of_val {l : List U64} (hl : l.length < 2 ^ 64) (i : Fin histBuckets) :
    ((of l).count i).val = countAt l histBucket (· = i) :=
  Nat.mod_eq_of_lt ((countAt_le_length l histBucket _).trans_lt hl)

theorem total_of_val {l : List U64} (hl : l.length < 2 ^ 64) : (of l).total.val = l.length :=
  Nat.mod_eq_of_lt hl

/-- **The scan finds the bucket of the order statistic**, from wherever it has come:
the buckets that are left are the higher ones, and the bucket is one of them. -/
theorem percentileLoop_of {l : List U64} (hl : l.length < 2 ^ 64) {target : ℕ}
    (hpos : 0 < target) {v : U64} (hv : orderStatistic l target = some v)
    {is : List (Fin histBuckets)} (hsorted : is.Pairwise (· < ·))
    (hrest : ∀ b, b ∉ is → ∀ i ∈ is, b < i) {seen : U64}
    (hseen : seen.val = countAt l histBucket (· ∉ is)) (hmem : histBucket v ∈ is) :
    (of l).percentileLoop target seen is = latBucketValue (histBucket v) := by
  induction is generalizing seen with
  | nil => exact absurd hmem List.not_mem_nil
  | cons i is ih =>
    obtain ⟨hi, hsorted⟩ := List.pairwise_cons.mp hsorted
    have hle : ∀ b, b ≤ i ↔ b ∉ is := by
      intro b
      refine ⟨fun hb hmem => absurd (hi b hmem) (not_lt_of_ge hb), fun hb => ?_⟩
      by_cases hbi : b = i
      · exact hbi.le
      · refine (hrest b (fun hmem => ?_) i List.mem_cons_self).le
        exact (List.mem_cons.mp hmem).elim hbi hb
    have hcount : countAt l histBucket (· ∉ i :: is) + countAt l histBucket (· = i)
        = countAt l histBucket (· ∉ is) := by
      refine countAt_add fun b => ?_
      have hself : i ∉ is := fun hmem => lt_irrefl i (hi i hmem)
      by_cases hbi : b = i
      · simp [hbi, hself]
      · simp [hbi]
    have hval : (seen + (of l).count i).val = countAt l histBucket (· ∉ is) := by
      rw [Fin.val_add, hseen, count_of_val hl, hcount]
      exact Nat.mod_eq_of_lt ((countAt_le_length l histBucket _).trans_lt hl)
    have hreach : target ≤ countAt l histBucket (· ∉ is) ↔ histBucket v ∉ is := by
      have hiff := orderStatistic_iff hpos hv (p := fun x => decide (histBucket x ∉ is))
        (fun a b hab hb => by
          rw [decide_eq_true_eq, ← hle] at hb ⊢
          exact (histBucket_mono hab).trans hb)
      rw [decide_eq_true_eq] at hiff
      exact hiff.symm
    unfold percentileLoop
    rw [hval]
    by_cases htarget : target ≤ countAt l histBucket (· ∉ is)
    · rw [if_pos htarget]
      have hvi : histBucket v = i :=
        (List.mem_cons.mp hmem).resolve_right (hreach.mp htarget)
      rw [hvi]
    · rw [if_neg htarget]
      refine ih hsorted (fun b hb j hj => ?_) hval (not_not.mp (mt hreach.mpr htarget))
      exact ((hle b).mpr hb).trans_lt (hi j hj)

/-- **A percentile of a histogram** is the bucket of the order statistic whose rank is
the percentage of the total, rounded up. -/
theorem percentile_of {l : List U64} {pct : ℕ} (hpct : 0 < pct) (hpct' : pct ≤ 100)
    (hl : 0 < l.length) (hl' : l.length < 2 ^ 56) :
    ∃ v, orderStatistic l (pct * l.length ⌈/⌉ 100) = some v ∧
      ((of l).percentile pct).val = 2 ^ min 20 (Nat.log 2 (max v.val 1)) := by
  have hmul : pct * l.length ≤ 100 * l.length := Nat.mul_le_mul_right _ hpct'
  have hmul' : 1 * l.length ≤ pct * l.length := Nat.mul_le_mul_right _ hpct
  rw [Nat.ceilDiv_eq_add_pred_div, Nat.add_sub_assoc (by decide)]
  have hpos : 0 < (pct * l.length + (100 - 1)) / 100 := by omega
  obtain ⟨v, hv⟩ := exists_orderStatistic hpos
    (by omega : (pct * l.length + (100 - 1)) / 100 ≤ l.length)
  have hl64 : l.length < 2 ^ 64 := hl'.trans (by decide)
  have htotal : (of l).total ≠ 0 := by
    intro h
    have hval := total_of_val hl64
    rw [h] at hval
    exact absurd hval hl.ne
  have htarget : ((of l).total.val * pct + 99) % 2 ^ 64 / 100
      = (pct * l.length + (100 - 1)) / 100 := by
    rw [total_of_val hl64, Nat.mul_comm, Nat.mod_eq_of_lt]
    omega
  refine ⟨v, hv, ?_⟩
  unfold percentile
  rw [if_neg htotal, htarget, percentileLoop_of hl64 hpos hv (List.pairwise_lt_finRange _)
    (fun b hb => absurd (List.mem_finRange b) hb) ?_ (List.mem_finRange _),
    latBucketValue_val (histBucket v).isLt, histBucket_val]
  unfold countAt
  exact (List.countP_eq_zero.mpr fun x _ => by simp).symm

end LatHist
