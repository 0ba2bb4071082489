import Mathlib.Algebra.BigOperators.Intervals
import Mathlib.Algebra.BigOperators.Ring.Finset
import Mathlib.Algebra.Order.Group.MinMax
import SmartIo.ModelFp32Params
import SmartIo.RatioRounding

/-!
# How far the network is off

The network is trained with numbers and run with words of 32 bits. Each operation
rounds, a layer passes what its values are off on to the next one, multiplied with
its weights, and the action is the first of the largest values – a comparison that
a small error can turn over.

With the weights of the module, none of this goes far. No sum reaches a power of
two that the format does not have room under, so no value is infinite or not a
number, as long as no input is larger than `2 ^ 24` (`fp32Values_near`); every value is
within a sixty-fourth of the one that the exact network has for the same inputs; and the
exact value of the action that is taken is within a thirty-second of the largest
(`fp32Action_near_optimal`).

A word that is near a number is what the proof is about (`Near`): finite, off by so
much at most, and not larger than so much. The layers are instances of one rule
for sums (`accumulate_near`), which takes the absolute sum of the weights of a row
and a power of two above the sum; what these are is computed from the tables.
-/

open Finset (range)

/-! ## Words near numbers -/

section Near

variable {F : BinaryFormat}

/-- **A word near a number**: finite, off by at most `E`, and of size at most `M`. -/
structure Near (a : F.Word) (x E M : ℚ) : Prop where
  /-- It is finite. -/
  finite : F.Finite a
  /-- It is off by so much. -/
  error : |F.real a - x| ≤ E
  /-- It is as large as that. -/
  bound : |F.real a| ≤ M

/-- What is near is near in wider bounds. -/
theorem Near.mono {a : F.Word} {x E E' M M' : ℚ} (h : Near a x E M) (hE : E ≤ E')
    (hM : M ≤ M') : Near a x E' M' :=
  ⟨h.finite, h.error.trans hE, h.bound.trans hM⟩

/-- **A sum of products of words near numbers with some weights.** What the values
are off is multiplied with the weights, and each term adds half a spacing below
the power of two that the sum does not reach. -/
theorem accumulate_near (hfrac : 0 < F.fracBits) {K : ℤ} (hK : 2 - F.bias ≤ K)
    (hK' : K ≤ F.bias) {b : F.Word} {a w : ℕ → F.Word} {x : ℕ → ℚ} {n : ℕ} {E X : ℚ}
    (hX : 0 ≤ X) (hb : F.Finite b) (ha : ∀ k < n, Near (a k) (x k) E X)
    (hw : ∀ k < n, F.Finite (w k))
    (hM : |F.real b| + X * ∑ k ∈ range n, |F.real (w k)| + n * 2 ^ (K - 2 - F.fracBits)
      < 2 ^ K) :
    Near (accumulate F.unitOf b a w n)
      (accumulate exactUnit (F.real b) x (fun k => F.real (w k)) n)
      (E * ∑ k ∈ range n, |F.real (w k)| + n * 2 ^ (K - 2 - F.fracBits))
      (|F.real b| + X * ∑ k ∈ range n, |F.real (w k)| + n * 2 ^ (K - 2 - F.fracBits)) := by
  obtain ⟨eps, heps⟩ : ∃ e : ℚ, e = 2 ^ (K - 2 - F.fracBits) := ⟨_, rfl⟩
  have hpos : 0 ≤ eps := by rw [heps]; positivity
  rw [← heps] at hM ⊢
  induction n with
  | zero =>
    refine ⟨hb, ?_, ?_⟩
    · rw [Finset.sum_range_zero]
      show |F.real b - F.real b| ≤ _
      rw [sub_self, abs_zero]
      simp
    · rw [Finset.sum_range_zero]
      show |F.real b| ≤ _
      simp
  | succ n ih =>
    rw [Finset.sum_range_succ] at hM ⊢
    push_cast at hM ⊢
    have hwn := abs_nonneg (F.real (w n))
    obtain ⟨hfin, herr, hbound⟩ := ih (fun k hk => ha k (hk.trans (Nat.lt_succ_self n)))
      (fun k hk => hw k (hk.trans (Nat.lt_succ_self n))) (by nlinarith)
    obtain ⟨hxfin, hxerr, hxbound⟩ := ha n (Nat.lt_succ_self n)
    have hround := F.mulAdd_rounded hfin hxfin (hw n (Nat.lt_succ_self n))
    show Near (F.mulAdd (accumulate F.unitOf b a w n) (a n) (w n))
      (accumulate exactUnit (F.real b) x (fun k => F.real (w k)) n + x n * F.real (w n)) _ _
    generalize accumulate F.unitOf b a w n = s at *
    generalize accumulate exactUnit (F.real b) x (fun k => F.real (w k)) n = y at *
    generalize ∑ k ∈ range n, |F.real (w k)| = S at *
    -- the exact result of the last step
    have hprod : |F.real (a n) * F.real (w n)| ≤ X * |F.real (w n)| := by
      rw [abs_mul]
      exact mul_le_mul_of_nonneg_right hxbound hwn
    have hstep : |F.real s + F.real (a n) * F.real (w n)|
        ≤ |F.real b| + X * S + n * eps + X * |F.real (w n)| :=
      (abs_add_le _ _).trans (add_le_add hbound hprod)
    have hlt : |F.real s + F.real (a n) * F.real (w n)| < 2 ^ K := by linarith
    have hlast := hround.error hfrac hK hK' hlt
    rw [← heps] at hlast
    have hterm : |F.real (a n) * F.real (w n) - x n * F.real (w n)| ≤ E * |F.real (w n)| := by
      rw [← sub_mul, abs_mul]
      exact mul_le_mul_of_nonneg_right hxerr hwn
    refine ⟨hround.finite hfrac hK hK' hlt, ?_, ?_⟩
    · calc |F.real (F.mulAdd s (a n) (w n)) - (y + x n * F.real (w n))|
          = |(F.real (F.mulAdd s (a n) (w n)) - (F.real s + F.real (a n) * F.real (w n)))
            + ((F.real s - y) + (F.real (a n) * F.real (w n) - x n * F.real (w n)))| := by
            congr 1
            ring
        _ ≤ eps + ((E * S + n * eps) + E * |F.real (w n)|) :=
            (abs_add_le _ _).trans (add_le_add hlast ((abs_add_le _ _).trans
              (add_le_add herr hterm)))
        _ = E * (S + |F.real (w n)|) + (n + 1) * eps := by ring
    · calc |F.real (F.mulAdd s (a n) (w n))|
          = |(F.real (F.mulAdd s (a n) (w n)) - (F.real s + F.real (a n) * F.real (w n)))
            + (F.real s + F.real (a n) * F.real (w n))| := by
            congr 1
            ring
        _ ≤ eps + (|F.real b| + X * S + n * eps + X * |F.real (w n)|) :=
            (abs_add_le _ _).trans (add_le_add hlast hstep)
        _ = |F.real b| + X * (S + |F.real (w n)|) + (n + 1) * eps := by ring

/-- Cutting off at zero brings nothing apart. -/
theorem relu_near {a : F.Word} {x E M : ℚ} (h : Near a x E M) :
    Near (relu F.unitOf a) (relu exactUnit x) E M := by
  have hmag : F.mag (F.zeroOf false) = 0 := F.mag_pack (by positivity)
  have hzero : F.Finite (F.zeroOf false) := by
    unfold BinaryFormat.Finite
    rw [hmag]
    exact Nat.zero_lt_of_lt h.finite
  obtain ⟨hfin, hreal⟩ := F.maxNum_finite h.finite hzero
  rw [F.real_of_mag_eq_zero hmag] at hreal
  refine ⟨hfin, ?_, ?_⟩
  · show |F.real (F.maxNum a (F.zeroOf false)) - max x 0| ≤ E
    rw [hreal]
    exact (abs_max_sub_max_le_abs _ _ _).trans h.error
  · show |F.real (F.maxNum a (F.zeroOf false))| ≤ M
    rw [hreal, abs_of_nonneg (le_max_right _ _)]
    exact max_le ((le_abs_self _).trans h.bound) ((abs_nonneg _).trans h.bound)

/-- The clipping of two numbers, one of which is off by a share of the other. -/
theorem clip_sub_clip_le {C y z η τ : ℚ} (hC : 0 < C) (hη : 0 ≤ η) (hη' : η ≤ 1 / 4)
    (hτ : 0 ≤ τ) (hτ' : τ ≤ C / 2) (h : |y - z| ≤ η * |z| + τ) :
    |min (max y (-C)) C - min (max z (-C)) C| ≤ 2 * C * η + τ := by
  rcases le_or_gt |z| (2 * C) with hz | hz
  · calc |min (max y (-C)) C - min (max z (-C)) C|
        ≤ |max y (-C) - max z (-C)| := abs_inf_sub_inf_le_abs _ _ _
      _ ≤ |y - z| := abs_max_sub_max_le_abs _ _ _
      _ ≤ η * |z| + τ := h
      _ ≤ 2 * C * η + τ := by nlinarith
  · -- a number far outside is clipped to the same bound
    have hdev : |y - z| ≤ |z| / 4 + C / 2 := by nlinarith [abs_nonneg z]
    obtain ⟨hlow, hhigh⟩ := abs_le.mp hdev
    have heq : min (max y (-C)) C = min (max z (-C)) C := by
      rcases le_total 0 z with h0 | h0
      · rw [abs_of_nonneg h0] at hz hlow
        rw [max_eq_left (by linarith), max_eq_left (by linarith), min_eq_right (by linarith),
          min_eq_right (by linarith)]
      · rw [abs_of_nonpos h0] at hz hhigh
        rw [max_eq_right (by linarith), max_eq_right (by linarith)]
    rw [heq, sub_self, abs_zero]
    positivity

end Near

/-! ## The tables -/

/-- **The floating-point unit of the module**: binary32. -/
def fp32Unit : FpUnit U32 := binary32.unitOf

/-- The number that a word of 32 bits stands for. -/
def fp32Real (w : U32) : ℚ := binary32.real w

/-- A word of 32 bits that stands for a number. -/
def Fp32Finite (w : U32) : Prop := binary32.Finite w

instance (w : U32) : Decidable (Fp32Finite w) :=
  inferInstanceAs (Decidable (binary32.mag w < binary32.infinity))

/-- The scaler, in numbers. -/
def ModelFp32ScalerBits.real (c : ModelFp32ScalerBits U32) : ModelFp32ScalerBits ℚ where
  mean i := fp32Real (c.mean i)
  std i := fp32Real (c.std i)
  clip := fp32Real c.clip

/-- The model, in numbers. -/
def ModelFp32Bits.real (m : ModelFp32Bits U32) : ModelFp32Bits ℚ where
  weight1 j k := fp32Real (m.weight1 j k)
  bias1 j := fp32Real (m.bias1 j)
  weight2 j k := fp32Real (m.weight2 j k)
  bias2 j := fp32Real (m.bias2 j)
  jointWeight j k := fp32Real (m.jointWeight j k)
  jointBias j := fp32Real (m.jointBias j)

theorem binary32_unit_zero : binary32.unit 0 = 1 / 2 ^ 149 := by
  unfold BinaryFormat.unit
  rw [bias_binary32]
  norm_num [binary32]

/-- The size of a word, counted in the spacings of the smallest numbers. -/
def fp32Scaled (w : U32) : ℕ := binary32.scaled (binary32.mag w)

theorem abs_fp32Real (w : U32) : |fp32Real w| = fp32Scaled w * (1 / 2 ^ 149) := by
  rw [← binary32_unit_zero]
  exact (binary32.abs_real w).trans (binary32.value_eq_scaled _)

/-- A sum of sizes, bounded by a count of the smallest spacings. -/
theorem sum_abs_le {w : ℕ → U32} {n : ℕ} {N : ℚ} {B : ℕ}
    (h : ∑ k ∈ range n, fp32Scaled (w k) ≤ B) (hB : (B : ℚ) = N * 2 ^ 149) :
    ∑ k ∈ range n, |fp32Real (w k)| ≤ N := by
  have hcast : ((∑ k ∈ range n, fp32Scaled (w k) : ℕ) : ℚ) ≤ N * 2 ^ 149 := by
    rw [← hB]
    exact_mod_cast h
  calc ∑ k ∈ range n, |fp32Real (w k)|
      = (∑ k ∈ range n, (fp32Scaled (w k) : ℚ)) * (1 / 2 ^ 149) := by
        rw [Finset.sum_mul]
        exact Finset.sum_congr rfl fun k _ => abs_fp32Real (w k)
    _ ≤ N * 2 ^ 149 * (1 / 2 ^ 149) := by
        refine mul_le_mul_of_nonneg_right ?_ (by norm_num)
        push_cast at hcast
        exact hcast
    _ = N := by ring

/-- A size, bounded by a count of the smallest spacings. -/
theorem abs_le_of_scaled {w : U32} {N : ℚ} {B : ℕ} (h : fp32Scaled w ≤ B)
    (hB : (B : ℚ) = N * 2 ^ 149) : |fp32Real w| ≤ N := by
  have := sum_abs_le (w := fun _ => w) (n := 1) (by rw [Finset.sum_range_one]; exact h) hB
  rwa [Finset.sum_range_one] at this

/-- **A row of weights**: the words are finite, their sizes sum up to `N` at most, and
the bias is not larger than one. -/
structure RowWithin (bias : U32) (w : ℕ → U32) (n : ℕ) (N : ℚ) : Prop where
  finite : ∀ k < n, Fp32Finite (w k)
  sum : ∑ k ∈ range n, |fp32Real (w k)| ≤ N
  biasFinite : Fp32Finite bias
  bias : |fp32Real bias| ≤ 1

/-- The check of a row, in whole numbers: the sizes in the spacings of the smallest
numbers. -/
def rowCheck (bias : U32) (w : ℕ → U32) (n B : ℕ) : Bool :=
  (List.range n).all (fun k => decide (Fp32Finite (w k)))
    && decide (∑ k ∈ range n, fp32Scaled (w k) ≤ B)
    && decide (Fp32Finite bias) && decide (fp32Scaled bias ≤ 2 ^ 149)

theorem rowWithin_of_check {bias : U32} {w : ℕ → U32} {n B : ℕ} {N : ℚ}
    (h : rowCheck bias w n B = true) (hB : (B : ℚ) = N * 2 ^ 149) : RowWithin bias w n N := by
  unfold rowCheck at h
  simp only [Bool.and_eq_true, List.all_eq_true, List.mem_range, decide_eq_true_eq] at h
  obtain ⟨⟨⟨hfinite, hsum⟩, hbias⟩, hone⟩ := h
  exact ⟨hfinite, sum_abs_le hsum hB, hbias, abs_le_of_scaled hone (by norm_num)⟩

/-- The rows of the first layer. -/
theorem rows_layer1 : ∀ j < 32,
    rowCheck (smartIoFp32Model.bias1 j) (smartIoFp32Model.weight1 j) 11 (4 * 2 ^ 149) = true := by
  decide +kernel

/-- The rows of the second layer. -/
theorem rows_layer2 : ∀ j < 32,
    rowCheck (smartIoFp32Model.bias2 j) (smartIoFp32Model.weight2 j) 32 (18 * 2 ^ 149) = true := by
  decide +kernel

/-- The rows of the joint actions. -/
theorem rows_jointHead : ∀ j < 12,
    rowCheck (smartIoFp32Model.jointBias j) (smartIoFp32Model.jointWeight j) 32 (15 * 2 ^ 148)
      = true := by
  decide +kernel

/-- **The parameters of the normalization**: the means are at most two, the
deviations at least a thirty-second, and the clip is five. -/
structure ScalerWithin (c : ModelFp32ScalerBits U32) : Prop where
  meanFinite : ∀ i < 11, Fp32Finite (c.mean i)
  mean : ∀ i < 11, |fp32Real (c.mean i)| ≤ 2
  stdFinite : ∀ i < 11, Fp32Finite (c.std i)
  std : ∀ i < 11, 1 / 32 ≤ fp32Real (c.std i)
  clipFinite : Fp32Finite c.clip
  clip : fp32Real c.clip = 5

/-- The numbers of words that are not negative. -/
theorem fp32Real_eq_scaled {w : U32} (h : binary32.sign w = false) :
    fp32Real w = fp32Scaled w * (1 / 2 ^ 149) := by
  rw [← abs_fp32Real, abs_of_nonneg]
  unfold fp32Real BinaryFormat.real
  rw [h, if_neg Bool.false_ne_true]
  exact binary32.value_nonneg _

theorem scalerWithin : ScalerWithin smartIoFp32Scaler where
  meanFinite := by decide +kernel
  mean i hi := by
    have hcheck : ∀ i < 11, fp32Scaled (smartIoFp32Scaler.mean i) ≤ 2 * 2 ^ 149 := by
      decide +kernel
    exact abs_le_of_scaled (hcheck i hi) (by norm_num)
  stdFinite := by decide +kernel
  std i hi := by
    have hsign : ∀ i < 11, binary32.sign (smartIoFp32Scaler.std i) = false := by decide +kernel
    have hcheck : ∀ i < 11, 2 ^ 144 ≤ fp32Scaled (smartIoFp32Scaler.std i) := by
      decide +kernel
    have hcast : ((2 ^ 144 : ℕ) : ℚ) ≤ fp32Scaled (smartIoFp32Scaler.std i) := by
      exact_mod_cast hcheck i hi
    rw [fp32Real_eq_scaled (hsign i hi)]
    push_cast at hcast
    linarith
  clipFinite := by decide +kernel
  clip := by
    have hcheck : fp32Scaled smartIoFp32Scaler.clip = 5 * 2 ^ 149 := by decide +kernel
    rw [fp32Real_eq_scaled (by decide +kernel), hcheck]
    norm_num

/-! ## The layers -/

/-- A word of 32 bits near a number. -/
def Fp32Near (w : U32) (x E M : ℚ) : Prop := Near (F := binary32) w x E M

theorem Fp32Near.error {w : U32} {x E M : ℚ} (h : Fp32Near w x E M) : |fp32Real w - x| ≤ E :=
  Near.error h

/-- The rounding of a number below a power of two. -/
theorem fp32Rounded_near {w : U32} {y : ℚ} {k : ℤ} (h : binary32.Rounded y w)
    (hk : -125 ≤ k) (hk' : k ≤ 127) (hy : |y| < 2 ^ k) :
    Fp32Finite w ∧ |fp32Real w - y| ≤ |y| / 2 ^ 24 + 1 / 2 ^ 150 := by
  have hfin : binary32.Finite w := h.finite (by decide) (by rw [bias_binary32]; omega)
    (by rw [bias_binary32]; omega) hy
  refine ⟨hfin, ?_⟩
  have := h.error_share (by decide) hfin
  rw [binary32_unit_zero] at this
  refine this.trans (le_of_eq ?_)
  norm_num [binary32]

/-- The quotient of a difference that is rounded: how far it is from the exact one,
and that it is not large. -/
theorem quotient_sub_le {a y s : ℚ} (hpos : 0 < s) (hs : 1 / 32 ≤ s)
    (h : |a - y| ≤ |y| / 2 ^ 24 + 1 / 2 ^ 150) (hy : |y| ≤ 2 ^ 24 + 2) :
    |a / s - y / s| ≤ |y / s| / 2 ^ 24 + 1 / 2 ^ 145 ∧ |a / s| < 2 ^ (31 : ℤ) := by
  have hinv : 1 / s ≤ 32 := by
    rw [div_le_iff₀ hpos]
    linarith
  have hinv0 : 0 ≤ 1 / s := by positivity
  have hdev : |a / s - y / s| = |a - y| * (1 / s) := by
    rw [← sub_div, abs_div, abs_of_pos hpos]
    ring
  have hz : |y / s| = |y| * (1 / s) := by
    rw [abs_div, abs_of_pos hpos]
    ring
  have ha : |a| ≤ 2 ^ 25 := by
    have hsum := abs_add_le (a - y) y
    rw [sub_add_cancel] at hsum
    linarith
  refine ⟨?_, ?_⟩
  · rw [hdev, hz]
    calc |a - y| * (1 / s) ≤ (|y| / 2 ^ 24 + 1 / 2 ^ 150) * (1 / s) :=
          mul_le_mul_of_nonneg_right h hinv0
      _ = |y| * (1 / s) / 2 ^ 24 + 1 / 2 ^ 150 * (1 / s) := by ring
      _ ≤ |y| * (1 / s) / 2 ^ 24 + 1 / 2 ^ 150 * 32 := by
          gcongr
      _ = |y| * (1 / s) / 2 ^ 24 + 1 / 2 ^ 145 := by norm_num
  · rw [abs_div, abs_of_pos hpos, div_lt_iff₀ hpos]
    norm_num
    linarith

/-- The quotient is rounded, too. -/
theorem abs_sub_le_of_quotient {a y z : ℚ} (hy : |y - z| ≤ |z| / 2 ^ 24 + 1 / 2 ^ 145)
    (ha : |a - y| ≤ |y| / 2 ^ 24 + 1 / 2 ^ 150) :
    |a - z| ≤ 3 / 2 ^ 24 * |z| + 1 / 2 ^ 143 := by
  have hsum := abs_add_le (a - y) (y - z)
  rw [sub_add_sub_cancel] at hsum
  have hyz := abs_add_le (y - z) z
  rw [sub_add_cancel] at hyz
  have hz := abs_nonneg z
  linarith

/-- **The normalization.** An input of at most `2 ^ 24` is normalized and clipped to a word
that is off by at most `2 ^ -19`. -/
theorem normalize_near {c : ModelFp32ScalerBits U32} (hc : ScalerWithin c) {input : ℕ → U32}
    {i : ℕ} (hi : i < 11) (hfin : Fp32Finite (input i)) (hin : |fp32Real (input i)| ≤ 2 ^ 24) :
    Fp32Near (normalizeInput fp32Unit c input i)
      (normalizeInput exactUnit c.real (fun i => fp32Real (input i)) i) (1 / 2 ^ 19) 5 := by
  have hmean := hc.mean i hi
  have hstd := hc.std i hi
  have hpos : 0 < fp32Real (c.std i) := by linarith
  -- the difference, the quotient, and how far the quotient is from the exact one
  have hx : |fp32Real (input i) - fp32Real (c.mean i)| ≤ 2 ^ 24 + 2 :=
    (abs_sub _ _).trans (add_le_add hin hmean)
  obtain ⟨hsubfin, hsub⟩ := fp32Rounded_near (k := 25)
    (binary32.sub_rounded hfin (hc.meanFinite i hi)) (by decide) (by decide)
    (hx.trans_lt (by norm_num))
  have hquot := quotient_sub_le hpos hstd hsub hx
  obtain ⟨hdivfin, hdiv⟩ := fp32Rounded_near (k := 31)
    (binary32.div_rounded hsubfin (hc.stdFinite i hi) hpos.ne') (by decide) (by decide)
    hquot.2
  have hdev := abs_sub_le_of_quotient hquot.1 hdiv
  -- the clipping
  obtain ⟨hmaxfin, hmax⟩ := binary32.maxNum_finite hdivfin (binary32.neg_finite hc.clipFinite)
  obtain ⟨hminfin, hmin⟩ := binary32.minNum_finite hmaxfin hc.clipFinite
  have hclip : binary32.real c.clip = 5 := hc.clip
  rw [binary32.real_neg hc.clipFinite, hclip] at hmax
  rw [hmax, hclip] at hmin
  refine ⟨hminfin, ?_, ?_⟩
  · show |binary32.real (normalizeInput fp32Unit c input i) - min (max
      ((fp32Real (input i) - fp32Real (c.mean i)) / fp32Real (c.std i)) (-fp32Real c.clip))
      (fp32Real c.clip)| ≤ 1 / 2 ^ 19
    rw [hc.clip]
    refine le_trans (le_of_eq (congrArg (fun r => |r - _|) hmin)) ?_
    refine (clip_sub_clip_le (by norm_num) (by norm_num) (by norm_num) (by norm_num)
      (by norm_num) hdev).trans (by norm_num)
  · refine le_trans (le_of_eq (congrArg abs hmin)) (abs_le.mpr ⟨?_, min_le_right _ _⟩)
    exact le_min (le_max_right _ _) (by norm_num)

/-- **A row of a layer**, for a power of two that the sum does not reach. -/
theorem row_near {bias : U32} {a w : ℕ → U32} {x : ℕ → ℚ} {n : ℕ} {N E X : ℚ} {K : ℤ}
    (hrow : RowWithin bias w n N) (ha : ∀ k < n, Fp32Near (a k) (x k) E X) (hE : 0 ≤ E)
    (hX : 0 ≤ X) (hK : 0 ≤ K) (hK' : K ≤ 127)
    (hM : 1 + X * N + n * 2 ^ (K - 25) < 2 ^ K) :
    Fp32Near (accumulate fp32Unit bias a w n)
      (accumulate exactUnit (fp32Real bias) x (fun k => fp32Real (w k)) n)
      (E * N + n * 2 ^ (K - 25)) (1 + X * N + n * 2 ^ (K - 25)) := by
  have heps : (2 : ℚ) ^ (K - 2 - (binary32.fracBits : ℤ)) = 2 ^ (K - 25) := by
    congr 1
    show K - 2 - 23 = K - 25
    ring
  have hsum : X * ∑ k ∈ range n, |fp32Real (w k)| ≤ X * N :=
    mul_le_mul_of_nonneg_left hrow.sum hX
  have hsum' : E * ∑ k ∈ range n, |fp32Real (w k)| ≤ E * N :=
    mul_le_mul_of_nonneg_left hrow.sum hE
  have hbias := hrow.bias
  have hnear := accumulate_near (F := binary32) (by decide)
    (show 2 - binary32.bias ≤ K by rw [bias_binary32]; omega)
    (show K ≤ binary32.bias by rw [bias_binary32]; exact hK') hX hrow.biasFinite ha hrow.finite
    (by
      rw [heps]
      show |fp32Real bias| + X * ∑ k ∈ range n, |fp32Real (w k)| + n * 2 ^ (K - 25) < 2 ^ K
      linarith)
  rw [heps] at hnear
  refine hnear.mono ?_ ?_
  · show E * ∑ k ∈ range n, |fp32Real (w k)| + n * 2 ^ (K - 25) ≤ _
    linarith
  · show |fp32Real bias| + X * ∑ k ∈ range n, |fp32Real (w k)| + n * 2 ^ (K - 25) ≤ _
    linarith

section Layers

variable {input : ℕ → U32}

/-- **Inputs that the network is run on**: finite words of at most `2 ^ 24`. -/
def InputWithin (input : ℕ → U32) : Prop :=
  ∀ i < 11, Fp32Finite (input i) ∧ |fp32Real (input i)| ≤ 2 ^ 24

/-- The normalized inputs of the module. -/
theorem inputs_near (h : InputWithin input) :
    ∀ i < 11, Fp32Near (normalizeInput fp32Unit smartIoFp32Scaler input i)
      (normalizeInput exactUnit smartIoFp32Scaler.real (fun i => fp32Real (input i)) i)
      (1 / 2 ^ 19) 5 :=
  fun i hi => normalize_near scalerWithin hi (h i hi).1 (h i hi).2

/-- The first layer of the module. -/
theorem layer1_near {a : ℕ → U32} {x : ℕ → ℚ}
    (h : ∀ i < 11, Fp32Near (a i) (x i) (1 / 2 ^ 19) 5) :
    ∀ j < 32, Fp32Near (layer1 fp32Unit smartIoFp32Model a j)
      (layer1 exactUnit smartIoFp32Model.real x j) (19 / 2 ^ 20) 22 := by
  intro j hj
  have hrow := rowWithin_of_check (rows_layer1 j hj) (N := 4) (by norm_num)
  refine relu_near (Near.mono (row_near (K := 5) hrow h ?_ ?_ ?_ ?_ ?_) ?_ ?_) <;>
    norm_num [modelFp32Inputs]

/-- The second layer of the module. -/
theorem layer2_near {a : ℕ → U32} {x : ℕ → ℚ}
    (h : ∀ i < 32, Fp32Near (a i) (x i) (19 / 2 ^ 20) 22) :
    ∀ j < 32, Fp32Near (layer2 fp32Unit smartIoFp32Model a j)
      (layer2 exactUnit smartIoFp32Model.real x j) (854 / 2 ^ 20) 398 := by
  intro j hj
  have hrow := rowWithin_of_check (rows_layer2 j hj) (N := 18) (by norm_num)
  refine relu_near (Near.mono (row_near (K := 9) hrow h ?_ ?_ ?_ ?_ ?_) ?_ ?_) <;>
    norm_num [modelFp32Hidden]

/-- The values of the module. -/
theorem jointHead_near {a : ℕ → U32} {x : ℕ → ℚ}
    (h : ∀ i < 32, Fp32Near (a i) (x i) (854 / 2 ^ 20) 398) :
    ∀ j < 12, Fp32Near (jointHead fp32Unit smartIoFp32Model a j)
      (jointHead exactUnit smartIoFp32Model.real x j) (1 / 64) 2987 := by
  intro j hj
  have hrow := rowWithin_of_check (rows_jointHead j hj) (N := 15 / 2) (by norm_num)
  refine Near.mono (row_near (K := 12) hrow h ?_ ?_ ?_ ?_ ?_) ?_ ?_ <;> norm_num [modelFp32Hidden]

/-- The values of the exact network, for the numbers that the inputs stand for. -/
def exactValues (input : ℕ → U32) : ℕ → ℚ :=
  fp32Values exactUnit smartIoFp32Model.real smartIoFp32Scaler.real (fun i => fp32Real (input i))

/-- **The values are near the exact ones**: finite, and off by a sixty-fourth at
most. -/
theorem fp32Values_near (h : InputWithin input) {j : ℕ} (hj : j < modelFp32Actions) :
    Fp32Near (fp32Values fp32Unit smartIoFp32Model smartIoFp32Scaler input j)
      (exactValues input j) (1 / 64) 2987 :=
  jointHead_near (layer2_near (layer1_near (inputs_near h))) j hj

end Layers

/-! ## The action -/

/-- **The first of the largest values.** -/
structure BestOf (q : ℕ → U32) (n best : ℕ) : Prop where
  lt : best < n
  /-- None is larger. -/
  le : ∀ j < n, fp32Real (q j) ≤ fp32Real (q best)
  /-- Those before it are smaller. -/
  first : ∀ j < best, fp32Real (q j) < fp32Real (q best)

/-- The comparison of finite words. -/
theorem compare_gt_iff {v w : U32} (hv : Fp32Finite v) (hw : Fp32Finite w) :
    fp32Unit.compare v w = some .gt ↔ fp32Real w < fp32Real v := by
  show binary32.compareWords v w = some .gt ↔ _
  rw [binary32.compareWords_finite hv hw, Option.some.injEq, cmp_eq_gt_iff]
  rfl

/-- What the comparisons find among finite values. -/
theorem bestOf_bestAction {q : ℕ → U32} {n : ℕ} (hq : ∀ j < n, Fp32Finite (q j)) (hn : 0 < n) :
    BestOf q n (bestAction fp32Unit q n) := by
  induction n with
  | zero => exact absurd hn (Nat.lt_irrefl 0)
  | succ n ih =>
    rcases Nat.eq_zero_or_pos n with rfl | hpos
    · refine ⟨Nat.one_pos, fun j hj => ?_, fun j hj => absurd hj j.not_lt_zero⟩
      rw [Nat.lt_one_iff.mp hj]
      rfl
    have hbest := ih (fun j hj => hq j (hj.trans (Nat.lt_succ_self n))) hpos
    have hcmp := compare_gt_iff (hq n (Nat.lt_succ_self n))
      (hq _ (hbest.lt.trans (Nat.lt_succ_self n)))
    unfold bestAction
    by_cases hgt : fp32Real (q (bestAction fp32Unit q n)) < fp32Real (q n)
    · rw [if_pos ⟨hpos.ne', hcmp.mpr hgt⟩]
      refine ⟨Nat.lt_succ_self n, fun j hj => ?_, fun j hj => (hbest.le j hj).trans_lt hgt⟩
      rcases Nat.lt_succ_iff_lt_or_eq.mp hj with hlt | rfl
      · exact (hbest.le j hlt).trans hgt.le
      · exact le_rfl
    · rw [if_neg (fun h => hgt (hcmp.mp h.2))]
      refine ⟨hbest.lt.trans (Nat.lt_succ_self n), fun j hj => ?_, hbest.first⟩
      rcases Nat.lt_succ_iff_lt_or_eq.mp hj with hlt | rfl
      · exact hbest.le j hlt
      · exact not_lt.mp hgt

/-- **What the network is good for**: how the action that it takes stands among the
values of the exact network. -/
structure NearOptimal (exact : ℕ → ℚ) (n action : ℕ) : Prop where
  /-- No action is better by more than a thirty-second. -/
  near : ∀ j < n, exact j ≤ exact action + 1 / 32
  /-- An action that is better than all others by more than that is taken. -/
  clear : ∀ j < n, (∀ i < n, i ≠ j → exact i + 1 / 32 < exact j) → action = j

section Action

variable {input : ℕ → U32}

theorem fp32Values_finite (h : InputWithin input) : ∀ j < modelFp32Actions,
    Fp32Finite (fp32Values fp32Unit smartIoFp32Model smartIoFp32Scaler input j) :=
  fun _ hj => (fp32Values_near h hj).finite

theorem bestOf_fp32Action (h : InputWithin input) :
    BestOf (fp32Values fp32Unit smartIoFp32Model smartIoFp32Scaler input) modelFp32Actions
      (fp32Action fp32Unit smartIoFp32Model smartIoFp32Scaler input) :=
  bestOf_bestAction (fp32Values_finite h) (by decide)

theorem nearOptimal_fp32Action (h : InputWithin input) :
    NearOptimal (exactValues input) modelFp32Actions
      (fp32Action fp32Unit smartIoFp32Model smartIoFp32Scaler input) := by
  have hbest := bestOf_fp32Action h
  have hclose : ∀ j < modelFp32Actions, exactValues input j
      ≤ exactValues input (fp32Action fp32Unit smartIoFp32Model smartIoFp32Scaler input)
        + 1 / 32 := by
    intro j hj
    have hj' := abs_le.mp (fp32Values_near h hj).error
    have hbest' := abs_le.mp (fp32Values_near h hbest.lt).error
    have hle := hbest.le j hj
    linarith [hj'.1, hbest'.2]
  refine ⟨hclose, fun j hj hclear => ?_⟩
  by_contra hne
  exact absurd (hclose j hj) (not_le.mpr (hclear _ hbest.lt hne))

/-- **The action is as good as the exact one, but for a thirty-second.** For any
inputs of at most `2 ^ 24`, the values are finite and off by a sixty-fourth at most, the
action is the first one of the largest values, and its exact value is within a
thirty-second of the largest; where one exact value stands out by more than that, its
action is the one that is taken. -/
theorem fp32Action_near_optimal (h : InputWithin input) :
    (∀ j < modelFp32Actions,
        Fp32Near (fp32Values fp32Unit smartIoFp32Model smartIoFp32Scaler input j)
          (exactValues input j) (1 / 64) 2987)
      ∧ BestOf (fp32Values fp32Unit smartIoFp32Model smartIoFp32Scaler input) modelFp32Actions
        (fp32Action fp32Unit smartIoFp32Model smartIoFp32Scaler input)
      ∧ NearOptimal (exactValues input) modelFp32Actions
        (fp32Action fp32Unit smartIoFp32Model smartIoFp32Scaler input) :=
  ⟨fun _ hj => fp32Values_near h hj, bestOf_fp32Action h, nearOptimal_fp32Action h⟩

end Action

/-- On the inputs `1`, `1 / 2`, `1 / 4` and so on. -/
theorem fp32Action_near_optimal_halves :
    let input : ℕ → U32 := fun i => Fin.ofNat (2 ^ 32) (0x3f800000 - 2 ^ 23 * i)
    (∀ j < modelFp32Actions,
        Fp32Near (fp32Values fp32Unit smartIoFp32Model smartIoFp32Scaler input j)
          (exactValues input j) (1 / 64) 2987)
      ∧ NearOptimal (exactValues input) modelFp32Actions
        (fp32Action fp32Unit smartIoFp32Model smartIoFp32Scaler input) := by
  intro input
  have hscaled : ∀ i < 11, Fp32Finite (input i) ∧ fp32Scaled (input i) ≤ 2 ^ 24 * 2 ^ 149 := by
    decide +kernel
  have hwithin : InputWithin input := by
    intro i hi
    refine ⟨(hscaled i hi).1, ?_⟩
    rw [abs_fp32Real, mul_one_div, div_le_iff₀ (by norm_num)]
    exact_mod_cast (hscaled i hi).2
  obtain ⟨hnear, -, hoptimal⟩ := fp32Action_near_optimal hwithin
  exact ⟨hnear, hoptimal⟩
