import Mathlib.Tactic.Linarith
import SmartIo.KernelInt

/-!
# Ratios as binary32 numbers

`smart_io_model_ratio_bits` turns a ratio of two `u64` into the bits of a
binary32 number without floating point: it finds the binary exponent from the
lengths of the two numbers, shifts the numerator until the quotient has 24 bits,
and rounds.

The exponent is the floor of the binary logarithm of the ratio
(`ratioExponent_spec`); a comparison corrects the guess that the lengths give.
The conversion of two 32-bit numbers can fail for one reason only: a ratio of
`2 ^ 24` or more would have to be shifted to the right (`ratioBits_isSome`).
-/

/-- The `exponent` of `smart_io_model_ratio_bits`. A shift by a number of bits is
a product or a quotient by a power of two. -/
def ratioExponent (numerator denominator : ℕ) : ℤ :=
  let exponent : ℤ := (fls64 numerator : ℤ) - fls64 denominator
  if 0 ≤ exponent then
    if u64Max / 2 ^ exponent.toNat < denominator
        ∨ numerator < denominator * 2 ^ exponent.toNat then exponent - 1
    else exponent
  else if u64Max / 2 ^ (-exponent).toNat < numerator
      ∨ numerator * 2 ^ (-exponent).toNat < denominator then exponent - 1
  else exponent

/-- The quotient, rounded to the nearest and to an even one between two. -/
def roundedQuotient (scaled denominator : ℕ) : ℕ :=
  let quotient := scaled / denominator
  let remainder := scaled % denominator
  if denominator - remainder < remainder
      ∨ (remainder = denominator - remainder ∧ quotient % 2 = 1) then quotient + 1
  else quotient

/-- The last part of `smart_io_model_ratio_bits`: a quotient that was rounded up
to a power of two moves the exponent. -/
def packBits (quotient : ℕ) (exponent : ℤ) : Option ℕ :=
  let p := if quotient = 2 ^ 24 then (quotient / 2, exponent + 1) else (quotient, exponent)
  if p.1 < 2 ^ 23 ∨ 2 ^ 24 ≤ p.1 ∨ p.2 < -126 ∨ 127 < p.2 then none
  else some ((p.2 + 127).toNat * 2 ^ 23 + (p.1 - 2 ^ 23))

/-- `smart_io_model_ratio_bits`. -/
def ratioBits (numerator denominator : ℕ) : Option ℕ :=
  if denominator = 0 then none
  else if numerator = 0 then some 0
  else
    let exponent := ratioExponent numerator denominator
    let shift := 23 - exponent
    if shift < 0 ∨ 64 ≤ shift ∨ u64Max / 2 ^ shift.toNat < numerator then none
    else packBits (roundedQuotient (numerator * 2 ^ shift.toNat) denominator) exponent

/-! ## The exponent -/

/-- **The binary logarithm of a ratio**, rounded down, in whole numbers: the side
that a negative exponent would divide is multiplied instead. -/
structure IsRatioLog (n d : ℕ) (e : ℤ) : Prop where
  le : d * 2 ^ e.toNat ≤ n * 2 ^ (-e).toNat
  lt : n * 2 ^ (-e).toNat < 2 * (d * 2 ^ e.toNat)

/-- A logarithm that is not negative. -/
theorem isRatioLog_natCast {n d k : ℕ} (hle : d * 2 ^ k ≤ n) (hlt : n < 2 * (d * 2 ^ k)) :
    IsRatioLog n d k where
  le := by
    rw [Int.toNat_natCast, Int.toNat_neg_natCast, pow_zero, Nat.mul_one]
    exact hle
  lt := by
    rw [Int.toNat_natCast, Int.toNat_neg_natCast, pow_zero, Nat.mul_one]
    exact hlt

/-- A logarithm that is not positive. -/
theorem isRatioLog_neg {n d k : ℕ} (hle : d ≤ n * 2 ^ k) (hlt : n * 2 ^ k < 2 * d) :
    IsRatioLog n d (-k) where
  le := by
    rw [neg_neg, Int.toNat_natCast, Int.toNat_neg_natCast, pow_zero, Nat.mul_one]
    exact hle
  lt := by
    rw [neg_neg, Int.toNat_natCast, Int.toNat_neg_natCast, pow_zero, Nat.mul_one]
    exact hlt

/-- The exponent of a ratio whose numerator is at least as long as its
denominator. -/
theorem ratioExponent_of_le {n d k : ℕ} (hn : n ≠ 0) (hd : d ≠ 0) (hnmax : n ≤ u64Max)
    (hk : fls64 n = fls64 d + k) : IsRatioLog n d (ratioExponent n d) := by
  obtain ⟨hnle, hnlt⟩ := fls64_bounds hn
  obtain ⟨hdle, hdlt⟩ := fls64_bounds hd
  have he : (fls64 n : ℤ) - fls64 d = k := by omega
  unfold ratioExponent
  dsimp only
  rw [he, if_pos (Int.natCast_nonneg k), Int.toNat_natCast]
  -- the lengths differ by `k`, so the ratio is within a factor of two of `2 ^ k`
  have hup : n < 2 * (d * 2 ^ k) := by
    calc n < 2 ^ fls64 n := hnlt
      _ = 2 ^ fls64 d * 2 ^ k := by rw [hk, pow_add]
      _ ≤ 2 * d * 2 ^ k := Nat.mul_le_mul_right _ hdle
      _ = 2 * (d * 2 ^ k) := Nat.mul_assoc _ _ _
  have hdown : d * 2 ^ k < 2 * n := by
    calc d * 2 ^ k < 2 ^ fls64 d * 2 ^ k := Nat.mul_lt_mul_of_pos_right hdlt (by positivity)
      _ = 2 ^ fls64 n := by rw [hk, pow_add]
      _ ≤ 2 * n := hnle
  by_cases hlt : n < d * 2 ^ k
  · rw [if_pos (Or.inr hlt)]
    cases k with
    | zero =>
      rw [pow_zero, Nat.mul_one] at hdown hlt
      exact isRatioLog_neg (k := 1) (by omega) (by omega)
    | succ k =>
      have hk' : ((k + 1 : ℕ) : ℤ) - 1 = k := by omega
      rw [hk']
      rw [pow_succ, ← Nat.mul_assoc] at hdown hlt
      exact isRatioLog_natCast (by omega) (by omega)
  · have hfit : ¬ u64Max / 2 ^ k < d := by
      rw [not_lt]
      exact (Nat.le_div_iff_mul_le (by positivity)).mpr ((not_lt.mp hlt).trans hnmax)
    rw [if_neg (not_or.mpr ⟨hfit, hlt⟩)]
    exact isRatioLog_natCast (not_lt.mp hlt) hup

/-- The exponent of a ratio whose numerator is shorter than its denominator. -/
theorem ratioExponent_of_lt {n d k : ℕ} (hn : n ≠ 0) (hd : d ≠ 0) (hdmax : d ≤ u64Max)
    (hk : fls64 d = fls64 n + (k + 1)) : IsRatioLog n d (ratioExponent n d) := by
  obtain ⟨hnle, hnlt⟩ := fls64_bounds hn
  obtain ⟨hdle, hdlt⟩ := fls64_bounds hd
  have he : (fls64 n : ℤ) - fls64 d = -((k + 1 : ℕ) : ℤ) := by omega
  have hneg : ¬ (0 : ℤ) ≤ -((k + 1 : ℕ) : ℤ) := by omega
  unfold ratioExponent
  dsimp only
  rw [he, if_neg hneg, neg_neg, Int.toNat_natCast]
  have hlen : n * 2 ^ (k + 1) < 2 ^ fls64 d := by
    calc n * 2 ^ (k + 1) < 2 ^ fls64 n * 2 ^ (k + 1) :=
          Nat.mul_lt_mul_of_pos_right hnlt (by positivity)
      _ = 2 ^ fls64 d := by rw [hk, ← pow_add]
  have hdown : d < 2 * (n * 2 ^ (k + 1)) := by
    calc d < 2 ^ fls64 d := hdlt
      _ = 2 ^ fls64 n * 2 ^ (k + 1) := by rw [hk, pow_add]
      _ ≤ 2 * n * 2 ^ (k + 1) := Nat.mul_le_mul_right _ hnle
      _ = 2 * (n * 2 ^ (k + 1)) := Nat.mul_assoc _ _ _
  -- the shifted numerator is no longer than the denominator, so it fits
  have hfit : ¬ u64Max / 2 ^ (k + 1) < n := by
    rw [not_lt]
    refine (Nat.le_div_iff_mul_le (by positivity)).mpr (Nat.le_of_lt_succ ?_)
    exact hlen.trans_le (Nat.pow_le_pow_right (by decide) (fls64_le hdmax))
  by_cases hlt : n * 2 ^ (k + 1) < d
  · rw [if_pos (Or.inr hlt)]
    have he' : -((k + 1 : ℕ) : ℤ) - 1 = -((k + 2 : ℕ) : ℤ) := by omega
    rw [he']
    refine isRatioLog_neg ?_ ?_
    · rw [pow_succ, ← Nat.mul_assoc]
      omega
    · rw [pow_succ, ← Nat.mul_assoc]
      omega
  · rw [if_neg (not_or.mpr ⟨hfit, hlt⟩)]
    exact isRatioLog_neg (not_lt.mp hlt) (hlen.trans_le hdle)

/-- **The exponent is the binary logarithm of the ratio.** -/
theorem ratioExponent_spec {n d : ℕ} (hn : n ≠ 0) (hd : d ≠ 0) (hnmax : n ≤ u64Max)
    (hdmax : d ≤ u64Max) : IsRatioLog n d (ratioExponent n d) := by
  rcases Nat.lt_or_ge (fls64 n) (fls64 d) with hlt | hge
  · obtain ⟨k, hk⟩ := Nat.exists_eq_add_of_lt hlt
    exact ratioExponent_of_lt hn hd hdmax hk
  · obtain ⟨k, hk⟩ := Nat.exists_eq_add_of_le hge
    exact ratioExponent_of_le hn hd hnmax hk

/-! ## When a conversion succeeds -/

/-- A ratio below `2 ^ 24` is one whose exponent is 23 at most. -/
theorem IsRatioLog.le_23_iff {n d : ℕ} {e : ℤ} (h : IsRatioLog n d e) :
    e ≤ 23 ↔ n < 2 ^ 24 * d := by
  rcases Int.le_total 0 e with he | he
  · obtain ⟨k, rfl⟩ := Int.eq_ofNat_of_zero_le he
    have hle := h.le
    have hlt := h.lt
    rw [Int.toNat_natCast, Int.toNat_neg_natCast, pow_zero, Nat.mul_one] at hle hlt
    constructor
    · intro hk
      have hpow : 2 ^ k ≤ 2 ^ 23 := Nat.pow_le_pow_right (by decide) (by omega)
      calc n < 2 * (d * 2 ^ k) := hlt
        _ ≤ 2 * (d * 2 ^ 23) := Nat.mul_le_mul_left 2 (Nat.mul_le_mul_left d hpow)
        _ = 2 ^ 24 * d := by omega
    · intro hn
      by_contra hk
      have hpow : 2 ^ 24 ≤ 2 ^ k := Nat.pow_le_pow_right (by decide) (by omega)
      have hge : d * 2 ^ 24 ≤ d * 2 ^ k := Nat.mul_le_mul_left d hpow
      omega
  · refine iff_of_true (by omega) ?_
    have hlt := h.lt
    rw [Int.toNat_of_nonpos he, pow_zero, Nat.mul_one] at hlt
    have hpow : n * 1 ≤ n * 2 ^ (-e).toNat := Nat.mul_le_mul_left n Nat.one_le_two_pow
    omega

/-- The exponent of a ratio of two 32-bit numbers. -/
theorem IsRatioLog.bounds {n d : ℕ} {e : ℤ} (h : IsRatioLog n d e) (hn : n ≠ 0)
    (hd : d ≠ 0) (hnmax : n < 2 ^ 32) (hdmax : d < 2 ^ 32) : -33 ≤ e ∧ e ≤ 32 := by
  constructor
  · by_contra hlow
    have hlt := h.lt
    rw [Int.toNat_of_nonpos (show e ≤ 0 by omega), pow_zero, Nat.mul_one] at hlt
    have hpow : 2 ^ 33 ≤ 2 ^ (-e).toNat := Nat.pow_le_pow_right (by decide) (by omega)
    have hge : 1 * 2 ^ 33 ≤ n * 2 ^ (-e).toNat :=
      Nat.mul_le_mul (Nat.one_le_iff_ne_zero.mpr hn) hpow
    omega
  · by_contra hhigh
    have hle := h.le
    rw [Int.toNat_of_nonpos (show -e ≤ 0 by omega), pow_zero, Nat.mul_one] at hle
    have hpow : 2 ^ 33 ≤ 2 ^ e.toNat := Nat.pow_le_pow_right (by decide) (by omega)
    have hge : 1 * 2 ^ 33 ≤ d * 2 ^ e.toNat :=
      Nat.mul_le_mul (Nat.one_le_iff_ne_zero.mpr hd) hpow
    omega

/-- **The shifted numerator** has a quotient of 24 bits. -/
theorem IsRatioLog.shifted {n d : ℕ} {e : ℤ} (h : IsRatioLog n d e) (he : e ≤ 23) :
    d * 2 ^ 23 ≤ n * 2 ^ (23 - e).toNat ∧ n * 2 ^ (23 - e).toNat < d * 2 ^ 24 := by
  rcases Int.le_total 0 e with h0 | h0
  · obtain ⟨k, rfl⟩ := Int.eq_ofNat_of_zero_le h0
    obtain ⟨j, hj⟩ := Nat.exists_eq_add_of_le (show k ≤ 23 by omega)
    have hshift : ((23 : ℤ) - (k : ℤ)).toNat = j := by omega
    have hle := h.le
    have hlt := h.lt
    rw [Int.toNat_natCast, Int.toNat_neg_natCast, pow_zero, Nat.mul_one] at hle hlt
    rw [hshift]
    constructor
    · calc d * 2 ^ 23 = d * 2 ^ k * 2 ^ j := by rw [hj, pow_add, Nat.mul_assoc]
        _ ≤ n * 2 ^ j := Nat.mul_le_mul_right _ hle
    · calc n * 2 ^ j < 2 * (d * 2 ^ k) * 2 ^ j :=
            Nat.mul_lt_mul_of_pos_right hlt (by positivity)
        _ = 2 * (d * 2 ^ 23) := by rw [Nat.mul_assoc, Nat.mul_assoc, ← pow_add, ← hj]
        _ = d * 2 ^ 24 := by omega
  · obtain ⟨k, hk⟩ := Int.eq_ofNat_of_zero_le (show 0 ≤ -e by omega)
    have hshift : (23 - e).toNat = k + 23 := by omega
    have hle := h.le
    have hlt := h.lt
    rw [Int.toNat_of_nonpos h0, pow_zero, Nat.mul_one, hk, Int.toNat_natCast] at hle hlt
    rw [hshift, pow_add, ← Nat.mul_assoc]
    omega

/-- Rounding adds one at most. -/
theorem roundedQuotient_bounds (n d : ℕ) :
    n / d ≤ roundedQuotient n d ∧ roundedQuotient n d ≤ n / d + 1 := by
  unfold roundedQuotient
  dsimp only
  split
  · exact ⟨Nat.le_succ _, le_rfl⟩
  · exact ⟨le_rfl, Nat.le_succ _⟩

/-- A quotient of 24 bits, rounded, is packed. -/
theorem packBits_isSome {q : ℕ} {e : ℤ} (hq : 2 ^ 23 ≤ q) (hq' : q ≤ 2 ^ 24)
    (he : -33 ≤ e) (he' : e ≤ 23) : (packBits q e).isSome = true := by
  unfold packBits
  dsimp only
  rw [if_neg]
  · rfl
  · split
    · rename_i h24
      subst h24
      dsimp only
      omega
    · dsimp only
      omega

/-- **A conversion succeeds** for every ratio of two 32-bit numbers that is below
`2 ^ 24`, and for no other. -/
theorem ratioBits_isSome {n d : ℕ} (hd : d ≠ 0) (hn : n ≤ 2 ^ 32 - 1)
    (hdmax : d ≤ 2 ^ 32 - 1) : (ratioBits n d).isSome = true ↔ n < 2 ^ 24 * d := by
  unfold ratioBits
  rw [if_neg hd]
  by_cases hzero : n = 0
  · rw [if_pos hzero, hzero]
    exact iff_of_true rfl (Nat.mul_pos (by decide) (Nat.pos_of_ne_zero hd))
  rw [if_neg hzero]
  have hlog := ratioExponent_spec hzero hd (hn.trans (by decide)) (hdmax.trans (by decide))
  obtain ⟨hlow, hhigh⟩ := hlog.bounds hzero hd (by omega) (by omega)
  dsimp only
  generalize ratioExponent n d = e at hlog hlow hhigh
  rw [← hlog.le_23_iff]
  by_cases he : e ≤ 23
  · obtain ⟨hle, hlt⟩ := hlog.shifted he
    have hfit : ¬ u64Max / 2 ^ (23 - e).toNat < n := by
      rw [not_lt]
      refine (Nat.le_div_iff_mul_le (by positivity)).mpr (hlt.le.trans ?_)
      calc d * 2 ^ 24 ≤ (2 ^ 32 - 1) * 2 ^ 24 := Nat.mul_le_mul_right _ hdmax
        _ ≤ u64Max := by decide
    rw [if_neg (by rw [not_or, not_or]; exact ⟨by omega, by omega, hfit⟩)]
    refine iff_of_true ?_ he
    obtain ⟨hround, hround'⟩ := roundedQuotient_bounds (n * 2 ^ (23 - e).toNat) d
    have hpos := Nat.pos_of_ne_zero hd
    have hq : 2 ^ 23 ≤ n * 2 ^ (23 - e).toNat / d :=
      (Nat.le_div_iff_mul_le hpos).mpr ((Nat.mul_comm _ _).trans_le hle)
    have hq' : n * 2 ^ (23 - e).toNat / d < 2 ^ 24 :=
      (Nat.div_lt_iff_lt_mul hpos).mpr (hlt.trans_eq (Nat.mul_comm _ _))
    exact packBits_isSome (hq.trans hround) (by omega) hlow he
  · rw [if_pos (Or.inl (by omega))]
    exact iff_of_false Bool.false_ne_true he
