import Mathlib.Algebra.Order.Floor.Ring
import Mathlib.Data.Int.Log
import Mathlib.Data.Rat.Floor
import SmartIo.NearestEven

/-!
# Computing the nearest number of a binary format

`RoundsEven` says which code is the rounding of a number; here it is computed. The
power of two below the number fixes the exponent field, the exponent field fixes
the spacing of the grid there, and the number is then a number of spacings with a
fraction, which is rounded as integers are: to the nearest, and a half to the even
one. The code is the exponent field and the number of spacings, **added** – when
rounding up fills the fraction, the carry moves into the exponent, and what the
sum stands for is still right.

The exponent is not bounded here: a number that is too large gets the code it
would have if the format went on, and the arithmetic over it makes an infinity of
that.

What a computation over such numbers needs is at the end: the rounding is off by
half a spacing at most, which below a power of two is a fixed amount, and anywhere
a fixed share of the number.
-/

namespace BinaryFormat

variable (F : BinaryFormat)

/-! ## The code of a number of spacings -/

/-- The exponent field under a number, less one. Numbers under the smallest normal
one share the spacing of the first exponent. -/
def expBelow (x : ℚ) : ℕ := (Int.log 2 x + F.bias - 1).toNat

/-- The spacing of the numbers whose exponent field is `e + 1`. -/
def unit (e : ℕ) : ℚ := 2 ^ ((e + 1 : ℕ) - F.bias - F.fracBits)

/-- A number that is not negative, rounded to an integer: to the nearest, and a half
to the even one. -/
def roundInt (q : ℚ) : ℕ :=
  if 1 / 2 < q - ⌊q⌋₊ ∨ (q - ⌊q⌋₊ = 1 / 2 ∧ ⌊q⌋₊ % 2 = 1) then ⌊q⌋₊ + 1 else ⌊q⌋₊

/-- **The code of the nearest number**, of two the even one. What is not positive
gets the code of zero. -/
def roundCode (x : ℚ) : ℕ :=
  if x ≤ 0 then 0
    else F.expBelow x * 2 ^ F.fracBits + roundInt (x / F.unit (F.expBelow x))

theorem unit_pos (e : ℕ) : 0 < F.unit e := by
  unfold unit
  positivity

/-- The spacings of one exponent are twice those of the exponent before. -/
theorem unit_succ (e : ℕ) : F.unit (e + 1) = 2 * F.unit e := by
  unfold unit
  rw [show ((e + 1 + 1 : ℕ) : ℤ) - F.bias - F.fracBits
      = ((e + 1 : ℕ) - F.bias - F.fracBits) + 1 by push_cast; ring,
    zpow_add_one₀ (by norm_num)]
  ring

/-- **A code is an exponent and a number of spacings, added.** The number of
spacings may be the full fraction, which is the first number of the next
exponent. -/
theorem value_add_spacings {e q : ℕ} (hle : q ≤ 2 * 2 ^ F.fracBits)
    (hnormal : e = 0 ∨ 2 ^ F.fracBits ≤ q) :
    F.value (e * 2 ^ F.fracBits + q) = q * F.unit e := by
  have hpos : 0 < 2 ^ F.fracBits := by positivity
  rcases Nat.lt_or_ge q (2 ^ F.fracBits) with hlt | hge
  · obtain rfl : e = 0 := hnormal.resolve_right (Nat.not_le.mpr hlt)
    rw [Nat.zero_mul, Nat.zero_add, F.value_subnormal hlt]
    rfl
  obtain ⟨m, rfl⟩ := Nat.exists_eq_add_of_le hge
  rcases Nat.lt_or_ge m (2 ^ F.fracBits) with hm | hm
  · rw [show e * 2 ^ F.fracBits + (2 ^ F.fracBits + m) = (e + 1) * 2 ^ F.fracBits + m by ring,
      F.value_normal hm]
    rfl
  · obtain rfl : m = 2 ^ F.fracBits := by omega
    rw [show e * 2 ^ F.fracBits + (2 ^ F.fracBits + 2 ^ F.fracBits)
        = (e + 1 + 1) * 2 ^ F.fracBits + 0 by ring, F.value_normal hpos]
    show ((2 ^ F.fracBits + 0 : ℕ) : ℚ) * F.unit (e + 1) = _
    rw [F.unit_succ]
    push_cast
    ring

/-- The number of a code, counted in the spacings of the smallest numbers. -/
def scaled (c : ℕ) : ℕ :=
  if c / 2 ^ F.fracBits = 0 then c % 2 ^ F.fracBits
    else (2 ^ F.fracBits + c % 2 ^ F.fracBits) * 2 ^ (c / 2 ^ F.fracBits - 1)

theorem value_eq_scaled (c : ℕ) : F.value c = F.scaled c * F.unit 0 := by
  unfold value scaled spacing unit
  rcases hexp : c / 2 ^ F.fracBits with _ | e
  · rw [if_pos rfl, if_pos rfl]
    rfl
  · rw [if_neg (Nat.succ_ne_zero e), if_neg (Nat.succ_ne_zero e), Nat.add_sub_cancel,
      max_eq_left (Nat.succ_le_succ (Nat.zero_le e)),
      show ((e + 1 : ℕ) : ℤ) - F.bias - F.fracBits
        = (e : ℤ) + (((0 + 1 : ℕ) : ℤ) - F.bias - F.fracBits) by push_cast; ring,
      zpow_add₀ (by norm_num), zpow_natCast]
    push_cast
    ring

/-! ## The rounding -/

/-- What is known of the exponent under a positive number: the number is below
the full fraction, and above half of it unless the exponent is the first. -/
theorem spacings_bounds {x : ℚ} (hx : 0 < x) :
    x / F.unit (F.expBelow x) < 2 * 2 ^ F.fracBits
      ∧ (F.expBelow x = 0 ∨ (2 : ℚ) ^ F.fracBits ≤ x / F.unit (F.expBelow x)) := by
  have htwo : (2 : ℚ) ≠ 0 := by norm_num
  have hlow : (2 : ℚ) ^ Int.log 2 x ≤ x := Int.zpow_log_le_self (by norm_num) hx
  have hhigh : x < (2 : ℚ) ^ (Int.log 2 x + 1) := Int.lt_zpow_succ_log_self (by norm_num) x
  have hexp : ∀ e : ℕ, 2 * (2 : ℚ) ^ F.fracBits * F.unit e = 2 ^ ((e : ℤ) + 2 - F.bias) := by
    intro e
    unfold unit
    rw [← zpow_natCast, mul_assoc, ← zpow_add₀ htwo, ← zpow_one_add₀ htwo]
    congr 1
    push_cast
    ring
  constructor
  · rw [div_lt_iff₀ (F.unit_pos _), hexp]
    refine hhigh.trans_le (zpow_le_zpow_right₀ (by norm_num) ?_)
    unfold expBelow
    omega
  · rcases Nat.eq_zero_or_pos (F.expBelow x) with h | h
    · exact Or.inl h
    · refine Or.inr ((le_div_iff₀ (F.unit_pos _)).mpr ?_)
      have hhalf : (2 : ℚ) ^ F.fracBits * F.unit (F.expBelow x)
          = 2 ^ ((F.expBelow x : ℤ) + 1 - F.bias) := by
        have h2 := hexp (F.expBelow x)
        rw [show (F.expBelow x : ℤ) + 2 - F.bias = ((F.expBelow x : ℤ) + 1 - F.bias) + 1 by ring,
          zpow_add_one₀ htwo] at h2
        linarith
      rw [hhalf]
      refine le_trans (zpow_le_zpow_right₀ (by norm_num) ?_) hlow
      unfold expBelow at h ⊢
      omega

/-- **The two numbers around a positive one**: as many spacings as fit, and one
more. -/
theorem value_floor {x : ℚ} (hx : 0 < x) {e n : ℕ} (he : e = F.expBelow x)
    (hn : n = ⌊x / F.unit e⌋₊) :
    F.value (e * 2 ^ F.fracBits + n) = n * F.unit e
      ∧ F.value (e * 2 ^ F.fracBits + n + 1) = (n + 1) * F.unit e := by
  subst he
  obtain ⟨hlt, hnormal⟩ := F.spacings_bounds hx
  have hq : 0 ≤ x / F.unit (F.expBelow x) := div_nonneg hx.le (F.unit_pos _).le
  have hle : n + 1 ≤ 2 * 2 ^ F.fracBits := by
    rw [hn, Nat.succ_le_iff, Nat.floor_lt hq]
    push_cast
    exact hlt
  have hfull : F.expBelow x = 0 ∨ 2 ^ F.fracBits ≤ n := by
    refine hnormal.imp_right (fun h => ?_)
    rw [hn, Nat.le_floor_iff hq]
    push_cast
    exact h
  refine ⟨F.value_add_spacings (Nat.le_of_succ_le hle) hfull, ?_⟩
  rw [Nat.add_assoc, F.value_add_spacings hle (hfull.imp_right (fun h => h.trans (by omega)))]
  push_cast
  rfl

/-- **The code computed is the rounding**: no number of the format is nearer, and
of two that are as near it is the even one. -/
theorem roundCode_rounds (hfrac : 0 < F.fracBits) {x : ℚ} (hx : 0 < x) :
    RoundsEven F.value x (F.roundCode x) := by
  have hunit := F.unit_pos (F.expBelow x)
  obtain ⟨hv, hv'⟩ := F.value_floor hx rfl rfl
  have hle := Nat.floor_le (div_nonneg hx.le hunit.le)
  have hnext := Nat.lt_floor_add_one (x / F.unit (F.expBelow x))
  unfold roundCode roundInt
  rw [if_neg (not_le.mpr hx)]
  generalize F.expBelow x = e at *
  -- from here on the number is counted in spacings
  obtain ⟨q, rfl⟩ : ∃ q, x = q * F.unit e := ⟨_, (div_mul_cancel₀ x hunit.ne').symm⟩
  rw [mul_div_cancel_right₀ q hunit.ne'] at *
  generalize ⌊q⌋₊ = n at *
  rw [show e * 2 ^ F.fracBits + (if 1 / 2 < q - n ∨ (q - n = 1 / 2 ∧ n % 2 = 1) then n + 1 else n)
      = if 1 / 2 < q - n ∨ (q - n = 1 / 2 ∧ n % 2 = 1) then e * 2 ^ F.fracBits + n + 1
        else e * 2 ^ F.fracBits + n by split <;> rfl]
  have hodd : n % 2 = 1 ↔ ¬ Even (e * 2 ^ F.fracBits + n) := by
    have heven : Even (e * 2 ^ F.fracBits) :=
      (Nat.even_pow.mpr ⟨even_two, hfrac.ne'⟩).mul_left e
    rw [Nat.even_add, iff_true_left heven, Nat.not_even_iff]
  refine roundsEven_of_between F.value_strictMono ?_ ?_ _ ?_
  · rw [hv]
    exact mul_le_mul_of_nonneg_right hle hunit.le
  · rw [hv']
    exact mul_le_mul_of_nonneg_right hnext.le hunit.le
  · rw [hv, hv', ← hodd, ← sub_mul, ← sub_mul, mul_lt_mul_iff_left₀ hunit,
      mul_left_inj' hunit.ne']
    have hup : (n : ℚ) + 1 - q < q - n ↔ 1 / 2 < q - n := by
      constructor <;> intro h <;> linarith
    have htie : q - n = (n : ℚ) + 1 - q ↔ q - n = 1 / 2 := by
      constructor <;> intro h <;> linarith
    rw [hup, htie]

/-- Rounding is monotone, also where what is rounded is not positive. -/
theorem roundCode_mono (hfrac : 0 < F.fracBits) {x y : ℚ} (hxy : x ≤ y) :
    F.roundCode x ≤ F.roundCode y := by
  rcases le_or_gt x 0 with hx | hx
  · unfold roundCode
    rw [if_pos hx]
    exact Nat.zero_le _
  · exact (F.roundCode_rounds hfrac hx).mono F.value_strictMono
      (F.roundCode_rounds hfrac (hx.trans_le hxy)) hxy

theorem value_zero : F.value 0 = 0 := by
  rw [F.value_subnormal (by positivity)]
  simp

theorem value_nonneg (c : ℕ) : 0 ≤ F.value c :=
  F.value_zero ▸ F.value_strictMono.monotone (Nat.zero_le c)

/-- A number of the format is its own rounding. -/
theorem roundCode_value (hfrac : 0 < F.fracBits) (c : ℕ) : F.roundCode (F.value c) = c := by
  rcases Nat.eq_zero_or_pos c with rfl | hc
  · unfold roundCode
    rw [if_pos F.value_zero.le]
  · have hpos : 0 < F.value c := F.value_zero ▸ F.value_strictMono hc
    exact (F.roundCode_rounds hfrac hpos).unique F.value_strictMono
      (roundsEven_self F.value_strictMono c)

/-! ## The error -/

/-- **The rounding is off by half a spacing at most.** -/
theorem roundCode_error (hfrac : 0 < F.fracBits) {x : ℚ} (hx : 0 < x) :
    |F.value (F.roundCode x) - x| ≤ F.unit (F.expBelow x) / 2 := by
  have hunit := F.unit_pos (F.expBelow x)
  obtain ⟨hv, hv'⟩ := F.value_floor hx rfl rfl
  have hle := (le_div_iff₀ hunit).mp (Nat.floor_le (div_nonneg hx.le hunit.le))
  have hnext := (div_lt_iff₀ hunit).mp (Nat.lt_floor_add_one (x / F.unit (F.expBelow x)))
  have hnear := (F.roundCode_rounds hfrac hx).nearest
  have hlow := hnear (F.expBelow x * 2 ^ F.fracBits + ⌊x / F.unit (F.expBelow x)⌋₊)
  have hhigh := hnear (F.expBelow x * 2 ^ F.fracBits + ⌊x / F.unit (F.expBelow x)⌋₊ + 1)
  rw [hv, abs_of_nonneg (sub_nonneg.mpr hle)] at hlow
  rw [hv', abs_of_nonpos (sub_nonpos.mpr hnext.le)] at hhigh
  rw [abs_sub_comm]
  -- one of the two numbers around is within half a spacing
  rcases le_or_gt (x - ⌊x / F.unit (F.expBelow x)⌋₊ * F.unit (F.expBelow x))
      (F.unit (F.expBelow x) / 2) with h | h
  · exact hlow.trans h
  · linarith

/-- Below a power of two the error is a fixed amount. -/
theorem roundCode_error_of_lt (hfrac : 0 < F.fracBits) {x : ℚ} (hx : 0 < x) {k : ℤ}
    (hk : 2 - F.bias ≤ k) (hlt : x < 2 ^ k) :
    |F.value (F.roundCode x) - x| ≤ 2 ^ (k - 2 - F.fracBits) := by
  refine (F.roundCode_error hfrac hx).trans ?_
  have hlog : Int.log 2 x < k := by
    have := (Int.zpow_log_le_self (b := 2) (by norm_num) hx).trans_lt hlt
    exact (zpow_lt_zpow_iff_right₀ (by norm_num)).mp this
  rw [div_le_iff₀ (by norm_num), ← zpow_add_one₀ (by norm_num)]
  unfold unit
  refine zpow_le_zpow_right₀ (by norm_num) ?_
  unfold expBelow
  omega

/-- Anywhere, the error is a fixed share of the number, but for what a spacing of
the smallest numbers adds. -/
theorem roundCode_error_share (hfrac : 0 < F.fracBits) {x : ℚ} (hx : 0 < x) :
    |F.value (F.roundCode x) - x| ≤ x / (2 * 2 ^ F.fracBits) + F.unit 0 / 2 := by
  refine (F.roundCode_error hfrac hx).trans ?_
  have hpow : (0 : ℚ) < 2 ^ F.fracBits := by positivity
  rcases (F.spacings_bounds hx).2 with h | h
  · rw [h]
    exact le_add_of_nonneg_left (by positivity)
  · rw [le_div_iff₀ (F.unit_pos _)] at h
    refine le_add_of_le_of_nonneg ?_ (div_nonneg (F.unit_pos 0).le (by norm_num))
    rw [div_le_div_iff₀ (by norm_num) (by positivity)]
    linarith

end BinaryFormat
