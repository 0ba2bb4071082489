import Mathlib.Algebra.Order.Field.Basic
import Mathlib.Algebra.Order.Field.Power
import Mathlib.Algebra.Order.Ring.Rat
import Mathlib.Algebra.Group.Nat.Even
import Mathlib.Tactic.Linarith
import Mathlib.Tactic.Ring
import Mathlib.Tactic.FieldSimp

/-!
# Rounding to the nearest, ties to even

A grid is an increasing sequence `v` of numbers; the index of a number of the
grid is its **code**. `RoundsEven v x c` says that `c` is the code of a number of
the grid nearest to `x`, and that `c` is even when another number is as near.

Nothing here is computed: the relation compares one code with all the others.
What an algorithm knows, the two neighbours between which `x` lies and which of
them is nearer, is enough (`roundsEven_of_between`).

The second half is the grid of a binary floating-point format. Codes of numbers
that are not negative are ordered as the numbers are, so the bit pattern of a
floating-point number is its code.
-/

/-! ## A grid -/

section Grid

variable {K : Type*} [Field K] [LinearOrder K]

/-- **Nearest, ties to even.** No number of the grid `v` is nearer to `x` than
number `c`, and if another one is as near, `c` is even. -/
structure RoundsEven (v : ℕ → K) (x : K) (c : ℕ) : Prop where
  /-- No number of the grid is nearer. -/
  nearest : ∀ b, |x - v c| ≤ |x - v b|
  /-- Of two that are as near, an even one. -/
  even : ∀ b, |x - v c| = |x - v b| → b ≠ c → Even c

variable {v : ℕ → K} {x y : K} {a b c : ℕ}

variable [IsStrictOrderedRing K]

/-- A number of the grid is its own rounding. -/
theorem roundsEven_self (hv : StrictMono v) (c : ℕ) : RoundsEven v (v c) c where
  nearest b := by
    rw [sub_self, abs_zero]
    exact abs_nonneg _
  even b hb hne := by
    rw [sub_self, abs_zero] at hb
    exact absurd (hv.injective (sub_eq_zero.mp (abs_eq_zero.mp hb.symm))).symm hne

/-- The lower of two numbers is the nearer one exactly up to their middle. -/
theorem abs_sub_le_abs_sub_lower {p q : K} (hpq : p < q) :
    |x - p| ≤ |x - q| ↔ x - p ≤ q - x := by
  constructor
  · intro h
    by_contra hmid
    rw [not_le] at hmid
    rw [abs_of_nonneg (show 0 ≤ x - p by linarith)] at h
    exact absurd h (not_le.mpr (abs_lt.mpr ⟨by linarith, by linarith⟩))
  · intro h
    rw [abs_of_nonpos (show x - q ≤ 0 by linarith)]
    exact abs_le.mpr ⟨by linarith, by linarith⟩

/-- The upper of two numbers is the nearer one exactly from their middle on. -/
theorem abs_sub_le_abs_sub_upper {p q : K} (hpq : p < q) :
    |x - q| ≤ |x - p| ↔ q - x ≤ x - p := by
  constructor
  · intro h
    by_contra hmid
    rw [not_le] at hmid
    rw [abs_of_nonpos (show x - q ≤ 0 by linarith)] at h
    exact absurd h (not_le.mpr (abs_lt.mpr ⟨by linarith, by linarith⟩))
  · intro h
    rw [abs_of_nonneg (show 0 ≤ x - p by linarith)]
    exact abs_le.mpr ⟨by linarith, by linarith⟩

/-- The middle of two numbers is as near to the one as to the other. -/
theorem abs_sub_eq_abs_sub {p q : K} (hpq : p < q) (hmid : x - p = q - x) :
    |x - p| = |x - q| :=
  le_antisymm ((abs_sub_le_abs_sub_lower hpq).mpr hmid.le)
    ((abs_sub_le_abs_sub_upper hpq).mpr hmid.ge)

/-- **Rounding is monotone.** -/
theorem RoundsEven.mono (hv : StrictMono v) (hb : RoundsEven v x b)
    (hc : RoundsEven v y c) (hxy : x ≤ y) : b ≤ c := by
  by_contra hlt
  rw [not_le] at hlt
  have hval : v c < v b := hv hlt
  -- `y` is not above the middle of the two numbers and `x` not below it
  have hy : y - v c ≤ v b - y := (abs_sub_le_abs_sub_lower hval).mp (hc.nearest b)
  have hx : v b - x ≤ x - v c := (abs_sub_le_abs_sub_upper hval).mp (hb.nearest c)
  have hmid : x - v c = v b - x := by linarith
  have hyx : y = x := by linarith
  -- so they are tied, and both codes are even: another code is between them
  have heven : Even b := hb.even c (abs_sub_eq_abs_sub hval hmid).symm hlt.ne
  have heven' : Even c := hc.even b (hyx ▸ abs_sub_eq_abs_sub hval hmid) hlt.ne'
  have hgap : c + 1 < b := by
    refine lt_of_le_of_ne hlt (fun heq => ?_)
    rw [← heq] at heven
    exact absurd heven (Nat.not_even_iff_odd.mpr heven'.add_one)
  have h₁ : v c < v (c + 1) := hv (Nat.lt_succ_self c)
  have h₂ : v (c + 1) < v b := hv hgap
  have hnearer : v b - x ≤ x - v (c + 1) :=
    (abs_sub_le_abs_sub_upper h₂).mp (hb.nearest (c + 1))
  linarith

/-- A number has **one** rounding. -/
theorem RoundsEven.unique (hv : StrictMono v) (hb : RoundsEven v x b)
    (hc : RoundsEven v x c) : b = c :=
  le_antisymm (hb.mono hv hc le_rfl) (hc.mono hv hb le_rfl)

/-- The lower of two neighbours. -/
theorem roundsEven_lower (hv : StrictMono v) (hle : v a ≤ x)
    (hmid : x - v a ≤ v (a + 1) - x) (htie : x - v a = v (a + 1) - x → Even a) :
    RoundsEven v x a where
  nearest b := by
    rw [abs_of_nonneg (sub_nonneg.mpr hle)]
    rcases Nat.lt_or_ge a b with h | h
    · have hb : v (a + 1) ≤ v b := hv.monotone h
      rw [abs_sub_comm]
      exact le_trans (by linarith) (le_abs_self _)
    · have hb : v b ≤ v a := hv.monotone h
      exact le_trans (by linarith) (le_abs_self _)
  even b hb hne := by
    rw [abs_of_nonneg (sub_nonneg.mpr hle)] at hb
    rcases Nat.lt_or_ge a b with h | h
    · have hb' : v (a + 1) ≤ v b := hv.monotone h
      rw [abs_of_nonpos (by linarith)] at hb
      exact htie (le_antisymm hmid (by linarith))
    · have hb' : v b < v a := hv (lt_of_le_of_ne h hne)
      rw [abs_of_nonneg (by linarith)] at hb
      exact absurd hb (by linarith)

/-- The upper of two neighbours. -/
theorem roundsEven_upper (hv : StrictMono v) (hle : x ≤ v (a + 1))
    (hmid : v (a + 1) - x ≤ x - v a) (htie : v (a + 1) - x = x - v a → Even (a + 1)) :
    RoundsEven v x (a + 1) where
  nearest b := by
    rw [abs_of_nonpos (sub_nonpos.mpr hle)]
    rcases Nat.lt_or_ge a b with h | h
    · have hb : v (a + 1) ≤ v b := hv.monotone h
      rw [abs_sub_comm]
      exact le_trans (by linarith) (le_abs_self _)
    · have hb : v b ≤ v a := hv.monotone h
      exact le_trans (by linarith) (le_abs_self _)
  even b hb hne := by
    rw [abs_of_nonpos (sub_nonpos.mpr hle)] at hb
    rcases Nat.lt_or_ge a b with h | h
    · have hb' : v (a + 1) < v b := hv (lt_of_le_of_ne h (Ne.symm hne))
      rw [abs_of_nonpos (by linarith)] at hb
      exact absurd hb (by linarith)
    · have hb' : v b ≤ v a := hv.monotone h
      rw [abs_of_nonneg (by linarith)] at hb
      exact htie (le_antisymm hmid (by linarith))

/-- **What an algorithm knows**: the neighbours of `x`, and the nearer one of
them. -/
theorem roundsEven_of_between (hv : StrictMono v) (hle : v a ≤ x) (hle' : x ≤ v (a + 1))
    (up : Prop) [Decidable up]
    (hup : up ↔ v (a + 1) - x < x - v a ∨ (x - v a = v (a + 1) - x ∧ ¬ Even a)) :
    RoundsEven v x (if up then a + 1 else a) := by
  split
  · rename_i h
    rcases hup.mp h with hlt | ⟨heq, hodd⟩
    · exact roundsEven_upper hv hle' hlt.le (fun htie => absurd htie hlt.ne)
    · refine roundsEven_upper hv hle' heq.ge (fun _ => ?_)
      exact Nat.even_add_one.mpr hodd
  · rename_i h
    have hdown := mt hup.mpr h
    rw [not_or, not_lt] at hdown
    refine roundsEven_lower hv hle hdown.1 (fun htie => ?_)
    by_contra hodd
    exact hdown.2 ⟨htie, hodd⟩

end Grid

/-! ## Binary formats -/

/-- **A binary floating-point format**: the width of the fraction and of the
exponent. The sign is left out, the numbers here are not negative. -/
structure BinaryFormat where
  /-- The bits of the fraction. -/
  fracBits : ℕ
  /-- The bits of the exponent. -/
  expBits : ℕ

namespace BinaryFormat

variable (F : BinaryFormat)

/-- What is added to an exponent when it is encoded. -/
def bias : ℤ := 2 ^ (F.expBits - 1) - 1

/-- The first bit pattern that stands for no number: all bits of the exponent
set, no bit of the fraction. -/
def infinity : ℕ := (2 ^ F.expBits - 1) * 2 ^ F.fracBits

/-- The distance of a number to the next: numbers whose exponent field is zero
share the spacing of those whose exponent field is one. -/
def spacing (bits : ℕ) : ℚ :=
  2 ^ ((max (bits / 2 ^ F.fracBits) 1 : ℕ) - F.bias - F.fracBits)

/-- The number that a bit pattern stands for: the fraction, with the leading one
that an exponent field other than zero implies, times the spacing. The pattern
of infinity and those above it continue the grid, as if the exponent had no
bound. -/
def value (bits : ℕ) : ℚ :=
  (if bits / 2 ^ F.fracBits = 0 then (bits % 2 ^ F.fracBits : ℕ)
    else (2 ^ F.fracBits + bits % 2 ^ F.fracBits : ℕ)) * F.spacing bits

/-- **Correct rounding** to a bit pattern of a number: the nearest one with ties
to even, the exponent taken without a bound, and no overflow. -/
structure Rounds (x : ℚ) (bits : ℕ) : Prop where
  /-- The nearest number, or the even one of two. -/
  nearest : RoundsEven F.value x bits
  /-- It is not infinity. -/
  finite : bits < F.infinity

theorem spacing_pos (bits : ℕ) : 0 < F.spacing bits := by
  unfold spacing
  positivity

/-- The fields of a bit pattern. -/
theorem fields {e m : ℕ} (hm : m < 2 ^ F.fracBits) :
    (e * 2 ^ F.fracBits + m) / 2 ^ F.fracBits = e
      ∧ (e * 2 ^ F.fracBits + m) % 2 ^ F.fracBits = m := by
  rw [Nat.add_comm]
  constructor
  · rw [Nat.add_mul_div_right _ _ (by positivity), Nat.div_eq_of_lt hm, Nat.zero_add]
  · rw [Nat.add_mul_mod_self_right, Nat.mod_eq_of_lt hm]

/-- The spacing at a bit pattern given by its fields. -/
theorem spacing_fields {e m : ℕ} (hm : m < 2 ^ F.fracBits) :
    F.spacing (e * 2 ^ F.fracBits + m) = 2 ^ ((max e 1 : ℕ) - F.bias - F.fracBits) := by
  unfold spacing
  rw [(F.fields hm).1]

/-- The number of a bit pattern with an exponent field of zero. -/
theorem value_subnormal {m : ℕ} (hm : m < 2 ^ F.fracBits) :
    F.value m = m * 2 ^ (1 - F.bias - F.fracBits) := by
  unfold value spacing
  rw [Nat.div_eq_of_lt hm, if_pos rfl, Nat.mod_eq_of_lt hm]
  rfl

/-- The number of a bit pattern with another exponent field. -/
theorem value_normal {e m : ℕ} (hm : m < 2 ^ F.fracBits) :
    F.value ((e + 1) * 2 ^ F.fracBits + m)
      = (2 ^ F.fracBits + m : ℕ) * 2 ^ ((e + 1 : ℕ) - F.bias - F.fracBits) := by
  unfold value
  rw [F.spacing_fields hm, (F.fields hm).1, (F.fields hm).2, if_neg (Nat.succ_ne_zero e),
    max_eq_left (Nat.succ_le_succ (Nat.zero_le e))]

/-- The next number is one spacing further. -/
theorem value_succ (bits : ℕ) : F.value (bits + 1) = F.value bits + F.spacing bits := by
  have hpos : 0 < 2 ^ F.fracBits := by positivity
  obtain ⟨e, m, hm, rfl⟩ : ∃ e m, m < 2 ^ F.fracBits ∧ bits = e * 2 ^ F.fracBits + m :=
    ⟨bits / 2 ^ F.fracBits, bits % 2 ^ F.fracBits, Nat.mod_lt _ hpos,
      (Nat.div_add_mod' bits _).symm⟩
  rw [F.spacing_fields hm]
  rcases Nat.lt_or_ge (m + 1) (2 ^ F.fracBits) with hlt | hge
  · cases e with
    | zero =>
      rw [Nat.zero_mul, Nat.zero_add, F.value_subnormal hm, F.value_subnormal hlt,
        show ((max 0 1 : ℕ) : ℤ) = 1 from rfl]
      push_cast
      ring
    | succ e =>
      rw [Nat.add_assoc, F.value_normal hm, F.value_normal hlt,
        max_eq_left (Nat.succ_le_succ (Nat.zero_le e))]
      push_cast
      ring
  · -- the fraction is full: the next number is the first one of the next exponent
    have hm' : m + 1 = 2 ^ F.fracBits := le_antisymm hm hge
    have hcarry : e * 2 ^ F.fracBits + m + 1 = (e + 1) * 2 ^ F.fracBits + 0 := by
      rw [Nat.add_assoc, hm', Nat.succ_mul]
      rfl
    rw [hcarry, F.value_normal hpos]
    cases e with
    | zero =>
      rw [Nat.zero_mul, Nat.zero_add m, F.value_subnormal hm, Nat.add_zero, ← hm',
        show ((max 0 1 : ℕ) : ℤ) = 1 from rfl, show ((0 + 1 : ℕ) : ℤ) = 1 from rfl]
      push_cast
      ring
    | succ e =>
      rw [F.value_normal hm, max_eq_left (Nat.succ_le_succ (Nat.zero_le e)), Nat.add_zero]
      have hstep : ((e + 1 + 1 : ℕ) : ℤ) - F.bias - F.fracBits
          = ((e + 1 : ℕ) - F.bias - F.fracBits) + 1 := by
        push_cast
        ring
      rw [hstep, zpow_add_one₀ (by norm_num), ← hm']
      push_cast
      ring

/-- **The order of the bit patterns is the order of the numbers.** -/
theorem value_strictMono : StrictMono F.value :=
  strictMono_nat_of_lt_succ fun bits => by
    rw [F.value_succ]
    exact lt_add_of_pos_right _ (F.spacing_pos bits)

/-- Correct rounding is monotone. -/
theorem Rounds.mono {F : BinaryFormat} {x y : ℚ} {b c : ℕ} (hb : F.Rounds x b)
    (hc : F.Rounds y c) (hxy : x ≤ y) : b ≤ c :=
  hb.nearest.mono F.value_strictMono hc.nearest hxy

/-- A number of the format is its own rounding. -/
theorem rounds_value {bits : ℕ} (hfin : bits < F.infinity) : F.Rounds (F.value bits) bits where
  nearest := roundsEven_self F.value_strictMono bits
  finite := hfin

end BinaryFormat

/-- The binary32 format. -/
def binary32 : BinaryFormat where
  fracBits := 23
  expBits := 8
