import Mathlib.Data.Nat.Size
import Mathlib.Data.ZMod.Defs

/-!
# The integers of the kernel

The limits of the C types, and the bit length that `fls64` gives. A number of
the model is a natural number; where a width matters the code compares with one
of these limits, and so does the model. Only a counter that may wrap around, where
that is part of what is said of it, is of the unsigned type itself.
-/

/-- `INT_MAX`. -/
def intMax : ℕ := 2 ^ 31 - 1

/-- A `u32`, which wraps around. -/
abbrev U32 := Fin (2 ^ 32)

/-- A `u64`, which wraps around. -/
abbrev U64 := Fin (2 ^ 64)

instance neZero_u32 : NeZero (2 ^ 32) := ⟨Nat.ne_of_gt (Nat.two_pow_pos 32)⟩

instance neZero_u64 : NeZero (2 ^ 64) := ⟨Nat.ne_of_gt (Nat.two_pow_pos 64)⟩

/-- `U32_MAX`. -/
def u32Max : ℕ := 2 ^ 32 - 1

/-- `U64_MAX`. -/
def u64Max : ℕ := 2 ^ 64 - 1

/-- `fls64`: the number of bits of a number. -/
def fls64 (n : ℕ) : ℕ := n.size

/-- The bits of a number that is not zero. -/
theorem fls64_bounds {n : ℕ} (hn : n ≠ 0) : 2 ^ fls64 n ≤ 2 * n ∧ n < 2 ^ fls64 n := by
  have hpos : 0 < fls64 n := Nat.size_pos.mpr (Nat.pos_of_ne_zero hn)
  obtain ⟨k, hk⟩ := Nat.exists_eq_succ_of_ne_zero (Nat.ne_of_gt hpos)
  have hle : 2 ^ k ≤ n := Nat.lt_size.mp (by rw [← fls64, hk]; exact Nat.lt_succ_self k)
  refine ⟨?_, Nat.lt_size_self n⟩
  rw [hk, Nat.pow_succ]
  omega

/-- A 64-bit number has 64 bits at most. -/
theorem fls64_le {n : ℕ} (hn : n ≤ u64Max) : fls64 n ≤ 64 :=
  Nat.size_le.mpr (Nat.lt_of_le_of_lt hn (by decide))
