import SmartIo.NearestEven
import SmartIo.RatioBits

/-!
# The ratio is correctly rounded

The bits that `smart_io_model_ratio_bits` writes are those of the binary32 number
nearest to the ratio, ties to even (`ratioBits_rounds`). The quotient of the
shifted numerator, packed, is the number below the ratio; the remainder says how
far the ratio is from it and from the next one, and the comparison of the
remainder with what is missing to the denominator is the comparison of the two
distances. A carry into the next binade needs no case of its own: the bit
pattern after the last one of a binade is the first one of the next.
-/

/-- The bits of a quotient of 24 bits of a numerator that was shifted by `shift`. -/
def ratioCode (quotient shift : ℕ) : ℕ := (150 - shift) * 2 ^ 23 + (quotient - 2 ^ 23)

section Code

variable {q k : ℕ}

theorem fracBits_binary32 : binary32.fracBits = 23 := rfl

theorem bias_binary32 : binary32.bias = 127 := rfl

/-- The spacing at a packed quotient is the unit of the shifted numerator. -/
theorem spacing_ratioCode (hq : q < 2 ^ 24) (hk : k < 64) :
    binary32.spacing (ratioCode q k) = (2 ^ k)⁻¹ := by
  have hm : q - 2 ^ 23 < 2 ^ binary32.fracBits := by
    rw [fracBits_binary32]
    omega
  have hexp : ((max (150 - k) 1 : ℕ) : ℤ) - binary32.bias - binary32.fracBits = -(k : ℤ) := by
    rw [bias_binary32, fracBits_binary32]
    omega
  have h := binary32.spacing_fields (e := 150 - k) hm
  rw [hexp, zpow_neg, zpow_natCast] at h
  exact h

/-- A packed quotient stands for the quotient, in that unit. -/
theorem value_ratioCode (hq : 2 ^ 23 ≤ q) (hq' : q < 2 ^ 24) (hk : k < 64) :
    binary32.value (ratioCode q k) = q * (2 ^ k)⁻¹ := by
  have hm : q - 2 ^ 23 < 2 ^ binary32.fracBits := by
    rw [fracBits_binary32]
    omega
  have he : 149 - k + 1 = 150 - k := by omega
  have hexp : ((149 - k + 1 : ℕ) : ℤ) - binary32.bias - binary32.fracBits = -(k : ℤ) := by
    rw [bias_binary32, fracBits_binary32]
    omega
  have hsig : 2 ^ binary32.fracBits + (q - 2 ^ 23) = q := by
    rw [fracBits_binary32]
    omega
  have h := binary32.value_normal (e := 149 - k) hm
  rw [hexp, hsig, zpow_neg, zpow_natCast, he] at h
  exact h

/-- The number after a packed quotient. -/
theorem value_ratioCode_succ (hq : 2 ^ 23 ≤ q) (hq' : q < 2 ^ 24) (hk : k < 64) :
    binary32.value (ratioCode q k + 1) = (q + 1) * (2 ^ k)⁻¹ := by
  rw [binary32.value_succ, value_ratioCode hq hq' hk, spacing_ratioCode hq' hk]
  ring

/-- A packed quotient is even when the quotient is. -/
theorem even_ratioCode (hq : 2 ^ 23 ≤ q) : Even (ratioCode q k) ↔ q % 2 = 0 := by
  rw [Nat.even_iff]
  unfold ratioCode
  omega

/-- A packed quotient is finite. -/
theorem ratioCode_lt (hq : q ≤ 2 ^ 24) : ratioCode q k < binary32.infinity := by
  have hinf : binary32.infinity = 255 * 2 ^ 23 := rfl
  rw [hinf]
  unfold ratioCode
  omega

/-- What `packBits` makes of a quotient that may have been rounded up. -/
theorem packBits_eq {e : ℤ} {bits : ℕ} (hq : 2 ^ 23 ≤ q) (hq' : q ≤ 2 ^ 24) (hk : k < 64)
    (he : e = 23 - k) (h : packBits q e = some bits) : bits = ratioCode q k := by
  unfold packBits at h
  unfold ratioCode
  dsimp only at h
  -- a quotient of `2 ^ 24` is a fraction of zero under the next exponent
  by_cases h24 : q = 2 ^ 24
  · rw [if_pos h24] at h
    split at h
    · exact absurd h.symm (Option.some_ne_none _)
    · rw [Option.some.injEq] at h
      dsimp only at h
      omega
  · rw [if_neg h24] at h
    split at h
    · exact absurd h.symm (Option.some_ne_none _)
    · rw [Option.some.injEq] at h
      dsimp only at h
      omega

end Code

/-! ## The two neighbours of a ratio -/

section Neighbours

variable {n d k : ℕ}

/-- The ratio, in the unit of the shifted numerator. -/
theorem ratio_eq_shifted (hd : d ≠ 0) :
    (n : ℚ) / d = ((n * 2 ^ k / d : ℕ) + (n * 2 ^ k % d : ℕ) / d) * (2 ^ k)⁻¹ := by
  have hd' : (d : ℚ) ≠ 0 := Nat.cast_ne_zero.mpr hd
  have hdiv : (d : ℚ) * (n * 2 ^ k / d : ℕ) + (n * 2 ^ k % d : ℕ) = n * 2 ^ k := by
    exact_mod_cast Nat.div_add_mod (n * 2 ^ k) d
  rw [eq_mul_inv_iff_mul_eq₀ (by positivity), div_mul_eq_mul_div, ← hdiv, add_div,
    mul_div_cancel_left₀ _ hd']

/-- **The rounded quotient is the rounded ratio.** -/
theorem rounds_roundedQuotient (hd : d ≠ 0) (hq : 2 ^ 23 ≤ n * 2 ^ k / d)
    (hq' : n * 2 ^ k / d < 2 ^ 24) (hk : k < 64) :
    RoundsEven binary32.value ((n : ℚ) / d) (ratioCode (roundedQuotient (n * 2 ^ k) d) k) := by
  have hd' : (0 : ℚ) < d := Nat.cast_pos.mpr (Nat.pos_of_ne_zero hd)
  have hunit : (0 : ℚ) < (2 ^ k)⁻¹ := by positivity
  have hr : n * 2 ^ k % d < d := Nat.mod_lt _ (Nat.pos_of_ne_zero hd)
  have hratio := ratio_eq_shifted (n := n) (k := k) hd
  -- the code of the rounded quotient is the code of the quotient or the next one
  have hcode : ratioCode (roundedQuotient (n * 2 ^ k) d) k
      = if d - n * 2 ^ k % d < n * 2 ^ k % d
            ∨ (n * 2 ^ k % d = d - n * 2 ^ k % d ∧ n * 2 ^ k / d % 2 = 1)
        then ratioCode (n * 2 ^ k / d) k + 1 else ratioCode (n * 2 ^ k / d) k := by
    unfold roundedQuotient ratioCode
    dsimp only
    split <;> omega
  rw [hcode]
  generalize n * 2 ^ k / d = q at hq hq' hratio ⊢
  generalize n * 2 ^ k % d = r at hr hratio ⊢
  have hr' : (r : ℚ) / d < 1 := (div_lt_one hd').mpr (Nat.cast_lt.mpr hr)
  have hr₀ : (0 : ℚ) ≤ (r : ℚ) / d := div_nonneg (Nat.cast_nonneg r) hd'.le
  have hbelow : (n : ℚ) / d - binary32.value (ratioCode q k) = (r : ℚ) / d * (2 ^ k)⁻¹ := by
    rw [hratio, value_ratioCode hq hq' hk]
    ring
  have habove : binary32.value (ratioCode q k + 1) - (n : ℚ) / d
      = (1 - (r : ℚ) / d) * (2 ^ k)⁻¹ := by
    rw [hratio, value_ratioCode_succ hq hq' hk]
    ring
  have hone : (1 : ℚ) - r / d = (d - r : ℕ) / d := by
    rw [Nat.cast_sub hr.le, sub_div, div_self hd'.ne']
  refine roundsEven_of_between binary32.value_strictMono ?_ ?_ _ ?_
  · rw [← sub_nonneg, hbelow]
    exact mul_nonneg hr₀ hunit.le
  · rw [← sub_nonneg, habove]
    exact mul_nonneg (by linarith) hunit.le
  · rw [hbelow, habove, hone, mul_lt_mul_iff_left₀ hunit, mul_left_inj' hunit.ne',
      div_lt_div_iff_of_pos_right hd', div_left_inj' hd'.ne', Nat.cast_lt, Nat.cast_inj,
      even_ratioCode hq]
    omega

end Neighbours

/-! ## The bits of a ratio -/

/-- **Correct rounding.** The bits that are written are those of the binary32
number nearest to the ratio, ties to even. -/
theorem ratioBits_rounds {n d bits : ℕ} (hn : n ≤ u64Max) (hdmax : d ≤ u64Max)
    (h : ratioBits n d = some bits) : binary32.Rounds ((n : ℚ) / d) bits := by
  unfold ratioBits at h
  by_cases hd : d = 0
  · rw [if_pos hd] at h
    exact absurd h.symm (Option.some_ne_none _)
  rw [if_neg hd] at h
  by_cases hzero : n = 0
  · rw [if_pos hzero, Option.some.injEq] at h
    have hval : binary32.value 0 = 0 := by
      rw [binary32.value_subnormal (by positivity), Nat.cast_zero, zero_mul]
    rw [← h, hzero, Nat.cast_zero, zero_div, ← hval]
    exact binary32.rounds_value (by decide)
  rw [if_neg hzero] at h
  have hlog := ratioExponent_spec hzero hd hn hdmax
  dsimp only at h
  generalize ratioExponent n d = e at hlog h
  by_cases hshift : 23 - e < 0 ∨ 64 ≤ 23 - e ∨ u64Max / 2 ^ (23 - e).toNat < n
  · rw [if_pos hshift] at h
    exact absurd h.symm (Option.some_ne_none _)
  rw [if_neg hshift] at h
  rw [not_or, not_or, not_lt, not_le] at hshift
  obtain ⟨hle, hlt⟩ := hlog.shifted (by omega)
  obtain ⟨k, hk⟩ := Int.eq_ofNat_of_zero_le hshift.1
  have hk64 : k < 64 := by omega
  rw [hk, Int.toNat_natCast] at h hle hlt
  -- the quotient of the shifted numerator has 24 bits
  have hpos := Nat.pos_of_ne_zero hd
  have hq : 2 ^ 23 ≤ n * 2 ^ k / d :=
    (Nat.le_div_iff_mul_le hpos).mpr ((Nat.mul_comm _ _).trans_le hle)
  have hq' : n * 2 ^ k / d < 2 ^ 24 :=
    (Nat.div_lt_iff_lt_mul hpos).mpr (hlt.trans_eq (Nat.mul_comm _ _))
  obtain ⟨hround, hround'⟩ := roundedQuotient_bounds (n * 2 ^ k) d
  have hbits := packBits_eq (hq.trans hround) (by omega) hk64 (by omega) h
  have hnear := rounds_roundedQuotient hd hq hq' hk64
  rw [← hbits] at hnear
  refine ⟨hnear, ?_⟩
  rw [hbits]
  exact ratioCode_lt (by omega)

/-- One is a number of the format. -/
theorem value_one : binary32.value 0x3f800000 = 1 := by
  have hcode : 0x3f800000 = (126 + 1) * 2 ^ binary32.fracBits + 0 := rfl
  rw [hcode, binary32.value_normal (by positivity), bias_binary32, fracBits_binary32]
  norm_num

/-- **The conversion of a ratio**: for 32-bit numbers it succeeds exactly below
`2 ^ 24`; whenever it succeeds, for 64-bit numbers as well, the bits are the
correctly rounded ones, and zero for zero. So it keeps the order of the ratios,
and a ratio of one at most stays so. -/
theorem ratioBits_spec :
    (∀ n d : ℕ, n ≤ u32Max → d ≤ u32Max → d ≠ 0 →
        ((ratioBits n d).isSome = true ↔ n < 2 ^ 24 * d))
      ∧ (∀ n d bits : ℕ, n ≤ u64Max → d ≤ u64Max → d ≠ 0 → ratioBits n d = some bits →
          binary32.Rounds ((n : ℚ) / d) bits ∧ (n = 0 → bits = 0)
            ∧ (n ≤ d → bits ≤ 0x3f800000))
      ∧ ∀ n₁ d₁ bits₁ n₂ d₂ bits₂ : ℕ, n₁ ≤ u64Max → d₁ ≤ u64Max → d₁ ≠ 0 →
          n₂ ≤ u64Max → d₂ ≤ u64Max → d₂ ≠ 0 → ratioBits n₁ d₁ = some bits₁ →
          ratioBits n₂ d₂ = some bits₂ → (n₁ : ℚ) / d₁ ≤ (n₂ : ℚ) / d₂ → bits₁ ≤ bits₂ := by
  refine ⟨fun n d hn hd hd₀ => ratioBits_isSome hd₀ hn hd, ?_, ?_⟩
  · intro n d bits hn hd hd₀ h
    have hrounds := ratioBits_rounds hn hd h
    refine ⟨hrounds, ?_, ?_⟩
    · intro hzero
      rw [hzero, ratioBits, if_neg hd₀, if_pos rfl, Option.some.injEq] at h
      exact h.symm
    · intro hle
      have hone : binary32.Rounds 1 0x3f800000 := by
        rw [← value_one]
        exact binary32.rounds_value (by decide)
      refine hrounds.mono hone ?_
      exact div_le_one_of_le₀ (Nat.cast_le.mpr hle) (Nat.cast_nonneg d)
  · intro n₁ d₁ bits₁ n₂ d₂ bits₂ hn₁ hd₁ hd₁₀ hn₂ hd₂ hd₂₀ h₁ h₂ hle
    exact (ratioBits_rounds hn₁ hd₁ h₁).mono (ratioBits_rounds hn₂ hd₂ h₂) hle

/-- A third and two thirds, both rounded. -/
theorem ratioBits_spec_thirds :
    (ratioBits 1 3).isSome = true ∧ binary32.Rounds ((1 : ℕ) / (3 : ℕ)) 0x3eaaaaab
      ∧ (0x3eaaaaab : ℕ) ≤ 0x3f2aaaab := by
  have h₁ : ratioBits 1 3 = some 0x3eaaaaab := by decide +kernel
  have h₂ : ratioBits 2 3 = some 0x3f2aaaab := by decide +kernel
  obtain ⟨hsome, hround, hmono⟩ := ratioBits_spec
  exact ⟨(hsome 1 3 (by decide) (by decide) (by decide)).mpr (by decide),
    (hround 1 3 _ (by decide) (by decide) (by decide) h₁).1,
    hmono 1 3 _ 2 3 _ (by decide) (by decide) (by decide) (by decide) (by decide) (by decide)
      h₁ h₂ (by norm_num)⟩
