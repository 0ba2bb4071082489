import Mathlib.Data.Nat.Bitwise
import Mathlib.Order.Compare
import SmartIo.FloatRounding

/-!
# Floating-point arithmetic on bit patterns

The operations of a floating-point unit, on words of a binary format: the sign, and
under it the code that `BinaryFormat.value` reads. They are total, as the
instructions are, with what the 64-bit Arm architecture says of infinities, of
zeros and of the numbers that are not numbers, when the control register holds zero:
rounding to the nearest, subnormal numbers kept, and the payload of a NaN kept.

Programs are written over a **unit** (`FpUnit`), the operations without their
meaning. The words of a format are one unit (`BinaryFormat.unitOf`), the rational
numbers another (`exactUnit`): a program that is run on both has, beside what it
computes, the number it was meant to compute.

Between the two stands `Rounded`: a word is the rounding of a number, up to the
sign of a zero. Each operation on finite words gives a rounding of the exact
result, and what is below a power of two is then finite, and off by a fixed amount
at most (`Rounded.finite`, `Rounded.error`).
-/

/-- **A floating-point unit**: the operations that a program uses. -/
structure FpUnit (α : Type) where
  /-- Zero. -/
  zero : α
  /-- The negation. -/
  neg : α → α
  /-- The difference. -/
  sub : α → α → α
  /-- The quotient. -/
  div : α → α → α
  /-- The larger one; a number is preferred to what is none. -/
  maxNum : α → α → α
  /-- The smaller one; a number is preferred to what is none. -/
  minNum : α → α → α
  /-- An addend and the product of two factors, rounded once. -/
  mulAdd : α → α → α → α
  /-- The comparison, which can fail. -/
  compare : α → α → Option Ordering

/-- **The unit that rounds nothing.** -/
def exactUnit : FpUnit ℚ where
  zero := 0
  neg x := -x
  sub x y := x - y
  div x y := x / y
  maxNum x y := max x y
  minNum x y := min x y
  mulAdd a x y := a + x * y
  compare x y := some (cmp x y)

namespace BinaryFormat

variable (F : BinaryFormat)

/-! ## Words -/

/-- The bits under the sign. -/
def magBits : ℕ := F.expBits + F.fracBits

/-- **A word**: the sign and the code. -/
abbrev Word := Fin (2 ^ (F.magBits + 1))

/-- The sign bit. -/
def sign (a : F.Word) : Bool := decide (2 ^ F.magBits ≤ a.val)

/-- The code: the word without its sign. -/
def mag (a : F.Word) : ℕ := a.val % 2 ^ F.magBits

theorem pack_lt (s : Bool) (m : ℕ) :
    s.toNat * 2 ^ F.magBits + m % 2 ^ F.magBits < 2 ^ (F.magBits + 1) := by
  have hm : m % 2 ^ F.magBits < 2 ^ F.magBits := Nat.mod_lt _ (by positivity)
  rw [pow_succ]
  cases s
  · rw [Bool.toNat_false]
    omega
  · rw [Bool.toNat_true]
    omega

/-- The word of a sign and a code. -/
def pack (s : Bool) (m : ℕ) : F.Word := ⟨_, F.pack_lt s m⟩

theorem pack_val (s : Bool) (m : ℕ) :
    (F.pack s m).val = s.toNat * 2 ^ F.magBits + m % 2 ^ F.magBits :=
  rfl

@[simp]
theorem sign_pack (s : Bool) (m : ℕ) : F.sign (F.pack s m) = s := by
  have hm : m % 2 ^ F.magBits < 2 ^ F.magBits := Nat.mod_lt _ (by positivity)
  unfold sign
  rw [pack_val]
  cases s
  · rw [Bool.toNat_false, Nat.zero_mul, Nat.zero_add]
    exact decide_eq_false (Nat.not_le.mpr hm)
  · rw [Bool.toNat_true, Nat.one_mul]
    exact decide_eq_true (Nat.le_add_right _ _)

theorem mag_pack {s : Bool} {m : ℕ} (hm : m < 2 ^ F.magBits) : F.mag (F.pack s m) = m := by
  unfold mag
  rw [pack_val, Nat.mul_add_mod', Nat.mod_mod, Nat.mod_eq_of_lt hm]

theorem infinity_lt : F.infinity < 2 ^ F.magBits := by
  unfold infinity magBits
  rw [pow_add]
  exact Nat.mul_lt_mul_of_pos_right (Nat.sub_lt (by positivity) Nat.one_pos) (by positivity)

/-- The number that a word stands for, when its code is below infinity. -/
def real (a : F.Word) : ℚ := if F.sign a then -F.value (F.mag a) else F.value (F.mag a)

theorem abs_real (a : F.Word) : |F.real a| = F.value (F.mag a) := by
  unfold real
  split
  · rw [abs_neg, abs_of_nonneg (F.value_nonneg _)]
  · exact abs_of_nonneg (F.value_nonneg _)

/-- A word that stands for a number. -/
def Finite (a : F.Word) : Prop := F.mag a < F.infinity

instance (a : F.Word) : Decidable (F.Finite a) :=
  inferInstanceAs (Decidable (F.mag a < F.infinity))

/-- Not a number. -/
def isNan (a : F.Word) : Bool := decide (F.infinity < F.mag a)

/-- One of the two infinities. -/
def isInf (a : F.Word) : Bool := decide (F.mag a = F.infinity)

/-- One of the two zeros. -/
def isZero (a : F.Word) : Bool := decide (F.mag a = 0)

/-- Not a number, with the first bit of the fraction set. -/
def isQuiet (a : F.Word) : Bool := F.isNan a && (F.mag a).testBit (F.fracBits - 1)

/-- Not a number, with the first bit of the fraction clear. -/
def isSignaling (a : F.Word) : Bool := F.isNan a && !(F.mag a).testBit (F.fracBits - 1)

/-- What an operation makes of a NaN it passes on. -/
def quieted (a : F.Word) : F.Word := F.pack (F.sign a) (F.mag a ||| 2 ^ (F.fracBits - 1))

/-- The NaN of an operation that has no result. -/
def defaultNan : F.Word := F.pack false (F.infinity + 2 ^ (F.fracBits - 1))

/-- An infinity. -/
def infOf (s : Bool) : F.Word := F.pack s F.infinity

/-- A zero. -/
def zeroOf (s : Bool) : F.Word := F.pack s 0

/-- **Rounding an exact result**: zero is positive, and what is too large is an
infinity. -/
def ofRat (x : ℚ) : F.Word :=
  if x = 0 then F.zeroOf false else F.pack (decide (x < 0)) (min (F.roundCode |x|) F.infinity)

/-- The order of the words that are numbers or infinities; the zeros are equal. -/
def key (a : F.Word) : ℤ := if F.sign a then -(F.mag a : ℤ) else F.mag a

/-! ## The operations -/

/-- The NaN that goes through an operation: the first one that signals, then the
first one. -/
def nanOf (l : List F.Word) : Option F.Word :=
  ((l.find? F.isSignaling).map F.quieted).or (l.find? F.isNan)

/-- The negation: the sign bit turned over, of a NaN too. -/
def neg (a : F.Word) : F.Word := F.pack (!F.sign a) (F.mag a)

/-- The difference. -/
def sub (a b : F.Word) : F.Word :=
  match F.nanOf [a, b] with
  | some r => r
  | none =>
    if F.isInf a && F.isInf b && F.sign a == F.sign b then F.defaultNan
    else if F.isInf a then F.infOf (F.sign a)
    else if F.isInf b then F.infOf (!F.sign b)
    else if F.isZero a && F.isZero b && F.sign a != F.sign b then F.zeroOf (F.sign a)
    else F.ofRat (F.real a - F.real b)

/-- The quotient. -/
def div (a b : F.Word) : F.Word :=
  match F.nanOf [a, b] with
  | some r => r
  | none =>
    if (F.isInf a && F.isInf b) || (F.isZero a && F.isZero b) then F.defaultNan
    else if F.isInf a || F.isZero b then F.infOf (F.sign a != F.sign b)
    else if F.isZero a || F.isInf b then F.zeroOf (F.sign a != F.sign b)
    else F.ofRat (F.real a / F.real b)

/-- The fused multiplication and addition: `a + b * c`, rounded once. -/
def mulAdd (a b c : F.Word) : F.Word :=
  let noProduct := (F.isInf b && F.isZero c) || (F.isZero b && F.isInf c)
  let negative := F.sign b != F.sign c
  let infinite := F.isInf b || F.isInf c
  if F.isQuiet a && noProduct then F.defaultNan
  else match F.nanOf [a, b, c] with
  | some r => r
  | none =>
    if noProduct || (F.isInf a && infinite && F.sign a != negative) then F.defaultNan
    else if F.isInf a then F.infOf (F.sign a)
    else if infinite then F.infOf negative
    else if F.isZero a && (F.isZero b || F.isZero c) && F.sign a == negative then
      F.zeroOf (F.sign a)
    else F.ofRat (F.real a + F.real b * F.real c)

/-- The larger one, the zeros told apart. -/
def maxOf (a b : F.Word) : F.Word :=
  match F.nanOf [a, b] with
  | some r => r
  | none =>
    let r := if F.key b < F.key a then a else b
    if F.isZero r then F.zeroOf (F.sign a && F.sign b) else r

/-- The smaller one, the zeros told apart. -/
def minOf (a b : F.Word) : F.Word :=
  match F.nanOf [a, b] with
  | some r => r
  | none =>
    let r := if F.key a < F.key b then a else b
    if F.isZero r then F.zeroOf (F.sign a || F.sign b) else r

/-- The larger one, a quiet NaN standing for `-∞` when the other is none. -/
def maxNum (a b : F.Word) : F.Word :=
  if F.isQuiet a && !F.isQuiet b then F.maxOf (F.infOf true) b
  else if !F.isQuiet a && F.isQuiet b then F.maxOf a (F.infOf true)
  else F.maxOf a b

/-- The smaller one, a quiet NaN standing for `∞` when the other is none. -/
def minNum (a b : F.Word) : F.Word :=
  if F.isQuiet a && !F.isQuiet b then F.minOf (F.infOf false) b
  else if !F.isQuiet a && F.isQuiet b then F.minOf a (F.infOf false)
  else F.minOf a b

/-- The comparison: none when one of the two is a NaN. -/
def compareWords (a b : F.Word) : Option Ordering :=
  if F.isNan a || F.isNan b then none else some (cmp (F.key a) (F.key b))

/-- **The floating-point unit of a format.** -/
def unitOf : FpUnit F.Word where
  zero := F.zeroOf false
  neg := F.neg
  sub := F.sub
  div := F.div
  maxNum := F.maxNum
  minNum := F.minNum
  mulAdd := F.mulAdd
  compare := F.compareWords

/-! ## Finite words -/

section Finite

variable {F} {a b c : F.Word} {x : ℚ}

theorem Finite.isNan (ha : F.Finite a) : F.isNan a = false :=
  decide_eq_false (Nat.not_lt.mpr (Nat.le_of_lt ha))

theorem Finite.isInf (ha : F.Finite a) : F.isInf a = false :=
  decide_eq_false (Nat.ne_of_lt ha)

theorem Finite.mag_lt (ha : F.Finite a) : F.mag a < 2 ^ F.magBits :=
  lt_trans (show F.mag a < F.infinity from ha) F.infinity_lt

theorem Finite.isQuiet (ha : F.Finite a) : F.isQuiet a = false := by
  unfold BinaryFormat.isQuiet
  rw [ha.isNan, Bool.false_and]

/-- No NaN goes through an operation on finite words. -/
theorem nanOf_finite {l : List F.Word} (hl : ∀ a ∈ l, F.Finite a) : F.nanOf l = none := by
  unfold nanOf
  have hsignaling : l.find? F.isSignaling = none :=
    List.find?_eq_none.mpr fun a ha h => by
      unfold isSignaling at h
      rw [(hl a ha).isNan, Bool.false_and] at h
      exact Bool.false_ne_true h
  have hnan : l.find? F.isNan = none :=
    List.find?_eq_none.mpr fun a ha h => Bool.false_ne_true ((hl a ha).isNan.symm.trans h)
  rw [hsignaling, hnan]
  rfl

theorem nanOf_pair (ha : F.Finite a) (hb : F.Finite b) : F.nanOf [a, b] = none :=
  nanOf_finite fun w hw => by
    rcases List.mem_pair.mp hw with rfl | rfl
    · exact ha
    · exact hb

theorem real_of_mag_eq_zero (h : F.mag a = 0) : F.real a = 0 := by
  unfold real
  rw [h, F.value_zero, neg_zero, ite_self]

theorem isZero_iff : F.isZero a = true ↔ F.real a = 0 := by
  unfold isZero
  rw [decide_eq_true_iff]
  refine ⟨real_of_mag_eq_zero, fun h => ?_⟩
  have hval : F.value (F.mag a) = F.value 0 := by
    rw [F.value_zero]
    unfold real at h
    split at h
    · exact neg_eq_zero.mp h
    · exact h
  exact F.value_strictMono.injective hval

theorem isZero_eq_false (h : F.real a ≠ 0) : F.isZero a = false :=
  Bool.eq_false_iff.mpr (mt isZero_iff.mp h)

/-- The order of the keys is the order of the numbers. -/
theorem key_lt_iff : F.key a < F.key b ↔ F.real a < F.real b := by
  have hmono : ∀ m n : ℕ, F.value m < F.value n ↔ m < n := fun m n =>
    F.value_strictMono.lt_iff_lt
  have hna := F.value_nonneg (F.mag a)
  have hnb := F.value_nonneg (F.mag b)
  have hza : F.value (F.mag a) ≤ 0 ↔ F.mag a = 0 := by
    rw [← F.value_zero, F.value_strictMono.le_iff_le, Nat.le_zero]
  have hzb : F.value (F.mag b) ≤ 0 ↔ F.mag b = 0 := by
    rw [← F.value_zero, F.value_strictMono.le_iff_le, Nat.le_zero]
  unfold key real
  cases F.sign a <;> cases F.sign b
  · rw [if_neg Bool.false_ne_true, if_neg Bool.false_ne_true, if_neg Bool.false_ne_true,
      if_neg Bool.false_ne_true, hmono, Int.ofNat_lt]
  · rw [if_neg Bool.false_ne_true, if_pos rfl, if_neg Bool.false_ne_true, if_pos rfl]
    exact iff_of_false (by omega) (by linarith)
  · rw [if_pos rfl, if_neg Bool.false_ne_true, if_pos rfl, if_neg Bool.false_ne_true]
    constructor
    · intro h
      by_contra hle
      rw [not_lt] at hle
      have h1 := hza.mp (by linarith)
      have h2 := hzb.mp (by linarith)
      omega
    · intro h
      by_contra hle
      have h1 : F.mag a = 0 := by omega
      have h2 : F.mag b = 0 := by omega
      rw [h1, h2, F.value_zero] at h
      exact absurd h (by norm_num)
  · rw [if_pos rfl, if_pos rfl, if_pos rfl, if_pos rfl, neg_lt_neg_iff, neg_lt_neg_iff, hmono,
      Int.ofNat_lt]

/-! ## Rounding -/

theorem real_pack {s : Bool} {m : ℕ} (hm : m < 2 ^ F.magBits) :
    F.real (F.pack s m) = if s then -F.value m else F.value m := by
  unfold real
  rw [F.sign_pack, F.mag_pack hm]

/-- **A word that is the rounding of a number**, up to the sign of a zero. -/
def Rounded (x : ℚ) (a : F.Word) : Prop := a = F.ofRat x ∨ (x = 0 ∧ F.mag a = 0)

/-- The code of the rounding. -/
theorem Rounded.mag (h : Rounded x a) : F.mag a = min (F.roundCode |x|) F.infinity := by
  have hzero : min (F.roundCode |(0 : ℚ)|) F.infinity = 0 := by
    unfold roundCode
    rw [abs_zero, if_pos le_rfl, Nat.zero_min]
  rcases h with rfl | ⟨rfl, hmag⟩
  · unfold ofRat zeroOf
    split
    · rename_i hx
      rw [hx, hzero, F.mag_pack (by positivity)]
    · exact F.mag_pack ((min_le_right _ _).trans_lt F.infinity_lt)
  · rw [hmag, hzero]

theorem Rounded.finite_iff (h : Rounded x a) : F.Finite a ↔ F.roundCode |x| < F.infinity := by
  unfold Finite
  rw [h.mag, min_lt_iff, or_iff_left (lt_irrefl _)]

/-- The error of a rounding is the error of its code. -/
theorem Rounded.error_eq (h : Rounded x a) (hfin : F.Finite a) :
    |F.real a - x| = abs (F.value (F.roundCode |x|) - |x|) := by
  have hcode := h.finite_iff.mp hfin
  have hmag : F.mag a = F.roundCode |x| := h.mag.trans (min_eq_left hcode.le)
  rcases h with rfl | ⟨rfl, hzero⟩
  · rcases lt_trichotomy x 0 with hx | rfl | hx
    · have hsign : F.sign (F.ofRat x) = true := by
        unfold ofRat
        rw [if_neg hx.ne, F.sign_pack, decide_eq_true hx]
      unfold real
      rw [hmag, hsign, if_pos rfl, abs_of_neg hx, ← abs_neg]
      congr 1
      ring
    · unfold real
      rw [hmag, abs_zero]
      unfold roundCode
      rw [if_pos le_rfl, F.value_zero, neg_zero, ite_self]
    · have hsign : F.sign (F.ofRat x) = false := by
        unfold ofRat
        rw [if_neg hx.ne', F.sign_pack, decide_eq_false hx.le.not_gt]
      unfold real
      rw [hmag, hsign, if_neg Bool.false_ne_true, abs_of_pos hx]
  · rw [← hmag, hzero, F.value_zero, real_of_mag_eq_zero hzero, abs_zero]

/-- A power of two is a number of the format. -/
theorem value_pow {e : ℕ} (he : e ≠ 0) : F.value (e * 2 ^ F.fracBits) = 2 ^ (e - F.bias) := by
  obtain ⟨e, rfl⟩ := Nat.exists_eq_succ_of_ne_zero he
  have hpos : (0 : ℕ) < 2 ^ F.fracBits := by positivity
  have h := F.value_normal (e := e) hpos
  rw [Nat.add_zero, Nat.add_zero] at h
  rw [Nat.succ_eq_add_one, h]
  push_cast
  rw [add_zero, ← zpow_natCast, ← zpow_add₀ (by norm_num)]
  congr 1
  ring

/-- **What is below a power of two is finite when it is rounded.** -/
theorem Rounded.finite (hfrac : 0 < F.fracBits) (h : Rounded x a) {k : ℤ}
    (hk : 2 - F.bias ≤ k) (hk' : k ≤ F.bias) (hx : |x| < 2 ^ k) : F.Finite a := by
  rw [h.finite_iff]
  obtain ⟨e, he⟩ := Int.eq_ofNat_of_zero_le (show 0 ≤ k + F.bias by omega)
  have hpow : F.value (e * 2 ^ F.fracBits) = 2 ^ k := by
    rw [value_pow (by omega), ← he]
    congr 1
    ring
  have hle : F.roundCode |x| ≤ e * 2 ^ F.fracBits := by
    rw [← F.roundCode_value hfrac (e * 2 ^ F.fracBits), hpow]
    exact F.roundCode_mono hfrac hx.le
  refine hle.trans_lt ?_
  unfold infinity
  refine Nat.mul_lt_mul_of_pos_right ?_ (by positivity)
  have hbias : F.bias = 2 ^ (F.expBits - 1) - 1 := rfl
  have hexp : 2 ^ F.expBits = 2 * 2 ^ (F.expBits - 1) := by
    rw [← pow_succ']
    congr 1
    rcases Nat.eq_zero_or_pos F.expBits with h0 | h0
    · rw [h0] at hbias
      norm_num at hbias
      omega
    · omega
  have hcast : ((2 ^ (F.expBits - 1) : ℕ) : ℤ) = 2 ^ (F.expBits - 1) := by push_cast; rfl
  omega

/-- **Below a power of two, a rounding is off by a fixed amount.** -/
theorem Rounded.error (hfrac : 0 < F.fracBits) (h : Rounded x a) {k : ℤ}
    (hk : 2 - F.bias ≤ k) (hk' : k ≤ F.bias) (hx : |x| < 2 ^ k) :
    |F.real a - x| ≤ 2 ^ (k - 2 - F.fracBits) := by
  rw [h.error_eq (h.finite hfrac hk hk' hx)]
  rcases (abs_nonneg x).eq_or_lt with h0 | h0
  · unfold roundCode
    rw [← h0, if_pos le_rfl, F.value_zero, sub_zero, abs_zero]
    positivity
  · exact F.roundCode_error_of_lt hfrac h0 hk hx

/-- **Anywhere, a rounding is off by a share of the number**, and half a spacing of
the smallest numbers. -/
theorem Rounded.error_share (hfrac : 0 < F.fracBits) (h : Rounded x a) (hfin : F.Finite a) :
    |F.real a - x| ≤ |x| / (2 * 2 ^ F.fracBits) + F.unit 0 / 2 := by
  rw [h.error_eq hfin]
  rcases (abs_nonneg x).eq_or_lt with h0 | h0
  · unfold roundCode
    rw [← h0, if_pos le_rfl, F.value_zero, sub_zero, abs_zero, zero_div, zero_add]
    exact div_nonneg (F.unit_pos 0).le (by norm_num)
  · exact F.roundCode_error_share hfrac h0

/-! ## The operations on finite words -/

theorem neg_finite (ha : F.Finite a) : F.Finite (F.neg a) := by
  unfold neg Finite
  rw [F.mag_pack ha.mag_lt]
  exact ha

theorem real_neg (ha : F.Finite a) : F.real (F.neg a) = -F.real a := by
  unfold neg
  rw [real_pack ha.mag_lt]
  unfold real
  cases F.sign a
  · rfl
  · exact (neg_neg _).symm

/-- A zero that an operation takes for its result instead of a zero that is
rounded. -/
theorem rounded_zeroOf (s : Bool) (hx : x = 0) : Rounded x (F.zeroOf s) :=
  Or.inr ⟨hx, F.mag_pack (by positivity)⟩

/-- **The difference is rounded.** -/
theorem sub_rounded (ha : F.Finite a) (hb : F.Finite b) :
    Rounded (F.real a - F.real b) (F.sub a b) := by
  unfold sub
  simp only [nanOf_pair ha hb, ha.isInf, hb.isInf, Bool.false_and, Bool.false_eq_true,
    if_false]
  split
  · rename_i h
    rw [Bool.and_eq_true, Bool.and_eq_true] at h
    refine rounded_zeroOf _ ?_
    rw [isZero_iff.mp h.1.1, isZero_iff.mp h.1.2, sub_zero]
  · exact Or.inl rfl

/-- **The quotient is rounded.** -/
theorem div_rounded (ha : F.Finite a) (hb : F.Finite b) (hne : F.real b ≠ 0) :
    Rounded (F.real a / F.real b) (F.div a b) := by
  unfold div
  simp only [nanOf_pair ha hb, ha.isInf, hb.isInf, isZero_eq_false hne, Bool.and_false,
    Bool.or_false, Bool.false_eq_true, if_false]
  split
  · rename_i h
    refine rounded_zeroOf _ ?_
    rw [isZero_iff.mp h, zero_div]
  · exact Or.inl rfl

/-- **The product is added and rounded once.** -/
theorem mulAdd_rounded (ha : F.Finite a) (hb : F.Finite b) (hc : F.Finite c) :
    Rounded (F.real a + F.real b * F.real c) (F.mulAdd a b c) := by
  have hnan : F.nanOf [a, b, c] = none := nanOf_finite fun w hw => by
    rw [List.mem_cons, List.mem_pair] at hw
    rcases hw with rfl | rfl | rfl
    · exact ha
    · exact hb
    · exact hc
  unfold mulAdd
  simp only [hnan, ha.isQuiet, ha.isInf, hb.isInf, hc.isInf, Bool.false_and, Bool.and_false,
    Bool.or_false, Bool.false_eq_true, if_false]
  split
  · rename_i h
    rw [Bool.and_eq_true, Bool.and_eq_true, Bool.or_eq_true] at h
    refine rounded_zeroOf _ ?_
    rw [isZero_iff.mp h.1.1, zero_add, mul_eq_zero]
    exact h.1.2.imp isZero_iff.mp isZero_iff.mp
  · exact Or.inl rfl

/-- A choice between two words, the zeros told apart: the number is the one chosen. -/
theorem choice_zeroOf (s : Bool) (ha : F.Finite a) :
    F.Finite (if F.isZero a then F.zeroOf s else a)
      ∧ F.real (if F.isZero a then F.zeroOf s else a) = F.real a := by
  have hmag : F.mag (F.zeroOf s) = 0 := F.mag_pack (by positivity)
  split
  · rename_i h
    refine ⟨?_, ?_⟩
    · unfold Finite at ha ⊢
      rw [hmag]
      exact Nat.zero_lt_of_lt ha
    · rw [real_of_mag_eq_zero hmag, isZero_iff.mp h]
  · exact ⟨ha, rfl⟩

theorem maxNum_finite (ha : F.Finite a) (hb : F.Finite b) :
    F.Finite (F.maxNum a b) ∧ F.real (F.maxNum a b) = max (F.real a) (F.real b) := by
  unfold maxNum maxOf
  simp only [nanOf_pair ha hb, ha.isQuiet, hb.isQuiet, Bool.false_and, Bool.and_false,
    Bool.false_eq_true, if_false]
  by_cases h : F.key b < F.key a
  · rw [if_pos h, max_eq_left (key_lt_iff.mp h).le]
    exact choice_zeroOf _ ha
  · rw [if_neg h, max_eq_right (not_lt.mp (mt key_lt_iff.mpr h))]
    exact choice_zeroOf _ hb

theorem minNum_finite (ha : F.Finite a) (hb : F.Finite b) :
    F.Finite (F.minNum a b) ∧ F.real (F.minNum a b) = min (F.real a) (F.real b) := by
  unfold minNum minOf
  simp only [nanOf_pair ha hb, ha.isQuiet, hb.isQuiet, Bool.false_and, Bool.and_false,
    Bool.false_eq_true, if_false]
  by_cases h : F.key a < F.key b
  · rw [if_pos h, min_eq_left (key_lt_iff.mp h).le]
    exact choice_zeroOf _ ha
  · rw [if_neg h, min_eq_right (not_lt.mp (mt key_lt_iff.mpr h))]
    exact choice_zeroOf _ hb

/-- The comparison of finite words is that of the numbers. -/
theorem compareWords_finite (ha : F.Finite a) (hb : F.Finite b) :
    F.compareWords a b = some (cmp (F.real a) (F.real b)) := by
  unfold compareWords
  rw [ha.isNan, hb.isNan, Bool.or_self, if_neg Bool.false_ne_true]
  refine congrArg some ?_
  rcases lt_trichotomy (F.real a) (F.real b) with h | h | h
  · rw [(cmp_eq_lt_iff _ _).mpr h, (cmp_eq_lt_iff _ _).mpr (key_lt_iff.mpr h)]
  · rw [(cmp_eq_eq_iff _ _).mpr h, cmp_eq_eq_iff]
    exact le_antisymm (not_lt.mp (mt key_lt_iff.mp h.le.not_gt))
      (not_lt.mp (mt key_lt_iff.mp h.ge.not_gt))
  · rw [(cmp_eq_gt_iff _ _).mpr h, (cmp_eq_gt_iff _ _).mpr (key_lt_iff.mpr h)]

end Finite

end BinaryFormat
