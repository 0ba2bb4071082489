import SmartIo.FloatArith
import SmartIo.KernelInt

/-!
# The model: three layers of a network

`smart_io_fp32_infer` computes the values of twelve joint actions from eleven
inputs. The inputs are normalized and clipped; two layers of thirty-two sums each
are cut off at zero; a third layer gives the twelve values, and the first of the
largest ones is the action.

The network is written here over a floating-point unit, so it has two readings: on
the bit patterns it is what the module runs, and on the rational numbers it is
what was trained. Sums are accumulated in the order of the assembly, one fused
multiplication and addition for each term, from the bias on.

An array is a function of its index, of which only the declared length is read.
The layout of the two parameter structures in memory is their fields one after the
other, as C lays out arrays of one type.
-/

/-- `SMART_IO_MODEL_FP32_INPUTS`. -/
def modelFp32Inputs : ℕ := 11

/-- `SMART_IO_MODEL_FP32_HIDDEN`. -/
def modelFp32Hidden : ℕ := 32

/-- `SMART_IO_MODEL_FP32_ACTIONS`. -/
def modelFp32Actions : ℕ := 12

/-- `struct smart_io_model_fp32_scaler_bits`. -/
structure ModelFp32ScalerBits (α : Type) where
  /-- `mean[SMART_IO_MODEL_FP32_INPUTS]`. -/
  mean : ℕ → α
  /-- `std[SMART_IO_MODEL_FP32_INPUTS]`. -/
  std : ℕ → α
  /-- `clip`. -/
  clip : α

/-- `struct smart_io_model_fp32_bits`. -/
structure ModelFp32Bits (α : Type) where
  /-- `weight1[SMART_IO_MODEL_FP32_HIDDEN][SMART_IO_MODEL_FP32_INPUTS]`. -/
  weight1 : ℕ → ℕ → α
  /-- `bias1[SMART_IO_MODEL_FP32_HIDDEN]`. -/
  bias1 : ℕ → α
  /-- `weight2[SMART_IO_MODEL_FP32_HIDDEN][SMART_IO_MODEL_FP32_HIDDEN]`. -/
  weight2 : ℕ → ℕ → α
  /-- `bias2[SMART_IO_MODEL_FP32_HIDDEN]`. -/
  bias2 : ℕ → α
  /-- `joint_weight[SMART_IO_MODEL_FP32_ACTIONS][SMART_IO_MODEL_FP32_HIDDEN]`. -/
  jointWeight : ℕ → ℕ → α
  /-- `joint_bias[SMART_IO_MODEL_FP32_ACTIONS]`. -/
  jointBias : ℕ → α

/-! ## The layout -/

section Layout

variable {α : Type}

/-- An array with two indices, row by row. -/
def matrixWords (rows cols : ℕ) (f : ℕ → ℕ → α) : List α :=
  (List.range (rows * cols)).map (fun i => f (i / cols) (i % cols))

/-- An array. -/
def vectorWords (n : ℕ) (f : ℕ → α) : List α := (List.range n).map f

/-- The words of `struct smart_io_model_fp32_scaler_bits`. -/
def ModelFp32ScalerBits.words (c : ModelFp32ScalerBits α) : List α :=
  vectorWords modelFp32Inputs c.mean ++ vectorWords modelFp32Inputs c.std ++ [c.clip]

/-- The words of `struct smart_io_model_fp32_bits`. -/
def ModelFp32Bits.words (m : ModelFp32Bits α) : List α :=
  matrixWords modelFp32Hidden modelFp32Inputs m.weight1
    ++ vectorWords modelFp32Hidden m.bias1
    ++ matrixWords modelFp32Hidden modelFp32Hidden m.weight2
    ++ vectorWords modelFp32Hidden m.bias2
    ++ matrixWords modelFp32Actions modelFp32Hidden m.jointWeight
    ++ vectorWords modelFp32Actions m.jointBias

@[simp]
theorem length_matrixWords (rows cols : ℕ) (f : ℕ → ℕ → α) :
    (matrixWords rows cols f).length = rows * cols := by
  unfold matrixWords
  rw [List.length_map, List.length_range]

@[simp]
theorem length_vectorWords (n : ℕ) (f : ℕ → α) : (vectorWords n f).length = n := by
  unfold vectorWords
  rw [List.length_map, List.length_range]

theorem getElem?_vectorWords {n i : ℕ} (f : ℕ → α) (hi : i < n) :
    (vectorWords n f)[i]? = some (f i) := by
  unfold vectorWords
  rw [List.getElem?_map, List.getElem?_range hi]
  rfl

theorem getElem?_matrixWords {rows cols j k : ℕ} (f : ℕ → ℕ → α) (hj : j < rows)
    (hk : k < cols) : (matrixWords rows cols f)[j * cols + k]? = some (f j k) := by
  have hlt : j * cols + k < rows * cols := by
    calc j * cols + k < j * cols + cols := Nat.add_lt_add_left hk _
      _ = (j + 1) * cols := (Nat.succ_mul j cols).symm
      _ ≤ rows * cols := Nat.mul_le_mul_right cols hj
  unfold matrixWords
  rw [List.getElem?_map, List.getElem?_range hlt, Option.map_some, Nat.add_comm,
    Nat.add_mul_div_right _ _ (Nat.zero_lt_of_lt hk), Nat.div_eq_of_lt hk, Nat.zero_add,
    Nat.add_mul_mod_self_right, Nat.mod_eq_of_lt hk]

/-- `static_assert(sizeof(struct smart_io_model_fp32_scaler_bits) == 92)`. -/
theorem length_scalerWords (c : ModelFp32ScalerBits α) : 4 * c.words.length = 92 := by
  unfold ModelFp32ScalerBits.words
  rw [List.length_append, List.length_append, length_vectorWords, length_vectorWords]
  rfl

/-- `static_assert(sizeof(struct smart_io_model_fp32_bits) == 7344)`. -/
theorem length_modelWords (m : ModelFp32Bits α) : 4 * m.words.length = 7344 := by
  unfold ModelFp32Bits.words
  simp only [List.length_append, length_vectorWords, length_matrixWords]
  rfl

theorem getElem?_append_of_some {l : List α} (l' : List α) {i : ℕ} {a : α}
    (h : l[i]? = some a) : (l ++ l')[i]? = some a := by
  rw [List.getElem?_append_left (List.getElem?_eq_some_iff.mp h).1, h]

theorem getElem?_append_add {l : List α} (l' : List α) {n : ℕ} (i : ℕ) (h : l.length = n) :
    (l ++ l')[n + i]? = l'[i]? := by
  subst h
  rw [List.getElem?_append_right (Nat.le_add_right _ _), Nat.add_sub_cancel_left]

/-- **Where the fields of the scaler are.** -/
structure ModelFp32ScalerBits.Placed (c : ModelFp32ScalerBits α) (words : List α) : Prop where
  mean : ∀ i < 11, words[i]? = some (c.mean i)
  std : ∀ i < 11, words[11 + i]? = some (c.std i)
  clip : words[22]? = some c.clip

theorem ModelFp32ScalerBits.placed (c : ModelFp32ScalerBits α) : c.Placed c.words where
  mean i hi := by
    unfold words
    exact getElem?_append_of_some _ (getElem?_append_of_some _ (getElem?_vectorWords _ hi))
  std i hi := by
    unfold words modelFp32Inputs
    refine getElem?_append_of_some _ ?_
    rw [getElem?_append_add _ i (length_vectorWords 11 _)]
    exact getElem?_vectorWords _ hi
  clip := rfl

/-- **Where the fields of the model are.** -/
structure ModelFp32Bits.Placed (m : ModelFp32Bits α) (words : List α) : Prop where
  weight1 : ∀ j < 32, ∀ k < 11, words[j * 11 + k]? = some (m.weight1 j k)
  bias1 : ∀ j < 32, words[352 + j]? = some (m.bias1 j)
  weight2 : ∀ j < 32, ∀ k < 32, words[384 + (j * 32 + k)]? = some (m.weight2 j k)
  bias2 : ∀ j < 32, words[1408 + j]? = some (m.bias2 j)
  jointWeight : ∀ j < 12, ∀ k < 32, words[1440 + (j * 32 + k)]? = some (m.jointWeight j k)
  jointBias : ∀ j < 12, words[1824 + j]? = some (m.jointBias j)

theorem ModelFp32Bits.placed (m : ModelFp32Bits α) : m.Placed m.words := by
  have h1 := length_matrixWords 32 11 m.weight1
  have h2 := length_matrixWords 32 32 m.weight2
  have h3 := length_matrixWords 12 32 m.jointWeight
  have b1 := length_vectorWords 32 m.bias1
  have b2 := length_vectorWords 32 m.bias2
  unfold words modelFp32Hidden modelFp32Inputs modelFp32Actions
  constructor
  · intro j hj k hk
    iterate 5 refine getElem?_append_of_some _ ?_
    exact getElem?_matrixWords _ hj hk
  · intro j hj
    iterate 4 refine getElem?_append_of_some _ ?_
    rw [getElem?_append_add _ j h1]
    exact getElem?_vectorWords _ hj
  · intro j hj k hk
    iterate 3 refine getElem?_append_of_some _ ?_
    rw [getElem?_append_add _ _ (by rw [List.length_append, h1, b1])]
    exact getElem?_matrixWords _ hj hk
  · intro j hj
    iterate 2 refine getElem?_append_of_some _ ?_
    rw [getElem?_append_add _ j (by simp only [List.length_append, h1, b1, h2])]
    exact getElem?_vectorWords _ hj
  · intro j hj k hk
    refine getElem?_append_of_some _ ?_
    rw [getElem?_append_add _ _ (by simp only [List.length_append, h1, b1, h2, b2])]
    exact getElem?_matrixWords _ hj hk
  · intro j hj
    rw [getElem?_append_add _ j (by simp only [List.length_append, h1, b1, h2, b2, h3])]
    exact getElem?_vectorWords _ hj

end Layout

/-! ## The network -/

section Network

variable {α : Type} (u : FpUnit α)

/-- An input, normalized and clipped. -/
def normalizeInput (c : ModelFp32ScalerBits α) (input : ℕ → α) (i : ℕ) : α :=
  u.minNum (u.maxNum (u.div (u.sub (input i) (c.mean i)) (c.std i)) (u.neg c.clip)) c.clip

/-- A sum, from a bias on, of the products of some values with their weights. -/
def accumulate (bias : α) (x weight : ℕ → α) : ℕ → α
  | 0 => bias
  | k + 1 => u.mulAdd (accumulate bias x weight k) (x k) (weight k)

/-- A sum cut off at zero. -/
def relu (a : α) : α := u.maxNum a u.zero

/-- The first shared layer. -/
def layer1 (m : ModelFp32Bits α) (x : ℕ → α) (j : ℕ) : α :=
  relu u (accumulate u (m.bias1 j) x (m.weight1 j) modelFp32Inputs)

/-- The second shared layer. -/
def layer2 (m : ModelFp32Bits α) (h : ℕ → α) (j : ℕ) : α :=
  relu u (accumulate u (m.bias2 j) h (m.weight2 j) modelFp32Hidden)

/-- The values of the joint actions. -/
def jointHead (m : ModelFp32Bits α) (h : ℕ → α) (j : ℕ) : α :=
  accumulate u (m.jointBias j) h (m.jointWeight j) modelFp32Hidden

/-- The action, after the values of some actions are compared: a later one is
taken when it is greater. -/
def bestAction (q : ℕ → α) : ℕ → ℕ
  | 0 => 0
  | j + 1 =>
    if j ≠ 0 ∧ u.compare (q j) (q (bestAction q j)) = some .gt then j else bestAction q j

/-- The values `q_bits` that `smart_io_fp32_infer` computes. -/
def fp32Values (m : ModelFp32Bits α) (c : ModelFp32ScalerBits α) (input : ℕ → α) : ℕ → α :=
  jointHead u m (layer2 u m (layer1 u m (normalizeInput u c input)))

/-- The `action_id` of `smart_io_fp32_infer`. -/
def fp32Action (m : ModelFp32Bits α) (c : ModelFp32ScalerBits α) (input : ℕ → α) : ℕ :=
  bestAction u (fp32Values u m c input) modelFp32Actions

end Network
