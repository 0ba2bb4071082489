import SmartIo.Aarch64
import SmartIo.ModelFp32Params

/-!
# The assembly computes the network

The routine `smart_io_fp32_infer` is written in assembly. It addresses the two
parameter structures by offsets that C does not check, keeps the normalized inputs
and the two hidden layers on its stack, walks through the weights with a pointer
that is not set back between the rows, and compares the values while it computes
them.

`infer_computes_network` says that it computes the network all the same – for every
unit, so whatever the floating-point instructions do –, that it leaves alone all
memory but its stack, the action and the values, and that it gives back the stack
pointer and every register that a caller may rely on.
-/

open A64 A64.XReg A64.SReg

/-! ## The listing -/

/-- The labels of `smart_io_model_fp32_asm.S`. -/
inductive InferLabel where
  /-- `smart_io_fp32_infer`. -/
  | infer
  /-- `.Lfp32_normalize`. -/
  | normalize
  /-- `.Lfp32_l1_output`. -/
  | l1Output
  /-- `.Lfp32_l1_input`. -/
  | l1Input
  /-- `.Lfp32_l2_output`. -/
  | l2Output
  /-- `.Lfp32_l2_input`. -/
  | l2Input
  /-- `.Lfp32_joint_output`. -/
  | jointOutput
  /-- `.Lfp32_joint_input`. -/
  | jointInput
  /-- `.Lfp32_joint_compare`. -/
  | jointCompare
  /-- `.Lfp32_joint_next`. -/
  | jointNext
deriving DecidableEq, Repr

/-- What stands under each label. -/
def inferUnder : InferLabel → List (Line InferLabel)
  | .infer =>
    [.op (.subi sp sp 320),
      .op (.mov x17 x4),
      .op (.movi2s s3),
      .op (.addi x6 x1 44),
      .op (.ldr s4 x1 88),
      .op (.fneg s5 s4),
      .op (.mov x9 sp),
      .op (.movi x7 0)]
  | .normalize =>
    [.op (.ldrx s0 x2 x7),
      .op (.ldrx s1 x1 x7),
      .op (.ldrx s2 x6 x7),
      .op (.fsub s0 s0 s1),
      .op (.fdiv s0 s0 s2),
      .op (.fmaxnm s0 s0 s5),
      .op (.fminnm s0 s0 s4),
      .op (.strp s0 x9 4),
      .op (.addwi x7 x7 1),
      .op (.cmpwi x7 11),
      .blo .normalize,
      .op (.mov x5 x0),
      .op (.movi x16 1408),
      .op (.add x6 x0 x16),
      .op (.addi x9 sp 64),
      .op (.movi x7 0)]
  | .l1Output =>
    [.op (.ldrx s0 x6 x7),
      .op (.mov x10 sp),
      .op (.movi x8 0)]
  | .l1Input =>
    [.op (.ldrx s1 x10 x8),
      .op (.ldrp s2 x5 4),
      .op (.fmadd s0 s1 s2 s0),
      .op (.addwi x8 x8 1),
      .op (.cmpwi x8 11),
      .blo .l1Input,
      .op (.fmaxnm s0 s0 s3),
      .op (.strp s0 x9 4),
      .op (.addwi x7 x7 1),
      .op (.cmpwi x7 32),
      .blo .l1Output,
      .op (.movi x16 1536),
      .op (.add x5 x0 x16),
      .op (.movi x16 5632),
      .op (.add x6 x0 x16),
      .op (.addi x9 sp 192),
      .op (.movi x7 0)]
  | .l2Output =>
    [.op (.ldrx s0 x6 x7),
      .op (.addi x10 sp 64),
      .op (.movi x8 0)]
  | .l2Input =>
    [.op (.ldrp s1 x10 4),
      .op (.ldrp s2 x5 4),
      .op (.fmadd s0 s1 s2 s0),
      .op (.addwi x8 x8 1),
      .op (.cmpwi x8 32),
      .blo .l2Input,
      .op (.fmaxnm s0 s0 s3),
      .op (.strp s0 x9 4),
      .op (.addwi x7 x7 1),
      .op (.cmpwi x7 32),
      .blo .l2Output,
      .op (.movi x16 5760),
      .op (.add x5 x0 x16),
      .op (.movi x16 7296),
      .op (.add x6 x0 x16),
      .op (.movi x7 0),
      .op (.movi x12 0)]
  | .jointOutput =>
    [.op (.ldrx s0 x6 x7),
      .op (.addi x10 sp 192),
      .op (.movi x8 0)]
  | .jointInput =>
    [.op (.ldrp s1 x10 4),
      .op (.ldrp s2 x5 4),
      .op (.fmadd s0 s1 s2 s0),
      .op (.addwi x8 x8 1),
      .op (.cmpwi x8 32),
      .blo .jointInput,
      .op (.strx s0 x17 x7),
      .cbnz x7 .jointCompare,
      .op (.fmov s4 s0),
      .b .jointNext]
  | .jointCompare =>
    [.op (.fcmp s0 s4),
      .ble .jointNext,
      .op (.fmov s4 s0),
      .op (.movw x12 x7)]
  | .jointNext =>
    [.op (.addwi x7 x7 1),
      .op (.cmpwi x7 12),
      .blo .jointOutput,
      .op (.strw x12 x3),
      .op (.addi sp sp 320),
      .ret]

/-- `smart_io_fp32_infer`. -/
def inferProgram : Program InferLabel where
  labels := [.infer, .normalize, .l1Output, .l1Input, .l2Output, .l2Input, .jointOutput,
    .jointInput, .jointCompare, .jointNext]
  under := inferUnder

section Sums

variable {u : FpUnit U32} {c c' : Cpu} {Q : Cpu → Prop}

/-! ## The inner loops -/

/-- **A sum is accumulated**: what the inner loops change, and what they do not. -/
structure Summed (c c' : Cpu) (weights : ℕ) (sum : U32) : Prop where
  /-- The sum. -/
  sum : c'.s s0 = sum
  /-- The pointer to the weights. -/
  weights : c'.x x5 = weights
  /-- The memory is not written. -/
  mem : c'.mem = c.mem
  /-- The other registers. -/
  x : ∀ r, r ≠ x5 → r ≠ x8 → r ≠ x10 → c'.x r = c.x r
  /-- The other floating-point registers. -/
  s : ∀ r, r ≠ s0 → r ≠ s1 → r ≠ s2 → c'.s r = c.s r

/-- The inner loop of the second and the third layer: values and weights are read
through two pointers. -/
theorem returns_sumPost {l : InferLabel} {rest : List (Line InferLabel)}
    (hl : inferProgram.since l
      = .op (.ldrp s1 x10 4) :: .op (.ldrp s2 x5 4) :: .op (.fmadd s0 s1 s2 s0)
        :: .op (.addwi x8 x8 1) :: .op (.cmpwi x8 32) :: .blo l :: rest)
    {x w : ℕ → U32} (hx : Holds c.mem (c.x x10) 32 x) (hw : Holds c.mem (c.x x5) 32 w)
    (hx8 : c.x x8 = 0) (hx10 : c.x x10 + 128 < 2 ^ 64) (hx5 : c.x x5 + 128 < 2 ^ 64)
    (hnext : ∀ c', Summed c c' (c.x x5 + 128) (accumulate u (c.s s0) x w 32) →
      Returns u inferProgram rest c' Q) :
    Returns u inferProgram (inferProgram.since l) c Q := by
  refine Returns.loop rest (fun k c' => Summed c c' (c.x x5 + 4 * k) (accumulate u (c.s s0) x w k)
    ∧ c'.x x10 = c.x x10 + 4 * k ∧ c'.x x8 = k) (n := 32) ?_ ?_ (by decide) ?_
  · rintro k hk d ⟨hd, h10, h8⟩ hI
    have hx' : load d.mem (c.x x10 + 4 * k) = x k := hd.mem ▸ hx k hk
    have hw' : load d.mem (c.x x5 + 4 * k) = w k := hd.mem ▸ hw k hk
    rw [hl, returns_op, returns_op, returns_op, returns_op, returns_count (i := k + 1) ?_ ?_]
    · refine hI _ ⟨⟨?_, ?_, ?_, ?_, ?_⟩, ?_, ?_⟩
      · simp [Op.exec, h10, hd.weights, hd.sum, hx', hw', accumulate]
      · simp [Op.exec, hd.weights]
        omega
      · simp [Op.exec, hd.mem]
      · intro r h5 h8 h10
        simp [Op.exec, h5, h8, h10, hd.x r h5 h8 h10]
      · intro r h0 h1 h2
        simp [Op.exec, h0, h1, h2, hd.s r h0 h1 h2]
      · simp [Op.exec, h10]
        omega
      · simp [Op.exec, h8]
        omega
    · simp [Op.exec, h8]
      omega
    · omega
  · exact fun c' hc' => hnext c' hc'.1
  · exact ⟨⟨rfl, rfl, rfl, fun _ _ _ _ => rfl, fun _ _ _ _ => rfl⟩, rfl, hx8⟩

/-- The inner loop of the first layer: values are read by their index. -/
theorem returns_sumIndexed {l : InferLabel} {rest : List (Line InferLabel)}
    (hl : inferProgram.since l
      = .op (.ldrx s1 x10 x8) :: .op (.ldrp s2 x5 4) :: .op (.fmadd s0 s1 s2 s0)
        :: .op (.addwi x8 x8 1) :: .op (.cmpwi x8 11) :: .blo l :: rest)
    {x w : ℕ → U32} (hx : Holds c.mem (c.x x10) 11 x) (hw : Holds c.mem (c.x x5) 11 w)
    (hx8 : c.x x8 = 0) (hx10 : c.x x10 + 44 < 2 ^ 64) (hx5 : c.x x5 + 44 < 2 ^ 64)
    (hnext : ∀ c', Summed c c' (c.x x5 + 44) (accumulate u (c.s s0) x w 11) →
      Returns u inferProgram rest c' Q) :
    Returns u inferProgram (inferProgram.since l) c Q := by
  refine Returns.loop rest (fun k c' => Summed c c' (c.x x5 + 4 * k) (accumulate u (c.s s0) x w k)
    ∧ c'.x x10 = c.x x10 ∧ c'.x x8 = k) (n := 11) ?_ ?_ (by decide) ?_
  · rintro k hk d ⟨hd, h10, h8⟩ hI
    have hx' : load d.mem (c.x x10 + 4 * k) = x k := hd.mem ▸ hx k hk
    have hw' : load d.mem (c.x x5 + 4 * k) = w k := hd.mem ▸ hw k hk
    have hmod : (c.x x10 + 4 * k) % 2 ^ 64 = c.x x10 + 4 * k := Nat.mod_eq_of_lt (by omega)
    rw [hl, returns_op, returns_op, returns_op, returns_op, returns_count (i := k + 1) ?_ ?_]
    · refine hI _ ⟨⟨?_, ?_, ?_, ?_, ?_⟩, ?_, ?_⟩
      · simp [-Nat.reducePow, Op.exec, h10, h8, hd.weights, hd.sum, hmod, hx', hw', accumulate]
      · simp [Op.exec, hd.weights]
        omega
      · simp [Op.exec, hd.mem]
      · intro r h5 h8 h10
        simp [Op.exec, h5, h8, hd.x r h5 h8 h10]
      · intro r h0 h1 h2
        simp [Op.exec, h0, h1, h2, hd.s r h0 h1 h2]
      · simp [Op.exec, h10]
      · simp [Op.exec, h8]
        omega
    · simp [Op.exec, h8]
      omega
    · omega
  · exact fun c' hc' => hnext c' hc'.1
  · exact ⟨⟨rfl, rfl, rfl, fun _ _ _ _ => rfl, fun _ _ _ _ => rfl⟩, rfl, hx8⟩

/-! ## The rows -/

/-- **A row whose values are read through a pointer**: the bias, and the inner
loop. -/
theorem returns_rowPost {l : InferLabel} {off : ℕ} (l' : InferLabel)
    (rest : List (Line InferLabel))
    (hl : inferProgram.since l = .op (.ldrx s0 x6 x7) :: .op (.addi x10 sp off)
      :: .op (.movi x8 0) :: inferProgram.since l')
    (hl' : inferProgram.since l'
      = .op (.ldrp s1 x10 4) :: .op (.ldrp s2 x5 4) :: .op (.fmadd s0 s1 s2 s0)
        :: .op (.addwi x8 x8 1) :: .op (.cmpwi x8 32) :: .blo l' :: rest)
    {x w : ℕ → U32} {b : U32} (hx : Holds c.mem (c.x sp + off) 32 x)
    (hw : Holds c.mem (c.x x5) 32 w) (hb : load c.mem (c.x x6 + 4 * c.x x7) = b)
    (hx6 : c.x x6 + 4 * c.x x7 < 2 ^ 64) (hoff : c.x sp + off + 128 < 2 ^ 64)
    (hx5 : c.x x5 + 128 < 2 ^ 64)
    (hnext : ∀ c', Summed c c' (c.x x5 + 128) (accumulate u b x w 32) →
      Returns u inferProgram rest c' Q) :
    Returns u inferProgram (inferProgram.since l) c Q := by
  have hmod : (c.x x6 + 4 * c.x x7) % 2 ^ 64 = c.x x6 + 4 * c.x x7 := Nat.mod_eq_of_lt hx6
  have hmod' : (c.x sp + off) % 2 ^ 64 = c.x sp + off := Nat.mod_eq_of_lt (by omega)
  rw [hl, returns_op, returns_op, returns_op]
  refine returns_sumPost hl' (x := x) (w := w) ?_ ?_ ?_ ?_ ?_ fun c' hc' => hnext c' ?_
  · simpa [-Nat.reducePow, Op.exec, hmod'] using hx
  · simpa [Op.exec] using hw
  · simp [Op.exec]
  · simpa [-Nat.reducePow, Op.exec, hmod'] using hoff
  · simpa [-Nat.reducePow, Op.exec] using hx5
  · refine ⟨?_, ?_, ?_, ?_, ?_⟩
    · simpa [-Nat.reducePow, Op.exec, hmod, hb] using hc'.sum
    · simpa [-Nat.reducePow, Op.exec] using hc'.weights
    · simpa [Op.exec] using hc'.mem
    · intro r h5 h8 h10
      simpa [Op.exec, h8, h10] using hc'.x r h5 h8 h10
    · intro r h0 h1 h2
      simpa [Op.exec, h0] using hc'.s r h0 h1 h2

/-- **A row whose values are read by their index.** -/
theorem returns_rowIndexed {l : InferLabel} (l' : InferLabel) (rest : List (Line InferLabel))
    (hl : inferProgram.since l = .op (.ldrx s0 x6 x7) :: .op (.mov x10 sp)
      :: .op (.movi x8 0) :: inferProgram.since l')
    (hl' : inferProgram.since l'
      = .op (.ldrx s1 x10 x8) :: .op (.ldrp s2 x5 4) :: .op (.fmadd s0 s1 s2 s0)
        :: .op (.addwi x8 x8 1) :: .op (.cmpwi x8 11) :: .blo l' :: rest)
    {x w : ℕ → U32} {b : U32} (hx : Holds c.mem (c.x sp) 11 x)
    (hw : Holds c.mem (c.x x5) 11 w) (hb : load c.mem (c.x x6 + 4 * c.x x7) = b)
    (hx6 : c.x x6 + 4 * c.x x7 < 2 ^ 64) (hsp : c.x sp + 44 < 2 ^ 64)
    (hx5 : c.x x5 + 44 < 2 ^ 64)
    (hnext : ∀ c', Summed c c' (c.x x5 + 44) (accumulate u b x w 11) →
      Returns u inferProgram rest c' Q) :
    Returns u inferProgram (inferProgram.since l) c Q := by
  have hmod : (c.x x6 + 4 * c.x x7) % 2 ^ 64 = c.x x6 + 4 * c.x x7 := Nat.mod_eq_of_lt hx6
  rw [hl, returns_op, returns_op, returns_op]
  refine returns_sumIndexed hl' (x := x) (w := w) ?_ ?_ ?_ ?_ ?_ fun c' hc' => hnext c' ?_
  · simpa [Op.exec] using hx
  · simpa [Op.exec] using hw
  · simp [Op.exec]
  · simpa [-Nat.reducePow, Op.exec] using hsp
  · simpa [-Nat.reducePow, Op.exec] using hx5
  · refine ⟨?_, ?_, ?_, ?_, ?_⟩
    · simpa [-Nat.reducePow, Op.exec, hmod, hb] using hc'.sum
    · simpa [-Nat.reducePow, Op.exec] using hc'.weights
    · simpa [Op.exec] using hc'.mem
    · intro r h5 h8 h10
      simpa [Op.exec, h8, h10] using hc'.x r h5 h8 h10
    · intro r h0 h1 h2
      simpa [Op.exec, h0] using hc'.s r h0 h1 h2

end Sums

/-! ## A call -/

/-- The general registers that the routine does not give back, but for `x17`. -/
def scratchX : List XReg := [x5, x6, x7, x8, x9, x10, x12, x16]

/-- The floating-point registers that the routine does not give back, but for
`s3`. -/
def scratchS : List SReg := [s0, s1, s2, s4, s5]

/-- An area that is neither on the stack of a call nor among its values. -/
structure Apart (c₀ : Cpu) (a n : ℕ) : Prop where
  /-- It does not wrap around. -/
  bound : a + n ≤ 2 ^ 64
  /-- It is not on the stack. -/
  stack : a + n ≤ c₀.x sp - 320 ∨ c₀.x sp ≤ a
  /-- It is not among the values. -/
  values : a + n ≤ c₀.x x4 ∨ c₀.x x4 + 48 ≤ a

/-- Some words in memory. -/
def HoldsWords (m : Mem) (a : ℕ) (words : List U32) : Prop :=
  ∀ i w, words[i]? = some w → load m (a + 4 * i) = w

/-- **A call of the routine**: `x0` is the model, `x1` the scaler, `x2` the inputs,
`x3` the action and `x4` the values, as in the comment over it; there is room on the
stack; what is read and what is written do not overlap. -/
structure InferCall (model : ModelFp32Bits U32) (scaler : ModelFp32ScalerBits U32)
    (input : ℕ → U32) (c₀ : Cpu) : Prop where
  /-- The model. -/
  model : HoldsWords c₀.mem (c₀.x x0) model.words
  /-- The scaler. -/
  scaler : HoldsWords c₀.mem (c₀.x x1) scaler.words
  /-- The inputs. -/
  input : Holds c₀.mem (c₀.x x2) 11 input
  modelApart : Apart c₀ (c₀.x x0) 7344
  scalerApart : Apart c₀ (c₀.x x1) 92
  inputApart : Apart c₀ (c₀.x x2) 44
  /-- There is room on the stack. -/
  room : 320 ≤ c₀.x sp
  sp_lt : c₀.x sp < 2 ^ 64
  /-- The values are not on the stack. -/
  valuesApart : c₀.x x4 + 48 ≤ c₀.x sp - 320 ∨ c₀.x sp ≤ c₀.x x4
  values_le : c₀.x x4 + 48 ≤ 2 ^ 64
  /-- The action is not among the values. -/
  actionApart : c₀.x x3 + 4 ≤ c₀.x x4 ∨ c₀.x x4 + 48 ≤ c₀.x x3

/-- **Within a call**: what holds from the first instruction on. -/
structure Within (u : FpUnit U32) (c₀ c : Cpu) : Prop where
  /-- The stack frame is taken. -/
  sp : c.x sp = c₀.x sp - 320
  /-- The address of the values is moved. -/
  x17 : c.x x17 = c₀.x x4
  /-- A zero is kept. -/
  zero : c.s s3 = u.zero
  /-- The other registers are as they were. -/
  x : ∀ r, r ≠ XReg.sp → r ≠ XReg.x17 → r ∉ scratchX → c.x r = c₀.x r
  /-- The other floating-point registers are as they were. -/
  s : ∀ r, r ≠ s3 → r ∉ scratchS → c.s r = c₀.s r
  /-- Only the stack frame and the values are written. -/
  mem : ∀ a, a < c₀.x XReg.sp - 320 ∨ c₀.x XReg.sp ≤ a → a < c₀.x x4 ∨ c₀.x x4 + 48 ≤ a →
    c.mem a = c₀.mem a

/-- An instruction that writes scratch registers only. -/
def A64.Op.scratch : Op → Bool
  | .movi d _ | .mov d _ | .movw d _ | .addi d _ _ | .subi d _ _ | .add d _ _ | .addwi d _ _ =>
    decide (d ∈ scratchX)
  | .ldr t _ _ | .ldrx t _ _ => decide (t ∈ scratchS)
  | .ldrp t n _ => decide (t ∈ scratchS) && decide (n ∈ scratchX)
  | .strx .. | .strp .. | .strw .. => false
  | .movi2s d | .fmov d _ | .fneg d _ | .fsub d _ _ | .fdiv d _ _ | .fmaxnm d _ _
  | .fminnm d _ _ | .fmadd d _ _ _ => decide (d ∈ scratchS)
  | .cmpwi .. | .fcmp .. => true

section Call

variable {u : FpUnit U32} {model : ModelFp32Bits U32} {scaler : ModelFp32ScalerBits U32}
  {input : ℕ → U32} {c₀ c c' : Cpu} {Q : Cpu → Prop}

theorem Within.setX (h : Within u c₀ c) {r : XReg} (hr : r ∈ scratchX) (v : ℕ) :
    Within u c₀ (c.setX r v) where
  sp := by
    rw [Cpu.setX_x, if_neg (fun h => by subst h; exact absurd hr (by decide))]
    exact h.sp
  x17 := by
    rw [Cpu.setX_x, if_neg (fun h => by subst h; exact absurd hr (by decide))]
    exact h.x17
  zero := h.zero
  x q hsp h17 hq := by
    rw [Cpu.setX_x, if_neg (fun heq : q = r => hq (heq ▸ hr))]
    exact h.x q hsp h17 hq
  s := h.s
  mem := h.mem

theorem Within.setS (h : Within u c₀ c) {r : SReg} (hr : r ∈ scratchS) (w : U32) :
    Within u c₀ (c.setS r w) where
  sp := h.sp
  x17 := h.x17
  zero := by
    rw [Cpu.setS_s, if_neg (fun h => by subst h; exact absurd hr (by decide))]
    exact h.zero
  x := h.x
  s q h3 hq := by
    rw [Cpu.setS_s, if_neg (fun heq : q = r => hq (heq ▸ hr))]
    exact h.s q h3 hq
  mem := h.mem

theorem Within.setFlags (h : Within u c₀ c) (f : Flags) :
    Within u c₀ { c with flags := f } :=
  ⟨h.sp, h.x17, h.zero, h.x, h.s, h.mem⟩

/-- A word that is stored in the stack frame or among the values. -/
theorem Within.write (h : Within u c₀ c) {a : ℕ} (w : U32)
    (ha : (c₀.x XReg.sp - 320 ≤ a ∧ a + 4 ≤ c₀.x XReg.sp)
      ∨ (c₀.x x4 ≤ a ∧ a + 4 ≤ c₀.x x4 + 48)) : Within u c₀ (c.write a w) where
  sp := h.sp
  x17 := h.x17
  zero := h.zero
  x := h.x
  s := h.s
  mem b hsp hv := by
    rw [Cpu.write_mem, store_of_lt_or_le w (by omega)]
    exact h.mem b hsp hv

/-- What an instruction writes that writes scratch registers only. -/
theorem Within.exec (h : Within u c₀ c) {i : Op} (hi : i.scratch = true) :
    Within u c₀ (i.exec u c) := by
  cases i with
  | movi d k => exact h.setX (of_decide_eq_true hi) _
  | mov d n => exact h.setX (of_decide_eq_true hi) _
  | movw d n => exact h.setX (of_decide_eq_true hi) _
  | addi d n k => exact h.setX (of_decide_eq_true hi) _
  | subi d n k => exact h.setX (of_decide_eq_true hi) _
  | add d n m => exact h.setX (of_decide_eq_true hi) _
  | addwi d n k => exact h.setX (of_decide_eq_true hi) _
  | ldr t n k => exact h.setS (of_decide_eq_true hi) _
  | ldrx t n m => exact h.setS (of_decide_eq_true hi) _
  | ldrp t n k =>
    obtain ⟨ht, hn⟩ := (Bool.and_eq_true _ _).mp hi
    exact (h.setS (of_decide_eq_true ht) _).setX (of_decide_eq_true hn) _
  | strx t n m => exact absurd hi Bool.false_ne_true
  | strp t n k => exact absurd hi Bool.false_ne_true
  | strw t n => exact absurd hi Bool.false_ne_true
  | movi2s d => exact h.setS (of_decide_eq_true hi) _
  | fmov d n => exact h.setS (of_decide_eq_true hi) _
  | fneg d n => exact h.setS (of_decide_eq_true hi) _
  | fsub d n m => exact h.setS (of_decide_eq_true hi) _
  | fdiv d n m => exact h.setS (of_decide_eq_true hi) _
  | fmaxnm d n m => exact h.setS (of_decide_eq_true hi) _
  | fminnm d n m => exact h.setS (of_decide_eq_true hi) _
  | fmadd d n m a => exact h.setS (of_decide_eq_true hi) _
  | cmpwi n k => exact h.setFlags _
  | fcmp n m => exact h.setFlags _

theorem Within.summed (h : Within u c₀ c) {weights : ℕ} {sum : U32}
    (hc : Summed c c' weights sum) : Within u c₀ c' where
  sp := (hc.x _ (by decide) (by decide) (by decide)).trans h.sp
  x17 := (hc.x _ (by decide) (by decide) (by decide)).trans h.x17
  zero := (hc.s _ (by decide) (by decide) (by decide)).trans h.zero
  x r hsp h17 hr := by
    refine (hc.x r ?_ ?_ ?_).trans (h.x r hsp h17 hr) <;>
      exact fun heq => hr (heq ▸ by decide)
  s r h3 hr := by
    refine (hc.s r ?_ ?_ ?_).trans (h.s r h3 hr) <;>
      exact fun heq => hr (heq ▸ by decide)
  mem a hsp hv := (congrFun hc.mem a).trans (h.mem a hsp hv)

/-- An area apart is as it was. -/
theorem Within.agree (h : Within u c₀ c) {a n : ℕ} (ha : Apart c₀ a n) :
    AgreeOn c.mem c₀.mem a (a + n) := by
  intro i hle hlt
  have hs := ha.stack
  have hv := ha.values
  exact h.mem i (by omega) (by omega)

/-- Words in an area apart. -/
theorem Within.words (h : Within u c₀ c) {a n i : ℕ} {words : List U32} {w : U32}
    (hm : HoldsWords c₀.mem a words) (ha : Apart c₀ a n) (hi : words[i]? = some w)
    (hn : 4 * i + 4 ≤ n) : load c.mem (a + 4 * i) = w :=
  ((h.agree ha).load (Nat.le_add_right _ _) (by omega)).trans (hm i w hi)

/-! ## The hidden layers -/

/-- **At a row of a hidden layer**: the pointer to its weights, the address of the
biases, where its value goes, and its number. -/
structure AtRow (u : FpUnit U32) (c₀ c : Cpu) (weights bias dst j : ℕ) : Prop where
  within : Within u c₀ c
  weights : c.x x5 = weights
  bias : c.x x6 = bias
  dst : c.x x9 = dst
  row : c.x x7 = j

/-- The end of a row: the sum is cut off at zero and stored, and the rows are
counted. -/
theorem returns_rowEnd {l : InferLabel} {rest : List (Line InferLabel)}
    {weights bias dst j : ℕ} (h : AtRow u c₀ c weights bias dst j) (hj : j < 32)
    (hsp : c₀.x sp < 2 ^ 64) (hdst : c₀.x sp - 320 ≤ dst ∧ dst + 4 ≤ c₀.x sp)
    (hnext : ∀ c', AtRow u c₀ c' weights bias (dst + 4) (j + 1) →
      c'.mem = store c.mem dst (relu u (c.s s0)) →
      Returns u inferProgram (if 32 ≤ j + 1 then rest else inferProgram.since l) c' Q) :
    Returns u inferProgram (.op (.fmaxnm s0 s0 s3) :: .op (.strp s0 x9 4) :: .op (.addwi x7 x7 1)
      :: .op (.cmpwi x7 32) :: .blo l :: rest) c Q := by
  rw [returns_op, returns_op, returns_op, returns_count (i := j + 1) ?_ ?_]
  · refine hnext _ ⟨?_, ?_, ?_, ?_, ?_⟩ ?_
    · have hmax : Within u c₀ (Op.exec u c (.fmaxnm s0 s0 s3)) := h.within.exec (by decide)
      have hstore := (hmax.write (c.s s0 |> fun a => u.maxNum a (c.s s3))
        (Or.inl (h.dst ▸ hdst))).setX (r := x9) (by decide) ((c.x x9 + 4) % 2 ^ 64)
      have hstr : Within u c₀ (Op.exec u (Op.exec u c (.fmaxnm s0 s0 s3)) (.strp s0 x9 4)) := by
        simpa [Op.exec] using hstore
      exact (hstr.exec (i := .addwi x7 x7 1) (by decide)).setFlags _
    · simp [Op.exec, h.weights]
    · simp [Op.exec, h.bias]
    · simp [Op.exec, h.dst]
      omega
    · simp [Op.exec, h.row]
      omega
    · simp [Op.exec, h.dst, h.within.zero, relu]
  · simp [Op.exec, h.row]
    omega
  · omega

theorem AtRow.summed {weights bias dst j weights' : ℕ} {sum : U32}
    (h : AtRow u c₀ c weights bias dst j) (hc : Summed c c' weights' sum) :
    AtRow u c₀ c' weights' bias dst j where
  within := h.within.summed hc
  weights := hc.weights
  bias := (hc.x _ (by decide) (by decide) (by decide)).trans h.bias
  dst := (hc.x _ (by decide) (by decide) (by decide)).trans h.dst
  row := (hc.x _ (by decide) (by decide) (by decide)).trans h.row

/-- **The first layer.** -/
theorem returns_layer1 (call : InferCall model scaler input c₀) {x : ℕ → U32}
    (h : AtRow u c₀ c (c₀.x x0) (c₀.x x0 + 1408) (c₀.x sp - 320 + 64) 0)
    (hx : Holds c.mem (c₀.x sp - 320) 11 x)
    (hnext : ∀ c', Within u c₀ c' →
      Holds c'.mem (c₀.x sp - 320 + 64) 32 (layer1 u model x) →
      Returns u inferProgram
        ((inferUnder .l1Input).drop 11 ++ inferProgram.since .l2Output) c' Q) :
    Returns u inferProgram (inferProgram.since .l1Output) c Q := by
  have hsp := call.sp_lt
  have hroom := call.room
  have hbound := call.modelApart.bound
  have hplaced := model.placed
  refine Returns.loop _ (fun j c => AtRow u c₀ c (c₀.x x0 + 44 * j) (c₀.x x0 + 1408)
      (c₀.x sp - 320 + 64 + 4 * j) j ∧ Holds c.mem (c₀.x sp - 320) 11 x
      ∧ Holds c.mem (c₀.x sp - 320 + 64) j (layer1 u model x)) (n := 32) ?_
    (fun c' hc' => hnext c' hc'.1.within hc'.2.2) (by decide)
    ⟨h, hx, fun i hi => absurd hi i.not_lt_zero⟩
  rintro j hj d ⟨hd, hxd, hh⟩ hI
  have hbias : load d.mem (d.x x6 + 4 * d.x x7) = model.bias1 j := by
    have := hd.within.words call.model call.modelApart (hplaced.bias1 j hj) (by omega)
    rwa [show c₀.x x0 + 4 * (352 + j) = d.x x6 + 4 * d.x x7 by
      rw [hd.bias, hd.row]; ring] at this
  have hweights : Holds d.mem (d.x x5) 11 (model.weight1 j) := by
    intro k hk
    have := hd.within.words call.model call.modelApart (hplaced.weight1 j hj k hk) (by omega)
    rwa [show c₀.x x0 + 4 * (j * 11 + k) = d.x x5 + 4 * k by rw [hd.weights]; ring] at this
  refine returns_rowIndexed .l1Input _ rfl rfl (hd.within.sp ▸ hxd) hweights hbias
    (by rw [hd.bias, hd.row]; omega) (by rw [hd.within.sp]; omega)
    (by rw [hd.weights]; omega) fun d' hd' => ?_
  refine returns_rowEnd (hd.summed hd') hj hsp (by omega) fun c' hc' hmem => hI c' ⟨?_, ?_, ?_⟩
  · rw [show c₀.x x0 + 44 * (j + 1) = d.x x5 + 44 by rw [hd.weights]; ring,
      show c₀.x sp - 320 + 64 + 4 * (j + 1) = c₀.x sp - 320 + 64 + 4 * j + 4 by ring]
    exact hc'
  · rw [hmem, hd'.mem]
    exact hxd.store _ (by omega)
  · have hgrown := hh.snoc (w := relu u (d'.s s0)) (by rw [hd'.sum]; rfl)
    rwa [← hd'.mem, ← hmem] at hgrown

/-- **The second layer.** -/
theorem returns_layer2 (call : InferCall model scaler input c₀) {h₁ : ℕ → U32}
    (h : AtRow u c₀ c (c₀.x x0 + 1536) (c₀.x x0 + 5632) (c₀.x sp - 320 + 192) 0)
    (hx : Holds c.mem (c₀.x sp - 320 + 64) 32 h₁)
    (hnext : ∀ c', Within u c₀ c' →
      Holds c'.mem (c₀.x sp - 320 + 192) 32 (layer2 u model h₁) →
      Returns u inferProgram
        ((inferUnder .l2Input).drop 11 ++ inferProgram.since .jointOutput) c' Q) :
    Returns u inferProgram (inferProgram.since .l2Output) c Q := by
  have hsp := call.sp_lt
  have hroom := call.room
  have hbound := call.modelApart.bound
  have hplaced := model.placed
  refine Returns.loop _ (fun j c => AtRow u c₀ c (c₀.x x0 + 1536 + 128 * j) (c₀.x x0 + 5632)
      (c₀.x sp - 320 + 192 + 4 * j) j ∧ Holds c.mem (c₀.x sp - 320 + 64) 32 h₁
      ∧ Holds c.mem (c₀.x sp - 320 + 192) j (layer2 u model h₁)) (n := 32) ?_
    (fun c' hc' => hnext c' hc'.1.within hc'.2.2) (by decide)
    ⟨h, hx, fun i hi => absurd hi i.not_lt_zero⟩
  rintro j hj d ⟨hd, hxd, hh⟩ hI
  have hbias : load d.mem (d.x x6 + 4 * d.x x7) = model.bias2 j := by
    have := hd.within.words call.model call.modelApart (hplaced.bias2 j hj) (by omega)
    rwa [show c₀.x x0 + 4 * (1408 + j) = d.x x6 + 4 * d.x x7 by
      rw [hd.bias, hd.row]; ring] at this
  have hweights : Holds d.mem (d.x x5) 32 (model.weight2 j) := by
    intro k hk
    have := hd.within.words call.model call.modelApart (hplaced.weight2 j hj k hk) (by omega)
    rwa [show c₀.x x0 + 4 * (384 + (j * 32 + k)) = d.x x5 + 4 * k by
      rw [hd.weights]; ring] at this
  refine returns_rowPost .l2Input _ rfl rfl (hd.within.sp ▸ hxd) hweights hbias
    (by rw [hd.bias, hd.row]; omega) (by rw [hd.within.sp]; omega)
    (by rw [hd.weights]; omega) fun d' hd' => ?_
  refine returns_rowEnd (hd.summed hd') hj hsp (by omega) fun c' hc' hmem => hI c' ⟨?_, ?_, ?_⟩
  · rw [show c₀.x x0 + 1536 + 128 * (j + 1) = d.x x5 + 128 by rw [hd.weights]; ring,
      show c₀.x sp - 320 + 192 + 4 * (j + 1) = c₀.x sp - 320 + 192 + 4 * j + 4 by ring]
    exact hc'
  · rw [hmem, hd'.mem]
    exact hxd.store _ (by omega)
  · have hgrown := hh.snoc (w := relu u (d'.s s0)) (by rw [hd'.sum]; rfl)
    rwa [← hd'.mem, ← hmem] at hgrown

/-! ## The joint actions -/

/-- **A value is compared**: it is stored, and the best action so far and its value
are kept in two registers. -/
structure Judged (u : FpUnit U32) (q : ℕ → U32) (c c' : Cpu) (j : ℕ) : Prop where
  best : c'.x x12 = bestAction u q (j + 1)
  value : c'.s s4 = q (bestAction u q (j + 1))
  mem : c'.mem = store c.mem (c.x x17 + 4 * j) (q j)
  x : ∀ r, r ≠ x12 → c'.x r = c.x r
  s : ∀ r, r ≠ s4 → c'.s r = c.s r

/-- A comparison branches over what follows unless the first number is greater. -/
theorem ble_iff (o : Option Ordering) :
    ((Flags.ofOrdering o).z || (Flags.ofOrdering o).n != (Flags.ofOrdering o).v) = true
      ↔ o ≠ some .gt := by
  rcases o with _ | o
  · decide
  · cases o <;> decide

/-- The comparison of a value with the best one so far. -/
theorem returns_judge {q : ℕ → U32} {j : ℕ} (hs : c.s s0 = q j) (h7 : c.x x7 = j) (hj : j < 12)
    (h17 : c.x x17 + 4 * j < 2 ^ 64) (h12 : c.x x12 = bestAction u q j)
    (h4 : j ≠ 0 → c.s s4 = q (bestAction u q j))
    (hnext : ∀ c', Judged u q c c' j →
      Returns u inferProgram (inferProgram.since .jointNext) c' Q) :
    Returns u inferProgram
      ((inferUnder .jointInput).drop 6 ++ inferProgram.since .jointCompare) c Q := by
  have hmod : (c.x x17 + 4 * j) % 2 ^ 64 = c.x x17 + 4 * j := Nat.mod_eq_of_lt h17
  have hstore : (Op.strx s0 x17 x7).exec u c = c.write (c.x x17 + 4 * j) (q j) := by
    show c.write ((c.x x17 + 4 * c.x x7) % 2 ^ 64) (c.s s0) = _
    rw [h7, hmod, hs]
  have h32 : c.x x7 % 2 ^ 32 = j := by rw [h7]; omega
  show Returns u inferProgram (.op (.strx s0 x17 x7) :: .cbnz x7 .jointCompare
    :: .op (.fmov s4 s0) :: .b .jointNext :: inferProgram.since .jointCompare) c Q
  rw [returns_op, hstore, returns_cbnz, Cpu.write_x, h32]
  by_cases h0 : j = 0
  · -- the first value is the best one without a comparison
    subst h0
    rw [if_pos rfl, returns_op, returns_b]
    refine hnext _ ⟨?_, ?_, ?_, ?_, ?_⟩
    · simp [Op.exec, h12, bestAction]
    · simp [Op.exec, hs, bestAction]
    · simp [Op.exec]
    · intro r _
      simp [Op.exec]
    · intro r h
      simp [Op.exec, h]
  · rw [if_neg h0]
    show Returns u inferProgram (.op (.fcmp s0 s4) :: .ble .jointNext :: .op (.fmov s4 s0)
      :: .op (.movw x12 x7) :: inferProgram.since .jointNext) _ Q
    rw [returns_op, returns_ble]
    have hflags : (Op.exec u (c.write (c.x x17 + 4 * j) (q j)) (.fcmp s0 s4)).flags
        = Flags.ofOrdering (u.compare (q j) (q (bestAction u q j))) := by
      simp [Op.exec, hs, h4 h0]
    rw [hflags]
    by_cases hgt : u.compare (q j) (q (bestAction u q j)) = some .gt
    · rw [if_neg (fun h => (ble_iff _).mp h hgt), returns_op, returns_op]
      have hbest : bestAction u q (j + 1) = j := if_pos ⟨h0, hgt⟩
      refine hnext _ ⟨?_, ?_, ?_, ?_, ?_⟩
      · simp [-Nat.reducePow, Op.exec, h32, hbest]
      · simp [Op.exec, hs, hbest]
      · simp [Op.exec]
      · intro r h
        simp [Op.exec, h]
      · intro r h
        simp [Op.exec, h]
    · rw [if_pos ((ble_iff _).mpr hgt)]
      have hbest : bestAction u q (j + 1) = bestAction u q j := if_neg (fun h => hgt h.2)
      refine hnext _ ⟨?_, ?_, ?_, ?_, ?_⟩
      · simp [Op.exec, h12, hbest]
      · simp [Op.exec, h4 h0, hbest]
      · simp [Op.exec]
      · intro r _
        simp [Op.exec]
      · intro r _
        simp [Op.exec]

/-- **At an action**: the pointer to its weights, the address of the biases, its
number, and the best action before it. -/
structure AtAction (u : FpUnit U32) (q : ℕ → U32) (c₀ c : Cpu) (weights bias j : ℕ) : Prop where
  within : Within u c₀ c
  weights : c.x x5 = weights
  bias : c.x x6 = bias
  row : c.x x7 = j
  best : c.x x12 = bestAction u q j
  value : j ≠ 0 → c.s s4 = q (bestAction u q j)

theorem Within.judged {q : ℕ → U32} {j : ℕ} (h : Within u c₀ c) (hj : j < 12)
    (hc : Judged u q c c' j) : Within u c₀ c' where
  sp := (hc.x _ (by decide)).trans h.sp
  x17 := (hc.x _ (by decide)).trans h.x17
  zero := (hc.s _ (by decide)).trans h.zero
  x r hsp h17 hr := (hc.x r (fun heq => hr (heq ▸ by decide))).trans (h.x r hsp h17 hr)
  s r h3 hr := (hc.s r (fun heq => hr (heq ▸ by decide))).trans (h.s r h3 hr)
  mem a hsp hv := by
    rw [hc.mem, h.x17, store_of_lt_or_le _ (by omega)]
    exact h.mem a hsp hv

/-- **The joint actions.** -/
theorem returns_jointHead (call : InferCall model scaler input c₀) {h₂ : ℕ → U32}
    (h : AtAction u (jointHead u model h₂) c₀ c (c₀.x x0 + 5760) (c₀.x x0 + 7296) 0)
    (hx : Holds c.mem (c₀.x sp - 320 + 192) 32 h₂)
    (hnext : ∀ c', Within u c₀ c' → c'.x x12 = bestAction u (jointHead u model h₂) 12 →
      Holds c'.mem (c₀.x x4) 12 (jointHead u model h₂) →
      Returns u inferProgram ((inferUnder .jointNext).drop 3) c' Q) :
    Returns u inferProgram (inferProgram.since .jointOutput) c Q := by
  have hsp := call.sp_lt
  have hroom := call.room
  have hbound := call.modelApart.bound
  have hvalues := call.values_le
  have hapart := call.valuesApart
  have hplaced := model.placed
  refine Returns.loop _ (fun j c => AtAction u (jointHead u model h₂) c₀ c
      (c₀.x x0 + 5760 + 128 * j) (c₀.x x0 + 7296) j
      ∧ Holds c.mem (c₀.x sp - 320 + 192) 32 h₂
      ∧ Holds c.mem (c₀.x x4) j (jointHead u model h₂)) (n := 12) ?_
    (fun c' hc' => hnext c' hc'.1.within hc'.1.best hc'.2.2) (by decide)
    ⟨h, hx, fun i hi => absurd hi i.not_lt_zero⟩
  rintro j hj d ⟨hd, hxd, hq⟩ hI
  have hbias : load d.mem (d.x x6 + 4 * d.x x7) = model.jointBias j := by
    have := hd.within.words call.model call.modelApart (hplaced.jointBias j hj) (by omega)
    rwa [show c₀.x x0 + 4 * (1824 + j) = d.x x6 + 4 * d.x x7 by
      rw [hd.bias, hd.row]; ring] at this
  have hweights : Holds d.mem (d.x x5) 32 (model.jointWeight j) := by
    intro k hk
    have := hd.within.words call.model call.modelApart (hplaced.jointWeight j hj k hk) (by omega)
    rwa [show c₀.x x0 + 4 * (1440 + (j * 32 + k)) = d.x x5 + 4 * k by
      rw [hd.weights]; ring] at this
  refine returns_rowPost .jointInput
    ((inferUnder .jointInput).drop 6 ++ inferProgram.since .jointCompare) rfl rfl
    (hd.within.sp ▸ hxd) hweights hbias
    (by rw [hd.bias, hd.row]; omega) (by rw [hd.within.sp]; omega)
    (by rw [hd.weights]; omega) fun d' hd' => ?_
  have h17 : d'.x x17 = c₀.x x4 := (hd.within.summed hd').x17
  have h7 : d'.x x7 = j := (hd'.x _ (by decide) (by decide) (by decide)).trans hd.row
  refine returns_judge (q := jointHead u model h₂) hd'.sum h7 hj (by rw [h17]; omega)
    ((hd'.x _ (by decide) (by decide) (by decide)).trans hd.best)
    (fun h0 => (hd'.s _ (by decide) (by decide) (by decide)).trans (hd.value h0))
    fun e he => ?_
  have hmem : e.mem = store d.mem (c₀.x x4 + 4 * j) (jointHead u model h₂ j) := by
    rw [he.mem, h17, hd'.mem]
  have he7 : e.x x7 = j := (he.x _ (by decide)).trans h7
  show Returns u inferProgram (.op (.addwi x7 x7 1) :: .op (.cmpwi x7 12) :: .blo .jointOutput
    :: (inferUnder .jointNext).drop 3) e Q
  rw [returns_op, returns_count (i := j + 1) (by simp [Op.exec, he7]; omega) (by omega)]
  refine hI _ ⟨⟨?_, ?_, ?_, ?_, ?_, ?_⟩, ?_, ?_⟩
  · exact (((hd.within.summed hd').judged hj he).exec (i := .addwi x7 x7 1) (by decide)).setFlags _
  · simp [Op.exec, he.x x5 (by decide), hd'.weights, hd.weights]
    omega
  · simp [Op.exec, he.x x6 (by decide), hd'.x x6 (by decide) (by decide) (by decide), hd.bias]
  · simp [Op.exec, he7]
    omega
  · simp [Op.exec, he.best]
  · intro _
    simp [Op.exec, he.value]
  · show Holds e.mem _ _ _
    rw [hmem]
    exact hxd.store _ (by omega)
  · show Holds e.mem _ _ _
    rw [hmem]
    exact hq.snoc rfl

/-! ## The inputs -/

/-- **At an input**: the address of the deviations, where the input goes, its number,
and the two bounds of the clipping. -/
structure AtInput (u : FpUnit U32) (scaler : ModelFp32ScalerBits U32) (c₀ c : Cpu) (i : ℕ) :
    Prop where
  within : Within u c₀ c
  std : c.x x6 = c₀.x x1 + 44
  dst : c.x x9 = c₀.x sp - 320 + 4 * i
  row : c.x x7 = i
  clip : c.s s4 = scaler.clip
  negClip : c.s s5 = u.neg scaler.clip

/-- The computation on one input. -/
theorem returns_input {l : InferLabel} {rest : List (Line InferLabel)} {i : ℕ}
    (call : InferCall model scaler input c₀) (h : AtInput u scaler c₀ c i) (hi : i < 11)
    (hnext : ∀ c', AtInput u scaler c₀ c' (i + 1) →
      c'.mem = store c.mem (c₀.x sp - 320 + 4 * i) (normalizeInput u scaler input i) →
      Returns u inferProgram (if 11 ≤ i + 1 then rest else inferProgram.since l) c' Q) :
    Returns u inferProgram (.op (.ldrx s0 x2 x7) :: .op (.ldrx s1 x1 x7)
      :: .op (.ldrx s2 x6 x7) :: .op (.fsub s0 s0 s1) :: .op (.fdiv s0 s0 s2)
      :: .op (.fmaxnm s0 s0 s5) :: .op (.fminnm s0 s0 s4) :: .op (.strp s0 x9 4)
      :: .op (.addwi x7 x7 1) :: .op (.cmpwi x7 11) :: .blo l :: rest) c Q := by
  have hsp := call.sp_lt
  have hroom := call.room
  have hbound := call.scalerApart.bound
  have hbound' := call.inputApart.bound
  have hx1 : c.x x1 = c₀.x x1 := h.within.x _ (by decide) (by decide) (by decide)
  have hx2 : c.x x2 = c₀.x x2 := h.within.x _ (by decide) (by decide) (by decide)
  have hin : load c.mem ((c₀.x x2 + 4 * i) % 2 ^ 64) = input i := by
    rw [Nat.mod_eq_of_lt (by omega)]
    exact call.input.agree (h.within.agree call.inputApart) i hi
  have hmean : load c.mem ((c₀.x x1 + 4 * i) % 2 ^ 64) = scaler.mean i := by
    rw [Nat.mod_eq_of_lt (by omega)]
    exact h.within.words call.scaler call.scalerApart (scaler.placed.mean i hi) (by omega)
  have hstd : load c.mem ((c₀.x x1 + 44 + 4 * i) % 2 ^ 64) = scaler.std i := by
    rw [Nat.mod_eq_of_lt (by omega), show c₀.x x1 + 44 + 4 * i = c₀.x x1 + 4 * (11 + i) by ring]
    exact h.within.words call.scaler call.scalerApart (scaler.placed.std i hi) (by omega)
  -- the four instructions on the input, and the store
  obtain ⟨d, hd, hwithin, hs0, hmem, hx, hs⟩ : ∃ d, d = Op.exec u (Op.exec u (Op.exec u
      (Op.exec u (Op.exec u (Op.exec u (Op.exec u c (.ldrx s0 x2 x7)) (.ldrx s1 x1 x7))
      (.ldrx s2 x6 x7)) (.fsub s0 s0 s1)) (.fdiv s0 s0 s2)) (.fmaxnm s0 s0 s5))
      (.fminnm s0 s0 s4) ∧ Within u c₀ d ∧ d.s s0 = normalizeInput u scaler input i
      ∧ d.mem = c.mem ∧ d.x = c.x ∧ (d.s s4 = c.s s4 ∧ d.s s5 = c.s s5) := by
    refine ⟨_, rfl, ?_, ?_, rfl, rfl, ?_⟩
    · iterate 7 refine Within.exec ?_ (by decide)
      exact h.within
    · simp [-Nat.reducePow, Op.exec, hx1, hx2, h.std, h.row, hin, hmean, hstd, h.clip, h.negClip,
        normalizeInput]
    · simp [Op.exec]
  iterate 7 rw [returns_op]
  rw [← hd, returns_op, returns_op, returns_count (i := i + 1) ?_ (by omega)]
  · refine hnext _ ⟨?_, ?_, ?_, ?_, ?_, ?_⟩ ?_
    · have hstore : Within u c₀ (Op.exec u d (.strp s0 x9 4)) :=
        (hwithin.write _ (Or.inl (by rw [hx, h.dst]; omega))).setX (by decide) _
      exact (hstore.exec (i := .addwi x7 x7 1) (by decide)).setFlags _
    · simp [Op.exec, hx, h.std]
    · simp [Op.exec, hx, h.dst]
      omega
    · simp [Op.exec, hx, h.row]
      omega
    · simp [Op.exec, hs.1, h.clip]
    · simp [Op.exec, hs.2, h.negClip]
    · simp [Op.exec, hx, h.dst, hs0, hmem]
  · simp [Op.exec, hx, h.row]
    omega

/-- **The inputs.** -/
theorem returns_normalize (call : InferCall model scaler input c₀)
    (h : AtInput u scaler c₀ c 0)
    (hnext : ∀ c', Within u c₀ c' →
      Holds c'.mem (c₀.x sp - 320) 11 (normalizeInput u scaler input) →
      Returns u inferProgram
        ((inferUnder .normalize).drop 11 ++ inferProgram.since .l1Output) c' Q) :
    Returns u inferProgram (inferProgram.since .normalize) c Q := by
  refine Returns.loop _ (fun i c => AtInput u scaler c₀ c i
      ∧ Holds c.mem (c₀.x sp - 320) i (normalizeInput u scaler input)) (n := 11) ?_
    (fun c' hc' => hnext c' hc'.1.within hc'.2) (by decide)
    ⟨h, fun i hi => absurd hi i.not_lt_zero⟩
  rintro i hi d ⟨hd, hx⟩ hI
  refine returns_input call hd hi fun c' hc' hmem => hI c' ⟨hc', ?_⟩
  rw [hmem]
  exact hx.snoc rfl

/-! ## The routine -/

/-- **What a call leaves**: the action and the values in memory, all other memory but
the stack frame as it was, and the registers that a caller may rely on. -/
structure Inferred (u : FpUnit U32) (model : ModelFp32Bits U32)
    (scaler : ModelFp32ScalerBits U32) (input : ℕ → U32) (c₀ c : Cpu) : Prop where
  /-- The action. -/
  action : load c.mem (c₀.x x3) = wordOf (fp32Action u model scaler input)
  /-- The values. -/
  values : Holds c.mem (c₀.x x4) modelFp32Actions (fp32Values u model scaler input)
  /-- The other memory. -/
  mem : ∀ a, a < c₀.x XReg.sp - 320 ∨ c₀.x XReg.sp ≤ a → a < c₀.x x3 ∨ c₀.x x3 + 4 ≤ a →
    a < c₀.x x4 ∨ c₀.x x4 + 48 ≤ a → c.mem a = c₀.mem a
  /-- The stack pointer and the other registers. -/
  x : ∀ r, r ∉ XReg.x17 :: scratchX → c.x r = c₀.x r
  /-- The other floating-point registers. -/
  s : ∀ r, r ∉ s3 :: scratchS → c.s r = c₀.s r

/-- The entry of the routine. -/
theorem atInput_entry (hzero : u.zero = 0) (call : InferCall model scaler input c₀) :
    AtInput u scaler c₀ (Op.exec u (Op.exec u (Op.exec u (Op.exec u (Op.exec u (Op.exec u
      (Op.exec u (Op.exec u c₀ (.subi sp sp 320)) (.mov x17 x4)) (.movi2s s3))
      (.addi x6 x1 44)) (.ldr s4 x1 88)) (.fneg s5 s4)) (.mov x9 sp)) (.movi x7 0)) 0 := by
  have hsp := call.sp_lt
  have hroom := call.room
  have hbound := call.scalerApart.bound
  have hframe : (c₀.x sp + (2 ^ 64 - 320)) % 2 ^ 64 = c₀.x sp - 320 := by omega
  have hstd : (c₀.x x1 + 44) % 2 ^ 64 = c₀.x x1 + 44 := Nat.mod_eq_of_lt (by omega)
  have hclip : load c₀.mem ((c₀.x x1 + 88) % 2 ^ 64) = scaler.clip := by
    rw [Nat.mod_eq_of_lt (by omega)]
    exact call.scaler 22 _ scaler.placed.clip
  have hwithin : Within u c₀ (Op.exec u (Op.exec u (Op.exec u c₀ (.subi sp sp 320))
      (.mov x17 x4)) (.movi2s s3)) := by
    refine ⟨?_, ?_, ?_, ?_, ?_, fun _ _ _ => rfl⟩
    · simp [-Nat.reducePow, -Nat.reduceSub, Op.exec, hframe]
    · simp [Op.exec]
    · simp [Op.exec, hzero]
    · intro r hr h17 _
      simp [Op.exec, hr, h17]
    · intro r h3 _
      simp [Op.exec, h3]
  refine ⟨?_, ?_, ?_, ?_, ?_, ?_⟩
  · iterate 5 refine Within.exec ?_ (by decide)
    exact hwithin
  · simp [-Nat.reducePow, Op.exec, hstd]
  · simp [-Nat.reducePow, -Nat.reduceSub, Op.exec, hframe]
  · simp [Op.exec]
  · simp [-Nat.reducePow, Op.exec, hclip]
  · simp [-Nat.reducePow, Op.exec, hclip]

/-- **The assembly computes the network.** Called with the address of a model, of a
scaler and of some inputs, the routine returns; it has stored the action and the
values of the network over the unit at hand, and nothing else but its stack frame,
and the registers that it may not change are as they were. -/
theorem infer_computes_network (hzero : u.zero = 0)
    (call : InferCall model scaler input c₀) :
    Returns u inferProgram (inferProgram.since .infer) c₀
      (Inferred u model scaler input c₀) := by
  have hsp := call.sp_lt
  have hroom := call.room
  have hbound := call.modelApart.bound
  -- the normalized inputs
  show Returns u inferProgram (.op (.subi sp sp 320) :: .op (.mov x17 x4) :: .op (.movi2s s3)
    :: .op (.addi x6 x1 44) :: .op (.ldr s4 x1 88) :: .op (.fneg s5 s4) :: .op (.mov x9 sp)
    :: .op (.movi x7 0) :: inferProgram.since .normalize) c₀ _
  iterate 8 rw [returns_op]
  refine returns_normalize call (atInput_entry hzero call) fun c₁ hc₁ hx => ?_
  -- the first layer
  show Returns u inferProgram (.op (.mov x5 x0) :: .op (.movi x16 1408) :: .op (.add x6 x0 x16)
    :: .op (.addi x9 sp 64) :: .op (.movi x7 0) :: inferProgram.since .l1Output) c₁ _
  iterate 5 rw [returns_op]
  have hx0 : c₁.x x0 = c₀.x x0 := hc₁.x _ (by decide) (by decide) (by decide)
  refine returns_layer1 call ⟨?_, ?_, ?_, ?_, ?_⟩ hx fun c₂ hc₂ hh₁ => ?_
  · iterate 5 refine Within.exec ?_ (by decide)
    exact hc₁
  · simp [Op.exec, hx0]
  · simp [Op.exec, hx0]
    omega
  · simp [Op.exec, hc₁.sp]
    omega
  · simp [Op.exec]
  -- the second layer
  show Returns u inferProgram (.op (.movi x16 1536) :: .op (.add x5 x0 x16)
    :: .op (.movi x16 5632) :: .op (.add x6 x0 x16) :: .op (.addi x9 sp 192)
    :: .op (.movi x7 0) :: inferProgram.since .l2Output) c₂ _
  iterate 6 rw [returns_op]
  have hx0 : c₂.x x0 = c₀.x x0 := hc₂.x _ (by decide) (by decide) (by decide)
  refine returns_layer2 call ⟨?_, ?_, ?_, ?_, ?_⟩ hh₁ fun c₃ hc₃ hh₂ => ?_
  · iterate 6 refine Within.exec ?_ (by decide)
    exact hc₂
  · simp [Op.exec, hx0]
    omega
  · simp [Op.exec, hx0]
    omega
  · simp [Op.exec, hc₂.sp]
    omega
  · simp [Op.exec]
  -- the joint actions
  show Returns u inferProgram (.op (.movi x16 5760) :: .op (.add x5 x0 x16)
    :: .op (.movi x16 7296) :: .op (.add x6 x0 x16) :: .op (.movi x7 0)
    :: .op (.movi x12 0) :: inferProgram.since .jointOutput) c₃ _
  iterate 6 rw [returns_op]
  have hx0 : c₃.x x0 = c₀.x x0 := hc₃.x _ (by decide) (by decide) (by decide)
  refine returns_jointHead call ⟨?_, ?_, ?_, ?_, ?_, fun h => absurd rfl h⟩ hh₂
    fun c₄ hc₄ hbest hq => ?_
  · iterate 6 refine Within.exec ?_ (by decide)
    exact hc₃
  · simp [Op.exec, hx0]
    omega
  · simp [Op.exec, hx0]
    omega
  · simp [Op.exec]
  · simp [Op.exec, bestAction]
  -- the action, and the return
  show Returns u inferProgram (.op (.strw x12 x3) :: .op (.addi sp sp 320) :: .ret :: []) c₄ _
  rw [returns_op, returns_op, returns_ret]
  have hx3 : c₄.x x3 = c₀.x x3 := hc₄.x _ (by decide) (by decide) (by decide)
  refine ⟨?_, ?_, ?_, ?_, ?_⟩
  · simp only [Op.exec, Cpu.setX_mem, Cpu.write_mem, hx3, load_store, hbest]
    rfl
  · simp only [Op.exec, Cpu.setX_mem, Cpu.write_mem, hx3]
    exact hq.store _ (by have := call.actionApart; omega)
  · intro a hsp' h3 h4
    simp only [Op.exec, Cpu.setX_mem, Cpu.write_mem, hx3]
    rw [store_of_lt_or_le _ h3]
    exact hc₄.mem a hsp' h4
  · intro r hr
    rw [List.mem_cons, not_or] at hr
    by_cases h : r = XReg.sp
    · subst h
      simp [Op.exec, hc₄.sp]
      omega
    · simp [Op.exec, h, hc₄.x r h hr.1 hr.2]
  · intro r hr
    rw [List.mem_cons, not_or] at hr
    simp [Op.exec, hc₄.s r hr.1 hr.2]

end Call

/-! ## A call in memory -/

/-- A processor that calls the routine: the model, the scaler and some inputs are in
memory. -/
def calledCpu (model : ModelFp32Bits U32) (scaler : ModelFp32ScalerBits U32)
    (input : ℕ → U32) : Cpu where
  x r := match r with
    | .x0 => 2 ^ 16
    | .x1 => 2 * 2 ^ 16
    | .x2 => 3 * 2 ^ 16
    | .x3 => 4 * 2 ^ 16
    | .x4 => 5 * 2 ^ 16
    | .sp => 7 * 2 ^ 16
    | _ => 0
  s _ := 0
  flags := .ofOrdering none
  mem := place (place (place (fun _ => 0) (2 ^ 16) model.words) (2 * 2 ^ 16) scaler.words)
    (3 * 2 ^ 16) (vectorWords modelFp32Inputs input)

/-- It is a call. -/
theorem inferCall_calledCpu (model : ModelFp32Bits U32) (scaler : ModelFp32ScalerBits U32)
    (input : ℕ → U32) : InferCall model scaler input (calledCpu model scaler input) := by
  have hmodel := length_modelWords model
  have hscaler := length_scalerWords scaler
  have hinput : (vectorWords modelFp32Inputs input).length = 11 := length_vectorWords _ _
  constructor
  · intro i w hi
    have hlt := (List.getElem?_eq_some_iff.mp hi).1
    show load _ (2 ^ 16 + 4 * i) = w
    unfold calledCpu
    rw [load_place_of_le (by omega), load_place_of_le (by omega), load_place hi]
  · intro i w hi
    have hlt := (List.getElem?_eq_some_iff.mp hi).1
    show load _ (2 * 2 ^ 16 + 4 * i) = w
    unfold calledCpu
    rw [load_place_of_le (by omega), load_place hi]
  · exact fun i hi => load_place (getElem?_vectorWords input hi)
  · constructor <;> simp [calledCpu]
  · constructor <;> simp [calledCpu]
  · constructor <;> simp [calledCpu]
  all_goals simp [calledCpu]

/-- The parameters of the module, and the inputs `1`, `1 / 2`, `1 / 4` and so on. -/
theorem infer_computes_network_halves :
    let input : ℕ → U32 := fun i => Fin.ofNat (2 ^ 32) (0x3f800000 - 2 ^ 23 * i)
    Returns binary32.unitOf inferProgram (inferProgram.since .infer)
      (calledCpu smartIoFp32Model smartIoFp32Scaler input)
      (Inferred binary32.unitOf smartIoFp32Model smartIoFp32Scaler input
        (calledCpu smartIoFp32Model smartIoFp32Scaler input)) := by
  intro input
  exact infer_computes_network (by decide +kernel) (inferCall_calledCpu _ _ _)
