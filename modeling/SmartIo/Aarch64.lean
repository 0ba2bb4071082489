import Mathlib.Logic.Function.Basic
import Mathlib.Tactic.Common
import SmartIo.FloatArith
import SmartIo.KernelInt

/-!
# Arm assembly

A subset of the A64 instructions, large enough for a loop over arrays of
single-precision numbers: moves, additions and subtractions of addresses and
counters, loads and stores of 32-bit words with the three ways of addressing, the
scalar floating-point instructions, and the branches. What the floating-point
instructions compute is left to a unit (`FpUnit`).

A program is what stands under its labels, and the order of the labels
(`Program`). Where the execution is, is **what is left to execute**: a branch goes
to what stands from its label on, and the end of what stands under one label is
the beginning of the next.

What is proved of a program is that it **returns**, in a state of which something
holds (`Returns`). There is one rule for each kind of instruction, which are
equivalences and rewrite a goal along the listing, and one for a loop that counts
(`Returns.loop`), with the invariant of its iterations.

Memory is a function from addresses to bytes, and a word is four of them, the
least significant first.
-/

namespace A64

/-! ## Memory -/

/-- Memory: a byte at each address. -/
abbrev Mem := ℕ → Fin 256

/-- The word at an address. -/
def load (m : Mem) (a : ℕ) : U32 :=
  ⟨m a + 2 ^ 8 * m (a + 1) + 2 ^ 16 * m (a + 2) + 2 ^ 24 * m (a + 3), by
    have h0 := (m a).isLt
    have h1 := (m (a + 1)).isLt
    have h2 := (m (a + 2)).isLt
    have h3 := (m (a + 3)).isLt
    omega⟩

theorem load_val (m : Mem) (a : ℕ) : (load m a).val
    = m a + 2 ^ 8 * m (a + 1) + 2 ^ 16 * m (a + 2) + 2 ^ 24 * m (a + 3) :=
  rfl

/-- A byte of a word. -/
def byteOf (w : U32) (i : ℕ) : Fin 256 := ⟨w.val / 2 ^ (8 * i) % 256, Nat.mod_lt _ (by decide)⟩

/-- The memory after a word is stored. -/
def store (m : Mem) (a : ℕ) (w : U32) : Mem := fun b =>
  if a ≤ b ∧ b < a + 4 then byteOf w (b - a) else m b

/-- A byte outside of the word that is stored. -/
theorem store_of_lt_or_le {m : Mem} {a b : ℕ} (w : U32) (h : b < a ∨ a + 4 ≤ b) :
    store m a w b = m b :=
  if_neg (by omega)

/-- **What is stored is loaded.** -/
@[simp]
theorem load_store (m : Mem) (a : ℕ) (w : U32) : load (store m a w) a = w := by
  have hbyte : ∀ i, i < 4 → store m a w (a + i) = byteOf w i := by
    intro i hi
    unfold store
    rw [if_pos ⟨Nat.le_add_right a i, Nat.add_lt_add_left hi a⟩, Nat.add_sub_cancel_left]
  have h0 : store m a w a = byteOf w 0 := hbyte 0 (by decide)
  have hw := w.isLt
  refine Fin.ext ?_
  rw [load_val, h0, hbyte 1 (by decide), hbyte 2 (by decide), hbyte 3 (by decide)]
  show w.val / 2 ^ (8 * 0) % 256 + 2 ^ 8 * (w.val / 2 ^ (8 * 1) % 256)
    + 2 ^ 16 * (w.val / 2 ^ (8 * 2) % 256) + 2 ^ 24 * (w.val / 2 ^ (8 * 3) % 256) = w.val
  omega

/-- A word depends on its four bytes. -/
theorem load_congr {m m' : Mem} {a : ℕ} (h : ∀ b, a ≤ b → b < a + 4 → m b = m' b) :
    load m a = load m' a := by
  refine Fin.ext ?_
  rw [load_val, load_val, h a (by omega) (by omega), h (a + 1) (by omega) (by omega),
    h (a + 2) (by omega) (by omega), h (a + 3) (by omega) (by omega)]

/-- A word that does not overlap the one that is stored. -/
theorem load_store_of_le {m : Mem} {a b : ℕ} (w : U32) (h : a + 4 ≤ b ∨ b + 4 ≤ a) :
    load (store m b w) a = load m a :=
  load_congr fun _ hle hlt => store_of_lt_or_le w (by omega)

/-- **An array of words** at an address. -/
def Holds (m : Mem) (a n : ℕ) (f : ℕ → U32) : Prop := ∀ i < n, load m (a + 4 * i) = f i

/-- Two memories agree on the bytes from one address up to another. -/
def AgreeOn (m m' : Mem) (a b : ℕ) : Prop := ∀ i, a ≤ i → i < b → m i = m' i

theorem AgreeOn.load {m m' : Mem} {a b i : ℕ} (h : AgreeOn m m' a b) (hle : a ≤ i)
    (hlt : i + 4 ≤ b) : load m i = load m' i :=
  load_congr fun j hj hj' => h j (hle.trans hj) (by omega)

/-- An array is kept with the memory it is in. -/
theorem Holds.agree {m m' : Mem} {a n : ℕ} {f : ℕ → U32} (h : Holds m a n f)
    (hm : AgreeOn m' m a (a + 4 * n)) : Holds m' a n f := by
  intro i hi
  rw [hm.load (Nat.le_add_right _ _) (by omega)]
  exact h i hi

/-- An array that does not overlap the word that is stored. -/
theorem Holds.store {m : Mem} {a n b : ℕ} {f : ℕ → U32} (w : U32) (h : Holds m a n f)
    (hdis : a + 4 * n ≤ b ∨ b + 4 ≤ a) : Holds (store m b w) a n f := by
  refine h.agree fun i hle hlt => ?_
  rw [store_of_lt_or_le]
  omega

/-- **An array grows** by the word stored behind it. -/
theorem Holds.snoc {m : Mem} {a n : ℕ} {f : ℕ → U32} {w : U32} (h : Holds m a n f)
    (hw : w = f n) : Holds (A64.store m (a + 4 * n) w) a (n + 1) f := by
  intro i hi
  rcases Nat.lt_succ_iff_lt_or_eq.mp hi with hlt | rfl
  · rw [load_store_of_le w (by omega)]
    exact h i hlt
  · rw [load_store, hw]

/-- The memory after some words are placed at an address. -/
def place (m : Mem) (a : ℕ) (words : List U32) : Mem := fun b =>
  if a ≤ b ∧ b < a + 4 * words.length then
    byteOf (words.getD ((b - a) / 4) 0) ((b - a) % 4)
  else m b

/-- The words placed are there. -/
theorem load_place {m : Mem} {a i : ℕ} {words : List U32} {w : U32} (hi : words[i]? = some w) :
    load (place m a words) (a + 4 * i) = w := by
  have hlt : i < words.length := (List.getElem?_eq_some_iff.mp hi).1
  have hget : words.getD i 0 = w := by rw [List.getD_eq_getElem?_getD, hi, Option.getD_some]
  rw [← load_store m (a + 4 * i) w]
  refine load_congr fun b hle hlt' => ?_
  unfold place store
  rw [if_pos (by omega), if_pos ⟨hle, hlt'⟩, show (b - a) / 4 = i by omega, hget,
    show (b - a) % 4 = b - (a + 4 * i) by omega]

/-- The words placed elsewhere do not change a word. -/
theorem load_place_of_le {m : Mem} {a b : ℕ} {words : List U32}
    (h : a + 4 ≤ b ∨ b + 4 * words.length ≤ a) : load (place m b words) a = load m a :=
  load_congr fun _ hle hlt => if_neg (by omega)

/-! ## The processor -/

/-- The general registers, and the stack pointer. -/
inductive XReg where
  | x0 | x1 | x2 | x3 | x4 | x5 | x6 | x7 | x8 | x9 | x10 | x11 | x12 | x13 | x14 | x15
  | x16 | x17 | x18 | x19 | x20 | x21 | x22 | x23 | x24 | x25 | x26 | x27 | x28 | x29 | x30
  | sp
deriving DecidableEq, Repr

/-- The floating-point registers, of which only the low word is used. -/
inductive SReg where
  | s0 | s1 | s2 | s3 | s4 | s5 | s6 | s7 | s8 | s9 | s10 | s11 | s12 | s13 | s14 | s15
  | s16 | s17 | s18 | s19 | s20 | s21 | s22 | s23 | s24 | s25 | s26 | s27 | s28 | s29
  | s30 | s31
deriving DecidableEq, Repr

/-- The condition flags. -/
structure Flags where
  /-- Negative. -/
  n : Bool
  /-- Zero. -/
  z : Bool
  /-- Carry. -/
  c : Bool
  /-- Overflow. -/
  v : Bool

/-- The flags of a comparison of 32-bit numbers. -/
def Flags.ofCompare (a b : ℕ) : Flags :=
  let r := (a + (2 ^ 32 - b)) % 2 ^ 32
  { n := decide (2 ^ 31 ≤ r)
    z := decide (r = 0)
    c := decide (b ≤ a)
    v := decide (2 ^ 31 ≤ a) != decide (2 ^ 31 ≤ b)
      && decide (2 ^ 31 ≤ r) != decide (2 ^ 31 ≤ a) }

theorem Flags.ofCompare_c (a b : ℕ) : (Flags.ofCompare a b).c = decide (b ≤ a) := rfl

/-- The flags of a comparison of floating-point numbers. -/
def Flags.ofOrdering : Option Ordering → Flags
  | some .lt => { n := true, z := false, c := false, v := false }
  | some .eq => { n := false, z := true, c := true, v := false }
  | some .gt => { n := false, z := false, c := true, v := false }
  | none => { n := false, z := false, c := true, v := true }

/-- **The state of the processor.** -/
structure Cpu where
  /-- The general registers. -/
  x : XReg → ℕ
  /-- The low words of the floating-point registers. -/
  s : SReg → U32
  /-- The flags. -/
  flags : Flags
  /-- The memory. -/
  mem : Mem

/-- A general register written. -/
def Cpu.setX (c : Cpu) (d : XReg) (v : ℕ) : Cpu := { c with x := Function.update c.x d v }

/-- A floating-point register written. -/
def Cpu.setS (c : Cpu) (d : SReg) (v : U32) : Cpu := { c with s := Function.update c.s d v }

/-- A word stored. -/
def Cpu.write (c : Cpu) (a : ℕ) (w : U32) : Cpu := { c with mem := store c.mem a w }

section Fields

variable (c : Cpu) (d r : XReg) (e q : SReg) (v a : ℕ) (w : U32)

@[simp] theorem Cpu.setX_x : (c.setX d v).x r = if r = d then v else c.x r :=
  Function.update_apply ..

@[simp] theorem Cpu.setX_s : (c.setX d v).s = c.s := rfl

@[simp] theorem Cpu.setX_mem : (c.setX d v).mem = c.mem := rfl

@[simp] theorem Cpu.setX_flags : (c.setX d v).flags = c.flags := rfl

@[simp] theorem Cpu.setS_x : (c.setS e w).x = c.x := rfl

@[simp] theorem Cpu.setS_s : (c.setS e w).s q = if q = e then w else c.s q :=
  Function.update_apply ..

@[simp] theorem Cpu.setS_mem : (c.setS e w).mem = c.mem := rfl

@[simp] theorem Cpu.setS_flags : (c.setS e w).flags = c.flags := rfl

@[simp] theorem Cpu.write_x : (c.write a w).x = c.x := rfl

@[simp] theorem Cpu.write_s : (c.write a w).s = c.s := rfl

@[simp] theorem Cpu.write_mem : (c.write a w).mem = store c.mem a w := rfl

@[simp] theorem Cpu.write_flags : (c.write a w).flags = c.flags := rfl

end Fields

/-! ## The instructions -/

/-- **The instructions that do not branch.** -/
inductive Op where
  /-- `mov xd, #k`, and `mov wd, #k`: the other half is cleared. -/
  | movi (d : XReg) (k : ℕ)
  /-- `mov xd, xn`. -/
  | mov (d n : XReg)
  /-- `mov wd, wn`. -/
  | movw (d n : XReg)
  /-- `add xd, xn, #k`. -/
  | addi (d n : XReg) (k : ℕ)
  /-- `sub xd, xn, #k`. -/
  | subi (d n : XReg) (k : ℕ)
  /-- `add xd, xn, xm`. -/
  | add (d n m : XReg)
  /-- `add wd, wn, #k`. -/
  | addwi (d n : XReg) (k : ℕ)
  /-- `cmp wn, #k`. -/
  | cmpwi (n : XReg) (k : ℕ)
  /-- `ldr st, [xn, #k]`. -/
  | ldr (t : SReg) (n : XReg) (k : ℕ)
  /-- `ldr st, [xn, xm, lsl #2]`. -/
  | ldrx (t : SReg) (n m : XReg)
  /-- `ldr st, [xn], #k`. -/
  | ldrp (t : SReg) (n : XReg) (k : ℕ)
  /-- `str st, [xn, xm, lsl #2]`. -/
  | strx (t : SReg) (n m : XReg)
  /-- `str st, [xn], #k`. -/
  | strp (t : SReg) (n : XReg) (k : ℕ)
  /-- `str wt, [xn]`. -/
  | strw (t n : XReg)
  /-- `movi vd.2s, #0`. -/
  | movi2s (d : SReg)
  /-- `fmov sd, sn`. -/
  | fmov (d n : SReg)
  /-- `fneg sd, sn`. -/
  | fneg (d n : SReg)
  /-- `fsub sd, sn, sm`. -/
  | fsub (d n m : SReg)
  /-- `fdiv sd, sn, sm`. -/
  | fdiv (d n m : SReg)
  /-- `fmaxnm sd, sn, sm`. -/
  | fmaxnm (d n m : SReg)
  /-- `fminnm sd, sn, sm`. -/
  | fminnm (d n m : SReg)
  /-- `fmadd sd, sn, sm, sa`. -/
  | fmadd (d n m a : SReg)
  /-- `fcmp sn, sm`. -/
  | fcmp (n m : SReg)

/-- A word of a general register. -/
def wordOf (n : ℕ) : U32 := Fin.ofNat (2 ^ 32) n

/-- **What an instruction does.** -/
def Op.exec (u : FpUnit U32) (c : Cpu) : Op → Cpu
  | .movi d k => c.setX d k
  | .mov d n => c.setX d (c.x n)
  | .movw d n => c.setX d (c.x n % 2 ^ 32)
  | .addi d n k => c.setX d ((c.x n + k) % 2 ^ 64)
  | .subi d n k => c.setX d ((c.x n + (2 ^ 64 - k)) % 2 ^ 64)
  | .add d n m => c.setX d ((c.x n + c.x m) % 2 ^ 64)
  | .addwi d n k => c.setX d ((c.x n % 2 ^ 32 + k) % 2 ^ 32)
  | .cmpwi n k => { c with flags := Flags.ofCompare (c.x n % 2 ^ 32) k }
  | .ldr t n k => c.setS t (load c.mem ((c.x n + k) % 2 ^ 64))
  | .ldrx t n m => c.setS t (load c.mem ((c.x n + 4 * c.x m) % 2 ^ 64))
  | .ldrp t n k => (c.setS t (load c.mem (c.x n))).setX n ((c.x n + k) % 2 ^ 64)
  | .strx t n m => c.write ((c.x n + 4 * c.x m) % 2 ^ 64) (c.s t)
  | .strp t n k => (c.write (c.x n) (c.s t)).setX n ((c.x n + k) % 2 ^ 64)
  | .strw t n => c.write (c.x n) (wordOf (c.x t))
  | .movi2s d => c.setS d 0
  | .fmov d n => c.setS d (c.s n)
  | .fneg d n => c.setS d (u.neg (c.s n))
  | .fsub d n m => c.setS d (u.sub (c.s n) (c.s m))
  | .fdiv d n m => c.setS d (u.div (c.s n) (c.s m))
  | .fmaxnm d n m => c.setS d (u.maxNum (c.s n) (c.s m))
  | .fminnm d n m => c.setS d (u.minNum (c.s n) (c.s m))
  | .fmadd d n m a => c.setS d (u.mulAdd (c.s a) (c.s n) (c.s m))
  | .fcmp n m => { c with flags := Flags.ofOrdering (u.compare (c.s n) (c.s m)) }

/-- A line of a listing: an instruction, or a branch. -/
inductive Line (L : Type) where
  /-- An instruction. -/
  | op (i : Op)
  /-- `b l`. -/
  | b (l : L)
  /-- `b.lo l`: taken when the carry is clear. -/
  | blo (l : L)
  /-- `b.le l`: taken when the result was zero, or its sign is not the overflow. -/
  | ble (l : L)
  /-- `cbnz wt, l`. -/
  | cbnz (t : XReg) (l : L)
  /-- `ret`. -/
  | ret

/-- **A program**: the labels in their order, and what stands under each. -/
structure Program (L : Type) where
  /-- The labels, the entry first. -/
  labels : List L
  /-- What stands under a label, up to the next. -/
  under : L → List (Line L)

/-- What stands from a label on. -/
def Program.since {L : Type} [DecidableEq L] (P : Program L) (l : L) : List (Line L) :=
  (P.labels.dropWhile (fun l' => l' ≠ l)).flatMap P.under

variable {L : Type} [DecidableEq L] {u : FpUnit U32} {P : Program L}

/-- **The execution** of what is left, up to the return, in a number of steps at
most. -/
def run (u : FpUnit U32) (P : Program L) : ℕ → List (Line L) → Cpu → Option Cpu
  | 0, _, _ => none
  | _ + 1, [], _ => none
  | _ + 1, .ret :: _, c => some c
  | k + 1, .op i :: rest, c => run u P k rest (i.exec u c)
  | k + 1, .b l :: _, c => run u P k (P.since l) c
  | k + 1, .blo l :: rest, c => run u P k (if c.flags.c then rest else P.since l) c
  | k + 1, .ble l :: rest, c =>
    run u P k (if c.flags.z || c.flags.n != c.flags.v then P.since l else rest) c
  | k + 1, .cbnz t l :: rest, c =>
    run u P k (if c.x t % 2 ^ 32 = 0 then rest else P.since l) c

/-! ## Programs that return -/

/-- **The execution returns**, in a state of which `Q` holds. -/
def Returns (u : FpUnit U32) (P : Program L) (lines : List (Line L)) (c : Cpu)
    (Q : Cpu → Prop) : Prop :=
  ∃ k c', run u P k lines c = some c' ∧ Q c'

section Rules

variable {rest : List (Line L)} {c : Cpu} {Q : Cpu → Prop}

/-- One step of an execution that is not over. -/
theorem returns_step {lines lines' : List (Line L)} {c' : Cpu}
    (h : ∀ k, run u P (k + 1) lines c = run u P k lines' c') :
    Returns u P lines c Q ↔ Returns u P lines' c' Q := by
  constructor
  · rintro ⟨k, r, hrun, hQ⟩
    cases k with
    | zero => exact absurd hrun (by simp [run])
    | succ k => exact ⟨k, r, (h k).symm.trans hrun, hQ⟩
  · rintro ⟨k, r, hrun, hQ⟩
    exact ⟨k + 1, r, (h k).trans hrun, hQ⟩

@[simp]
theorem returns_op (i : Op) :
    Returns u P (.op i :: rest) c Q ↔ Returns u P rest (i.exec u c) Q :=
  returns_step fun _ => rfl

theorem returns_b (l : L) : Returns u P (.b l :: rest) c Q ↔ Returns u P (P.since l) c Q :=
  returns_step fun _ => rfl

theorem returns_blo (l : L) :
    Returns u P (.blo l :: rest) c Q
      ↔ Returns u P (if c.flags.c then rest else P.since l) c Q :=
  returns_step fun _ => rfl

theorem returns_ble (l : L) :
    Returns u P (.ble l :: rest) c Q
      ↔ Returns u P (if c.flags.z || c.flags.n != c.flags.v then P.since l else rest) c Q :=
  returns_step fun _ => rfl

theorem returns_cbnz (t : XReg) (l : L) :
    Returns u P (.cbnz t l :: rest) c Q
      ↔ Returns u P (if c.x t % 2 ^ 32 = 0 then rest else P.since l) c Q :=
  returns_step fun _ => rfl

@[simp]
theorem returns_ret : Returns u P (.ret :: rest) c Q ↔ Q c := by
  constructor
  · rintro ⟨k, r, hrun, hQ⟩
    cases k with
    | zero => exact absurd hrun (by simp [run])
    | succ k => exact Option.some.inj hrun ▸ hQ
  · exact fun hQ => ⟨1, c, rfl, hQ⟩

/-- **A loop that counts.** The invariant of iteration `i` and the body give the
invariant of the next one, at the head of the loop while there is a next one, and
behind the loop then. -/
theorem Returns.loop {head : List (Line L)} {n : ℕ} (exit : List (Line L)) (I : ℕ → Cpu → Prop)
    (hbody : ∀ i < n, ∀ c, I i c →
      (∀ c', I (i + 1) c' → Returns u P (if n ≤ i + 1 then exit else head) c' Q) →
      Returns u P head c Q)
    (hexit : ∀ c, I n c → Returns u P exit c Q) (hn : 0 < n) (hinit : I 0 c) :
    Returns u P head c Q := by
  have hfrom : ∀ k i, i + k = n → 0 < k → ∀ c, I i c → Returns u P head c Q := by
    intro k
    induction k with
    | zero => exact fun i _ hk => absurd hk (Nat.lt_irrefl 0)
    | succ k ih =>
      intro i hik _ c hc
      refine hbody i (by omega) c hc fun c' hc' => ?_
      by_cases hlast : n ≤ i + 1
      · rw [if_pos hlast]
        refine hexit c' ?_
        rwa [show n = i + 1 by omega]
      · rw [if_neg hlast]
        exact ih (i + 1) (by omega) (by omega) c' hc'
  exact hfrom n 0 (Nat.zero_add n) hn c hinit

/-- The end of a loop that counts: a comparison with the bound, and the branch
back. -/
theorem returns_count {r : XReg} {n i : ℕ} {l : L} (hr : c.x r = i) (hi : i < 2 ^ 32) :
    Returns u P (.op (.cmpwi r n) :: .blo l :: rest) c Q
      ↔ Returns u P (if n ≤ i then rest else P.since l)
          { c with flags := Flags.ofCompare i n } Q := by
  have hexec : (Op.cmpwi r n).exec u c = { c with flags := Flags.ofCompare i n } := by
    show { c with flags := Flags.ofCompare (c.x r % 2 ^ 32) n } = _
    rw [hr, Nat.mod_eq_of_lt hi]
  rw [returns_op, hexec, returns_blo, Flags.ofCompare_c]
  by_cases h : n ≤ i
  · rw [if_pos h, if_pos (decide_eq_true h)]
  · rw [if_neg h, if_neg (by rw [decide_eq_false h]; exact Bool.false_ne_true)]

end Rules

end A64
