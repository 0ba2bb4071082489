import Mathlib.Order.Interval.Finset.Nat
import SmartIo.StepMachine

/-!
# Runs in time

The inputs of a machine come at times that do not go back, and from one to the next its
state is what it is. So a run says what the state is at every instant
(`StepMachine.stateAt`), and how long a condition holds: an instant stands for the unit
of time that begins with it, so the time from one instant to another in which the
condition holds is the number of instants of it at which it does (`timeOn`).
-/

/-! ## How long a condition holds -/

/-- **The time** from `a` to `b` in which `f` holds. -/
def timeOn (f : ℕ → Prop) [DecidablePred f] (a b : ℕ) : ℕ :=
  ((Finset.Ico a b).filter f).card

section TimeOn

variable {f g : ℕ → Prop} [DecidablePred f] [DecidablePred g] {a b c : ℕ}

/-- No condition holds for longer than there is time. -/
theorem timeOn_le (f : ℕ → Prop) [DecidablePred f] (a b : ℕ) : timeOn f a b ≤ b - a :=
  (Finset.card_filter_le _ f).trans (Nat.card_Ico a b).le

/-- There is no time from an instant to itself. -/
theorem timeOn_self (f : ℕ → Prop) [DecidablePred f] (a : ℕ) : timeOn f a a = 0 := by
  unfold timeOn
  rw [Finset.Ico_self]
  rfl

/-- **Time adds up.** -/
theorem timeOn_add (hab : a ≤ b) (hbc : b ≤ c) :
    timeOn f a b + timeOn f b c = timeOn f a c := by
  unfold timeOn
  rw [← Finset.Ico_union_Ico_eq_Ico hab hbc, Finset.filter_union]
  exact (Finset.card_union_of_disjoint
    (Finset.disjoint_filter_filter (Finset.Ico_disjoint_Ico_consecutive a b c))).symm

/-- Only the instants in between count. -/
theorem timeOn_congr (h : ∀ t, a ≤ t → t < b → (f t ↔ g t)) : timeOn f a b = timeOn g a b := by
  refine congrArg Finset.card (Finset.filter_congr fun t ht => ?_)
  obtain ⟨hat, htb⟩ := Finset.mem_Ico.mp ht
  exact h t hat htb

/-- A condition that stays as it is holds all the time, or never. -/
theorem timeOn_const {p : Prop} [Decidable p] (h : ∀ t, a ≤ t → (f t ↔ p)) :
    timeOn f a b = if p then b - a else 0 := by
  rw [timeOn_congr (g := fun _ => p) fun t hat _ => h t hat]
  unfold timeOn
  split
  · next hp =>
    rw [Finset.filter_true_of_mem fun _ _ => hp]
    exact Nat.card_Ico a b
  · next hp =>
    rw [Finset.filter_false_of_mem fun _ _ => hp]
    rfl

end TimeOn

/-! ## The state at an instant -/

namespace StepMachine

variable {σ ι ο : Type*} (M : StepMachine σ ι ο) (stamp : ι → ℕ)

/-- **The state at an instant** of a run: what the inputs up to that instant lead to. -/
def stateAt (s : σ) (is : List ι) (t : ℕ) : σ := M.run s (is.filter fun i => stamp i ≤ t)

variable {M stamp} {s : σ} {is : List ι} {i : ι} {t : ℕ}

/-- After its last input a run is where it ends. -/
theorem stateAt_of_le (h : ∀ j ∈ is, stamp j ≤ t) : M.stateAt stamp s is t = M.run s is := by
  unfold stateAt
  rw [List.filter_eq_self.mpr fun j hj => decide_eq_true (h j hj)]

/-- Before an input comes, it makes no difference. -/
theorem stateAt_snoc_of_lt (h : t < stamp i) :
    M.stateAt stamp s (is ++ [i]) t = M.stateAt stamp s is t := by
  unfold stateAt
  rw [List.filter_append, List.filter_singleton, decide_eq_false (Nat.not_le.mpr h)]
  exact congrArg (M.run s) (List.append_nil _)

/-- **One more input**: the time in which a condition on the state holds goes on as it
was up to that input, and after it the condition holds if it does of the new state. -/
theorem timeOn_snoc (stamp : ι → ℕ) (P : σ → Prop) [DecidablePred P] {a now : ℕ}
    (ha : a ≤ stamp i) (hnow : stamp i ≤ now) (his : ∀ j ∈ is, stamp j ≤ stamp i) :
    timeOn (fun t => P (M.stateAt stamp s (is ++ [i]) t)) a now
      = timeOn (fun t => P (M.stateAt stamp s is t)) a (stamp i)
        + if P (M.run s (is ++ [i])) then now - stamp i else 0 := by
  rw [← timeOn_add ha hnow]
  have hbefore : timeOn (fun t => P (M.stateAt stamp s (is ++ [i]) t)) a (stamp i)
      = timeOn (fun t => P (M.stateAt stamp s is t)) a (stamp i) := by
    refine timeOn_congr fun t _ ht => ?_
    rw [stateAt_snoc_of_lt ht]
  have hafter : ∀ t, stamp i ≤ t →
      (P (M.stateAt stamp s (is ++ [i]) t) ↔ P (M.run s (is ++ [i]))) := by
    intro t ht
    rw [stateAt_of_le fun j hj => ?_]
    rcases List.mem_append.mp hj with hj | hj
    · exact (his j hj).trans ht
    · rw [List.mem_singleton.mp hj]
      exact ht
  rw [hbefore, timeOn_const hafter]

end StepMachine
