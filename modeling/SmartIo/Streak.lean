import Mathlib.Data.List.Basic

/-!
# Counting a streak

A counter that goes up with every element that passes a test and back to zero
with every one that does not holds the length of the **streak**: the longest
run of passing elements at the recent end of the sequence (`streak`, over lists
with the newest element first). Asking the counter whether it has reached `n`
is asking whether the last `n` elements exist and all pass (`le_streak_iff`).
-/

variable {α : Type*}

/-- **The last `n` elements** exist and all pass. -/
def LastAll (n : ℕ) (p : α → Prop) (xs : List α) : Prop :=
  n ≤ xs.length ∧ ∀ x ∈ xs.take n, p x

/-- The streak counter of a sequence, newest element first. -/
def streak (p : α → Prop) [DecidablePred p] : List α → ℕ
  | [] => 0
  | x :: xs => if p x then streak p xs + 1 else 0

section

variable {p q : α → Prop} [DecidablePred p]

instance (n : ℕ) (xs : List α) : Decidable (LastAll n p xs) :=
  inferInstanceAs (Decidable (_ ∧ _))

@[simp] theorem streak_nil : streak p ([] : List α) = 0 := rfl

/-- A passing element extends the streak. -/
theorem streak_cons_of_pos {x : α} (h : p x) (xs : List α) :
    streak p (x :: xs) = streak p xs + 1 := if_pos h

/-- A failing element ends the streak. -/
theorem streak_cons_of_neg {x : α} (h : ¬ p x) (xs : List α) :
    streak p (x :: xs) = 0 := if_neg h

omit [DecidablePred p] in
/-- The last none of a sequence. -/
theorem lastAll_zero (xs : List α) : LastAll 0 p xs :=
  ⟨Nat.zero_le _, fun _ hx => absurd hx List.not_mem_nil⟩

omit [DecidablePred p] in
/-- The last elements of a longer sequence. -/
theorem lastAll_succ_cons (n : ℕ) (x : α) (xs : List α) :
    LastAll (n + 1) p (x :: xs) ↔ p x ∧ LastAll n p xs := by
  unfold LastAll
  rw [List.length_cons, List.take_succ_cons, List.forall_mem_cons, Nat.succ_le_succ_iff]
  exact and_left_comm

omit [DecidablePred p] in
/-- An empty sequence has no last elements. -/
theorem not_lastAll_nil (n : ℕ) : ¬ LastAll (n + 1) p ([] : List α) :=
  fun h => Nat.not_succ_le_zero n h.1

/-- **The counter has reached `n`** exactly if the last `n` elements all pass. -/
theorem le_streak_iff (n : ℕ) (xs : List α) : n ≤ streak p xs ↔ LastAll n p xs := by
  induction xs generalizing n with
  | nil =>
    cases n with
    | zero => exact iff_of_true (Nat.zero_le _) (lastAll_zero _)
    | succ n => exact iff_of_false (Nat.not_succ_le_zero n) (not_lastAll_nil n)
  | cons x xs ih =>
    cases n with
    | zero => exact iff_of_true (Nat.zero_le _) (lastAll_zero _)
    | succ n =>
      rw [lastAll_succ_cons]
      by_cases hx : p x
      · rw [streak_cons_of_pos hx, Nat.succ_le_succ_iff, ih]
        exact (and_iff_right hx).symm
      · rw [streak_cons_of_neg hx]
        exact iff_of_false (Nat.not_succ_le_zero n) fun h => hx h.1

omit [DecidablePred p] in
/-- A weaker test passes where a stronger one does. -/
theorem LastAll.mono (h : ∀ x, p x → q x) {n : ℕ} {xs : List α} (hp : LastAll n p xs) :
    LastAll n q xs :=
  ⟨hp.1, fun x hx => h x (hp.2 x hx)⟩

end
