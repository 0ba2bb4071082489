import Mathlib.Algebra.Group.Fin.Basic
import Mathlib.Data.List.DropRight
import Mathlib.Data.List.FinRange
import Mathlib.Data.Nat.ModEq

/-!
# Ring buffers

A ring of slots with a head that wraps and a count that stops at the size stands
for the last items of a list that only grows (`RingBuffer.Holds`): the next item
goes where the oldest one is, so item `i` of the list is in slot `i` modulo the
size as long as the ring has not come round to it. Read from the head on, the
slots that were written are the last items, oldest first (`Holds.contents_eq`); in
the order of the slots they are the same items (`walk_perm`).
-/

/-- A ring of `n + 1` slots. -/
structure RingBuffer (α : Type*) (n : ℕ) where
  slot : Fin (n + 1) → α
  head : Fin (n + 1)
  count : ℕ

namespace RingBuffer

variable {α : Type*} {n : ℕ} {r : RingBuffer α n} {l : List α}

/-- An item takes the slot at the head. -/
def push (r : RingBuffer α n) (x : α) : RingBuffer α n where
  slot := Function.update r.slot r.head x
  head := r.head + 1
  count := if r.count < n + 1 then r.count + 1 else r.count

/-- The slots, from the head on. -/
def walk (r : RingBuffer α n) : List α := List.ofFn fun i => r.slot (r.head + i)

/-- What the ring holds, oldest first: the slots from the head on that were written. -/
def contents (r : RingBuffer α n) : List α := r.walk.drop (n + 1 - r.count)

/-- **The ring holds the end of a list.** -/
structure Holds (r : RingBuffer α n) (l : List α) : Prop where
  count : r.count = min l.length (n + 1)
  head : (r.head : ℕ) = l.length % (n + 1)
  slot : ∀ (i : ℕ) (hi : i < l.length), l.length ≤ i + (n + 1) →
    r.slot (Fin.ofNat (n + 1) i) = l[i]

/-- The head walks over all slots. -/
theorem walk_perm (r : RingBuffer α n) : r.walk.Perm (List.ofFn r.slot) :=
  Equiv.Perm.ofFn_comp_perm (Equiv.addLeft r.head) r.slot

@[simp] theorem length_walk (r : RingBuffer α n) : r.walk.length = n + 1 := List.length_ofFn

/-- A full ring holds every slot. -/
theorem contents_of_full (h : r.count = n + 1) : r.contents = r.walk := by
  unfold contents
  rw [h, Nat.sub_self, List.drop_zero]

/-- **Once the ring is full** the oldest item is at the head. -/
theorem head?_contents (h : r.count = n + 1) : r.contents.head? = some (r.slot r.head) := by
  rw [contents_of_full h, walk, List.ofFn_succ, List.head?_cons, Fin.add_zero]

namespace Holds

/-- A ring that was never written holds nothing. -/
theorem nil (hcount : r.count = 0) (hhead : r.head = 0) : r.Holds [] where
  count := hcount
  head := by
    rw [hhead]
    exact (Nat.zero_mod _).symm
  slot i hi := absurd hi (Nat.not_lt_zero i)

/-- Two places of the list that the ring tells apart. -/
theorem ofNat_ne {i k : ℕ} (hik : i < k) (hk : k < i + (n + 1)) :
    Fin.ofNat (n + 1) i ≠ Fin.ofNat (n + 1) k := by
  intro heq
  have hmod : i ≡ k [MOD n + 1] := congrArg Fin.val heq
  have hdvd : n + 1 ∣ k - i := (Nat.modEq_iff_dvd' hik.le).mp hmod
  have hle : n + 1 ≤ k - i := Nat.le_of_dvd (Nat.sub_pos_of_lt hik) hdvd
  omega

/-- The head is at the place of the next item. -/
theorem head_eq (h : r.Holds l) : r.head = Fin.ofNat (n + 1) l.length := Fin.ext h.head

/-- **A ring that an item is pushed into** holds the end of the longer list. -/
theorem push (h : r.Holds l) (x : α) : (r.push x).Holds (l ++ [x]) where
  count := by
    have hcount := h.count
    rw [List.length_append, List.length_singleton]
    show (if r.count < n + 1 then r.count + 1 else r.count) = _
    split <;> omega
  head := by
    rw [List.length_append, List.length_singleton]
    show ((r.head + 1 : Fin (n + 1)) : ℕ) = _
    rw [Fin.val_add, h.head, Fin.val_one', ← Nat.add_mod]
  slot i hi hlast := by
    rw [List.length_append, List.length_singleton] at hi hlast
    show Function.update r.slot r.head x _ = _
    rw [h.head_eq]
    rcases Nat.lt_succ_iff_lt_or_eq.mp hi with hlt | heq
    · rw [Function.update_of_ne (ofNat_ne hlt (by omega)), List.getElem_append_left hlt]
      exact h.slot i hlt (by omega)
    · subst heq
      rw [Function.update_self, List.getElem_concat_length rfl]

theorem length_contents (h : r.Holds l) : r.contents.length = min l.length (n + 1) := by
  have hcount := h.count
  unfold contents
  rw [List.length_drop, length_walk]
  omega

/-- **What the ring holds is the end of the list.** -/
theorem contents_eq (h : r.Holds l) : r.contents = l.rtake (n + 1) := by
  have hcount := h.count
  refine List.ext_getElem ?_ fun j hj hj' => ?_
  · rw [h.length_contents, List.rtake, List.length_drop]
    omega
  · have hlt : j < min l.length (n + 1) := h.length_contents ▸ hj
    -- the walk starts at the place of the next item, one round ahead of the oldest
    have hplace : r.head + ⟨n + 1 - r.count + j, by omega⟩
        = Fin.ofNat (n + 1) (l.length - (n + 1) + j) := by
      refine Fin.ext ?_
      rw [Fin.val_add, h.head, Nat.mod_add_mod]
      show _ = (l.length - (n + 1) + j) % (n + 1)
      have hround : l.length + (n + 1 - r.count + j) = l.length - (n + 1) + j + (n + 1) := by
        omega
      rw [hround, Nat.add_mod_right]
    simp only [contents, walk, List.rtake, List.getElem_drop, List.getElem_ofFn]
    rw [hplace]
    exact h.slot _ (by omega) (by omega)

end Holds

end RingBuffer
