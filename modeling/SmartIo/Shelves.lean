import Mathlib.Data.List.Nodup
import Mathlib.Data.List.Perm.Basic
import Mathlib.Data.List.Flatten

/-!
# Items on shelves

A program that keeps items on several lists, each item on one of them, has an
**exclusive** family of lists: no list holds an item twice and no two lists hold
the same one. Taking an item off every list, putting an item that is on none of
them on one, and reordering a list keep a family exclusive. Moving an item behind
another one that is on the same list is a reordering
(`perm_moveBehind`).
-/

variable {π ι : Type*}

/-- **Exclusive lists**: every item is on one list at most, and once. -/
structure Exclusive (L : π → List ι) : Prop where
  nodup : ∀ p, (L p).Nodup
  once : ∀ {x p q}, x ∈ L p → x ∈ L q → p = q

namespace Exclusive

variable {L L' : π → List ι}

/-- Empty lists are exclusive. -/
theorem empty : Exclusive (fun _ : π => ([] : List ι)) where
  nodup := fun _ => List.nodup_nil
  once := fun h => absurd h List.not_mem_nil

/-- Reordering the lists. -/
theorem perm (h : Exclusive L) (hp : ∀ p, (L' p).Perm (L p)) : Exclusive L' where
  nodup := fun p => (hp p).nodup_iff.mpr (h.nodup p)
  once := fun hx hy => h.once ((hp _).mem_iff.mp hx) ((hp _).mem_iff.mp hy)

/-- An item that is on a list is on exactly one. -/
theorem existsUnique (h : Exclusive L) {x : ι} {p : π} (hx : x ∈ L p) : ∃! q, x ∈ L q :=
  ⟨p, hx, fun _ hy => h.once hy hx⟩

/-- **Putting an item on a list**, if it is on none. -/
theorem put (h : Exclusive L) {x : ι} {p : π} (hx : ∀ q, x ∉ L q) (hp : (L' p).Perm (x :: L p))
    (hother : ∀ q, q ≠ p → L' q = L q) : Exclusive L' := by
  have hmem : ∀ {y q}, y ∈ L' q → y ∈ L q ∨ y = x ∧ q = p := by
    intro y q hy
    by_cases hq : q = p
    · subst hq
      rcases List.mem_cons.mp (hp.mem_iff.mp hy) with hy | hy
      · exact Or.inr ⟨hy, rfl⟩
      · exact Or.inl hy
    · rw [hother q hq] at hy
      exact Or.inl hy
  refine ⟨fun q => ?_, fun {y q r} hq hr => ?_⟩
  · by_cases hq : q = p
    · subst hq
      exact hp.nodup_iff.mpr (List.nodup_cons.mpr ⟨hx q, h.nodup q⟩)
    · rw [hother q hq]
      exact h.nodup q
  · rcases hmem hq with hq | ⟨rfl, rfl⟩
    · rcases hmem hr with hr | ⟨rfl, rfl⟩
      · exact h.once hq hr
      · exact absurd hq (hx q)
    · rcases hmem hr with hr | ⟨-, rfl⟩
      · exact absurd hr (hx r)
      · rfl

variable [DecidableEq ι]

/-- **Taking an item off.** -/
theorem take (h : Exclusive L) (x : ι) (hL : ∀ p, L' p = (L p).erase x) : Exclusive L' where
  nodup := fun p => by
    rw [hL]
    exact (h.nodup p).erase x
  once := fun {y p q} hp hq => by
    rw [hL] at hp hq
    exact h.once (List.mem_of_mem_erase hp) (List.mem_of_mem_erase hq)

end Exclusive

/-! ## Moving an item behind another -/

variable [DecidableEq ι]

/-- Take `x` off a list, and put it behind `a` if that is on it. -/
def moveBehind (x a : ι) (l : List ι) : List ι :=
  (l.erase x).flatMap fun y => if y = a then [y, x] else [y]

/-- Nothing is put behind what is not there. -/
theorem flatMap_behind_of_notMem {x a : ι} {l : List ι} (ha : a ∉ l) :
    (l.flatMap fun y => if y = a then [y, x] else [y]) = l := by
  induction l with
  | nil => rfl
  | cons y l ih =>
    have hya : y ≠ a := by
      rintro rfl
      exact ha List.mem_cons_self
    rw [List.flatMap_cons, if_neg hya, ih fun h => ha (List.mem_cons_of_mem y h)]
    rfl

/-- What is put behind something is put there once. -/
theorem perm_flatMap_behind {x a : ι} {l : List ι} (hl : l.Nodup) (ha : a ∈ l) :
    (l.flatMap fun y => if y = a then [y, x] else [y]).Perm (x :: l) := by
  induction l with
  | nil => exact absurd ha List.not_mem_nil
  | cons y l ih =>
    obtain ⟨hy, hl⟩ := List.nodup_cons.mp hl
    rw [List.flatMap_cons]
    by_cases hya : y = a
    · rw [if_pos hya, flatMap_behind_of_notMem (hya ▸ hy)]
      exact List.Perm.swap x y l
    · rw [if_neg hya]
      have hal := (List.mem_cons.mp ha).resolve_left (Ne.symm hya)
      exact ((ih hl hal).cons y).trans (List.Perm.swap x y l)

/-- **A move within a list reorders it.** -/
theorem perm_moveBehind {x a : ι} {l : List ι} (hl : l.Nodup) (hx : x ∈ l) (ha : a ∈ l)
    (hne : a ≠ x) : (moveBehind x a l).Perm l := by
  have ha' : a ∈ l.erase x := (List.mem_erase_of_ne hne).mpr ha
  exact (perm_flatMap_behind (hl.erase x) ha').trans (List.perm_cons_erase hx).symm

/-- A move elsewhere does nothing. -/
theorem moveBehind_of_notMem {x a : ι} {l : List ι} (hx : x ∉ l) (ha : a ∉ l) :
    moveBehind x a l = l := by
  unfold moveBehind
  rw [List.erase_of_not_mem hx]
  exact flatMap_behind_of_notMem ha
