import Mathlib.Data.Fintype.Card
import Mathlib.Data.List.FinRange

/-!
# Slots searched in one pass

A small table is an array of slots, and one pass over it looks for three things at
once: a slot that has the key, the first that is free, and the oldest of the others.
The pass stops at a slot with the key; what it has found otherwise, a slot that is free
or the oldest, is where a new entry goes. `SlotScan.outcome` says what the pass comes to,
and `UniqueKeys.update` that an entry which goes there keeps the keys apart.
-/

/-- **What a pass has found.** -/
structure SlotScan (ι : Type*) where
  hit : Option ι
  free : Option ι
  oldest : Option ι
  /-- The stamp of the oldest, or the limit that the pass started with. -/
  oldestStamp : ℕ

namespace SlotScan

variable {ι α : Type*} (isHit isFree : α → Bool) (stamp : α → ℕ) (slots : ι → α)

/-- A pass that starts. Only a slot with a stamp below the limit is found as oldest. -/
def start (limit : ℕ) : SlotScan ι := ⟨none, none, none, limit⟩

/-- **A pass over some slots.** -/
def scan (s : SlotScan ι) : List ι → SlotScan ι
  | [] => s
  | i :: is =>
    if isHit (slots i) then { s with hit := some i }
    else if isFree (slots i) then scan { s with free := s.free.or (some i) } is
    else if stamp (slots i) < s.oldestStamp then
      scan { s with oldest := some i, oldestStamp := stamp (slots i) } is
    else scan s is

/-- **What a pass comes to**: a hit, or a free slot, or the oldest of slots none of which
is free, or no slot at all because none is below the limit. -/
inductive Outcome (limit : ℕ) (r : SlotScan ι) : Prop
  | hit (i : ι) (hhit : r.hit = some i) (hslot : isHit (slots i) = true)
  | free (i : ι) (hhit : r.hit = none) (hfree : r.free = some i)
      (hmiss : ∀ j, isHit (slots j) = false) (hslot : isFree (slots i) = true)
  | oldest (i : ι) (hhit : r.hit = none) (hfree : r.free = none) (holdest : r.oldest = some i)
      (hmiss : ∀ j, isHit (slots j) = false) (hfull : ∀ j, isFree (slots j) = false)
      (hmin : ∀ j, stamp (slots i) ≤ stamp (slots j))
  | none (hhit : r.hit = none) (hfree : r.free = none) (holdest : r.oldest = none)
      (hmiss : ∀ j, isHit (slots j) = false) (hfull : ∀ j, isFree (slots j) = false)
      (hlimit : ∀ j, limit ≤ stamp (slots j))

/-- **What a pass knows** of the slots it has seen. -/
structure Knows (limit : ℕ) (s : SlotScan ι) (seen : ι → Prop) : Prop where
  hit : s.hit = none
  miss : ∀ i, seen i → isHit (slots i) = false
  free : ∀ i, s.free = some i → isFree (slots i) = true
  noFree : s.free = none → ∀ i, seen i → isFree (slots i) = false
  oldest : ∀ i, s.oldest = some i → stamp (slots i) = s.oldestStamp
  noOldest : s.oldest = none → s.oldestStamp = limit
  min : ∀ i, seen i → isFree (slots i) = false → s.oldestStamp ≤ stamp (slots i)

variable {isHit isFree stamp slots} {limit : ℕ} {s : SlotScan ι} {seen : ι → Prop}

theorem knows_start : Knows isHit isFree stamp slots limit (start limit) fun _ => False where
  hit := rfl
  miss _ h := h.elim
  free i h := absurd h.symm (Option.some_ne_none i)
  noFree _ _ h := h.elim
  oldest i h := absurd h.symm (Option.some_ne_none i)
  noOldest _ := rfl
  min _ h := h.elim

/-- A pass that has seen all slots. -/
theorem Knows.outcome (h : Knows isHit isFree stamp slots limit s fun _ => True) :
    Outcome isHit isFree stamp slots limit s := by
  have hmiss : ∀ i, isHit (slots i) = false := fun i => h.miss i trivial
  cases hfree : s.free with
  | some i => exact .free i h.hit hfree hmiss (h.free i hfree)
  | none =>
    have hfull : ∀ i, isFree (slots i) = false := fun i => h.noFree hfree i trivial
    have hmin : ∀ i, s.oldestStamp ≤ stamp (slots i) := fun i => h.min i trivial (hfull i)
    cases holdest : s.oldest with
    | some i =>
      refine .oldest i h.hit hfree holdest hmiss hfull fun j => ?_
      rw [h.oldest i holdest]
      exact hmin j
    | none =>
      refine .none h.hit hfree holdest hmiss hfull fun j => ?_
      rw [← h.noOldest holdest]
      exact hmin j

/-- One more slot that is not a hit. -/
theorem Knows.step {i : ι} (h : Knows isHit isFree stamp slots limit s seen)
    (hi : isHit (slots i) = false) :
    Knows isHit isFree stamp slots limit
      (if isFree (slots i) then { s with free := s.free.or (some i) }
        else if stamp (slots i) < s.oldestStamp then
          { s with oldest := some i, oldestStamp := stamp (slots i) }
        else s) fun j => j = i ∨ seen j := by
  have hmiss : ∀ j, j = i ∨ seen j → isHit (slots j) = false := by
    rintro j (rfl | hj)
    · exact hi
    · exact h.miss j hj
  split
  · next hfree =>
    refine ⟨h.hit, hmiss, fun j hj => ?_, fun hnone => ?_, h.oldest, h.noOldest, ?_⟩
    · cases hs : s.free with
      | some k =>
        rw [hs] at hj
        exact h.free j (hs.trans hj)
      | none =>
        rw [hs] at hj
        rwa [← Option.some.inj hj]
    · cases hs : s.free with
      | some k =>
        rw [hs] at hnone
        exact absurd hnone (Option.some_ne_none k)
      | none =>
        rw [hs] at hnone
        exact absurd hnone (Option.some_ne_none i)
    · rintro j (rfl | hj) hno
      · exact absurd (hno.symm.trans hfree) Bool.false_ne_true
      · exact h.min j hj hno
  · next hfree =>
    have hfull : s.free = none → ∀ j, j = i ∨ seen j → isFree (slots j) = false := by
      rintro hnone j (rfl | hj)
      · exact Bool.eq_false_iff.mpr hfree
      · exact h.noFree hnone j hj
    split
    · next holder =>
      refine ⟨h.hit, hmiss, h.free, hfull, fun j hj => ?_, fun hnone => ?_, ?_⟩
      · rw [Option.some.inj hj]
      · exact absurd hnone (Option.some_ne_none i)
      · rintro j (rfl | hj) hno
        · exact Nat.le_refl _
        · exact holder.le.trans (h.min j hj hno)
    · next holder =>
      refine ⟨h.hit, hmiss, h.free, hfull, h.oldest, h.noOldest, ?_⟩
      rintro j (rfl | hj) hno
      · exact Nat.not_lt.mp holder
      · exact h.min j hj hno

/-- A pass over the slots it has not seen. -/
theorem Knows.scan {is : List ι} (h : Knows isHit isFree stamp slots limit s seen)
    (hall : ∀ i, seen i ∨ i ∈ is) :
    Outcome isHit isFree stamp slots limit (s.scan isHit isFree stamp slots is) := by
  induction is generalizing s seen with
  | nil =>
    have hseen : (fun _ => True) = seen := by
      funext i
      exact propext ⟨fun _ => (hall i).resolve_right List.not_mem_nil, fun _ => trivial⟩
    rw [← hseen] at h
    exact h.outcome
  | cons i is ih =>
    have hrest : ∀ j, (j = i ∨ seen j) ∨ j ∈ is := by
      intro j
      rcases hall j with hj | hj
      · exact Or.inl (Or.inr hj)
      · exact (List.mem_cons.mp hj).imp_left Or.inl
    unfold SlotScan.scan
    split
    · next hi => exact .hit i rfl hi
    · next hi =>
      have hstep := ih (h.step (Bool.eq_false_iff.mpr hi)) hrest
      split
      · next hfree => rwa [if_pos hfree] at hstep
      · next hfree =>
        rw [if_neg hfree] at hstep
        split
        · next holder => rwa [if_pos holder] at hstep
        · next holder => rwa [if_neg holder] at hstep

/-- **A pass over all slots.** -/
theorem outcome {is : List ι} (hall : ∀ i, i ∈ is) (limit : ℕ) :
    Outcome isHit isFree stamp slots limit ((start limit).scan isHit isFree stamp slots is) :=
  knows_start.scan fun i => Or.inr (hall i)

end SlotScan

/-! ## Keys -/

/-- **No two slots in use have the same key.** -/
def UniqueKeys {ι α κ : Type*} (key : α → κ) (used : α → Prop) (slots : ι → α) : Prop :=
  ∀ i j, used (slots i) → used (slots j) → key (slots i) = key (slots j) → i = j

namespace UniqueKeys

variable {ι α κ : Type*} [DecidableEq ι] {key : α → κ} {used : α → Prop} {slots : ι → α}

/-- **An entry goes to a slot**, and the others in use have other keys. -/
theorem update (h : UniqueKeys key used slots) {i : ι} {x : α}
    (hother : used x → ∀ j, j ≠ i → used (slots j) → key (slots j) ≠ key x) :
    UniqueKeys key used (Function.update slots i x) := by
  intro j k hj hk heq
  by_cases hji : j = i
  · by_cases hki : k = i
    · rw [hji, hki]
    · rw [hji, Function.update_self, Function.update_of_ne hki] at heq
      rw [hji, Function.update_self] at hj
      rw [Function.update_of_ne hki] at hk
      exact absurd heq.symm (hother hj k hki hk)
  · by_cases hki : k = i
    · rw [hki, Function.update_self, Function.update_of_ne hji] at heq
      rw [hki, Function.update_self] at hk
      rw [Function.update_of_ne hji] at hj
      exact absurd heq (hother hk j hji hj)
    · rw [Function.update_of_ne hji, Function.update_of_ne hki] at heq
      rw [Function.update_of_ne hji] at hj
      rw [Function.update_of_ne hki] at hk
      exact h j k hj hk heq

/-- **The keys of all slots but one**, and one more, are as many as there are slots. -/
theorem card_others [Fintype ι] [DecidableEq κ] (h : UniqueKeys key used slots)
    (hfull : ∀ j, used (slots j)) {k : κ} (hmiss : ∀ j, used (slots j) → key (slots j) ≠ k)
    (i : ι) :
    (insert k ((Finset.univ.erase i).image fun j => key (slots j))).card = Fintype.card ι := by
  have hinj : Set.InjOn (fun j => key (slots j)) (Finset.univ.erase i : Finset ι) :=
    fun a _ b _ hab => h a b (hfull a) (hfull b) hab
  have hnot : k ∉ (Finset.univ.erase i).image fun j => key (slots j) := by
    intro hmem
    obtain ⟨j, -, hj⟩ := Finset.mem_image.mp hmem
    exact hmiss j (hfull j) hj
  rw [Finset.card_insert_of_notMem hnot, Finset.card_image_of_injOn hinj,
    Finset.card_erase_add_one (Finset.mem_univ i)]
  rfl

end UniqueKeys
