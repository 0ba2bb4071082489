import Mathlib.Data.List.Perm.Basic
import Mathlib.Data.List.Nodup
import SmartIo.Counting

/-!
# Ledgers: a pool of records and the counters kept over them

A program takes records from a pool, gives them back, sets and clears flags in
the records in use, and keeps a counter for every flag it must count without
walking the records. A **ledger** is the state of such a program: the records
that are free, those that are live, what each record says, and one balance for
every account. An account is a test on records (`test k`), and the ledger is
**balanced** over a pool when its two lists share out the pool and every
balance is the number of live records that pass the test of its account.

There are three ways to change a ledger. Posting rewrites one live record and
moves every balance by what the rewrite does to its test (`post`), entering
takes a free record into use (`enter`), and leaving gives one back (`leave`).
All three keep a balanced ledger balanced, and posting twice to one record is
posting once (`Balanced.post_post`), so an operation that sets and clears flags
one by one can be summed up by the record it leaves.
-/

open Counting

variable {κ ι α : Type*}

/-- **A ledger**: the free and the live indices of a pool, the records, and one
balance for every account. -/
structure Ledger (κ ι α : Type*) where
  free : List ι
  live : List ι
  record : ι → α
  balance : κ → ℕ

namespace Ledger

/-- **Balanced over a pool**: the free and the live indices share out the pool,
and every balance is the number of live records that pass its test. -/
structure Balanced (test : κ → α → Bool) (pool : List ι) (L : Ledger κ ι α) :
    Prop where
  nodup : (L.free ++ L.live).Nodup
  perm : (L.free ++ L.live).Perm pool
  balance : ∀ k, L.balance k = countAt L.live L.record (test k)

/-! ## What balanced books say -/

namespace Balanced

variable {test : κ → α → Bool} {pool : List ι} {L : Ledger κ ι α} {i : ι}

/-- Live indices occur once. -/
theorem nodup_live (h : Balanced test pool L) : L.live.Nodup :=
  (List.nodup_append.mp h.nodup).2.1

/-- A free index is not live. -/
theorem notMem_live (h : Balanced test pool L) (hi : i ∈ L.free) : i ∉ L.live :=
  fun hl => (List.nodup_append.mp h.nodup).2.2 i hi i hl rfl

/-- The free and the live indices add up to the pool. -/
theorem length_add_length (h : Balanced test pool L) :
    L.live.length + L.free.length = pool.length := by
  have hp := h.perm.length_eq
  rw [List.length_append] at hp
  omega

/-- **The balance of a flag that a live record carries is not zero.** -/
theorem toNat_le_balance (h : Balanced test pool L) (hi : i ∈ L.live) (k : κ) :
    (test k (L.record i)).toNat ≤ L.balance k := by
  rw [h.balance k]
  cases hk : test k (L.record i) with
  | false => exact Nat.zero_le _
  | true => exact countAt_pos hi hk

/-- **The balance of a flag that a live record lacks is below the pool's
size.** -/
theorem balance_lt (h : Balanced test pool L) (hi : i ∈ L.live) {k : κ}
    (hk : test k (L.record i) = false) : L.balance k < pool.length := by
  rw [h.balance k]
  have hlt := countAt_lt_length hi hk
  have hlen := h.length_add_length
  omega

end Balanced

/-! ## Changing a ledger -/

variable [DecidableEq ι] (test : κ → α → Bool)

/-- Rewrite a record, and move every balance by the change of its test. -/
def post (L : Ledger κ ι α) (i : ι) (a : α) : Ledger κ ι α :=
  { L with
    record := Function.update L.record i a
    balance := fun k =>
      L.balance k + (test k a).toNat - (test k (L.record i)).toNat }

/-- Take a free index into use, with the record it starts with; `rest` is what
stays free. -/
def enter (L : Ledger κ ι α) (i : ι) (rest : List ι) (a : α) : Ledger κ ι α where
  free := rest
  live := i :: L.live
  record := Function.update L.record i a
  balance := fun k => L.balance k + (test k a).toNat

/-- Give a live index back, with the record it is left with. -/
def leave (L : Ledger κ ι α) (i : ι) (a : α) : Ledger κ ι α where
  free := L.free ++ [i]
  live := L.live.filter (fun j => j ≠ i)
  record := Function.update L.record i a
  balance := fun k => L.balance k - (test k (L.record i)).toNat

@[simp] theorem post_free (L : Ledger κ ι α) (i : ι) (a : α) :
    (L.post test i a).free = L.free := rfl

@[simp] theorem post_live (L : Ledger κ ι α) (i : ι) (a : α) :
    (L.post test i a).live = L.live := rfl

@[simp] theorem post_record_self (L : Ledger κ ι α) (i : ι) (a : α) :
    (L.post test i a).record i = a := by
  simp only [post, Function.update_self]

theorem post_record_of_ne (L : Ledger κ ι α) {i j : ι} (a : α) (h : j ≠ i) :
    (L.post test i a).record j = L.record j := by
  simp only [post, Function.update_of_ne h]

@[simp] theorem enter_record_self (L : Ledger κ ι α) (i : ι) (rest : List ι) (a : α) :
    (L.enter test i rest a).record i = a := by
  simp only [enter, Function.update_self]

theorem enter_record_of_ne (L : Ledger κ ι α) {i j : ι} (rest : List ι) (a : α)
    (h : j ≠ i) : (L.enter test i rest a).record j = L.record j := by
  simp only [enter, Function.update_of_ne h]

theorem leave_record_of_ne (L : Ledger κ ι α) {i j : ι} (a : α) (h : j ≠ i) :
    (L.leave test i a).record j = L.record j := by
  simp only [leave, Function.update_of_ne h]

/-- Posting what a record already says changes nothing. -/
@[simp] theorem post_self (L : Ledger κ ι α) (i : ι) :
    L.post test i (L.record i) = L := by
  unfold post
  rw [Function.update_eq_self]
  simp only [Nat.add_sub_cancel]

variable {test}

/-- A posting to an index just taken into use is what it could have started
with. -/
theorem enter_post (L : Ledger κ ι α) (i : ι) (rest : List ι) (a b : α) :
    (L.enter test i rest a).post test i b = L.enter test i rest b := by
  unfold post enter
  simp only [Function.update_idem, Function.update_self]
  congr 1
  funext k
  omega

/-- What was posted to an index does not matter once it leaves. -/
theorem post_leave (L : Ledger κ ι α) (i : ι) (a b : α) :
    (L.post test i a).leave test i b = L.leave test i b := by
  unfold post leave
  simp only [Function.update_idem, Function.update_self]
  congr 1
  funext k
  omega

/-- **Postings are compared by the record and the balances they leave.** The
side a program shows is a store to one record and an increment or a decrement
of a counter. -/
theorem eq_post {L L' : Ledger κ ι α} {i : ι} {a : α} (hfree : L'.free = L.free)
    (hlive : L'.live = L.live) (hrec : L'.record = Function.update L.record i a)
    (hbal : ∀ k, L'.balance k
      = L.balance k + (test k a).toNat - (test k (L.record i)).toNat) :
    L' = L.post test i a := by
  obtain ⟨free, live, record, balance⟩ := L'
  obtain rfl := hfree
  obtain rfl := hlive
  obtain rfl := hrec
  exact congrArg (Ledger.mk _ _ _) (funext hbal)

namespace Balanced

variable {pool : List ι} {L : Ledger κ ι α} {i : ι}

/-- **Posting keeps the books balanced.** -/
theorem post (h : Balanced test pool L) (hi : i ∈ L.live) (a : α) :
    Balanced test pool (L.post test i a) where
  nodup := h.nodup
  perm := h.perm
  balance k := by
    have hup := countAt_update h.nodup_live hi L.record a (test k)
    have hle := h.toNat_le_balance hi k
    have hk := h.balance k
    show L.balance k + _ - _ = countAt L.live (Function.update L.record i a) (test k)
    omega

/-- **Posting twice is posting once.** -/
theorem post_post (h : Balanced test pool L) (hi : i ∈ L.live) (a b : α) :
    (L.post test i a).post test i b = L.post test i b := by
  refine eq_post rfl rfl ?_ (fun k => ?_)
  · show Function.update (Function.update L.record i a) i b = _
    rw [Function.update_idem]
  · have hle := h.toNat_le_balance hi k
    show L.balance k + _ - _ + _ - (test k (Function.update L.record i a i)).toNat = _
    rw [Function.update_self]
    omega

/-- **Entering keeps the books balanced.** -/
theorem enter (h : Balanced test pool L) {rest : List ι} (hi : L.free = i :: rest)
    (a : α) : Balanced test pool (L.enter test i rest a) := by
  have hmove : (rest ++ i :: L.live).Perm (L.free ++ L.live) := by
    rw [hi]
    exact List.perm_middle
  have hlive : i ∉ L.live := h.notMem_live (hi ▸ List.mem_cons_self)
  refine ⟨hmove.nodup_iff.mpr h.nodup, hmove.trans h.perm, fun k => ?_⟩
  show L.balance k + _ = countAt (i :: L.live) (Function.update L.record i a) (test k)
  rw [countAt_cons, countAt_update_of_notMem hlive, Function.update_self, h.balance k]

/-- **Leaving keeps the books balanced.** -/
theorem leave (h : Balanced test pool L) (hi : i ∈ L.live) (a : α) :
    Balanced test pool (L.leave test i a) := by
  have hfil : L.live.filter (fun j => j ≠ i) = L.live.erase i := by
    rw [h.nodup_live.erase_eq_filter]
    exact List.filter_congr (fun j _ => by simp [bne, BEq.beq])
  have hmove : (L.free ++ [i] ++ L.live.filter (fun j => j ≠ i)).Perm
      (L.free ++ L.live) := by
    rw [hfil, List.append_assoc]
    exact (List.perm_cons_erase hi).symm.append_left L.free
  refine ⟨hmove.nodup_iff.mpr h.nodup, hmove.trans h.perm, fun k => ?_⟩
  have hdrop := countAt_filter_ne h.nodup_live hi L.record (test k)
  have hout : i ∉ L.live.filter (fun j => j ≠ i) := by
    simp
  show L.balance k - _
    = countAt (L.live.filter _) (Function.update L.record i a) (test k)
  rw [countAt_update_of_notMem hout, h.balance k]
  omega

end Balanced

end Ledger
