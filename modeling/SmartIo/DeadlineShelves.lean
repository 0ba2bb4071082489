import SmartIo.DeadlinePlaces
import SmartIo.Shelves
import SmartIo.ThrottleCards

/-!
# Lists and trees

A priority keeps a request that was inserted at the head on a list of its own,
and any other one twice: in the FIFO list of its direction, where a dispatch
finds it, and in the tree beside it, where a merge does. `Shelved` is what the
lists and the trees of a scheduler in order look like. Putting a request on a
list keeps the order if it is on none. Removing one takes it off whatever list it
is on, but only off the tree of the priority that is given
(`tree_removeRequest`), so that priority has to be the one the request is on.
-/

/-! ## Where to look -/

namespace DdPerPrio

/-- The lists of a priority: that of the requests inserted at the head, and a FIFO
list for either direction. -/
def listAt (p : DdPerPrio) : Option DataDir → List RqAddr
  | none => p.dispatch
  | some dir => p.fifoList dir

theorem holds_iff_listAt {p : DdPerPrio} {rq : RqAddr} :
    p.holds rq = true ↔ ∃ s, rq ∈ p.listAt s := by
  rw [holds_iff]
  constructor
  · rintro (h | h | h)
    · exact ⟨none, h⟩
    · exact ⟨some .read, h⟩
    · exact ⟨some .write, h⟩
  · rintro ⟨_ | _ | _, h⟩
    · exact Or.inl h
    · exact Or.inr (Or.inl h)
    · exact Or.inr (Or.inr h)

theorem listAt_listDel (p : DdPerPrio) (rq : RqAddr) (s : Option DataDir) :
    (p.listDel rq).listAt s = (p.listAt s).erase rq := by
  cases s <;> rfl

theorem listAt_listMove (p : DdPerPrio) (rq after : RqAddr) (s : Option DataDir) :
    (p.listMove rq after).listAt s = moveBehind rq after (p.listAt s) := by
  cases s <;> rfl

end DdPerPrio

namespace Deadline

variable {d d' : Deadline}

/-- A list of the scheduler. -/
def listAt (d : Deadline) (p : QueueClass × Option DataDir) : List RqAddr :=
  (d.perPrio p.1).listAt p.2

/-- A tree of the scheduler. -/
def tree (d : Deadline) (k : QueueClass) (dir : DataDir) : List RqAddr :=
  (d.perPrio k).sortList dir

theorem on_iff_listAt {k : QueueClass} {x : RqAddr} : d.On k x ↔ ∃ s, x ∈ d.listAt (k, s) :=
  DdPerPrio.holds_iff_listAt

/-- A request is on a list of the scheduler or on none. -/
theorem queued_iff_listAt {x : RqAddr} : d.queued x = true ↔ ∃ p, x ∈ d.listAt p := by
  rw [queued_iff]
  constructor
  · rintro ⟨k, hk⟩
    obtain ⟨s, hs⟩ := on_iff_listAt.mp hk
    exact ⟨(k, s), hs⟩
  · rintro ⟨⟨k, s⟩, hs⟩
    exact ⟨k, on_iff_listAt.mpr ⟨s, hs⟩⟩

theorem sorted_iff {x : RqAddr} : d.sorted x = true ↔ ∃ k dir, x ∈ d.tree k dir := by
  have hprio : ∀ k, d.sortedIn k x = true ↔ ∃ dir, x ∈ d.tree k dir := by
    intro k
    unfold sortedIn
    rw [Bool.or_eq_true, decide_eq_true_iff, decide_eq_true_iff]
    constructor
    · rintro (h | h)
      · exact ⟨.read, h⟩
      · exact ⟨.write, h⟩
    · rintro ⟨_ | _, h⟩
      · exact Or.inl h
      · exact Or.inr h
  unfold sorted
  rw [Bool.or_eq_true, Bool.or_eq_true, hprio, hprio, hprio]
  constructor
  · rintro ((h | h) | h)
    · exact ⟨.hp, h⟩
    · exact ⟨.rt, h⟩
    · exact ⟨.be, h⟩
  · rintro ⟨_ | _ | _, h⟩
    · exact Or.inl (Or.inl h)
    · exact Or.inl (Or.inr h)
    · exact Or.inr h

/-- A store to a priority that keeps its lists keeps all of them. -/
theorem listAt_setPrio {k : QueueClass} {q : DdPerPrio}
    (hd : q.dispatch = (d.perPrio k).dispatch) (hf : q.fifoList = (d.perPrio k).fifoList)
    (p : QueueClass × Option DataDir) : (d.setPrio k q).listAt p = d.listAt p := by
  obtain ⟨j, s⟩ := p
  show (Function.update d.perPrio k q j).listAt s = (d.perPrio j).listAt s
  by_cases hj : j = k
  · subst hj
    rw [Function.update_self]
    cases s with
    | none => exact hd
    | some dir => exact congrFun hf dir
  · rw [Function.update_of_ne hj]

/-- A store to a priority that keeps its trees keeps all of them. -/
theorem tree_setPrio {k : QueueClass} {q : DdPerPrio}
    (hs : q.sortList = (d.perPrio k).sortList) (j : QueueClass) (dir : DataDir) :
    (d.setPrio k q).tree j dir = d.tree j dir := by
  show (Function.update d.perPrio k q j).sortList dir = (d.perPrio j).sortList dir
  by_cases hj : j = k
  · subst hj
    rw [Function.update_self, hs]
  · rw [Function.update_of_ne hj]

/-- **Requests are shelved**: on one list at most, in the FIFO list of their own
direction, and in a tree exactly if they are in the FIFO list beside it. -/
structure Shelved (d : Deadline) : Prop where
  lists : Exclusive d.listAt
  dir : ∀ {x k e}, x ∈ d.listAt (k, some e) → dataDir (d.rq x) = e
  tree : ∀ k e, (d.tree k e).Perm (d.listAt (k, some e))

/-- Reordering lists and trees. -/
theorem Shelved.same (h : Shelved d) (hlist : ∀ p, (d'.listAt p).Perm (d.listAt p))
    (htree : ∀ k e, (d'.tree k e).Perm (d.tree k e))
    (hdir : ∀ x, d.queued x = true → dataDir (d'.rq x) = dataDir (d.rq x)) : Shelved d' where
  lists := h.lists.perm hlist
  dir := by
    intro x k e hx
    have hx' := (hlist _).mem_iff.mp hx
    rw [hdir x (queued_iff_listAt.mpr ⟨_, hx'⟩)]
    exact h.dir hx'
  tree := fun k e => (htree k e).trans ((h.tree k e).trans (hlist _).symm)

/-- A request in a tree is on the list beside it. -/
theorem Shelved.mem_list (h : Shelved d) {k : QueueClass} {e : DataDir} {x : RqAddr}
    (hx : x ∈ d.tree k e) : x ∈ d.listAt (k, some e) := (h.tree k e).mem_iff.mp hx

/-- A request is on the lists of one priority. -/
theorem Shelved.once (h : Shelved d) {j k : QueueClass} {x : RqAddr} (hj : d.On j x)
    (hk : d.On k x) : j = k := by
  obtain ⟨s, hs⟩ := on_iff_listAt.mp hj
  obtain ⟨t, ht⟩ := on_iff_listAt.mp hk
  exact congrArg Prod.fst (h.lists.once hs ht)

/-! ## Removing and enqueueing -/

theorem listAt_removeRequest (d : Deadline) (k : QueueClass) (rq : RqAddr)
    (p : QueueClass × Option DataDir) :
    (d.removeRequest k rq).listAt p = (d.listAt p).erase rq := by
  refine (listAt_setPrio ?_ ?_ p).trans (DdPerPrio.listAt_listDel _ rq p.2)
  · rfl
  · rfl

theorem tree_removeRequest (d : Deadline) (k : QueueClass) (rq : RqAddr) (j : QueueClass)
    (e : DataDir) :
    (d.removeRequest k rq).tree j e
      = if j = k ∧ e = dataDir (d.rq rq) then (d.tree j e).erase rq else d.tree j e := by
  show DdPerPrio.sortList (Function.update (fun i => (d.perPrio i).listDel rq) k _ j) e = _
  by_cases hj : j = k
  · subst hj
    rw [Function.update_self]
    show Function.update (d.perPrio j).sortList _ _ e = _
    by_cases he : e = dataDir (d.rq rq)
    · subst he
      rw [Function.update_self, if_pos ⟨rfl, rfl⟩]
      rfl
    · rw [Function.update_of_ne he, if_neg fun h => he h.2]
      rfl
  · rw [Function.update_of_ne hj, if_neg fun h => hj h.1]
    rfl

/-- The list a request is put on. -/
def shelf (d : Deadline) (k : QueueClass) (rq : RqAddr) (atHead : Bool) :
    QueueClass × Option DataDir :=
  (k, if atHead then none else some (dataDir (d.rq rq)))

theorem card_enqueue (d : Deadline) (k : QueueClass) (rq : RqAddr) (atHead : Bool)
    (jiffies : ℕ) (x : RqAddr) :
    (d.enqueue k rq atHead jiffies).throttle.card x = d.throttle.card x := by
  unfold enqueue
  dsimp only
  split
  · exact d.throttle.card_fifoTime rq jiffies x
  · exact d.throttle.card_fifoTime rq jiffies x

theorem dir_enqueue (d : Deadline) (k : QueueClass) (rq : RqAddr) (atHead : Bool)
    (jiffies : ℕ) (x : RqAddr) :
    dataDir ((d.enqueue k rq atHead jiffies).rq x) = dataDir (d.rq x) :=
  congrArg (fun c : RqCard => if c.op.code % 2 = 1 then DataDir.write else DataDir.read)
    (d.card_enqueue k rq atHead jiffies x)

theorem listAt_enqueue_of_ne (d : Deadline) {k : QueueClass} {rq : RqAddr} {atHead : Bool}
    (jiffies : ℕ) {p : QueueClass × Option DataDir} (hp : p ≠ d.shelf k rq atHead) :
    (d.enqueue k rq atHead jiffies).listAt p = d.listAt p := by
  obtain ⟨j, s⟩ := p
  unfold enqueue
  by_cases hj : j = k
  · subst hj
    cases atHead with
    | true =>
      show (Function.update d.perPrio j _ j).listAt s = _
      rw [Function.update_self]
      cases s with
      | none => exact absurd rfl hp
      | some e => rfl
    | false =>
      show (Function.update d.perPrio j _ j).listAt s = _
      rw [Function.update_self]
      cases s with
      | none => rfl
      | some e =>
        have he : e ≠ dataDir (d.rq rq) := by
          rintro rfl
          exact hp rfl
        exact Function.update_of_ne he _ _
  · cases atHead with
    | true =>
      show (Function.update d.perPrio k _ j).listAt s = _
      rw [Function.update_of_ne hj]
      rfl
    | false =>
      show (Function.update d.perPrio k _ j).listAt s = _
      rw [Function.update_of_ne hj]
      rfl

theorem listAt_enqueue_self (d : Deadline) (k : QueueClass) (rq : RqAddr) (atHead : Bool)
    (jiffies : ℕ) :
    ((d.enqueue k rq atHead jiffies).listAt (d.shelf k rq atHead)).Perm
      (rq :: d.listAt (d.shelf k rq atHead)) := by
  unfold enqueue
  cases atHead with
  | true =>
    show ((Function.update d.perPrio k _ k).listAt none).Perm _
    rw [Function.update_self]
    exact List.Perm.refl _
  | false =>
    show ((Function.update d.perPrio k _ k).listAt (some (dataDir (d.rq rq)))).Perm _
    rw [Function.update_self]
    show (Function.update (d.perPrio k).fifoList _ _ _).Perm _
    rw [Function.update_self]
    exact List.perm_append_singleton _ _

/-- **A request is put in the tree beside the list it is put on**, if that is a FIFO
list, and in no tree otherwise. -/
theorem tree_enqueue (d : Deadline) (k : QueueClass) (rq : RqAddr) (atHead : Bool)
    (jiffies : ℕ) (j : QueueClass) (e : DataDir) :
    (d.enqueue k rq atHead jiffies).tree j e
      = if (j, some e) = d.shelf k rq atHead then rq :: d.tree j e else d.tree j e := by
  unfold enqueue shelf
  cases atHead with
  | true =>
    refine (tree_setPrio ?_ j e).trans (if_neg fun h => ?_).symm
    · rfl
    · exact Option.some_ne_none e (Prod.mk.inj h).2
  | false =>
    show DdPerPrio.sortList (Function.update d.perPrio k _ j) e = _
    by_cases hj : j = k
    · subst hj
      rw [Function.update_self]
      show Function.update (d.perPrio j).sortList _ _ e = _
      by_cases he : e = dataDir (d.rq rq)
      · subst he
        rw [Function.update_self, if_pos (by simp)]
        rfl
      · rw [Function.update_of_ne he, if_neg (by simpa using he)]
        rfl
    · rw [Function.update_of_ne hj, if_neg (by simp [hj])]
      rfl

/-- **Putting a request on a list**, if it is on none. -/
theorem Shelved.enqueue (h : Shelved d) {rq : RqAddr} (hrq : d.queued rq = false)
    (k : QueueClass) (atHead : Bool) (jiffies : ℕ) :
    Shelved (d.enqueue k rq atHead jiffies) where
  lists := by
    refine h.lists.put (x := rq) (p := d.shelf k rq atHead) (fun q hq => ?_)
      (d.listAt_enqueue_self k rq atHead jiffies)
      (fun q hq => d.listAt_enqueue_of_ne jiffies hq)
    exact Bool.noConfusion ((queued_iff_listAt.mpr ⟨q, hq⟩).symm.trans hrq)
  dir := by
    intro x j e hx
    rw [dir_enqueue]
    by_cases hp : (j, some e) = d.shelf k rq atHead
    · rw [hp] at hx
      rcases List.mem_cons.mp ((d.listAt_enqueue_self k rq atHead jiffies).mem_iff.mp hx) with
        rfl | hx
      · unfold shelf at hp
        cases atHead with
        | true => simp at hp
        | false =>
          simp only [Bool.false_eq_true, if_false, Prod.mk.injEq, Option.some.injEq] at hp
          exact hp.2.symm
      · rw [← hp] at hx
        exact h.dir hx
    · rw [d.listAt_enqueue_of_ne jiffies hp] at hx
      exact h.dir hx
  tree := by
    intro j e
    rw [tree_enqueue]
    by_cases hp : (j, some e) = d.shelf k rq atHead
    · rw [if_pos hp, hp]
      refine List.Perm.trans ?_ (d.listAt_enqueue_self k rq atHead jiffies).symm
      rw [← hp]
      exact (h.tree j e).cons rq
    · rw [if_neg hp, d.listAt_enqueue_of_ne jiffies hp]
      exact h.tree j e

end Deadline
