import SmartIo.Deadline
import SmartIo.ThrottleClasses

/-!
# Where the requests of a scheduler are

A call of the scheduler is a few stores to its lists and a few lock sections of
the throttle. `path_step` says which sections these can be, so whatever the
sections keep, the calls keep: the throttle of a reachable scheduler is a
reachable throttle (`reachable_throttle`).

The lists are kept too: a request is on the lists of one priority at most, and
one on those of HP has the HP queue class recorded in its metadata, if it has
any (`Placed`). The queue class of a record is written when the request is
classified and stays as long as the request keeps the record; a record that is
taken into use at an issue is an HP one.
-/

/-! ## Requests with the metadata of HP -/

namespace Throttle

/-- **The metadata of a request, if there is any, is of the HP queue class.** -/
def HpMeta (w : Throttle) (rq : RqAddr) : Prop :=
  ∀ m, (w.rqs rq).priv1 = some m → (w.ctx.metaPool m).queueClass = .hp

/-- What a move must keep for that: a record of the request stays an HP one. -/
def HpIfOf (rq : RqAddr) (s : MetaStatus) : Prop := s.rq = some rq → s.queueClass = .hp

/-- A section whose move keeps the records of a request HP ones keeps its
metadata so. -/
theorem HpMeta.makes {w w' : Throttle} {rq : RqAddr} (hhp : w.HpMeta rq) (h : Accounted w)
    {mv : BooksMove} (hmk : Makes w mv w') (hmv : mv.Keeps (HpIfOf rq)) : w'.HpMeta rq := by
  have hrec : ∀ j, (w'.ctx.metaPool j).queueClass
      = ((w.ctx.books.make mv).ledger.record j).queueClass :=
    fun j => congrArg (fun b : Books => (b.ledger.record j).queueClass) hmk.books
  intro m hm
  rw [hrec]
  cases mv with
  | same => exact hhp m (hmk.2 rq m hm).1
  | post n f =>
    obtain ⟨hold, -⟩ := hmk.2 rq m hm
    obtain ⟨-, hown, -⟩ := h.priv rq m hold
    show ((w.ctx.books.post n _).ledger.record m).queueClass = _
    by_cases hmn : m = n
    · subst hmn
      rw [Books.post_ledger, Ledger.post_record_self]
      exact hmv _ (fun _ => hhp m hold) (hmk.1.owner.trans hown)
    · rw [Books.post_ledger, Ledger.post_record_of_ne _ _ _ hmn]
      exact hhp m hold
  | enter rq₀ n rest s =>
    obtain ⟨⟨hfree, hown, -, -⟩, hpriv⟩ := hmk
    show ((w.ctx.books.enter rq₀ n rest s).ledger.record m).queueClass = _
    rcases hpriv rq m hm with ⟨hold, -⟩ | ⟨rfl, rfl, -⟩
    · have hmn : m ≠ n := by
        rintro rfl
        exact h.books.balanced.notMem_live
          (show m ∈ w.ctx.freeMeta from hfree ▸ List.mem_cons_self) (h.priv rq m hold).1
      rw [Books.enter_ledger, Ledger.enter_record_of_ne _ _ _ _ hmn]
      exact hhp m hold
    · rw [Books.enter_ledger, Ledger.enter_record_self]
      exact hmv hown
  | leave n =>
    obtain ⟨-, hkept, hgone⟩ := hmk
    have hmn : m ≠ n := fun hmn => hgone rq (hmn ▸ hm)
    show ((w.ctx.books.leave n).ledger.record m).queueClass = _
    rw [Books.leave_ledger, Ledger.leave_record_of_ne _ _ _ hmn]
    exact hhp m (hkept rq m hm).1

/-- **Only a classification of the request itself can change it.** -/
theorem HpMeta.step {w : Throttle} {rq : RqAddr} (hhp : w.HpMeta rq) (h : Accounted w)
    {op : ThrottleOp} (hop : ∀ t nowNs, op ≠ .classifyRequest rq t nowNs) :
    (w.step op).1.HpMeta rq := by
  refine hhp.makes h (step_makes h op) ?_
  refine keeps_move ?_ (fun _ _ _ _ _ _ _ => rfl) (fun _ hs => hs) (fun _ hs => hs) ?_
    (fun _ hs => hs) (fun _ hs => hs) (fun _ hs => hs)
  · rintro rq' t nowNs rfl hrq
    obtain rfl := Option.some.inj hrq
    exact absurd rfl (hop t nowNs)
  · intro s hs
    unfold MetaStatus.reserve
    split <;> exact hs

/-- A request that is selected for HP has its metadata there. -/
theorem hpMeta_of_selectQueue {w : Throttle} {rq : RqAddr} {t : TaskCtx}
    (h : selectQueue w.ctx.metaPool w.globals t (w.rqs rq) = .hp) : w.HpMeta rq := by
  intro m hm
  unfold selectQueue at h
  rw [hm] at h
  exact h

end Throttle

/-! ## Lists of one priority -/

namespace DdPerPrio

theorem holds_iff {p : DdPerPrio} {rq : RqAddr} :
    p.holds rq = true ↔ rq ∈ p.dispatch ∨ rq ∈ p.fifoList .read ∨ rq ∈ p.fifoList .write := by
  unfold holds
  rw [Bool.or_eq_true, Bool.or_eq_true, decide_eq_true_iff, decide_eq_true_iff,
    decide_eq_true_iff, or_assoc]

/-- Only the lists matter, not the tree and the statistics. -/
theorem holds_congr {p q : DdPerPrio} (hd : p.dispatch = q.dispatch)
    (hf : p.fifoList = q.fifoList) (rq : RqAddr) : p.holds rq = q.holds rq := by
  unfold holds
  rw [hd, hf]

theorem holds_listDel {p : DdPerPrio} {rq x : RqAddr} (h : (p.listDel rq).holds x = true) :
    p.holds x = true := by
  rw [holds_iff] at h ⊢
  exact h.imp List.mem_of_mem_erase (Or.imp List.mem_of_mem_erase List.mem_of_mem_erase)

/-- **What is moved stands where the other request is.** -/
theorem holds_listMove {p : DdPerPrio} {rq after x : RqAddr}
    (h : (p.listMove rq after).holds x = true) :
    p.holds x = true ∨ x = rq ∧ p.holds after = true := by
  have hbehind (l : List RqAddr)
      (hx : x ∈ (l.erase rq).flatMap (fun y => if y = after then [y, rq] else [y])) :
      x ∈ l ∨ x = rq ∧ after ∈ l := by
    obtain ⟨y, hy, hxy⟩ := List.mem_flatMap.mp hx
    have hyl := List.mem_of_mem_erase hy
    split at hxy
    · rename_i hya
      subst hya
      rcases List.mem_cons.mp hxy with rfl | hxy
      · exact .inl hyl
      · exact .inr ⟨List.mem_singleton.mp hxy, hyl⟩
    · rw [List.mem_singleton.mp hxy]
      exact .inl hyl
  rw [holds_iff] at h
  rw [holds_iff, holds_iff]
  rcases h with h | h | h
  · exact (hbehind _ h).imp .inl (And.imp_right .inl)
  · exact (hbehind _ h).imp (fun h => .inr (.inl h)) (And.imp_right (fun h => .inr (.inl h)))
  · exact (hbehind _ h).imp (fun h => .inr (.inr h)) (And.imp_right (fun h => .inr (.inr h)))

/-- A request inserted at the head is the only new one. -/
theorem holds_insertHead {p : DdPerPrio} {rq x : RqAddr}
    (h : holds { p with dispatch := rq :: p.dispatch } x = true) : p.holds x = true ∨ x = rq := by
  rw [holds_iff] at h
  rw [holds_iff]
  rcases h with h | h
  · exact (List.mem_cons.mp h).symm.imp_left .inl
  · exact .inl (.inr h)

/-- A request put at the end of a FIFO list is the only new one. -/
theorem holds_appendFifo {p : DdPerPrio} {dir : DataDir} {tree : DataDir → List RqAddr}
    {rq x : RqAddr}
    (h : holds { p with
      sortList := tree
      fifoList := Function.update p.fifoList dir (p.fifoList dir ++ [rq]) } x = true) :
    p.holds x = true ∨ x = rq := by
  have hfifo (e : DataDir)
      (hx : x ∈ Function.update p.fifoList dir (p.fifoList dir ++ [rq]) e) :
      x ∈ p.fifoList e ∨ x = rq := by
    by_cases he : e = dir
    · subst he
      rw [Function.update_self] at hx
      exact (List.mem_append.mp hx).imp_right List.mem_singleton.mp
    · rw [Function.update_of_ne he] at hx
      exact .inl hx
  rw [holds_iff] at h
  rw [holds_iff]
  rcases h with h | h | h
  · exact .inl (.inl h)
  · exact (hfifo _ h).imp_left (fun h => .inr (.inl h))
  · exact (hfifo _ h).imp_left (fun h => .inr (.inr h))

/-- The first request of a priority is on one of its lists. -/
theorem holds_of_pick {p : DdPerPrio} {rqs : RqAddr → Request} {rq : RqAddr}
    (h : p.pick rqs = some rq) : p.holds rq = true := by
  rw [holds_iff]
  unfold pick at h
  cases hd : p.dispatch with
  | cons x rest =>
    rw [hd] at h
    obtain rfl := Option.some.inj h
    exact .inl List.mem_cons_self
  | nil =>
    rw [hd] at h
    cases hr : (p.fifoList .read).head? with
    | none =>
      rw [hr] at h
      exact .inr (.inr (List.mem_of_mem_head? h))
    | some readRq =>
      cases hw : (p.fifoList .write).head? with
      | none =>
        rw [hr, hw] at h
        obtain rfl := Option.some.inj h
        exact .inr (.inl (List.mem_of_mem_head? hr))
      | some writeRq =>
        rw [hr, hw] at h
        dsimp only at h
        split at h
        · obtain rfl := Option.some.inj h
          exact .inr (.inl (List.mem_of_mem_head? hr))
        · obtain rfl := Option.some.inj h
          exact .inr (.inr (List.mem_of_mem_head? hw))

end DdPerPrio

namespace Deadline

/-! ## The lock sections of a step -/

/-- **The lock sections that a step of the scheduler can be made of.** -/
def PartOf (d : Deadline) (op : DeadlineOp) : ThrottleOp → Prop
  | .classifyRequest rq _ _ => d.queued rq = false
  | .accountDispatch .. => ∃ slotFree nowNs, op = .dispatchRequest slotFree nowNs
  | .recordIssue rq t nowNs => op = .throttle (.recordIssue rq t nowNs)
  | _ => True

variable {d d' : Deadline}

/-- A path ends with one more section. -/
theorem path_throttled {P : ThrottleOp → Prop} {w : Throttle}
    (h : Throttle.machine.Path P w d.throttle) {op : ThrottleOp} (hop : P op) :
    Throttle.machine.Path P w (d.throttled op).throttle :=
  h.trans (.of_step hop)

theorem path_mergedRequests {P : ThrottleOp → Prop} {w : Throttle}
    (h : Throttle.machine.Path P w d.throttle) (hupdate : ∀ rq, P (.updateRequest rq))
    (hunqueue : ∀ rq, P (.unqueueRequest rq)) (hchange : ∀ rq r, P (.changeRequest rq r))
    (req next : RqAddr) (t : TaskCtx) :
    Throttle.machine.Path P w (d.mergedRequests req next t).throttle := by
  unfold mergedRequests
  have h₂ := path_throttled (path_throttled h (hupdate req)) (hunqueue next)
  dsimp only
  split
  · exact path_throttled (d := { perPrio := _, priv0 := _, throttle := _ }) h₂ (hchange _ _)
  · exact h₂

/-- After a request is given its metadata, it is only marked. -/
theorem path_classify {P : ThrottleOp → Prop} {w : Throttle} {rq : RqAddr} {t : TaskCtx}
    {nowNs : ℕ}
    (h : Throttle.machine.Path P w (d.throttled (.classifyRequest rq t nowNs)).throttle)
    (hchange : ∀ rq r, P (.changeRequest rq r)) :
    Throttle.machine.Path P w (d.classify rq t nowNs).throttle := by
  unfold classify
  dsimp only
  split <;> split
  · exact path_throttled h (hchange _ _)
  · exact path_throttled h (hchange _ _)
  · exact h
  · exact h

theorem path_enqueue {P : ThrottleOp → Prop} {w : Throttle}
    (h : Throttle.machine.Path P w d.throttle) (hchange : ∀ rq r, P (.changeRequest rq r))
    (prio : QueueClass) (rq : RqAddr) (atHead : Bool) (jiffies : ℕ) :
    Throttle.machine.Path P w (d.enqueue prio rq atHead jiffies).throttle := by
  unfold enqueue
  dsimp only
  split
  · exact path_throttled h (hchange _ _)
  · exact path_throttled h (hchange _ _)

@[simp] theorem dispatchFifo_throttle (d : Deadline) (prio : QueueClass) :
    (d.dispatchFifo prio).1.throttle = d.throttle := by
  unfold dispatchFifo
  split <;> rfl

theorem path_dispatchGated {P : ThrottleOp → Prop} {w : Throttle}
    (h : Throttle.machine.Path P w d.throttle) (hgate : P .nonHpAllowed) (prio : QueueClass) :
    Throttle.machine.Path P w (d.dispatchGated prio).1.throttle := by
  unfold dispatchGated
  dsimp only
  split
  · rw [dispatchFifo_throttle]
    exact path_throttled h hgate
  · exact path_throttled h hgate

theorem path_choose {P : ThrottleOp → Prop} {w : Throttle}
    (h : Throttle.machine.Path P w d.throttle) (hgate : P .nonHpAllowed) :
    Throttle.machine.Path P w (d.choose {}).1.throttle := by
  unfold choose
  have hhp : Throttle.machine.Path P w (d.dispatchFifo .hp).1.throttle := by
    rw [dispatchFifo_throttle]
    exact h
  generalize d.dispatchFifo .hp = p at hhp
  obtain ⟨d₁, _ | picked⟩ := p
  · have hrt := path_dispatchGated (d := d₁.meanwhile []) hhp hgate .rt
    dsimp only
    generalize (d₁.meanwhile []).dispatchGated .rt = q at hrt
    obtain ⟨d₂, _ | picked⟩ := q
    · exact path_dispatchGated (d := d₂.meanwhile []) hrt hgate .be
    · exact hrt
  · exact hhp

/-- The sections that calls of the scheduler run, beside a classification and the
account of a dispatch. -/
def inCall : ThrottleOp → Bool
  | .prepareRequest .. | .changeRequest .. | .updateRequest .. | .unqueueRequest ..
  | .dispatchModelIfNeeded .. | .nonHpAllowed | .finishRequest .. => true
  | _ => false

/-- **What every section of a step is**, one kind of call at a time. -/
theorem path_step_of {P : ThrottleOp → Prop} (d : Deadline) (op : DeadlineOp)
    (hclassify : ∀ rq atHead mergeInto t nowNs jiffies,
      op = .insertRequest rq atHead mergeInto t nowNs jiffies → d.queued rq = false →
      P (.classifyRequest rq t nowNs))
    (hdispatch : ∀ slotFree nowNs rq, op = .dispatchRequest slotFree nowNs →
      P (.accountDispatch rq .backgroundBaseline nowNs))
    (hthrottle : ∀ o, op = .throttle o → o.ofScheduler = false → P o)
    (hcall : ∀ o, inCall o = true → P o) :
    Throttle.machine.Path P d.throttle (d.step op).throttle := by
  have hchange : ∀ rq r, P (.changeRequest rq r) := fun _ _ => hcall _ rfl
  have hupdate : ∀ rq, P (.updateRequest rq) := fun _ => hcall _ rfl
  have hunqueue : ∀ rq, P (.unqueueRequest rq) := fun _ => hcall _ rfl
  cases op with
  | prepareRequest rq r =>
    show Throttle.machine.Path _ _ (if d.queued rq then d else _).throttle
    split
    · exact .refl
    · exact .of_step (hcall _ rfl)
  | insertRequest rq atHead mergeInto t nowNs jiffies =>
    simp only [step]
    split
    · exact .refl
    · rename_i hin
      have hout : d.queued rq = false := by
        rw [Bool.or_eq_true, Bool.or_eq_true, not_or, not_or] at hin
        exact Bool.not_eq_true _ ▸ hin.1.2
      have hclassified : Throttle.machine.Path P d.throttle (d.classify rq t nowNs).throttle :=
        path_classify (path_throttled .refl (hclassify _ _ _ _ _ _ rfl hout)) hchange
      unfold insertRequest
      dsimp only
      split
      · exact path_mergedRequests hclassified hupdate hunqueue hchange _ _ _
      · exact path_enqueue hclassified hchange _ _ _ _
  | requestMerged req front t =>
    simp only [step]
    split
    · unfold requestMerged
      dsimp only
      split
      · exact path_throttled (.refl) (hupdate req)
      · exact path_throttled (.refl) (hupdate req)
    · exact .refl
  | mergedRequests req next t =>
    simp only [step]
    split
    · exact path_mergedRequests .refl hupdate hunqueue hchange _ _ _
    · exact .refl
  | dispatchRequest slotFree nowNs =>
    have hchosen := path_choose
      (d := (d.throttled (.dispatchModelIfNeeded slotFree)).meanwhile [])
      (P := P) (w := d.throttle) (path_throttled .refl (hcall _ rfl)) (hcall _ rfl)
    simp only [step, dispatchRequest]
    split
    · exact hchosen
    · exact path_throttled (d := Deadline.meanwhile _ []) hchosen (hdispatch slotFree nowNs _ rfl)
  | finishRequest rq =>
    simp only [step]
    split
    · exact .refl
    · have hdone : (d.finishRequest rq).throttle = (d.throttled (.finishRequest rq)).throttle := by
        unfold finishRequest
        dsimp only
        split <;> rfl
      rw [hdone]
      exact .of_step (hcall _ rfl)
  | throttle op =>
    simp only [step]
    split
    · exact .refl
    · rename_i hop
      rw [Bool.or_eq_true, not_or] at hop
      exact .of_step (hthrottle op rfl (Bool.not_eq_true _ ▸ hop.1))

/-- **The sections of a step are parts of it.** -/
theorem path_step (d : Deadline) (op : DeadlineOp) :
    Throttle.machine.Path (d.PartOf op) d.throttle (d.step op).throttle := by
  refine d.path_step_of op (fun _ _ _ _ _ _ _ hout => hout)
    (fun slotFree nowNs _ hop => ⟨slotFree, nowNs, hop⟩) (fun o hop hsched => ?_)
    fun o hcall => ?_
  · cases o with
    | classifyRequest rq t nowNs => cases hsched
    | accountDispatch rq selection nowNs => cases hsched
    | recordIssue rq t nowNs => exact hop
    | _ => trivial
  · cases o with
    | classifyRequest rq t nowNs => cases hcall
    | accountDispatch rq selection nowNs => cases hcall
    | recordIssue rq t nowNs => cases hcall
    | _ => trivial

/-- **The throttle of a reachable scheduler is a reachable throttle.** -/
theorem reachable_throttle (h : machine.Reachable d) :
    Throttle.machine.Reachable d.throttle := by
  refine h.invariant (I := fun d => Throttle.machine.Reachable d.throttle) ?_
    (fun d op hdd => (d.path_step op).reachable hdd)
  rintro _ ⟨w, hw, rfl⟩
  exact .of_init hw

/-! ## The lists of a step -/

/-- Whether a request is on a list of a priority. -/
def On (d : Deadline) (prio : QueueClass) (rq : RqAddr) : Prop :=
  (d.perPrio prio).holds rq = true

theorem queued_iff {rq : RqAddr} : d.queued rq = true ↔ ∃ prio, d.On prio rq := by
  unfold queued
  rw [Bool.or_eq_true, Bool.or_eq_true]
  constructor
  · rintro ((h | h) | h)
    · exact ⟨.hp, h⟩
    · exact ⟨.rt, h⟩
    · exact ⟨.be, h⟩
  · rintro ⟨prio, h⟩
    cases prio with
    | hp => exact .inl (.inl h)
    | rt => exact .inl (.inr h)
    | be => exact .inr h

/-- A store to a priority is seen on its own lists only. -/
theorem on_setPrio_cases {prio k : QueueClass} {p : DdPerPrio} {x : RqAddr}
    (h : (d.setPrio prio p).On k x) : k = prio ∧ p.holds x = true ∨ d.On k x := by
  have h' : (Function.update d.perPrio prio p k).holds x = true := h
  by_cases hk : k = prio
  · subst hk
    rw [Function.update_self] at h'
    exact .inl ⟨rfl, h'⟩
  · rw [Function.update_of_ne hk] at h'
    exact .inr h'

/-- A store that keeps the lists of its priority keeps all of them. -/
theorem on_setPrio {prio k : QueueClass} {p : DdPerPrio} {x : RqAddr}
    (h : (d.setPrio prio p).On k x) (hd : p.dispatch = (d.perPrio prio).dispatch)
    (hf : p.fifoList = (d.perPrio prio).fifoList) : d.On k x := by
  rcases on_setPrio_cases h with ⟨rfl, hx⟩ | h
  · exact (DdPerPrio.holds_congr hd hf x).symm.trans hx
  · exact h

/-- **Removing a request puts none on a list.** -/
theorem on_removeRequest {prio k : QueueClass} {rq x : RqAddr}
    (h : (d.removeRequest prio rq).On k x) : d.On k x := by
  unfold removeRequest at h
  exact DdPerPrio.holds_listDel (on_setPrio h rfl rfl)

/-- **A merge puts the merged request, at most, where the other one is.** -/
theorem on_mergedRequests {req next x : RqAddr} {t : TaskCtx} {k : QueueClass}
    (h : (d.mergedRequests req next t).On k x) :
    d.On k x ∨ x = req ∧ d.On k next := by
  unfold mergedRequests at h
  have h' := on_removeRequest h
  dsimp only at h'
  split at h'
  · rcases DdPerPrio.holds_listMove h' with h' | ⟨hx, h'⟩
    · exact .inl (on_setPrio h' rfl rfl)
    · exact .inr ⟨hx, on_setPrio h' rfl rfl⟩
  · exact .inl (on_setPrio h' rfl rfl)

/-- Classifying a request leaves the lists alone. -/
theorem on_classify {rq x : RqAddr} {t : TaskCtx} {nowNs : ℕ} {k : QueueClass}
    (h : (d.classify rq t nowNs).On k x) : d.On k x := by
  unfold classify at h
  dsimp only at h
  split at h <;> split at h
  · exact on_setPrio h rfl rfl
  · exact h
  · exact on_setPrio h rfl rfl
  · exact h

/-- **A request is put on a list of one priority.** -/
theorem on_enqueue {prio k : QueueClass} {rq x : RqAddr} {atHead : Bool} {jiffies : ℕ}
    (h : (d.enqueue prio rq atHead jiffies).On k x) : d.On k x ∨ k = prio ∧ x = rq := by
  unfold enqueue at h
  dsimp only at h
  split at h
  · rcases on_setPrio_cases h with ⟨rfl, hx⟩ | h
    · exact (DdPerPrio.holds_insertHead hx).imp_right (And.intro rfl)
    · exact .inl h
  · rcases on_setPrio_cases h with ⟨rfl, hx⟩ | h
    · exact (DdPerPrio.holds_appendFifo hx).imp_right (And.intro rfl)
    · exact .inl h

theorem on_dispatchFifo {prio k : QueueClass} {x : RqAddr}
    (h : (d.dispatchFifo prio).1.On k x) : d.On k x := by
  unfold dispatchFifo at h
  split at h
  · exact h
  · exact on_removeRequest (on_setPrio h rfl rfl)

theorem on_dispatchGated {prio k : QueueClass} {x : RqAddr}
    (h : (d.dispatchGated prio).1.On k x) : d.On k x := by
  unfold dispatchGated at h
  dsimp only at h
  split at h
  · exact on_dispatchFifo (d := d.throttled .nonHpAllowed) h
  · exact h

theorem on_choose {i : Interference} {k : QueueClass} {x : RqAddr}
    (h : (d.choose i).1.On k x) : d.On k x := by
  unfold choose at h
  have hhp : (d.dispatchFifo .hp).1.On k x → d.On k x := on_dispatchFifo
  generalize d.dispatchFifo .hp = p at h hhp
  obtain ⟨d₁, _ | picked⟩ := p
  · have hrt : ((d₁.meanwhile i.beforeRt).dispatchGated .rt).1.On k x → d.On k x :=
      fun h => hhp (show (d₁.meanwhile i.beforeRt).On k x from on_dispatchGated h)
    dsimp only at h
    generalize (d₁.meanwhile i.beforeRt).dispatchGated .rt = q at h hrt
    obtain ⟨d₂, _ | picked⟩ := q
    · exact hrt (on_dispatchGated (d := d₂.meanwhile i.beforeBe) h)
    · exact hrt h
  · exact hhp h

/-- **A dispatch puts nothing on a list.** -/
theorem on_dispatchRequest {slotFree : Bool} {i : Interference} {nowNs : ℕ} {k : QueueClass}
    {x : RqAddr} (h : (d.dispatchRequest slotFree i nowNs).1.On k x) : d.On k x := by
  have hlists : (d.dispatchRequest slotFree i nowNs).1.perPrio
      = (((d.throttled (.dispatchModelIfNeeded slotFree)).meanwhile
        i.beforeLock).choose i).1.perPrio := by
    unfold dispatchRequest
    dsimp only
    split <;> rfl
  unfold On at h
  rw [hlists] at h
  exact on_choose (d := (d.throttled (.dispatchModelIfNeeded slotFree)).meanwhile i.beforeLock) h

/-! ## The invariant -/

/-- **Requests are placed**: on the lists of one priority at most, and on those of
HP only with metadata of HP, or with none. -/
structure Placed (d : Deadline) : Prop where
  once : ∀ rq p q, d.On p rq → d.On q rq → p = q
  hp : ∀ rq, d.On .hp rq → d.throttle.HpMeta rq

/-- A request on the lists of HP keeps its metadata of HP through any step: no step
classifies it. -/
theorem Placed.hpMeta_path (h : Placed d) (hacc : Throttle.Accounted d.throttle)
    {op : DeadlineOp} {w : Throttle}
    (hpath : Throttle.machine.Path (d.PartOf op) d.throttle w) {rq : RqAddr}
    (hrq : d.On .hp rq) : w.HpMeta rq := by
  refine (hpath.invariant (I := fun w => Throttle.Accounted w ∧ w.HpMeta rq) ?_
    ⟨hacc, h.hp rq hrq⟩).2
  rintro w o ho ⟨hw, hhp⟩
  refine ⟨hw.makes (Throttle.step_makes hw o), hhp.step hw ?_⟩
  rintro t nowNs rfl
  have hout : d.queued rq = false := ho
  exact Bool.noConfusion ((queued_iff.mpr ⟨_, hrq⟩).symm.trans hout)

/-- A step that puts nothing on a list keeps requests placed. -/
theorem Placed.mono (h : Placed d) (hacc : Throttle.Accounted d.throttle)
    (hon : ∀ k x, d'.On k x → d.On k x) {op : DeadlineOp}
    (hpath : Throttle.machine.Path (d.PartOf op) d.throttle d'.throttle) : Placed d' where
  once rq p q hp hq := h.once rq p q (hon p rq hp) (hon q rq hq)
  hp _ hrq := h.hpMeta_path hacc hpath (hon _ _ hrq)

/-- **Inserting a request places it**: one that is put on the lists of HP was
selected for HP after it had been classified. -/
theorem Placed.insertRequest (h : Placed d) (hacc : Throttle.Accounted d.throttle)
    {rq : RqAddr} (hrq : d.queued rq = false) (atHead : Bool) (mergeInto : Option RqAddr)
    (t : TaskCtx) (nowNs jiffies : ℕ)
    (hpath : Throttle.machine.Path
      (d.PartOf (.insertRequest rq atHead mergeInto t nowNs jiffies)) d.throttle
      (d.insertRequest rq atHead mergeInto t nowNs jiffies).throttle) :
    Placed (d.insertRequest rq atHead mergeInto t nowNs jiffies) := by
  have hnot : ∀ k, ¬ d.On k rq := fun k hk =>
    Bool.noConfusion ((queued_iff.mpr ⟨k, hk⟩).symm.trans hrq)
  generalize hprio : (d.throttled (.classifyRequest rq t nowNs)).selectPrio rq t = prio
  unfold Deadline.insertRequest at hpath ⊢
  dsimp only at hpath ⊢
  cases mergeInto with
  | some req =>
    -- the request goes into another one, and onto no list
    refine h.mono hacc (fun k x hx => ?_) hpath
    rcases on_mergedRequests hx with hx | ⟨-, hx⟩
    · exact on_classify hx
    · exact absurd (on_classify hx) (hnot k)
  | none =>
    rw [hprio] at hpath ⊢
    have hon : ∀ {k x}, ((d.classify rq t nowNs).enqueue prio rq atHead jiffies).On k x →
        d.On k x ∨ k = prio ∧ x = rq :=
      fun hx => (on_enqueue hx).imp_left on_classify
    refine ⟨fun x p q hp hq => ?_, fun x hx => ?_⟩
    · rcases hon hp with hp' | ⟨hp', rfl⟩
      · rcases hon hq with hq' | ⟨-, rfl⟩
        · exact h.once x p q hp' hq'
        · exact absurd hp' (hnot p)
      · rcases hon hq with hq' | ⟨hq', -⟩
        · exact absurd hq' (hnot q)
        · exact hp'.trans hq'.symm
    · rcases hon hx with hx' | ⟨rfl, rfl⟩
      · exact h.hpMeta_path hacc hpath hx'
      · -- its metadata is what the selection read, and nothing but its fields change
        have hw := hacc.makes (Throttle.step_makes hacc (.classifyRequest x t nowNs))
        have hchanges : Throttle.machine.Path (fun o => ∃ rq r, o = .changeRequest rq r)
            (d.throttled (.classifyRequest x t nowNs)).throttle
            ((d.classify x t nowNs).enqueue .hp x atHead jiffies).throttle :=
          path_enqueue (path_classify .refl (fun rq r => ⟨rq, r, rfl⟩))
            (fun rq r => ⟨rq, r, rfl⟩) _ _ _ _
        refine (hchanges.invariant (I := fun w => Throttle.Accounted w ∧ w.HpMeta x) ?_
          ⟨hw, Throttle.hpMeta_of_selectQueue hprio⟩).2
        rintro w _ ⟨rq, r, rfl⟩ ⟨hw, hhp⟩
        exact ⟨hw.makes (Throttle.step_makes hw _),
          hhp.step hw (fun _ _ h => ThrottleOp.noConfusion h)⟩

/-- **Every step keeps requests placed.** -/
theorem Placed.step (h : Placed d) (hacc : Throttle.Accounted d.throttle) (op : DeadlineOp) :
    Placed (d.step op) := by
  have hpath := d.path_step op
  cases op with
  | prepareRequest rq r =>
    refine h.mono hacc (fun k x hx => ?_) hpath
    simp only [Deadline.step] at hx
    split at hx <;> exact hx
  | insertRequest rq atHead mergeInto t nowNs jiffies =>
    simp only [Deadline.step] at hpath ⊢
    split at hpath
    · rename_i hin
      rw [if_pos hin]
      exact h
    · rename_i hin
      rw [if_neg hin]
      refine h.insertRequest hacc ?_ atHead mergeInto t nowNs jiffies hpath
      rw [Bool.or_eq_true, Bool.or_eq_true, not_or, not_or] at hin
      exact Bool.not_eq_true _ ▸ hin.1.2
  | requestMerged req front t =>
    refine h.mono hacc (fun k x hx => ?_) hpath
    simp only [Deadline.step] at hx
    split at hx
    · unfold requestMerged at hx
      dsimp only at hx
      split at hx
      · exact on_setPrio hx rfl rfl
      · exact hx
    · exact hx
  | mergedRequests req next t =>
    refine h.mono hacc (fun k x hx => ?_) hpath
    simp only [Deadline.step] at hx
    split at hx
    · rename_i hboth
      rcases on_mergedRequests hx with hx | ⟨rfl, hnext⟩
      · exact hx
      · -- `next` is where the two were, which is the only place it can be
        obtain ⟨-, prio, -, ⟨hreq, hnext'⟩, -⟩ := hboth
        rw [h.once next k prio hnext hnext']
        exact hreq
    · exact hx
  | dispatchRequest slotFree nowNs =>
    exact h.mono hacc (fun k x hx => on_dispatchRequest hx) hpath
  | finishRequest rq =>
    refine h.mono hacc (fun k x hx => ?_) hpath
    simp only [Deadline.step] at hx
    split at hx
    · exact hx
    · unfold finishRequest at hx
      dsimp only at hx
      split at hx
      · exact hx
      · exact on_setPrio hx rfl rfl
  | throttle op =>
    refine h.mono hacc (fun k x hx => ?_) hpath
    simp only [Deadline.step] at hx
    split at hx <;> exact hx

/-- **Requests are placed in every reachable state.** -/
theorem placed_of_reachable (h : machine.Reachable d) : Placed d := by
  have hboth : Throttle.Accounted d.throttle ∧ Placed d := by
    refine h.invariant (I := fun d => Throttle.Accounted d.throttle ∧ Placed d) ?_ ?_
    · rintro _ ⟨w, hw, rfl⟩
      refine ⟨Throttle.accounted_of_attached hw, fun rq p q hp => ?_, fun rq hrq => ?_⟩
      · exact absurd hp Bool.false_ne_true
      · exact absurd hrq Bool.false_ne_true
    · rintro d op ⟨hacc, hpl⟩
      refine ⟨?_, hpl.step hacc op⟩
      exact (d.path_step op).invariant (fun w o _ hw => hw.makes (Throttle.step_makes hw o)) hacc
  exact hboth.2

end Deadline
