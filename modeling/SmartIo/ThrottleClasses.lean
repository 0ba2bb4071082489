import SmartIo.ThrottleAccounting

/-!
# The class of a request and its queue class

A metadata record says twice which kind of request it belongs to: its class,
which the statistics and the counters of waiting requests read, and its queue
class, which the selection of a queue, the background depth and the requeue of
the driver read. The two are written in different places. A classification
writes both; a record that `smart_io_throttle_record_issue` takes into use gets
a class for the queue it would have been given, and keeps the queue class that
`memset` left, which is the HP one.

So the two agree as long as no request of another queue is first seen at its
issue, and disagree from the first such request on (`classes_agree_iff`). What
the code builds on the agreement – that the background depth counts the
background class, and that no reader treats a background request as one of the
HP queue – holds and fails with it.
-/

open ThrottleCtx Counting

/-! ## Properties of every record in use -/

/-- **Every record in use has a property.** -/
def Books.Each (P : MetaStatus → Prop) (b : Books) : Prop :=
  ∀ m ∈ b.ledger.live, P (b.ledger.record m)

/-- A move keeps a property of records. -/
def BooksMove.Keeps (P : MetaStatus → Prop) : BooksMove → Prop
  | .post _ f => ∀ s, P s → P (f s)
  | .enter _ _ _ s => P s
  | _ => True

/-- **A move that keeps a property keeps it of every record.** -/
theorem Books.Each.make {P : MetaStatus → Prop} {b : Books} (h : b.Each P)
    {mv : BooksMove} (hmv : mv.Keeps P) : (b.make mv).Each P := by
  cases mv with
  | same => exact h
  | post m f =>
    intro n hn
    show P ((b.post m _).ledger.record n)
    by_cases hnm : n = m
    · subst hnm
      rw [Books.post_ledger, Ledger.post_record_self]
      exact hmv _ (h n hn)
    · rw [Books.post_ledger, Ledger.post_record_of_ne _ _ _ hnm]
      exact h n hn
  | enter rq m rest s =>
    intro n hn
    show P ((b.enter rq m rest s).ledger.record n)
    by_cases hnm : n = m
    · subst hnm
      rw [Books.enter_ledger, Ledger.enter_record_self]
      exact hmv
    · rw [Books.enter_ledger, Ledger.enter_record_of_ne _ _ _ _ hnm]
      exact h n ((List.mem_cons.mp hn).resolve_left hnm)
  | leave m =>
    intro n hn
    obtain ⟨hn, hnm⟩ := List.mem_filter.mp hn
    show P ((b.leave m).ledger.record n)
    rw [Books.leave_ledger, Ledger.leave_record_of_ne _ _ _ (by simpa using hnm)]
    exact h n hn

namespace MetaStatus

/-- The class is the class of the queue. -/
def Agrees (s : MetaStatus) : Prop := s.rqClass = classForQueue s.queueClass

/-- A reservation is a background one just when the queue is not the HP one. -/
def BgExact (s : MetaStatus) : Prop :=
  s.bgDepthAccounted = (s.depthAccounted && decide (s.queueClass ≠ .hp))

theorem BgExact.reserve {s : MetaStatus} (h : s.BgExact) : s.reserve.BgExact := by
  unfold MetaStatus.reserve
  split
  · exact h
  · show decide (s.queueClass ≠ .hp) = (true && decide (s.queueClass ≠ .hp))
    rw [Bool.true_and]

theorem Agrees.reserve {s : MetaStatus} (h : s.Agrees) : s.reserve.Agrees := by
  unfold MetaStatus.reserve
  split <;> exact h

/-- A record first seen at its issue agrees only on the HP queue. -/
theorem agrees_firstIssued {rq : RqAddr} {q : QueueClass} :
    (firstIssued rq q).Agrees ↔ q = .hp := by
  cases q <;> simp [Agrees, firstIssued, classForQueue]

end MetaStatus

namespace Throttle

/-- **A request of another queue is first seen at its issue.** -/
def FirstSeenAtIssue (w : Throttle) : ThrottleOp → Prop
  | .recordIssue rq t _ =>
    w.ctx.findMetaLocked rq = none ∧ w.ctx.freeMeta ≠ []
      ∧ selectQueue w.ctx.metaPool w.globals t (w.rqs rq) ≠ .hp
  | _ => False

/-- **What a move keeps**, read off the statuses a section writes: those of the two
ways to take a record into use, and of the five ways to rewrite one. -/
theorem keeps_move {w : Throttle} {op : ThrottleOp} {P : MetaStatus → Prop}
    (hclassified : ∀ rq t nowNs, op = .classifyRequest rq t nowNs →
      P (.classified rq (selectQueue w.ctx.metaPool w.globals t (w.rqs rq))))
    (hissued : ∀ rq t nowNs, op = .recordIssue rq t nowNs → w.ctx.findMetaLocked rq = none →
      w.ctx.freeMeta ≠ [] →
      P (.firstIssued rq (selectQueue w.ctx.metaPool w.globals t (w.rqs rq))))
    (henqueue : ∀ s, P s → P s.enqueue) (hunqueue : ∀ s, P s → P s.unqueue)
    (hreserve : ∀ s, P s → P s.reserve) (hforce : ∀ s, P s → P s.force)
    (hissue : ∀ s, P s → P s.issue) (hrelease : ∀ s, P s → P s.release) :
    (w.move op).Keeps P := by
  cases op with
  | classifyRequest rq t nowNs =>
    simp only [move, enterMove]
    split
    · exact henqueue
    · split
      · trivial
      · exact hclassified rq t nowNs rfl
  | unqueueRequest rq =>
    simp only [move]
    split
    · exact hunqueue
    · trivial
  | accountDispatch rq selection nowNs =>
    simp only [move]
    split
    · intro s hs
      unfold MetaStatus.dispatch
      split
      · exact hforce _ (hreserve _ (hunqueue s hs))
      · exact hreserve _ (hunqueue s hs)
    · trivial
  | finishRequest rq =>
    simp only [move]
    split <;> trivial
  | recordIssue rq t nowNs =>
    simp only [move, enterMove]
    split
    · exact fun s hs => hissue _ (hreserve s hs)
    · rename_i hfind
      split
      · trivial
      · rename_i m rest hfree
        exact hissued rq t nowNs rfl hfind (by rw [hfree]; simp)
  | recordRequeue rq =>
    simp only [move]
    split
    · exact hrelease
    · trivial
  | recordComplete rq nrBytes nowNs =>
    simp only [move]
    split
    · split <;> trivial
    · trivial
  | _ => trivial

/-- The moves of every section keep the background reservations exact. -/
theorem keeps_bgExact (w : Throttle) (op : ThrottleOp) :
    (w.move op).Keeps MetaStatus.BgExact :=
  keeps_move (fun _ _ _ _ => rfl) (fun _ _ _ _ _ _ => rfl) (fun _ h => h) (fun _ h => h)
    (fun _ h => h.reserve) (fun _ h => h) (fun _ h => h) (fun _ _ => rfl)

/-- **The moves of every section but one keep class and queue class agreed.** -/
theorem keeps_agrees {w : Throttle} {op : ThrottleOp} (hop : ¬ FirstSeenAtIssue w op) :
    (w.move op).Keeps MetaStatus.Agrees := by
  refine keeps_move (fun _ _ _ _ => rfl) ?_ (fun _ h => h) (fun _ h => h)
    (fun _ h => h.reserve) (fun _ h => h) (fun _ h => h) (fun _ h => h)
  rintro rq t nowNs rfl hfind hfree
  refine MetaStatus.agrees_firstIssued.mpr ?_
  by_contra hq
  exact hop ⟨hfind, hfree, hq⟩

/-! ## Agreement along a run -/

/-- The reservations of the background are counted by the queue class. -/
structure ClassBooks (w : Throttle) : Prop where
  accounted : Accounted w
  exact : w.ctx.books.Each MetaStatus.BgExact
  agrees : w.ctx.books.Each MetaStatus.Agrees

/-- **Class and queue class agree**, and what the code builds on it: the
background depth counts the background class, and a background request is never
treated as one of the HP queue – not when its queue is selected, not when its
depth is reserved, and not when the driver asks whether to requeue it. -/
structure ClassesAgree (w : Throttle) : Prop where
  agree : ∀ m ∈ w.ctx.activeMetas,
    (w.ctx.metaPool m).rqClass = classForQueue (w.ctx.metaPool m).queueClass
  bgDepth : w.ctx.bgCurrentDepth
    = countAt w.ctx.activeMetas w.ctx.metaPool
        (fun x => x.depthAccounted && decide (x.rqClass = .background))
  select : ∀ rq m t, (w.rqs rq).priv1 = some m →
    (w.ctx.metaPool m).rqClass = .background →
    selectQueue w.ctx.metaPool w.globals t (w.rqs rq) ≠ .hp
  reserve : ∀ m ∈ w.ctx.activeMetas, (w.ctx.metaPool m).rqClass = .background →
    (w.ctx.metaPool m).depthAccounted = false →
    (w.ctx.accountDepthLocked m).1.bgCurrentDepth = w.ctx.bgCurrentDepth + 1
  requeue : ∀ rq m, w.ctx.findMetaLocked rq = some m →
    (w.ctx.metaPool m).rqClass = .background →
    w.ufsShouldRequeue rq
      = (w.globals.throttleEnabled && w.globals.queueRqThrottleDemo
        && w.ctx.control.throttleActive && w.ctx.control.actionValid
        && !w.ctx.control.inferencePending
        && decide (w.ctx.control.action.level ≠ .no)
        && decide (w.ctx.control.action.targetDepth < w.ctx.bgCurrentDepth))

/-- Agreement of the records, and all that follows. -/
theorem classesAgree_of_books {w : Throttle} (h : ClassBooks w) : ClassesAgree w := by
  have hbg : ∀ m ∈ w.ctx.activeMetas, (w.ctx.metaPool m).rqClass = .background →
      (w.ctx.metaPool m).queueClass ≠ .hp := by
    intro m hm hc
    exact classForQueue_eq_background.mp ((h.agrees m hm).symm.trans hc)
  refine ⟨h.agrees, ?_, ?_, ?_, ?_⟩
  · rw [show w.ctx.bgCurrentDepth = countAt w.ctx.activeMetas w.ctx.metaPool
      (·.bgDepthAccounted) from h.accounted.books.balanced.balance .bgCurrentDepth]
    refine List.countP_congr (fun m hm => ?_)
    have hexact : (w.ctx.metaPool m).bgDepthAccounted
        = ((w.ctx.metaPool m).depthAccounted
          && decide ((w.ctx.metaPool m).queueClass ≠ .hp)) := h.exact m hm
    have hiff : ((w.ctx.metaPool m).rqClass = .background)
        ↔ (w.ctx.metaPool m).queueClass ≠ .hp :=
      ⟨hbg m hm, fun hq => (h.agrees m hm).trans (classForQueue_eq_background.mpr hq)⟩
    show (w.ctx.metaPool m).bgDepthAccounted = true ↔ _
    rw [hexact, ← decide_eq_decide.mpr hiff]
  · intro rq m t hpriv hc
    unfold selectQueue
    rw [hpriv]
    exact hbg m (h.accounted.priv rq m hpriv).1 hc
  · intro m hm hc hd
    rw [accountDepthLocked_eq h.accounted.books hm, if_neg (by rw [hd]; simp)]
    show w.ctx.bgCurrentDepth + (decide ((w.ctx.metaPool m).queueClass ≠ .hp)).toNat = _
    rw [decide_eq_true (hbg m hm hc)]
    rfl
  · intro rq m hfind hc
    have hq := hbg m (findMetaLocked_some hfind).1 hc
    unfold ufsShouldRequeue
    dsimp only
    rw [hfind]
    dsimp only
    rw [decide_eq_true hq, Bool.and_true]
    cases w.globals.throttleEnabled <;> cases w.globals.queueRqThrottleDemo <;> simp

/-- A section that meets the condition keeps the books of the classes. -/
theorem classBooks_step {w : Throttle} {op : ThrottleOp} (h : ClassBooks w)
    (hop : ¬ FirstSeenAtIssue w op) : ClassBooks (w.step op).1 := by
  have hmk := step_makes h.accounted op
  refine ⟨h.accounted.makes hmk, ?_, ?_⟩
  · rw [hmk.books]
    exact h.exact.make (keeps_bgExact w op)
  · rw [hmk.books]
    exact h.agrees.make (keeps_agrees hop)

/-- A section that misses it leaves a record that says two things. -/
theorem not_classesAgree_step {w : Throttle} {op : ThrottleOp} (h : Accounted w)
    (hop : FirstSeenAtIssue w op) : ¬ ClassesAgree (w.step op).1 := by
  intro hag
  have hbooks := (step_makes h op).books
  cases op with
  | recordIssue rq t nowNs =>
    obtain ⟨hfind, hne, hq⟩ := hop
    cases hfree : w.ctx.freeMeta with
    | nil => exact hne hfree
    | cons m rest =>
      simp only [move, enterMove, hfind, hfree] at hbooks
      have hlive : m ∈ (w.step (.recordIssue rq t nowNs)).1.ctx.activeMetas := by
        show m ∈ (w.step (.recordIssue rq t nowNs)).1.ctx.books.ledger.live
        rw [hbooks]
        exact List.mem_cons_self
      have hst : ((w.step (.recordIssue rq t nowNs)).1.ctx.metaPool m).status
          = .firstIssued rq (selectQueue w.ctx.metaPool w.globals t (w.rqs rq)) := by
        show (w.step (.recordIssue rq t nowNs)).1.ctx.books.ledger.record m = _
        rw [hbooks]
        exact Ledger.enter_record_self _ _ _ _ _
      have hm : ((w.step (.recordIssue rq t nowNs)).1.ctx.metaPool m).status.Agrees :=
        hag.agree m hlive
      rw [hst] at hm
      exact hq (MetaStatus.agrees_firstIssued.mp hm)
  | _ => exact hop

/-- No record is in use when a throttle is attached. -/
theorem notMem_of_attached {w : Throttle} (h : Attached w) (m : MetaId) :
    m ∉ w.ctx.activeMetas := by
  obtain ⟨q, n, -, hctx⟩ := h.ctx
  rw [hctx]
  exact List.not_mem_nil

theorem classBooks_of_attached {w : Throttle} (h : Attached w) : ClassBooks w :=
  ⟨accounted_of_attached h, fun m hm => absurd hm (notMem_of_attached h m),
    fun m hm => absurd hm (notMem_of_attached h m)⟩

/-- **Class and queue class agree in every state of a run just when no step of it
first sees a request of another queue than the HP one at its issue.** -/
theorem classes_agree_iff {w : Throttle} (h : Attached w) (ops : List ThrottleOp) :
    machine.StatesMeet ClassesAgree w ops
      ↔ machine.StepsMeet (fun w op => ¬ FirstSeenAtIssue w op) w ops :=
  StepMachine.statesMeet_iff_stepsMeet (M := machine) (I := ClassBooks)
    (fun _ hI => classesAgree_of_books hI) (fun _ _ hI hC => classBooks_step hI hC)
    (fun _ _ hI hC => not_classesAgree_step hI.accounted (not_not.mp hC))
    (classBooks_of_attached h) ops

/-- An unscheduled request of the BE queue that is first seen at its issue: its
class is background and its queue class is the HP one. -/
theorem classes_disagree_after_issue :
    machine.Reachable (machine.run (attach 2 [])
        [.recordIssue 7 { uid := 0, pid := 0, comm := [] } 1])
      ∧ ¬ ClassesAgree (machine.run (attach 2 [])
        [.recordIssue 7 { uid := 0, pid := 0, comm := [] } 1]) := by
  refine ⟨reachable_attach [] _, fun hag => ?_⟩
  exact absurd (hag.agree 0 (by decide +kernel)) (by decide +kernel)

/-- A classified request that is dispatched and issued. -/
theorem classes_agree_iff_dispatched :
    machine.StatesMeet ClassesAgree (attach 2 [])
      [.prepareRequest 7 { Request.zero with useSched := true },
        .classifyRequest 7 { uid := 0, pid := 0, comm := [] } 1,
        .accountDispatch 7 .backgroundBaseline 2,
        .recordIssue 7 { uid := 0, pid := 0, comm := [] } 3] :=
  (classes_agree_iff (attached_attach Nat.one_ne_zero Nat.one_ne_zero (by decide) [])
    _).mpr ⟨not_false, not_false, not_false, fun h => absurd h.1 (by decide +kernel), trivial⟩

end Throttle
