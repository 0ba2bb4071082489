import SmartIo.Ledger
import SmartIo.ThrottleCtx

/-!
# The books of the throttle

The throttle keeps six counters over the metadata in use – the reserved depth,
its background part, the issued depth, the waiting requests of either class and
the forced deadline – and moves them by hand, in a dozen helpers, each guarded
by a flag of the record. The **books** of a context are the ledger of these
counters over the flags, and the claim of every helper is one posting: the
guards and the anomaly branches of the source do not matter while the books are
sound, because a flag that is set has its unit in the counter
(`Books.Sound.toNat_le_counter`) and a flag that is clear has room for one
(`Books.Sound.counter_lt`).

The lemmas `books_…` say for each helper what it does to the books. A helper
that moves no counter leaves them alone, whatever else it changes; these are
simplification rules.
-/

/-! ## Statuses and counters -/

/-- What the books record of a metadata record: whose it is, its classes, and
the flags that are counted. -/
structure MetaStatus where
  rq : Option RqAddr
  rqClass : RqClass
  queueClass : QueueClass
  queued : Bool
  depthAccounted : Bool
  bgDepthAccounted : Bool
  issuedAccounted : Bool
  deadlineForced : Bool
deriving DecidableEq, Repr

/-- The status of a metadata record. -/
def RqMeta.status (x : RqMeta) : MetaStatus where
  rq := x.rq
  rqClass := x.rqClass
  queueClass := x.queueClass
  queued := x.queued
  depthAccounted := x.depthAccounted
  bgDepthAccounted := x.bgDepthAccounted
  issuedAccounted := x.issuedAccounted
  deadlineForced := x.deadlineForced

namespace MetaStatus

/-- A background reservation is a reservation. -/
def BgReserved (s : MetaStatus) : Prop :=
  s.bgDepthAccounted = true → s.depthAccounted = true

/-- Waiting in a queue. -/
def enqueue (s : MetaStatus) : MetaStatus := { s with queued := true }

/-- No longer waiting. -/
def unqueue (s : MetaStatus) : MetaStatus := { s with queued := false }

/-- Reserve depth, unless it is reserved already. -/
def reserve (s : MetaStatus) : MetaStatus :=
  if s.depthAccounted then s
  else { s with depthAccounted := true, bgDepthAccounted := decide (s.queueClass ≠ .hp) }

/-- Give the reserved depth back. -/
def unreserve (s : MetaStatus) : MetaStatus :=
  { s with depthAccounted := false, bgDepthAccounted := false }

/-- Count as issued. -/
def issue (s : MetaStatus) : MetaStatus := { s with issuedAccounted := true }

/-- No longer count as issued. -/
def unissue (s : MetaStatus) : MetaStatus := { s with issuedAccounted := false }

/-- Hold the forced deadline. -/
def force (s : MetaStatus) : MetaStatus := { s with deadlineForced := true }

/-- Give the forced deadline back. -/
def unforce (s : MetaStatus) : MetaStatus := { s with deadlineForced := false }

/-- Give back everything a dispatched request holds. -/
def release (s : MetaStatus) : MetaStatus := s.unforce.unissue.unreserve

end MetaStatus

/-- The counters the throttle keeps over its metadata. -/
inductive Counter where
  | currentDepth
  | bgCurrentDepth
  | issuedDepth
  | pendingFg
  | pendingBg
  | deadlineForcedActive
deriving DecidableEq, Repr

/-- What a counter counts. -/
def Counter.test : Counter → MetaStatus → Bool
  | .currentDepth, s => s.depthAccounted
  | .bgCurrentDepth, s => s.bgDepthAccounted
  | .issuedDepth, s => s.issuedAccounted
  | .pendingFg, s => s.queued && decide (s.rqClass = .foreground)
  | .pendingBg, s => s.queued && decide (s.rqClass = .background)
  | .deadlineForcedActive, s => s.deadlineForced

/-- The counter of the waiting requests of a class. -/
def Counter.pending : RqClass → Counter
  | .foreground => .pendingFg
  | .background => .pendingBg

/-! ## Books -/

/-- **The books of a throttle context**: the ledger of its counters, and the
active table with the pool's two numbers. -/
structure Books where
  ledger : Ledger Counter MetaId MetaStatus
  table : ChainTable RqAddr MetaId
  inuse : ℕ
  capacity : ℕ

namespace Books

/-- Rewrite the status of a record in use. -/
def post (b : Books) (m : MetaId) (s : MetaStatus) : Books :=
  { b with ledger := b.ledger.post Counter.test m s }

/-- Take a free record into use for a request. -/
def enter (b : Books) (rq : RqAddr) (m : MetaId) (rest : List MetaId)
    (s : MetaStatus) : Books where
  ledger := b.ledger.enter Counter.test m rest s
  table := b.table.add rq m
  inuse := b.inuse + 1
  capacity := b.capacity

/-- Give a record back. -/
def leave (b : Books) (m : MetaId) : Books where
  ledger := b.ledger.leave Counter.test m RqMeta.zero.status
  table := b.table.del m
  inuse := b.inuse - 1
  capacity := b.capacity

/-- **Sound books**: the free list and the active table share out the pool, each
counter counts its flag, a background reservation is a reservation, and every
record in the table belongs to the request it is filed under. -/
structure Sound (b : Books) : Prop where
  balanced : b.ledger.Balanced Counter.test (List.range b.capacity)
  live : b.ledger.live = b.table.all
  inuse : b.inuse = b.ledger.live.length
  capacity : b.capacity ≤ u32Max
  reserved : ∀ m ∈ b.ledger.live, (b.ledger.record m).BgReserved
  keys : ∀ e ∈ b.table, (b.ledger.record e.2).rq = some e.1

@[simp] theorem post_ledger (b : Books) (m : MetaId) (s : MetaStatus) :
    (b.post m s).ledger = b.ledger.post Counter.test m s := rfl

@[simp] theorem enter_ledger (b : Books) (rq : RqAddr) (m : MetaId)
    (rest : List MetaId) (s : MetaStatus) :
    (b.enter rq m rest s).ledger = b.ledger.enter Counter.test m rest s := rfl

@[simp] theorem leave_ledger (b : Books) (m : MetaId) :
    (b.leave m).ledger = b.ledger.leave Counter.test m RqMeta.zero.status := rfl

@[simp] theorem post_self (b : Books) (m : MetaId) :
    b.post m (b.ledger.record m) = b :=
  congrArg (fun l => { b with ledger := l }) (b.ledger.post_self Counter.test m)

/-- What was posted to a record does not matter once it is given back. -/
theorem post_leave (b : Books) (m : MetaId) (s : MetaStatus) :
    (b.post m s).leave m = b.leave m :=
  congrArg (fun l => { b.leave m with ledger := l }) (b.ledger.post_leave m s _)

/-- Taking a record into use and posting to it is taking it into use. -/
theorem enter_post (b : Books) (rq : RqAddr) (m : MetaId) (rest : List MetaId)
    (s t : MetaStatus) : (b.enter rq m rest s).post m t = b.enter rq m rest t :=
  congrArg (fun l => { b.enter rq m rest s with ledger := l })
    (b.ledger.enter_post m rest s t)

namespace Sound

variable {b : Books} {m : MetaId}

/-- A flag that is set has its unit in the counter. -/
theorem toNat_le_counter (h : b.Sound) (hm : m ∈ b.ledger.live) (k : Counter) :
    (k.test (b.ledger.record m)).toNat ≤ b.ledger.balance k :=
  h.balanced.toNat_le_balance hm k

/-- **A flag that is clear leaves room in the counter.** -/
theorem counter_lt (h : b.Sound) (hm : m ∈ b.ledger.live) {k : Counter}
    (hk : k.test (b.ledger.record m) = false) : b.ledger.balance k < u32Max := by
  have hlt := h.balanced.balance_lt hm hk
  rw [List.length_range] at hlt
  exact hlt.trans_le h.capacity

/-- **No count exceeds the pool**, whose size is a `u32`. -/
theorem countAt_le (h : b.Sound) (p : MetaStatus → Bool) :
    Counting.countAt b.ledger.live b.ledger.record p ≤ u32Max := by
  have hlen := h.balanced.length_add_length
  rw [List.length_range] at hlen
  exact (Counting.countAt_le_length _ _ _).trans
    ((Nat.le_add_right _ _).trans (hlen.le.trans h.capacity))

/-- A counter is a `u32`. -/
theorem balance_le (h : b.Sound) (k : Counter) : b.ledger.balance k ≤ u32Max :=
  (h.balanced.balance k).trans_le (h.countAt_le _)

/-- A record in use makes the number of records in use positive. -/
theorem inuse_pos (h : b.Sound) (hm : m ∈ b.ledger.live) : b.inuse ≠ 0 := by
  rw [h.inuse]
  exact (List.length_pos_of_mem hm).ne'

/-- **A posting keeps the books sound** if the record stays with its request. -/
theorem post (h : b.Sound) (hm : m ∈ b.ledger.live) {s : MetaStatus}
    (hrq : s.rq = (b.ledger.record m).rq) (hs : s.BgReserved) :
    (b.post m s).Sound where
  balanced := h.balanced.post hm s
  live := h.live
  inuse := h.inuse
  capacity := h.capacity
  reserved := by
    intro j hj
    by_cases hjm : j = m
    · subst hjm
      rw [post_ledger, Ledger.post_record_self]
      exact hs
    · rw [post_ledger, Ledger.post_record_of_ne _ _ s hjm]
      exact h.reserved j hj
  keys := by
    intro e he
    by_cases hem : e.2 = m
    · rw [hem, post_ledger, Ledger.post_record_self, hrq, ← hem]
      exact h.keys e he
    · rw [post_ledger, Ledger.post_record_of_ne _ _ s hem]
      exact h.keys e he

/-- Posting twice to a record in use is posting once. -/
theorem post_post (h : b.Sound) (hm : m ∈ b.ledger.live) (s t : MetaStatus) :
    (b.post m s).post m t = b.post m t :=
  congrArg (fun l => { b with ledger := l }) (h.balanced.post_post hm s t)

/-- **Taking a record into use keeps the books sound.** -/
theorem enter (h : b.Sound) {rest : List MetaId} (hfree : b.ledger.free = m :: rest)
    {rq : RqAddr} {s : MetaStatus} (hrq : s.rq = some rq) (hs : s.BgReserved) :
    (b.enter rq m rest s).Sound where
  balanced := h.balanced.enter hfree s
  live := congrArg (m :: ·) h.live
  inuse := congrArg (· + 1) h.inuse
  capacity := h.capacity
  reserved := by
    intro j hj
    by_cases hjm : j = m
    · subst hjm
      rw [enter_ledger, Ledger.enter_record_self]
      exact hs
    · rw [enter_ledger, Ledger.enter_record_of_ne _ _ _ s hjm]
      exact h.reserved j ((List.mem_cons.mp hj).resolve_left hjm)
  keys := by
    intro e he
    have hnot : m ∉ b.ledger.live := h.balanced.notMem_live (hfree ▸ List.mem_cons_self)
    rcases List.mem_cons.mp he with rfl | he
    · rw [enter_ledger, Ledger.enter_record_self]
      exact hrq
    · have hem : e.2 ≠ m := fun hem =>
        hnot (h.live ▸ hem ▸ List.mem_map_of_mem (f := Prod.snd) he)
      rw [enter_ledger, Ledger.enter_record_of_ne _ _ _ s hem]
      exact h.keys e he

/-- **Giving a record back keeps the books sound.** -/
theorem leave (h : b.Sound) (hm : m ∈ b.ledger.live) : (b.leave m).Sound where
  balanced := h.balanced.leave hm _
  live := by
    show b.ledger.live.filter _ = (b.table.del m).all
    rw [ChainTable.all_del, h.live]
  inuse := by
    show b.inuse - 1 = (b.ledger.live.filter (fun j => j ≠ m)).length
    rw [h.inuse, ← Counting.length_filter_ne h.balanced.nodup_live hm,
      Nat.add_sub_cancel]
  capacity := h.capacity
  reserved := by
    intro j hj
    obtain ⟨hj, hjm⟩ := List.mem_filter.mp hj
    rw [leave_ledger, Ledger.leave_record_of_ne _ _ _ (by simpa using hjm)]
    exact h.reserved j hj
  keys := by
    intro e he
    obtain ⟨he, hem⟩ := List.mem_filter.mp he
    rw [leave_ledger, Ledger.leave_record_of_ne _ _ _ (by simpa using hem)]
    exact h.keys e he

end Sound

end Books

/-! ## The books of a context -/

namespace ThrottleCtx

/-- The counters of a context; the forced deadline counts for one. -/
def counter (c : ThrottleCtx) : Counter → ℕ
  | .currentDepth => c.currentDepth
  | .bgCurrentDepth => c.bgCurrentDepth
  | .issuedDepth => c.issuedDepth
  | .pendingFg => c.pendingFg
  | .pendingBg => c.pendingBg
  | .deadlineForcedActive => c.deadlineForcedActive.toNat

/-- The books of a context. -/
def books (c : ThrottleCtx) : Books where
  ledger :=
    { free := c.freeMeta
      live := c.activeMetas
      record := fun m => (c.metaPool m).status
      balance := c.counter }
  table := c.active
  inuse := c.metaInuse
  capacity := c.metaCapacity

@[simp] theorem books_live (c : ThrottleCtx) : c.books.ledger.live = c.activeMetas := rfl

@[simp] theorem books_record (c : ThrottleCtx) (m : MetaId) :
    c.books.ledger.record m = (c.metaPool m).status := rfl

/-- A store to a record is a store to its status. -/
theorem status_update (pool : MetaId → RqMeta) (m : MetaId) (x : RqMeta) :
    (fun j => (Function.update pool m x j).status)
      = Function.update (fun j => (pool j).status) m x.status :=
  funext (fun j => Function.apply_update (fun _ => RqMeta.status) pool m x j)

/-- **Two contexts with the same lists, numbers, counters and statuses have the
same books.** -/
theorem books_congr {c c' : ThrottleCtx} (hfree : c'.freeMeta = c.freeMeta)
    (htab : c'.active = c.active) (hinuse : c'.metaInuse = c.metaInuse)
    (hcap : c'.metaCapacity = c.metaCapacity)
    (hpool : ∀ m, (c'.metaPool m).status = (c.metaPool m).status)
    (hcnt : c'.counter = c.counter) : c'.books = c.books := by
  unfold books activeMetas
  rw [hfree, htab, hinuse, hcap, hcnt, funext hpool]

/-- A store that leaves the status alone leaves the books alone. -/
theorem books_modifyMeta (c : ThrottleCtx) (m : MetaId) {f : RqMeta → RqMeta}
    (h : (f (c.metaPool m)).status = (c.metaPool m).status) :
    (c.modifyMeta m f).books = c.books := by
  refine books_congr rfl rfl rfl rfl (fun j => ?_) rfl
  refine (congrFun (status_update c.metaPool m (f (c.metaPool m))) j).trans ?_
  rw [h]
  exact congrFun (Function.update_eq_self m (fun j => (c.metaPool j).status)) j

/-- **A posting, as the source writes it**: one record is stored, and the
counters move by the change of its flags. -/
theorem books_eq_post {c c' : ThrottleCtx} {m : MetaId} {s : MetaStatus}
    (hfree : c'.freeMeta = c.freeMeta) (htab : c'.active = c.active)
    (hinuse : c'.metaInuse = c.metaInuse) (hcap : c'.metaCapacity = c.metaCapacity)
    {x : RqMeta} (hpool : c'.metaPool = Function.update c.metaPool m x)
    (hs : x.status = s)
    (hcnt : ∀ k, c'.counter k
      = c.counter k + (k.test s).toNat - (k.test (c.metaPool m).status).toNat) :
    c'.books = c.books.post m s := by
  have hledger : c'.books.ledger = c.books.ledger.post Counter.test m s :=
    Ledger.eq_post hfree (congrArg ChainTable.all htab)
      (by rw [← hs]; exact (congrArg (fun p => fun j => (p j : RqMeta).status) hpool).trans
            (status_update c.metaPool m x))
      hcnt
  show Books.mk c'.books.ledger c'.active c'.metaInuse c'.metaCapacity = _
  rw [hledger, htab, hinuse, hcap]
  rfl

/-! ## Helpers that leave the books alone -/

@[simp] theorem books_anomaly (c : ThrottleCtx) : c.anomaly.books = c.books := rfl

/-- Unbinding the feedback changes no status. -/
theorem status_clearFeedbackBindingLocked (c : ThrottleCtx) (j : MetaId) :
    (c.clearFeedbackBindingLocked.metaPool j).status = (c.metaPool j).status := by
  unfold clearFeedbackBindingLocked
  dsimp only
  cases c.control.feedbackMeta with
  | none => rfl
  | some m =>
    exact congrFun (congrArg (fun b => b.ledger.record)
      (c.books_modifyMeta m (f := fun x => { x with feedbackBound := false }) rfl)) j

@[simp] theorem books_clearFeedbackBindingLocked (c : ThrottleCtx) :
    c.clearFeedbackBindingLocked.books = c.books :=
  books_congr rfl rfl rfl rfl c.status_clearFeedbackBindingLocked rfl

@[simp] theorem books_resetFeedbackLocked (c : ThrottleCtx) :
    c.resetFeedbackLocked.books = c.books :=
  books_congr rfl rfl rfl rfl c.status_clearFeedbackBindingLocked rfl

@[simp] theorem books_fallbackLocked (c : ThrottleCtx) :
    c.fallbackLocked.1.books = c.books :=
  books_congr rfl rfl rfl rfl (status_clearFeedbackBindingLocked _) rfl

@[simp] theorem books_releaseAnomalyLocked (c : ThrottleCtx) :
    c.releaseAnomalyLocked.books = c.books := by
  unfold releaseAnomalyLocked
  split
  · exact c.anomaly.books_fallbackLocked
  · rfl

@[simp] theorem books_reopenGateLocked (c : ThrottleCtx) :
    c.reopenGateLocked.1.books = c.books := by
  unfold reopenGateLocked
  split <;> rfl

@[simp] theorem books_inflightRemoveLocked (c : ThrottleCtx) (m : MetaId) :
    (c.inflightRemoveLocked m).books = c.books := by
  unfold inflightRemoveLocked
  split
  · rfl
  · refine (books_modifyMeta _ m ?_).trans ?_
    · rfl
    · rfl

@[simp] theorem books_inflightAddLocked (c : ThrottleCtx) (m : MetaId) (r : Request) :
    (c.inflightAddLocked m r).books = c.books := by
  unfold inflightAddLocked
  dsimp only
  split
  · rfl
  · refine (books_modifyMeta _ m ?_).trans ?_
    · rfl
    · rfl

@[simp] theorem books_invalidateFeedbackLocked (c : ThrottleCtx) (m : MetaId) :
    (c.invalidateFeedbackLocked m).books = c.books := by
  unfold invalidateFeedbackLocked
  dsimp only
  split
  · rfl
  · split <;> exact books_congr rfl rfl rfl rfl c.status_clearFeedbackBindingLocked rfl

@[simp] theorem books_snapshotStateLocked (c : ThrottleCtx) (nowNs queueMax thr : ℕ) :
    (c.snapshotStateLocked nowNs queueMax thr).1.books = c.books := by
  unfold snapshotStateLocked
  dsimp only
  split
  · rfl
  · split
    · rfl
    · split <;> rfl

@[simp] theorem books_armInferenceLocked (c : ThrottleCtx) (newControl : Bool)
    (state : Option StateSnapshot) :
    (c.armInferenceLocked newControl state).books = c.books :=
  books_congr rfl rfl rfl rfl (status_clearFeedbackBindingLocked _) rfl

@[simp] theorem books_startInferenceLocked (c : ThrottleCtx) (g : Globals)
    (newControl : Bool) (nowNs : ℕ) :
    (c.startInferenceLocked g newControl nowNs).1.books = c.books := by
  unfold startInferenceLocked
  dsimp only
  split
  · rfl
  · split
    · exact books_armInferenceLocked _ _ _
    · have hsnap := (c.snapshotConfigLocked g).books_snapshotStateLocked nowNs
        g.queueDepth g.devLatThresholdUs
      split
      · rename_i c₂ heq
        rw [heq] at hsnap
        exact hsnap
      · rename_i c₂ s heq
        rw [heq] at hsnap
        exact (books_armInferenceLocked _ _ _).trans hsnap

/-! ## Helpers that post -/

section Post

variable {c : ThrottleCtx} {m : MetaId}

/-- A flag that is set keeps its counter from zero. -/
theorem counter_ne_zero (h : c.books.Sound) (hm : m ∈ c.activeMetas) {k : Counter}
    (hk : k.test (c.metaPool m).status = true) : c.counter k ≠ 0 := by
  have hle := h.toNat_le_counter hm k
  rw [books_record, hk] at hle
  exact Nat.one_le_iff_ne_zero.mp hle

/-- A forced request holds the deadline. -/
theorem deadlineForcedActive_of_forced (h : c.books.Sound) (hm : m ∈ c.activeMetas)
    (hd : (c.metaPool m).deadlineForced = true) : c.deadlineForcedActive = true := by
  have hne := counter_ne_zero h hm (k := .deadlineForcedActive) hd
  cases hact : c.deadlineForcedActive with
  | true => rfl
  | false => exact absurd (congrArg Bool.toNat hact) hne

/-- No reservation, no background reservation. -/
theorem bgDepthAccounted_of_not_depthAccounted (h : c.books.Sound)
    (hm : m ∈ c.activeMetas) (hd : ¬(c.metaPool m).depthAccounted = true) :
    (c.metaPool m).bgDepthAccounted = false := by
  rw [← Bool.not_eq_true]
  exact fun hb => hd (h.reserved m hm hb)

/-- **Enqueuing posts the queued flag**: the counter has room for it. -/
theorem books_pendingIncLocked (h : c.books.Sound) (hm : m ∈ c.activeMetas)
    (g : Globals) (nowNs : ℕ) :
    (c.pendingIncLocked g m nowNs).books
      = c.books.post m (c.metaPool m).status.enqueue := by
  unfold pendingIncLocked
  by_cases hq : (c.metaPool m).queued = true
  · have hs : (c.metaPool m).status.enqueue = c.books.ledger.record m := by
      show _ = (c.metaPool m).status
      unfold MetaStatus.enqueue RqMeta.status
      rw [hq]
    rw [if_pos hq, hs, Books.post_self]
  · have hq' : (c.metaPool m).queued = false := by simpa using hq
    have hlt := h.counter_lt hm (k := .pending (c.metaPool m).rqClass) (by
      cases hc : (c.metaPool m).rqClass <;>
        simp [Counter.pending, Counter.test, RqMeta.status, hq'])
    have hne : c.pendingCounter (c.metaPool m).rqClass ≠ u32Max := by
      cases hc : (c.metaPool m).rqClass <;> rw [hc] at hlt <;> exact hlt.ne
    rw [if_neg hq, if_neg hne]
    cases hc : (c.metaPool m).rqClass <;>
      refine books_eq_post (c := c) rfl rfl rfl rfl rfl rfl (fun k => ?_) <;>
      cases k <;>
      simp [counter, Counter.test, MetaStatus.enqueue, RqMeta.status, hq', hc,
        setPendingCounter, pendingCounter, modifyMeta]

/-- **Leaving the queue posts the queued flag**: the counter is not zero. -/
theorem books_pendingDecLocked (h : c.books.Sound) (hm : m ∈ c.activeMetas) :
    (c.pendingDecLocked m).books = c.books.post m (c.metaPool m).status.unqueue := by
  unfold pendingDecLocked
  by_cases hq : (c.metaPool m).queued = true
  · have hcnt := counter_ne_zero h hm (k := .pending (c.metaPool m).rqClass) (by
      cases hc : (c.metaPool m).rqClass <;>
        simp [Counter.pending, Counter.test, RqMeta.status, hq, hc])
    have hne : c.pendingCounter (c.metaPool m).rqClass ≠ 0 := by
      cases hc : (c.metaPool m).rqClass <;> rw [hc] at hcnt <;> exact hcnt
    rw [if_neg (by simp [hq]), if_neg hne]
    cases hc : (c.metaPool m).rqClass <;>
      refine books_eq_post (c := c) rfl rfl rfl rfl rfl rfl (fun k => ?_) <;>
      cases k <;>
      simp [counter, Counter.test, MetaStatus.unqueue, RqMeta.status, hq, hc,
        setPendingCounter, pendingCounter, modifyMeta]
  · have hs : (c.metaPool m).status.unqueue = c.books.ledger.record m := by
      simp [MetaStatus.unqueue, RqMeta.status, hq]
    rw [if_pos (by simpa using hq), hs, Books.post_self]

/-- **Releasing the deadline meets it active.** -/
theorem releaseDeadlineLocked_eq (h : c.books.Sound) (hm : m ∈ c.activeMetas) :
    c.releaseDeadlineLocked m
      = if (c.metaPool m).deadlineForced then
          ({ c with deadlineForcedActive := false }.modifyMeta m
            (fun x => { x with deadlineForced := false }), true)
        else (c, false) := by
  unfold releaseDeadlineLocked
  by_cases hd : (c.metaPool m).deadlineForced = true
  · have hact := deadlineForcedActive_of_forced h hm hd
    simp [hd, hact, modifyMeta]
  · simp [hd]

/-- Releasing the deadline posts its flag. -/
theorem books_releaseDeadlineLocked (h : c.books.Sound) (hm : m ∈ c.activeMetas) :
    (c.releaseDeadlineLocked m).1.books
      = c.books.post m (c.metaPool m).status.unforce := by
  rw [releaseDeadlineLocked_eq h hm]
  by_cases hd : (c.metaPool m).deadlineForced = true
  · have hact := deadlineForcedActive_of_forced h hm hd
    rw [if_pos hd]
    refine books_eq_post (c := c) rfl rfl rfl rfl rfl rfl (fun k => ?_)
    cases k <;> simp [counter, Counter.test, MetaStatus.unforce, RqMeta.status, hd, hact,
      modifyMeta]
  · have hs : (c.metaPool m).status.unforce = c.books.ledger.record m := by
      simp [MetaStatus.unforce, RqMeta.status, hd]
    rw [if_neg hd, hs, Books.post_self]

/-- **Releasing the issued depth meets a positive counter**, and reports
nothing. -/
theorem releaseIssuedDepthLocked_eq (h : c.books.Sound) (hm : m ∈ c.activeMetas) :
    c.releaseIssuedDepthLocked m
      = (if (c.metaPool m).issuedAccounted then
          { c with issuedDepth := c.issuedDepth - 1 }.modifyMeta m
            (fun x => { x with issuedAccounted := false })
        else c, false) := by
  unfold releaseIssuedDepthLocked
  by_cases hi : (c.metaPool m).issuedAccounted = true
  · have hne : c.issuedDepth ≠ 0 := counter_ne_zero h hm (k := .issuedDepth) hi
    simp [hi, hne, modifyMeta]
  · simp [hi]

/-- Releasing the issued depth posts its flag. -/
theorem books_releaseIssuedDepthLocked (h : c.books.Sound) (hm : m ∈ c.activeMetas) :
    (c.releaseIssuedDepthLocked m).1.books
      = c.books.post m (c.metaPool m).status.unissue := by
  rw [releaseIssuedDepthLocked_eq h hm]
  by_cases hi : (c.metaPool m).issuedAccounted = true
  · rw [if_pos hi]
    refine books_eq_post (c := c) rfl rfl rfl rfl rfl rfl (fun k => ?_)
    cases k <;> simp [counter, Counter.test, MetaStatus.unissue, RqMeta.status, hi,
      modifyMeta]
  · have hs : (c.metaPool m).status.unissue = c.books.ledger.record m := by
      simp [MetaStatus.unissue, RqMeta.status, hi]
    rw [if_neg hi, hs, Books.post_self]

/-- Both depth counters after a reservation is given back. -/
def dropDepth (c : ThrottleCtx) (m : MetaId) : ThrottleCtx :=
  { c with
    currentDepth := c.currentDepth - 1
    bgCurrentDepth := c.bgCurrentDepth - (c.metaPool m).bgDepthAccounted.toNat }.modifyMeta
      m (fun x => { x with depthAccounted := false, bgDepthAccounted := false })

/-- **Releasing depth meets positive counters**: it gives the reservation back
and looks at the gate. -/
theorem releaseDepthLocked_eq (h : c.books.Sound) (hm : m ∈ c.activeMetas) :
    c.releaseDepthLocked m
      = if (c.metaPool m).depthAccounted then (c.dropDepth m).reopenGateLocked
        else (c, false) := by
  unfold releaseDepthLocked
  by_cases hd : (c.metaPool m).depthAccounted = true
  · have hne : c.currentDepth ≠ 0 := counter_ne_zero h hm (k := .currentDepth) hd
    by_cases hb : (c.metaPool m).bgDepthAccounted = true
    · have hbne : c.bgCurrentDepth ≠ 0 := counter_ne_zero h hm (k := .bgCurrentDepth) hb
      simp [hd, hb, hne, hbne, modifyMeta, dropDepth]
    · have hb' : (c.metaPool m).bgDepthAccounted = false := by simpa using hb
      simp [hd, hb', hne, modifyMeta, dropDepth]
  · simp [hd]

/-- Releasing depth posts both its flags. -/
theorem books_releaseDepthLocked (h : c.books.Sound) (hm : m ∈ c.activeMetas) :
    (c.releaseDepthLocked m).1.books
      = c.books.post m (c.metaPool m).status.unreserve := by
  rw [releaseDepthLocked_eq h hm]
  by_cases hd : (c.metaPool m).depthAccounted = true
  · rw [if_pos hd, books_reopenGateLocked]
    refine books_eq_post (c := c) rfl rfl rfl rfl rfl rfl (fun k => ?_)
    cases k <;> simp [counter, Counter.test, MetaStatus.unreserve, RqMeta.status, hd,
      modifyMeta, dropDepth]
  · have hb := bgDepthAccounted_of_not_depthAccounted h hm hd
    have hs : (c.metaPool m).status.unreserve = c.books.ledger.record m := by
      simp [MetaStatus.unreserve, RqMeta.status, hd, hb]
    rw [if_neg hd, hs, Books.post_self]

/-- Both depth counters after a reservation is made. -/
def takeDepth (c : ThrottleCtx) (m : MetaId) : ThrottleCtx :=
  { c with
    currentDepth := c.currentDepth + 1
    bgCurrentDepth :=
      c.bgCurrentDepth + (decide ((c.metaPool m).queueClass ≠ QueueClass.hp)).toNat }.modifyMeta
      m (fun x =>
        { x with
          depthAccounted := true
          bgDepthAccounted := decide ((c.metaPool m).queueClass ≠ QueueClass.hp) })

/-- **Reserving depth finds room**: it stops the throttling only for a request
that holds a reservation already. -/
theorem accountDepthLocked_eq (h : c.books.Sound) (hm : m ∈ c.activeMetas) :
    c.accountDepthLocked m
      = if (c.metaPool m).depthAccounted then (c.anomaly.fallbackLocked.1, true)
        else (c.takeDepth m, false) := by
  unfold accountDepthLocked
  by_cases hd : (c.metaPool m).depthAccounted = true
  · simp [hd]
  · have hd' : (c.metaPool m).depthAccounted = false := by simpa using hd
    have hb := bgDepthAccounted_of_not_depthAccounted h hm hd
    have hlt : c.currentDepth < u32Max := h.counter_lt hm (k := .currentDepth) hd'
    have hblt : c.bgCurrentDepth < u32Max := h.counter_lt hm (k := .bgCurrentDepth) hb
    by_cases hq : (c.metaPool m).queueClass = .hp
    · simp [hd', hb, hq, hlt.ne, modifyMeta, takeDepth]
    · simp [hd', hq, hlt.ne, hblt.ne, modifyMeta, takeDepth]

/-- Reserving depth posts both its flags. -/
theorem books_accountDepthLocked (h : c.books.Sound) (hm : m ∈ c.activeMetas) :
    (c.accountDepthLocked m).1.books
      = c.books.post m (c.metaPool m).status.reserve := by
  rw [accountDepthLocked_eq h hm]
  by_cases hd : (c.metaPool m).depthAccounted = true
  · have hs : (c.metaPool m).status.reserve = c.books.ledger.record m := by
      unfold MetaStatus.reserve
      rw [if_pos (show (c.metaPool m).status.depthAccounted = true from hd)]
      rfl
    rw [if_pos hd, books_fallbackLocked, books_anomaly, hs, Books.post_self]
  · have hb := bgDepthAccounted_of_not_depthAccounted h hm hd
    have hs : (c.metaPool m).status.reserve
        = { (c.metaPool m).status with
            depthAccounted := true
            bgDepthAccounted := decide ((c.metaPool m).queueClass ≠ .hp) } :=
      if_neg hd
    rw [if_neg hd, hs]
    refine books_eq_post (c := c) rfl rfl rfl rfl rfl rfl (fun k => ?_)
    cases k <;> simp [counter, Counter.test, RqMeta.status, hd, hb, modifyMeta, takeDepth]

/-- **Counting a request as issued finds room.** -/
theorem accountIssuedDepthLocked_eq (h : c.books.Sound) (hm : m ∈ c.activeMetas) :
    c.accountIssuedDepthLocked m
      = if (c.metaPool m).issuedAccounted then (c.anomaly.fallbackLocked.1, true)
        else ({ c with issuedDepth := c.issuedDepth + 1 }.modifyMeta m
          (fun x => { x with issuedAccounted := true }), false) := by
  unfold accountIssuedDepthLocked
  by_cases hi : (c.metaPool m).issuedAccounted = true
  · simp [hi]
  · have hi' : (c.metaPool m).issuedAccounted = false := by simpa using hi
    have hlt : c.issuedDepth < u32Max := h.counter_lt hm (k := .issuedDepth) hi'
    simp [hi', hlt.ne]

/-- Counting a request as issued posts its flag. -/
theorem books_accountIssuedDepthLocked (h : c.books.Sound) (hm : m ∈ c.activeMetas) :
    (c.accountIssuedDepthLocked m).1.books
      = c.books.post m (c.metaPool m).status.issue := by
  rw [accountIssuedDepthLocked_eq h hm]
  by_cases hi : (c.metaPool m).issuedAccounted = true
  · have hs : (c.metaPool m).status.issue = c.books.ledger.record m := by
      simp [MetaStatus.issue, RqMeta.status, hi]
    rw [if_pos hi, books_fallbackLocked, books_anomaly, hs, Books.post_self]
  · rw [if_neg hi]
    refine books_eq_post (c := c) rfl rfl rfl rfl rfl rfl (fun k => ?_)
    cases k <;> simp [counter, Counter.test, MetaStatus.issue, RqMeta.status, hi,
      modifyMeta]

end Post

/-! ## An operation halfway -/

/-- **An operation on one record, halfway**: it started in `c`, and the books of
the context it is in are those of `c` with the status of its record rewritten
to `s`. -/
structure Posted (c : ThrottleCtx) (m : MetaId) (s : MetaStatus) (c' : ThrottleCtx) :
    Prop where
  start : c.books.Sound
  live : m ∈ c.activeMetas
  sound : c'.books.Sound
  books : c'.books = c.books.post m s
  owner : s.rq = (c.metaPool m).rq

namespace Posted

variable {c c' c'' : ThrottleCtx} {m : MetaId} {s t : MetaStatus}

/-- An operation starts with the status of its record. -/
theorem refl (h : c.books.Sound) (hm : m ∈ c.activeMetas) :
    Posted c m (c.metaPool m).status c :=
  ⟨h, hm, h, (c.books.post_self m).symm, rfl⟩

/-- The record is in use throughout. -/
theorem mem (hp : Posted c m s c') : m ∈ c'.activeMetas := by
  show m ∈ c'.books.ledger.live
  rw [hp.books]
  exact hp.live

/-- The record carries the status that was posted. -/
theorem status (hp : Posted c m s c') : (c'.metaPool m).status = s := by
  have hrec := congrArg (fun b => b.ledger.record m) hp.books
  exact hrec.trans (Ledger.post_record_self Counter.test c.books.ledger m s)

/-- A step that leaves the books alone. -/
theorem quiet (hp : Posted c m s c') (hq : c''.books = c'.books) :
    Posted c m s c'' :=
  ⟨hp.start, hp.live, hq ▸ hp.sound, hq.trans hp.books, hp.owner⟩

/-- A step that posts once more. -/
theorem post (hp : Posted c m s c') (hb : c''.books = c'.books.post m t)
    (hrq : t.rq = s.rq) (ht : t.BgReserved) : Posted c m t c'' where
  start := hp.start
  live := hp.live
  sound := by
    rw [hb]
    exact hp.sound.post hp.mem
      (hrq.trans (congrArg MetaStatus.rq hp.status.symm)) ht
  books := by rw [hb, hp.books, hp.start.post_post hp.live]
  owner := hrq.trans hp.owner

/-- The status of a record in use reserves in order. -/
theorem reserved (hp : Posted c m s c') : s.BgReserved :=
  hp.status ▸ hp.sound.reserved m hp.mem

theorem enqueue (hp : Posted c m s c') (g : Globals) (nowNs : ℕ) :
    Posted c m s.enqueue (c'.pendingIncLocked g m nowNs) :=
  hp.post (hp.status ▸ books_pendingIncLocked hp.sound hp.mem g nowNs) rfl hp.reserved

theorem unqueue (hp : Posted c m s c') : Posted c m s.unqueue (c'.pendingDecLocked m) :=
  hp.post (hp.status ▸ books_pendingDecLocked hp.sound hp.mem) rfl hp.reserved

theorem unforce (hp : Posted c m s c') :
    Posted c m s.unforce (c'.releaseDeadlineLocked m).1 :=
  hp.post (hp.status ▸ books_releaseDeadlineLocked hp.sound hp.mem) rfl hp.reserved

theorem unissue (hp : Posted c m s c') :
    Posted c m s.unissue (c'.releaseIssuedDepthLocked m).1 :=
  hp.post (hp.status ▸ books_releaseIssuedDepthLocked hp.sound hp.mem) rfl hp.reserved

theorem unreserve (hp : Posted c m s c') :
    Posted c m s.unreserve (c'.releaseDepthLocked m).1 :=
  hp.post (hp.status ▸ books_releaseDepthLocked hp.sound hp.mem) rfl
    (fun hb => absurd hb Bool.false_ne_true)

theorem issue (hp : Posted c m s c') :
    Posted c m s.issue (c'.accountIssuedDepthLocked m).1 :=
  hp.post (hp.status ▸ books_accountIssuedDepthLocked hp.sound hp.mem) rfl hp.reserved

theorem reserve (hp : Posted c m s c') :
    Posted c m s.reserve (c'.accountDepthLocked m).1 := by
  refine hp.post (hp.status ▸ books_accountDepthLocked hp.sound hp.mem) ?_ ?_
  · unfold MetaStatus.reserve
    split <;> rfl
  · unfold MetaStatus.reserve
    split
    · exact hp.reserved
    · exact fun _ => rfl

/-- **Giving back everything a request holds** is one posting. -/
theorem release (hp : Posted c m s c') : Posted c m s.release (c'.releaseLocked m).1 :=
  (hp.quiet (c'.books_inflightRemoveLocked m)).unforce.unissue.unreserve

end Posted

end ThrottleCtx
