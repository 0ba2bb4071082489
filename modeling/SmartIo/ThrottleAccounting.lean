import SmartIo.ThrottleBooks
import SmartIo.ThrottleMachine

/-!
# Accounting conservation

Every lock section of the throttle moves the books in one of three ways: it
rewrites the status of one record in use, takes a free record into use for a
request, or gives a record back – and most sections do nothing to them at all.
`Throttle.move` reads off the state which move a section makes, and
`step_books` says that the section makes it: the books of the machine are an
abstract machine of their own, which the code refines.

From this the accounting is an invariant of the machine. Its consequences are
that no release ever meets a counter at zero – at the point of the section
where the release happens, not only between sections – and that the counts a
snapshot takes of the active table agree with the counters.
-/

/-! ## Moves of the books -/

/-- The status of a record that `smart_io_throttle_classify_request` takes into
use. -/
def MetaStatus.classified (rq : RqAddr) (q : QueueClass) : MetaStatus where
  rq := some rq
  rqClass := classForQueue q
  queueClass := q
  queued := true
  depthAccounted := false
  bgDepthAccounted := false
  issuedAccounted := false
  deadlineForced := false

/-- The status of a record that `smart_io_throttle_record_issue` takes into use:
its queue class is the one `memset` left. -/
def MetaStatus.firstIssued (rq : RqAddr) (q : QueueClass) : MetaStatus where
  rq := some rq
  rqClass := classForQueue q
  queueClass := .hp
  queued := false
  depthAccounted := true
  bgDepthAccounted := false
  issuedAccounted := true
  deadlineForced := false

/-- The status of a dispatched request. -/
def MetaStatus.dispatch (takesDeadline : Bool) (s : MetaStatus) : MetaStatus :=
  if takesDeadline then s.unqueue.reserve.force else s.unqueue.reserve

/-- What a section does to the books. -/
inductive BooksMove where
  | same
  | post (m : MetaId) (f : MetaStatus → MetaStatus)
  | enter (rq : RqAddr) (m : MetaId) (rest : List MetaId) (s : MetaStatus)
  | leave (m : MetaId)

/-- Make a move. -/
def Books.make (b : Books) : BooksMove → Books
  | .same => b
  | .post m f => b.post m (f (b.ledger.record m))
  | .enter rq m rest s => b.enter rq m rest s
  | .leave m => b.leave m

namespace Throttle

/-- Whether `smart_io_throttle_record_complete` takes a completion for the final
one. -/
def finalCompletion (w : Throttle) (rq : RqAddr) (nrBytes : ℕ) : Bool :=
  !(w.rqs rq).hasBio || decide ((w.rqs rq).bytes ≤ nrBytes)

/-- The move of taking a record into use, if there is a free one. -/
def enterMove (w : Throttle) (rq : RqAddr) (s : MetaStatus) : BooksMove :=
  match w.ctx.freeMeta with
  | [] => .same
  | m :: rest => .enter rq m rest s

/-- **The move a section makes**: which record, and how its status changes. -/
def move (w : Throttle) : ThrottleOp → BooksMove
  | .classifyRequest rq t _ =>
    match (w.rqs rq).priv1 with
    | some m => .post m .enqueue
    | none =>
      w.enterMove rq (.classified rq (selectQueue w.ctx.metaPool w.globals t (w.rqs rq)))
  | .unqueueRequest rq =>
    match (w.rqs rq).priv1 with
    | some m => .post m .unqueue
    | none => .same
  | .accountDispatch rq selection _ =>
    match (w.rqs rq).priv1 with
    | some m => .post m (.dispatch
        (decide (selection = .backgroundDeadline) && !w.ctx.deadlineForcedActive))
    | none => .same
  | .finishRequest rq =>
    match (w.rqs rq).priv1 with
    | some m => .leave m
    | none => .same
  | .recordIssue rq t _ =>
    match w.ctx.findMetaLocked rq with
    | some m => .post m (fun s => s.reserve.issue)
    | none =>
      w.enterMove rq (.firstIssued rq (selectQueue w.ctx.metaPool w.globals t (w.rqs rq)))
  | .recordRequeue rq =>
    match w.ctx.findMetaLocked rq with
    | some m => .post m .release
    | none => .same
  | .recordComplete rq nrBytes _ =>
    match w.ctx.findMetaLocked rq with
    | some m => if w.finalCompletion rq nrBytes then .leave m else .same
    | none => .same
  | _ => .same

/-- **The accounting invariant**: the books are sound, and the metadata that a
request carries is in use and its own. -/
structure Accounted (w : Throttle) : Prop where
  books : w.ctx.books.Sound
  priv : ∀ rq m, (w.rqs rq).priv1 = some m →
    m ∈ w.ctx.activeMetas ∧ (w.ctx.metaPool m).rq = some rq
      ∧ (w.rqs rq).useSched = true

end Throttle

open ThrottleCtx Counting

/-! ## Lookups -/

/-- **What a lookup finds is in use, and the metadata of the request.** -/
theorem ThrottleCtx.findMetaLocked_some {c : ThrottleCtx} {rq : RqAddr} {m : MetaId}
    (h : c.findMetaLocked rq = some m) :
    m ∈ c.activeMetas ∧ (c.metaPool m).rq = some rq := by
  obtain ⟨hm, hrq⟩ := ChainTable.scan_some h
  exact ⟨hm, of_decide_eq_true hrq⟩

/-- **A lookup finds the metadata of a request that has some.** -/
theorem ThrottleCtx.findMetaLocked_of_mem {c : ThrottleCtx} (h : c.books.Sound)
    {rq : RqAddr} {m : MetaId} (hm : m ∈ c.activeMetas)
    (hrq : (c.metaPool m).rq = some rq) : ∃ n, c.findMetaLocked rq = some n := by
  obtain ⟨e, he, rfl⟩ := List.mem_map.mp hm
  have hkey : e.1 = rq := Option.some.inj ((h.keys e he).symm.trans hrq)
  have hlen : c.active.all.length ≤ c.metaCapacity := by
    have hsum := h.balanced.length_add_length
    rw [List.length_range, h.live] at hsum
    exact le_of_le_of_eq (Nat.le_add_right _ _) hsum
  exact ChainTable.exists_scan_of_mem hashMin hlen (hkey ▸ he) (decide_eq_true hrq)

namespace Throttle

/-! ## The pool -/

theorem allocTaken_ctx (w : Throttle) (rq : RqAddr) (cls : RqClass) (m : MetaId)
    (rest : List MetaId) :
    (w.allocTaken rq cls m rest).ctx
      = { w.ctx with
          freeMeta := rest
          nextRqId := w.ctx.nextRqId + 1
          metaPool := Function.update w.ctx.metaPool m
            (newMeta rq (w.rqs rq) cls (w.ctx.nextRqId + 1))
          active := w.ctx.active.add rq m
          metaInuse := w.ctx.metaInuse + 1 } := by
  unfold allocTaken
  dsimp only
  split <;> rfl

/-- The books after a record was taken into use. -/
theorem books_allocTaken (w : Throttle) (rq : RqAddr) (cls : RqClass) (m : MetaId)
    (rest : List MetaId) :
    (w.allocTaken rq cls m rest).ctx.books
      = w.ctx.books.enter rq m rest
          { RqMeta.zero.status with rq := some rq, rqClass := cls } := by
  rw [allocTaken_ctx]
  unfold Books.enter Ledger.enter books
  congr 2
  · exact status_update w.ctx.metaPool m _
  · funext k
    cases k <;> rfl

/-- The books do not notice a failed allocation. -/
@[simp] theorem books_allocFailed (w : Throttle) : w.allocFailed.ctx.books = w.ctx.books :=
  books_fallbackLocked _

/-- **Giving back a record that holds nothing** but its place in a queue. -/
theorem books_returnMeta {c c' : ThrottleCtx} {m : MetaId} {s : MetaStatus}
    (hp : Posted c m s.release c') : (returnMeta c' m).books = c.books.leave m := by
  have hp₁ : Posted c m s.release.unqueue
      ((c'.pendingDecLocked m).inflightRemoveLocked m) :=
    hp.unqueue.quiet (books_inflightRemoveLocked _ m)
  unfold returnMeta
  generalize (c'.pendingDecLocked m).inflightRemoveLocked m = c₁ at hp₁
  have hp₂ : Posted c m s.release.unqueue
      (if c₁.control.feedbackMeta = some m then c₁.resetFeedbackLocked else c₁) := by
    split
    · exact hp₁.quiet c₁.books_resetFeedbackLocked
    · exact hp₁
  dsimp only
  generalize (if c₁.control.feedbackMeta = some m then c₁.resetFeedbackLocked else c₁)
    = c₂ at hp₂
  have hleave : c.books.leave m = c₂.books.leave m := by
    rw [hp₂.books, Books.post_leave]
  have hst : (c₂.metaPool m).status = s.release.unqueue := hp₂.status
  rw [hleave]
  unfold books Books.leave Ledger.leave
  congr 2
  · exact ChainTable.all_del m c₂.active
  · exact status_update c₂.metaPool m RqMeta.zero
  · funext k
    -- nothing is left in the record that a counter counts
    have hk : k.test (c₂.metaPool m).status = false := by
      rw [hst]
      cases k <;> simp [Counter.test, MetaStatus.release, MetaStatus.unqueue,
        MetaStatus.unreserve, MetaStatus.unissue, MetaStatus.unforce]
    show c₂.counter k = c₂.counter k - (k.test (c₂.metaPool m).status).toNat
    rw [hk]
    rfl

/-- **Giving back a record** never meets an empty table. -/
theorem freeMetaLocked_ctx {w : Throttle} {m : MetaId} (h : w.ctx.books.Sound)
    (hm : m ∈ w.ctx.activeMetas) (rq : RqAddr) :
    (w.freeMetaLocked rq m).ctx = returnMeta w.ctx m := by
  have hne : w.ctx.metaInuse ≠ 0 := h.inuse_pos hm
  unfold freeMetaLocked
  rw [if_neg hne]
  dsimp only
  split <;> rfl

/-- Only the request whose record was given back loses it. -/
theorem freeMetaLocked_rqs {w : Throttle} {m : MetaId} (h : w.ctx.books.Sound)
    (hm : m ∈ w.ctx.activeMetas) (rq : RqAddr) :
    (w.freeMetaLocked rq m).rqs
      = if (w.rqs rq).useSched ∧ (w.rqs rq).priv1 = some m then
          Function.update w.rqs rq { w.rqs rq with priv1 := none }
        else w.rqs := by
  have hne : w.ctx.metaInuse ≠ 0 := h.inuse_pos hm
  unfold freeMetaLocked
  rw [if_neg hne]
  dsimp only
  by_cases hc : (w.rqs rq).useSched ∧ (w.rqs rq).priv1 = some m
  · rw [if_pos (by simpa using hc), if_pos hc]
    rfl
  · rw [if_neg (by simpa using hc), if_neg hc]
    rfl

/-! ## What it means to make a move -/

/-- No request gains metadata, and none that keeps it changes hands. -/
def PrivKept (w w' : Throttle) : Prop :=
  ∀ rq m, (w'.rqs rq).priv1 = some m →
    (w.rqs rq).priv1 = some m ∧ (w'.rqs rq).useSched = (w.rqs rq).useSched

/-- **A section makes a move**: on the books, and on the metadata that requests
carry. -/
def Makes (w : Throttle) : BooksMove → Throttle → Prop
  | .same, w' => w'.ctx.books = w.ctx.books ∧ PrivKept w w'
  | .post m f, w' => Posted w.ctx m (f (w.ctx.metaPool m).status) w'.ctx ∧ PrivKept w w'
  | .enter rq m rest s, w' =>
    (w.ctx.freeMeta = m :: rest ∧ s.rq = some rq ∧ s.BgReserved
      ∧ w'.ctx.books = w.ctx.books.enter rq m rest s)
    ∧ ∀ rq' m', (w'.rqs rq').priv1 = some m' →
        ((w.rqs rq').priv1 = some m' ∧ (w'.rqs rq').useSched = (w.rqs rq').useSched)
        ∨ (rq' = rq ∧ m' = m ∧ (w'.rqs rq').useSched = true)
  | .leave m, w' =>
    (m ∈ w.ctx.activeMetas ∧ w'.ctx.books = w.ctx.books.leave m)
    ∧ PrivKept w w' ∧ ∀ rq, (w'.rqs rq).priv1 ≠ some m

/-- Making a move moves the books. -/
theorem Makes.books {w w' : Throttle} {mv : BooksMove} (h : Makes w mv w') :
    w'.ctx.books = w.ctx.books.make mv := by
  cases mv with
  | same => exact h.1
  | post m f => exact h.1.books
  | enter rq m rest s => exact h.1.2.2.2
  | leave m => exact h.1.2

/-- A section that leaves the requests alone keeps their metadata. -/
theorem PrivKept.of_eq {w w' : Throttle} (h : w'.rqs = w.rqs) : PrivKept w w' := by
  intro rq m hm
  rw [h] at hm ⊢
  exact ⟨hm, rfl⟩

/-- **Making a move keeps the accounting.** -/
theorem Accounted.makes {w w' : Throttle} (h : Accounted w) {mv : BooksMove}
    (hmk : Makes w mv w') : Accounted w' := by
  have hrec : ∀ j, (w'.ctx.metaPool j).rq = ((w.ctx.books.make mv).ledger.record j).rq :=
    fun j => congrArg (fun b : Books => (b.ledger.record j).rq) hmk.books
  have hact : w'.ctx.activeMetas = (w.ctx.books.make mv).ledger.live :=
    congrArg (fun b : Books => b.ledger.live) hmk.books
  cases mv with
  | same =>
    refine ⟨hmk.1 ▸ h.books, fun rq n hn => ?_⟩
    obtain ⟨hold, hus⟩ := hmk.2 rq n hn
    rw [hact, hrec, hus]
    exact h.priv rq n hold
  | post m f =>
    refine ⟨hmk.1.sound, fun rq n hn => ?_⟩
    obtain ⟨hold, hus⟩ := hmk.2 rq n hn
    obtain ⟨hmem, hown, hsched⟩ := h.priv rq n hold
    rw [hact, hrec, hus]
    refine ⟨hmem, ?_, hsched⟩
    by_cases hnm : n = m
    · subst hnm
      show (((w.ctx.books.post n _).ledger.record n).rq) = _
      rw [Books.post_ledger, Ledger.post_record_self]
      exact hmk.1.owner.trans hown
    · show (((w.ctx.books.post m _).ledger.record n).rq) = _
      rw [Books.post_ledger, Ledger.post_record_of_ne _ _ _ hnm]
      exact hown
  | enter rq₀ m rest s =>
    obtain ⟨⟨hfree, hsrq, hbg, hb⟩, hpriv⟩ := hmk
    have hout : m ∉ w.ctx.activeMetas :=
      h.books.balanced.notMem_live (show m ∈ w.ctx.freeMeta from hfree ▸ List.mem_cons_self)
    refine ⟨hb ▸ h.books.enter hfree hsrq hbg, fun rq n hn => ?_⟩
    rw [hact, hrec]
    rcases hpriv rq n hn with ⟨hold, hus⟩ | ⟨rfl, rfl, hus⟩
    · obtain ⟨hmem, hown, hsched⟩ := h.priv rq n hold
      have hnm : n ≠ m := fun hnm => hout (hnm ▸ hmem)
      refine ⟨List.mem_cons_of_mem m hmem, ?_, hus.trans hsched⟩
      show (((w.ctx.books.enter rq₀ m rest s).ledger.record n).rq) = _
      rw [Books.enter_ledger, Ledger.enter_record_of_ne _ _ _ _ hnm]
      exact hown
    · refine ⟨List.mem_cons_self, ?_, hus⟩
      show (((w.ctx.books.enter rq n rest s).ledger.record n).rq) = _
      rw [Books.enter_ledger, Ledger.enter_record_self]
      exact hsrq
  | leave m =>
    obtain ⟨⟨hm, hb⟩, hkept, hgone⟩ := hmk
    refine ⟨hb ▸ h.books.leave hm, fun rq n hn => ?_⟩
    obtain ⟨hold, hus⟩ := hkept rq n hn
    obtain ⟨hmem, hown, hsched⟩ := h.priv rq n hold
    have hnm : n ≠ m := fun hnm => hgone rq (hnm ▸ hn)
    rw [hact, hrec, hus]
    refine ⟨List.mem_filter.mpr ⟨hmem, by simpa using hnm⟩, ?_, hsched⟩
    show (((w.ctx.books.leave m).ledger.record n).rq) = _
    rw [Books.leave_ledger, Ledger.leave_record_of_ne _ _ _ hnm]
    exact hown

/-! ## Every section makes its move -/

/-- The deadline is held after a posting as before it, unless the posting is
about it. -/
theorem Posted.deadlineForcedActive {c c' : ThrottleCtx} {m : MetaId} {s : MetaStatus}
    (hp : Posted c m s c') (hs : s.deadlineForced = (c.metaPool m).deadlineForced) :
    c'.deadlineForcedActive = c.deadlineForcedActive := by
  have hk := congrArg (fun b : Books => b.ledger.balance .deadlineForcedActive) hp.books
  have hbal : c'.deadlineForcedActive.toNat = c.deadlineForcedActive.toNat
      + s.deadlineForced.toNat - (c.metaPool m).deadlineForced.toNat := hk
  rw [hs, Nat.add_sub_cancel] at hbal
  revert hbal
  cases c'.deadlineForcedActive <;> cases c.deadlineForcedActive <;> simp

/-- Taking the deadline posts its flag, if nobody holds it. -/
theorem posted_forceDeadline {c c' : ThrottleCtx} {m : MetaId} {s : MetaStatus}
    (hp : Posted c m s c') :
    Posted c m (if c'.deadlineForcedActive then s else s.force) (forceDeadline c' m) := by
  unfold forceDeadline
  cases hd : c'.deadlineForcedActive with
  | true => exact hp.quiet rfl
  | false =>
    have hnf : (c'.metaPool m).deadlineForced = false := by
      rw [← Bool.not_eq_true]
      intro hf
      rw [deadlineForcedActive_of_forced hp.sound hp.mem hf] at hd
      exact absurd hd (by simp)
    have hs : (c'.metaPool m).status.force = s.force := by rw [hp.status]
    refine hp.post (t := s.force) ?_ rfl hp.reserved
    refine books_eq_post (c := c') rfl rfl rfl rfl rfl hs (fun k => ?_)
    rw [← hs]
    cases k <;>
      simp [counter, Counter.test, MetaStatus.force, RqMeta.status, hd, hnf, modifyMeta]

@[simp] theorem books_countClass (c : ThrottleCtx) (m : MetaId) :
    (countClass c m).books = c.books := by
  unfold countClass
  split <;> rfl

/-- The statistics of a dispatch, and the deadline it may take. -/
theorem posted_countSelection {c c' : ThrottleCtx} {m : MetaId} {s : MetaStatus}
    (hp : Posted c m s c') (selection : DispatchSelection) :
    Posted c m
      (if decide (selection = .backgroundDeadline) && !c'.deadlineForcedActive then s.force
        else s)
      (countSelection c' m selection) := by
  cases selection with
  | backgroundDeadline =>
    refine cast ?_ (posted_forceDeadline hp)
    cases c'.deadlineForcedActive <;> rfl
  | foregroundFifo => exact hp
  | seqHit => exact hp.quiet rfl
  | seqFallback => exact hp.quiet rfl
  | small => exact hp.quiet rfl
  | backgroundBaseline => exact hp.quiet rfl

@[simp] theorem books_bindFeedback (c : ThrottleCtx) (g : Globals) (m : MetaId)
    (nowNs : ℕ) : (bindFeedback c g m nowNs).books = c.books := by
  unfold bindFeedback
  split
  · refine (books_modifyMeta _ m ?_).trans ?_
    · rfl
    · rfl
  · rfl

@[simp] theorem books_issueFeedback (c : ThrottleCtx) (m : MetaId) :
    (issueFeedback c m).books = c.books := by
  unfold issueFeedback
  split <;> rfl

/-- The reservations of an issue post both flags. -/
theorem posted_reserveIssue {c c' : ThrottleCtx} {m : MetaId} {s : MetaStatus}
    (hp : Posted c m s c') : Posted c m s.reserve.issue (reserveIssue c' m).1 := by
  unfold reserveIssue
  dsimp only
  have hp₂ : Posted c m s.reserve
      (if (c'.metaPool m).depthAccounted = true then (c', false)
        else c'.accountDepthLocked m).1 := by
    by_cases hd : (c'.metaPool m).depthAccounted = true
    · have hs : s.reserve = s := by
        unfold MetaStatus.reserve
        rw [← hp.status]
        exact if_pos hd
      rw [if_pos hd, hs]
      exact hp
    · rw [if_neg hd]
      exact hp.reserve
  generalize (if (c'.metaPool m).depthAccounted = true then (c', false)
    else c'.accountDepthLocked m) = p at hp₂
  by_cases hi : (p.1.metaPool m).issuedAccounted = true
  · have hs : s.reserve.issue = s.reserve := by
      rw [← hp₂.status]
      simp [MetaStatus.issue, RqMeta.status, hi]
    rw [if_pos hi, hs]
    exact hp₂
  · rw [if_neg hi]
    exact hp₂.issue

@[simp] theorem books_stampIssue (c : ThrottleCtx) (g : Globals) (m : MetaId)
    (nowNs : ℕ) : (stampIssue c g m nowNs).books = c.books := by
  unfold stampIssue
  split
  · rfl
  · exact c.books_modifyMeta m rfl

/-- **Issuing a request** reserves its depth, unless it is reserved, and counts
it as issued. -/
theorem posted_issueMeta {c c' : ThrottleCtx} {m : MetaId} {s : MetaStatus}
    (hp : Posted c m s c') (g : Globals) (r : Request) (nowNs : ℕ) :
    Posted c m s.reserve.issue (issueMeta c' g r m nowNs).1 := by
  have hp₁ := posted_reserveIssue (hp.quiet (c'.books_modifyMeta m
    (f := fun x => { x with deviceTimeExcluded := deviceTimeExcludedOf r }) rfl))
  refine hp₁.quiet ?_
  unfold issueMeta
  dsimp only
  rw [books_issueFeedback, books_stampIssue, books_inflightAddLocked]
  exact books_modifyMeta _ m rfl

@[simp] theorem books_recordSample (c : ThrottleCtx) (g : Globals) (m : MetaId)
    (nowNs latencyUs : ℕ) : (recordSample c g m nowNs latencyUs).1.books = c.books := by
  unfold recordSample
  have hb := c.books_modifyMeta m (f := fun x => { x with completionSampled := true }) rfl
  dsimp only
  split
  · rfl
  · split
    · exact hb
    · exact hb

@[simp] theorem books_recordVote (c : ThrottleCtx) (g : Globals) (m : MetaId)
    (latencyUs : ℕ) : (recordVote c g m latencyUs).ctx.books = c.books := by
  unfold recordVote
  dsimp only
  split
  · split
    · split
      · exact (books_fallbackLocked _).trans (books_clearFeedbackBindingLocked _)
      · exact books_clearFeedbackBindingLocked _
    · exact books_congr rfl rfl rfl rfl (status_clearFeedbackBindingLocked _) rfl
  · rfl

@[simp] theorem books_recordLatency (c : ThrottleCtx) (g : Globals) (m : MetaId)
    (nowNs : ℕ) : (recordLatency c g m nowNs).ctx.books = c.books := by
  unfold recordLatency
  split
  · exact c.books_invalidateFeedbackLocked m
  · dsimp only
    split <;> simp

@[simp] theorem books_restartInference (c : ThrottleCtx) (g : Globals)
    (reinfer slow : Bool) (nowNs : ℕ) :
    (restartInference c g reinfer slow nowNs).1.books = c.books := by
  unfold restartInference
  dsimp only
  split
  · split
    · simp
    · split <;> simp
  · rfl

/-- A new record takes its request: the move of a section that allocates one and
then works on it. -/
theorem makes_allocTaken {w w' : Throttle} {m : MetaId} {rest : List MetaId}
    (hfree : w.ctx.freeMeta = m :: rest) {rq : RqAddr} {cls : RqClass}
    {s : MetaStatus} (hrqs : w'.rqs = (w.allocTaken rq cls m rest).rqs)
    (hp : Posted (w.allocTaken rq cls m rest).ctx m s w'.ctx) :
    Makes w (.enter rq m rest s) w' := by
  have hown : s.rq = some rq := by
    rw [hp.owner, allocTaken_ctx]
    exact congrArg RqMeta.rq (Function.update_self (β := fun _ => RqMeta) m _ w.ctx.metaPool)
  refine ⟨⟨hfree, hown, hp.reserved, ?_⟩, fun rq' m' hm' => ?_⟩
  · rw [hp.books, books_allocTaken, Books.enter_post]
  · rw [hrqs] at hm' ⊢
    unfold allocTaken at hm' ⊢
    dsimp only at hm' ⊢
    by_cases hus : (w.rqs rq).useSched = true
    · rw [if_pos hus] at hm' ⊢
      by_cases hrq : rq' = rq
      · subst hrq
        refine Or.inr ⟨rfl, ?_, ?_⟩
        · simpa [setRqMeta, withCtx, eq_comm] using hm'
        · simpa [setRqMeta, withCtx] using hus
      · exact Or.inl (by simpa [setRqMeta, withCtx, hrq] using hm')
    · rw [if_neg hus] at hm' ⊢
      exact Or.inl ⟨hm', rfl⟩

/-- A taken record is in use, with the status it starts with. -/
theorem posted_allocTaken {w : Throttle} {m : MetaId} {rest : List MetaId}
    (h : Accounted w) (hfree : w.ctx.freeMeta = m :: rest) (rq : RqAddr) (cls : RqClass) :
    Posted (w.allocTaken rq cls m rest).ctx m
      { RqMeta.zero.status with rq := some rq, rqClass := cls }
      (w.allocTaken rq cls m rest).ctx := by
  have hb := books_allocTaken w rq cls m rest
  have hsound : (w.allocTaken rq cls m rest).ctx.books.Sound := by
    rw [hb]
    exact h.books.enter hfree rfl (fun hbg => absurd hbg Bool.false_ne_true)
  have hlive : m ∈ (w.allocTaken rq cls m rest).ctx.activeMetas := by
    show m ∈ (w.allocTaken rq cls m rest).ctx.books.ledger.live
    rw [hb]
    exact List.mem_cons_self
  have hst : ((w.allocTaken rq cls m rest).ctx.metaPool m).status
      = { RqMeta.zero.status with rq := some rq, rqClass := cls } := by
    show (w.allocTaken rq cls m rest).ctx.books.ledger.record m = _
    rw [hb, Books.enter_ledger, Ledger.enter_record_self]
  exact hst ▸ Posted.refl hsound hlive

/-- Writing the queue class posts it: no counter reads it. -/
theorem posted_queueClass {c c' : ThrottleCtx} {m : MetaId} {s : MetaStatus}
    (hp : Posted c m s c') (q : QueueClass) :
    Posted c m { s with queueClass := q }
      (c'.modifyMeta m (fun x => { x with queueClass := q })) := by
  refine hp.post (t := { s with queueClass := q }) ?_ rfl hp.reserved
  refine books_eq_post (c := c') rfl rfl rfl rfl rfl ?_ (fun k => ?_)
  · rw [← hp.status]
    rfl
  · have hk : k.test { s with queueClass := q } = k.test (c'.metaPool m).status := by
      rw [← hp.status]
      cases k <;> rfl
    rw [hk, Nat.add_sub_cancel]
    rfl

/-- Giving the record back ends the life of its request's metadata. -/
theorem makes_freeMetaLocked {w w' : Throttle} {m : MetaId} {rq : RqAddr} {s : MetaStatus}
    (h : Accounted w) (hm : m ∈ w.ctx.activeMetas) (hown : (w.ctx.metaPool m).rq = some rq)
    (hp : Posted w.ctx m s.release w'.ctx) (hrqs : w'.rqs = w.rqs) :
    Makes w (.leave m) (w'.freeMetaLocked rq m) := by
  have hkey : ∀ rq' m', ((w'.freeMetaLocked rq m).rqs rq').priv1 = some m' →
      ((w.rqs rq').priv1 = some m'
        ∧ ((w'.freeMetaLocked rq m).rqs rq').useSched = (w.rqs rq').useSched) ∧ m' ≠ m := by
    intro rq' m' hm'
    rw [freeMetaLocked_rqs hp.sound hp.mem, hrqs] at hm' ⊢
    have hother (hold : (w.rqs rq').priv1 = some m') (hne : rq' ≠ rq) : m' ≠ m := by
      rintro rfl
      exact hne (Option.some.inj ((h.priv rq' m' hold).2.1.symm.trans hown))
    by_cases hc : (w.rqs rq).useSched = true ∧ (w.rqs rq).priv1 = some m
    · rw [if_pos hc] at hm' ⊢
      by_cases hrq : rq' = rq
      · subst hrq
        exact absurd hm' (by simp)
      · rw [Function.update_of_ne hrq] at hm' ⊢
        exact ⟨⟨hm', rfl⟩, hother hm' hrq⟩
    · rw [if_neg hc] at hm' ⊢
      refine ⟨⟨hm', rfl⟩, ?_⟩
      by_cases hrq : rq' = rq
      · subst hrq
        rintro rfl
        exact hc ⟨(h.priv rq' m' hm').2.2, hm'⟩
      · exact hother hm' hrq
  refine ⟨⟨hm, ?_⟩, fun rq' m' hm' => (hkey rq' m' hm').1, fun rq' hm' =>
    (hkey rq' m hm').2 rfl⟩
  rw [freeMetaLocked_ctx hp.sound hp.mem]
  exact books_returnMeta hp

theorem makes_classifyRequest {w : Throttle} (h : Accounted w) (rq : RqAddr) (t : TaskCtx)
    (nowNs : ℕ) : Makes w (w.move (.classifyRequest rq t nowNs))
      (w.classifyRequest rq t nowNs).1 := by
  unfold move classifyRequest
  dsimp only
  cases hpriv : (w.rqs rq).priv1 with
  | some m =>
    obtain ⟨hm, -, -⟩ := h.priv rq m hpriv
    have hq : selectQueue w.ctx.metaPool w.globals t (w.rqs rq)
        = (w.ctx.metaPool m).queueClass := by
      unfold selectQueue
      rw [hpriv]
    refine ⟨?_, .of_eq rfl⟩
    rw [hq]
    exact ((Posted.refl h.books hm).quiet (w.ctx.books_modifyMeta m
      (f := fun x => { x with queueClass := (w.ctx.metaPool m).queueClass }) rfl)).enqueue _ _
  | none =>
    simp only [enterMove, allocMetaLocked]
    cases hfree : w.ctx.freeMeta with
    | nil => exact ⟨w.books_allocFailed, .of_eq rfl⟩
    | cons m rest =>
      have hp := posted_queueClass (posted_allocTaken h hfree rq
        (classForQueue (selectQueue w.ctx.metaPool w.globals t (w.rqs rq))))
        (selectQueue w.ctx.metaPool w.globals t (w.rqs rq))
      exact makes_allocTaken hfree rfl (hp.enqueue _ nowNs)

theorem makes_unqueueRequest {w : Throttle} (h : Accounted w) (rq : RqAddr) :
    Makes w (w.move (.unqueueRequest rq)) (w.unqueueRequest rq).1 := by
  unfold move unqueueRequest
  dsimp only
  cases hpriv : (w.rqs rq).priv1 with
  | none => exact ⟨rfl, .of_eq rfl⟩
  | some m =>
    exact ⟨(Posted.refl h.books (h.priv rq m hpriv).1).unqueue, .of_eq rfl⟩

theorem posted_markDispatch {c c' : ThrottleCtx} {m : MetaId} {s : MetaStatus}
    (hp : Posted c m s c') (g : Globals) (r : Request) :
    Posted c m s.unqueue (markDispatch c' g m r) := by
  unfold markDispatch
  dsimp only
  have hp₂ := (hp.quiet (c'.books_modifyMeta m
    (f := fun x => { x with deviceTimeExcluded := deviceTimeExcludedOf r }) rfl)).unqueue
  generalize (c'.modifyMeta m (fun x =>
    { x with deviceTimeExcluded := deviceTimeExcludedOf r })).pendingDecLocked m = c₂ at hp₂
  have hp₃ : Posted c m s.unqueue
      (c₂.modifyMeta m (fun x => { x with dispatchDecisionId := dispatchDecision c₂ g })) :=
    hp₂.quiet (c₂.books_modifyMeta m
      (f := fun x => { x with dispatchDecisionId := dispatchDecision c₂ g }) rfl)
  split
  · exact hp₃.quiet rfl
  · exact hp₃

theorem makes_accountDispatch {w : Throttle} (h : Accounted w) (rq : RqAddr)
    (selection : DispatchSelection) (nowNs : ℕ) :
    Makes w (w.move (.accountDispatch rq selection nowNs))
      (w.accountDispatch rq selection nowNs).1 := by
  unfold move accountDispatch
  dsimp only
  cases hpriv : (w.rqs rq).priv1 with
  | none => exact ⟨books_fallbackLocked _, .of_eq rfl⟩
  | some m =>
    refine ⟨?_, .of_eq rfl⟩
    have hp := ((posted_markDispatch (Posted.refl h.books (h.priv rq m hpriv).1)
      w.globals (w.rqs rq)).reserve).quiet (books_countClass _ m)
    have hd : (countClass ((markDispatch w.ctx w.globals m (w.rqs rq)).accountDepthLocked
        m).1 m).deadlineForcedActive = w.ctx.deadlineForcedActive :=
      Posted.deadlineForcedActive hp (by
        unfold MetaStatus.reserve
        split <;> rfl)
    have hq := posted_countSelection hp selection
    rw [hd] at hq
    exact hq.quiet (books_bindFeedback _ _ m nowNs)

theorem makes_finishRequest {w : Throttle} (h : Accounted w) (rq : RqAddr) :
    Makes w (w.move (.finishRequest rq)) (w.finishRequest rq).1 := by
  unfold move finishRequest
  dsimp only
  cases hpriv : (w.rqs rq).priv1 with
  | none => exact ⟨rfl, .of_eq rfl⟩
  | some m =>
    obtain ⟨hm, hown, -⟩ := h.priv rq m hpriv
    have hp := ((Posted.refl h.books hm).quiet (w.ctx.books_invalidateFeedbackLocked m)).release
    exact makes_freeMetaLocked h hm hown hp rfl

theorem makes_recordIssue {w : Throttle} (h : Accounted w) (rq : RqAddr) (t : TaskCtx)
    (nowNs : ℕ) : Makes w (w.move (.recordIssue rq t nowNs)) (w.recordIssue rq t nowNs).1 := by
  unfold move recordIssue
  dsimp only
  cases hfind : w.ctx.findMetaLocked rq with
  | some m =>
    exact ⟨posted_issueMeta (Posted.refl h.books (findMetaLocked_some hfind).1) _ _ nowNs,
      .of_eq rfl⟩
  | none =>
    simp only [enterMove, allocMetaLocked]
    cases hfree : w.ctx.freeMeta with
    | nil => exact ⟨w.books_allocFailed, .of_eq rfl⟩
    | cons m rest =>
      exact makes_allocTaken hfree rfl
        (posted_issueMeta (posted_allocTaken h hfree rq _) _ _ nowNs)

theorem makes_recordRequeue {w : Throttle} (h : Accounted w) (rq : RqAddr) :
    Makes w (w.move (.recordRequeue rq)) (w.recordRequeue rq).1 := by
  unfold move recordRequeue
  dsimp only
  cases hfind : w.ctx.findMetaLocked rq with
  | none => exact ⟨rfl, .of_eq rfl⟩
  | some m =>
    have hp := ((Posted.refl h.books (findMetaLocked_some hfind).1).quiet
      (w.ctx.books_invalidateFeedbackLocked m)).release
    exact ⟨hp.quiet (books_modifyMeta _ m rfl), .of_eq rfl⟩

theorem makes_recordComplete {w : Throttle} (h : Accounted w) (rq : RqAddr)
    (nrBytes nowNs : ℕ) : Makes w (w.move (.recordComplete rq nrBytes nowNs))
      (w.recordComplete rq nrBytes nowNs).1 := by
  unfold move recordComplete finalCompletion
  dsimp only
  cases hfind : w.ctx.findMetaLocked rq with
  | none => exact ⟨rfl, .of_eq rfl⟩
  | some m =>
    obtain ⟨hm, hown⟩ := findMetaLocked_some hfind
    by_cases hfin : (!(w.rqs rq).hasBio || decide ((w.rqs rq).bytes ≤ nrBytes)) = true
    · have hp := ((Posted.refl h.books hm).quiet
        (books_recordLatency w.ctx w.globals m nowNs)).release
      have hmk : Makes w (.leave m)
          ((w.withCtx ((recordLatency w.ctx w.globals m nowNs).ctx.releaseLocked
            m).1).freeMetaLocked rq m) :=
        makes_freeMetaLocked h hm hown hp rfl
      simp only [hfin, Bool.not_true, if_true, Bool.false_eq_true, if_false]
      exact ⟨⟨hm, (books_restartInference _ _ _ _ _).trans hmk.1.2⟩, hmk.2⟩
    · simp only [hfin, Bool.not_false, if_true, Bool.false_eq_true, if_false]
      exact ⟨rfl, .of_eq rfl⟩

/-! ## The accounting invariant -/

@[simp] theorem books_closeGate (c : ThrottleCtx) (reason : GateReason) :
    (closeGate c reason).books = c.books := by
  unfold closeGate
  split <;> rfl

@[simp] theorem books_stopRunning (c : ThrottleCtx) : (stopRunning c).books = c.books := rfl

/-- A section that only looks at the gate, the control state or the
configuration moves nothing. -/
theorem books_inferenceWorkFinish (w : Throttle) (i : ℕ) (predicted : Option (Fin 12)) :
    (w.inferenceWorkFinish i predicted).1.ctx.books = w.ctx.books
      ∧ (w.inferenceWorkFinish i predicted).1.rqs = w.rqs := by
  have hfail (w₁ : Throttle) (f : InferenceFrame) :
      (w₁.inferenceWorkFail f).1.ctx.books = w₁.ctx.books
        ∧ (w₁.inferenceWorkFail f).1.rqs = w₁.rqs := by
    unfold inferenceWorkFail
    split
    · exact ⟨books_fallbackLocked _, rfl⟩
    · exact ⟨rfl, rfl⟩
  have happly (w₁ : Throttle) (f : InferenceFrame) (a : ThrottleAction) (n : ℕ) :
      (w₁.inferenceWorkApply f a n).1.ctx.books = w₁.ctx.books
        ∧ (w₁.inferenceWorkApply f a n).1.rqs = w₁.rqs := by
    unfold inferenceWorkApply
    dsimp only
    split
    · exact ⟨rfl, rfl⟩
    · split
      · exact ⟨books_fallbackLocked _, rfl⟩
      · exact ⟨rfl, rfl⟩
  unfold inferenceWorkFinish
  split
  · exact ⟨rfl, rfl⟩
  · dsimp only
    split
    · exact hfail _ _
    · split
      · exact hfail _ _
      · exact happly _ _ _ _

theorem books_modelThreadRun (w : Throttle) (nowNs : ℕ) :
    (w.modelThreadRun nowNs).1.ctx.books = w.ctx.books
      ∧ (w.modelThreadRun nowNs).1.rqs = w.rqs := by
  have hsnap := w.ctx.books_snapshotStateLocked nowNs w.globals.queueDepth
    w.globals.devLatThresholdUs
  unfold modelThreadRun
  dsimp only
  split
  · exact ⟨rfl, rfl⟩
  · split
    · rename_i heq
      rw [heq] at hsnap
      exact ⟨(books_fallbackLocked _).trans hsnap, rfl⟩
    · rename_i heq
      rw [heq] at hsnap
      exact ⟨hsnap, rfl⟩

@[simp] theorem status_restamp (newSession : Bool) (nowNs : ℕ) (x : RqMeta) :
    (restamp newSession nowNs x).status = x.status := rfl

theorem books_resetContext (w : Throttle) (newSession : Bool) (nowNs : ℕ) :
    (w.resetContext newSession nowNs).1.ctx.books = w.ctx.books := by
  refine books_congr rfl rfl rfl rfl (fun m => ?_) rfl
  refine Eq.trans ?_ (status_clearFeedbackBindingLocked _ m)
  simp only [resetContext, withCtx]
  rw [apply_ite RqMeta.status, status_restamp, ite_self]
  rfl

/-- **The code refines the books**: every section makes its move. -/
theorem step_makes {w : Throttle} (h : Accounted w) (op : ThrottleOp) :
    Makes w (w.move op) (w.step op).1 := by
  cases op with
  | classifyRequest rq t nowNs => exact makes_classifyRequest h rq t nowNs
  | unqueueRequest rq => exact makes_unqueueRequest h rq
  | accountDispatch rq selection nowNs => exact makes_accountDispatch h rq selection nowNs
  | finishRequest rq => exact makes_finishRequest h rq
  | recordIssue rq t nowNs => exact makes_recordIssue h rq t nowNs
  | recordRequeue rq => exact makes_recordRequeue h rq
  | recordComplete rq nrBytes nowNs => exact makes_recordComplete h rq nrBytes nowNs
  | prepareRequest rq r =>
    unfold step prepareRequest
    refine ⟨by dsimp only; split <;> rfl, fun rq' m hm => ?_⟩
    dsimp only at hm ⊢
    split at hm
    · rename_i hr
      rw [if_pos hr]
      by_cases hrq : rq' = rq
      · subst hrq
        exact absurd hm (by simp)
      · simpa [hrq] using hm
    · rename_i hr
      rw [if_neg hr]
      exact ⟨hm, rfl⟩
  | changeRequest rq r =>
    refine ⟨rfl, fun rq' m hm => ?_⟩
    simp only [step, changeRequest] at hm ⊢
    by_cases hrq : rq' = rq
    · subst hrq
      simpa using hm
    · simpa [hrq] using hm
  | updateRequest rq =>
    simp only [move, step, updateRequest]
    split
    · exact ⟨rfl, .of_eq rfl⟩
    · split
      · exact ⟨rfl, .of_eq rfl⟩
      · exact ⟨books_modifyMeta _ _ rfl, .of_eq rfl⟩
  | scheduleFallback =>
    simp only [move, step, scheduleFallback]
    split
    · exact ⟨books_fallbackLocked _, .of_eq rfl⟩
    · exact ⟨rfl, .of_eq rfl⟩
  | nonHpAllowed =>
    simp only [move, step, nonHpAllowed]
    split
    · exact ⟨rfl, .of_eq rfl⟩
    · exact ⟨books_closeGate _ _, .of_eq rfl⟩
  | dispatchModelIfNeeded slotFree =>
    simp only [move, step, dispatchModelIfNeeded]
    split
    · exact ⟨rfl, .of_eq rfl⟩
    · split
      · exact ⟨rfl, .of_eq rfl⟩
      · exact ⟨books_fallbackLocked _, .of_eq rfl⟩
  | modelThreadRun nowNs =>
    exact ⟨(books_modelThreadRun w nowNs).1, .of_eq (books_modelThreadRun w nowNs).2⟩
  | inferenceWorkBegin =>
    simp only [move, step, inferenceWorkBegin]
    split <;> exact ⟨rfl, .of_eq rfl⟩
  | inferenceWorkFinish i predicted =>
    exact ⟨(books_inferenceWorkFinish w i predicted).1,
      .of_eq (books_inferenceWorkFinish w i predicted).2⟩
  | inferenceTimer =>
    simp only [move, step, inferenceTimer]
    split <;> exact ⟨rfl, .of_eq rfl⟩
  | timeoutWork =>
    simp only [move, step, timeoutWork]
    split
    · exact ⟨books_fallbackLocked _, .of_eq rfl⟩
    · exact ⟨rfl, .of_eq rfl⟩
  | resetContext newSession nowNs =>
    exact ⟨books_resetContext w newSession nowNs, .of_eq rfl⟩
  | configure k => exact ⟨rfl, .of_eq rfl⟩
  | setDying => exact ⟨rfl, .of_eq rfl⟩

/-- The books of an attached queue are sound: everything is free. -/
theorem accounted_of_attached {w : Throttle} (h : Attached w) : Accounted w := by
  obtain ⟨q, n, hn, hctx⟩ := h.ctx
  refine ⟨?_, fun rq m hm => absurd (hm.symm.trans (h.rqs rq)) (by simp)⟩
  rw [hctx]
  exact
    { balanced :=
        { nodup := by
            show (List.range n ++ []).Nodup
            rw [List.append_nil]
            exact List.nodup_range
          perm := by
            show (List.range n ++ []).Perm (List.range n)
            rw [List.append_nil]
          balance := fun k => by cases k <;> rfl }
      live := rfl
      inuse := rfl
      capacity := (metaCapacityOf_bounds hn).2
      reserved := fun m hm => absurd hm List.not_mem_nil
      keys := fun e he => absurd he List.not_mem_nil }

/-- **The accounting holds in every reachable state.** -/
theorem accounted_of_reachable {w : Throttle} (h : machine.Reachable w) : Accounted w :=
  h.invariant (I := Accounted) (fun _ h₀ => accounted_of_attached h₀)
    (fun _ op hw => hw.makes (step_makes hw op))

/-- **The books of the machine are a machine of their own**, that the code
refines. -/
theorem step_books {w : Throttle} (h : machine.Reachable w) (op : ThrottleOp) :
    (w.step op).1.ctx.books = w.ctx.books.make (w.move op) :=
  (step_makes (accounted_of_reachable h) op).books

/-! ## Where counters are released

A section that releases does so in several helpers, one after another. Each of
them must find its counter positive in the context it is called in, which is
one the section itself has built. -/

/-- Some release of a record would meet a counter at zero. -/
def ZeroMet (c : ThrottleCtx) (m : MetaId) : Prop :=
  ((c.metaPool m).queued ∧ c.pendingCounter (c.metaPool m).rqClass = 0)
  ∨ ((c.metaPool m).depthAccounted ∧ c.currentDepth = 0)
  ∨ ((c.metaPool m).bgDepthAccounted ∧ c.bgCurrentDepth = 0)
  ∨ ((c.metaPool m).issuedAccounted ∧ c.issuedDepth = 0)
  ∨ ((c.metaPool m).deadlineForced ∧ c.deadlineForcedActive = false)
  ∨ c.metaInuse = 0

/-- The contexts in which `releaseLocked` calls its helpers, and the one it
leaves. -/
def releaseSites (c : ThrottleCtx) (m : MetaId) : List ThrottleCtx :=
  let c₁ := c.inflightRemoveLocked m
  let c₂ := (c₁.releaseDeadlineLocked m).1
  let c₃ := (c₂.releaseIssuedDepthLocked m).1
  [c, c₁, c₂, c₃, (c₃.releaseDepthLocked m).1]

/-- **The contexts in which a section releases a record**: takes it off its
queue, gives back what it holds, or frees it. -/
def sites (w : Throttle) : ThrottleOp → List (ThrottleCtx × MetaId)
  | .unqueueRequest rq =>
    match (w.rqs rq).priv1 with
    | some m => [(w.ctx, m)]
    | none => []
  | .accountDispatch rq _ _ =>
    match (w.rqs rq).priv1 with
    | some m => [(w.ctx.modifyMeta m (fun x =>
        { x with deviceTimeExcluded := deviceTimeExcludedOf (w.rqs rq) }), m)]
    | none => []
  | .finishRequest rq =>
    match (w.rqs rq).priv1 with
    | some m => (releaseSites (w.ctx.invalidateFeedbackLocked m) m).map (·, m)
    | none => []
  | .recordRequeue rq =>
    match w.ctx.findMetaLocked rq with
    | some m => (releaseSites (w.ctx.invalidateFeedbackLocked m) m).map (·, m)
    | none => []
  | .recordComplete rq nrBytes nowNs =>
    match w.ctx.findMetaLocked rq with
    | some m =>
      if w.finalCompletion rq nrBytes then
        (releaseSites (recordLatency w.ctx w.globals m nowNs).ctx m).map (·, m)
      else []
    | none => []
  | _ => []

/-- **The contexts in which a section takes a snapshot.** -/
def snapshotSites (w : Throttle) : ThrottleOp → List ThrottleCtx
  | .modelThreadRun _ => [w.ctx]
  | .recordComplete rq nrBytes nowNs =>
    match w.ctx.findMetaLocked rq with
    | some m =>
      if w.finalCompletion rq nrBytes then
        let p := (recordLatency w.ctx w.globals m nowNs).ctx.releaseLocked m
        [((w.withCtx p.1).freeMetaLocked rq m).ctx.snapshotConfigLocked w.globals]
      else []
    | none => []
  | _ => []

/-- Halfway through a section no release meets zero. -/
theorem not_zeroMet_of_posted {c c' : ThrottleCtx} {m : MetaId} {s : MetaStatus}
    (hp : Posted c m s c') : ¬ ZeroMet c' m := by
  have hne (k : Counter) (hk : k.test (c'.metaPool m).status = true) : c'.counter k ≠ 0 :=
    counter_ne_zero hp.sound hp.mem hk
  rintro (⟨hq, h0⟩ | ⟨hd, h0⟩ | ⟨hb, h0⟩ | ⟨hi, h0⟩ | ⟨hf, h0⟩ | h0)
  · cases hc : (c'.metaPool m).rqClass with
    | foreground =>
      rw [hc] at h0
      exact hne .pendingFg (by simp [Counter.test, RqMeta.status, hq, hc]) h0
    | background =>
      rw [hc] at h0
      exact hne .pendingBg (by simp [Counter.test, RqMeta.status, hq, hc]) h0
  · exact hne .currentDepth hd h0
  · exact hne .bgCurrentDepth hb h0
  · exact hne .issuedDepth hi h0
  · exact Bool.false_ne_true (h0.symm.trans (deadlineForcedActive_of_forced hp.sound hp.mem hf))
  · exact hp.sound.inuse_pos hp.mem h0

/-- No helper of `releaseLocked` meets zero, nor what comes after it. -/
theorem not_zeroMet_releaseSites {c c' : ThrottleCtx} {m : MetaId} {s : MetaStatus}
    (hp : Posted c m s c') : ∀ p ∈ (releaseSites c' m).map (·, m), ¬ ZeroMet p.1 p.2 := by
  have hp₁ := hp.quiet (c'.books_inflightRemoveLocked m)
  simp only [releaseSites, List.map_cons, List.map_nil, List.forall_mem_cons]
  exact ⟨not_zeroMet_of_posted hp, not_zeroMet_of_posted hp₁,
    not_zeroMet_of_posted hp₁.unforce, not_zeroMet_of_posted hp₁.unforce.unissue,
    not_zeroMet_of_posted hp₁.unforce.unissue.unreserve, fun _ h => absurd h List.not_mem_nil⟩

/-- **No section releases at zero.** -/
theorem not_zeroMet_sites {w : Throttle} (h : Accounted w) (op : ThrottleOp) :
    ∀ p ∈ w.sites op, ¬ ZeroMet p.1 p.2 := by
  have hnone : ∀ p ∈ ([] : List (ThrottleCtx × MetaId)), ¬ ZeroMet p.1 p.2 :=
    fun p hp => absurd hp List.not_mem_nil
  cases op <;> simp only [sites] <;> try exact hnone
  case unqueueRequest rq =>
    cases hpriv : (w.rqs rq).priv1 with
    | none => exact hnone
    | some m =>
      have hp := Posted.refl h.books (h.priv rq m hpriv).1
      exact List.forall_mem_singleton.mpr (not_zeroMet_of_posted hp)
  case accountDispatch rq selection nowNs =>
    cases hpriv : (w.rqs rq).priv1 with
    | none => exact hnone
    | some m =>
      have hp := (Posted.refl h.books (h.priv rq m hpriv).1).quiet (w.ctx.books_modifyMeta m
        (f := fun x => { x with deviceTimeExcluded := deviceTimeExcludedOf (w.rqs rq) }) rfl)
      exact List.forall_mem_singleton.mpr (not_zeroMet_of_posted hp)
  case finishRequest rq =>
    cases hpriv : (w.rqs rq).priv1 with
    | none => exact hnone
    | some m =>
      exact not_zeroMet_releaseSites ((Posted.refl h.books (h.priv rq m hpriv).1).quiet
        (w.ctx.books_invalidateFeedbackLocked m))
  case recordRequeue rq =>
    cases hfind : w.ctx.findMetaLocked rq with
    | none => exact hnone
    | some m =>
      exact not_zeroMet_releaseSites ((Posted.refl h.books (findMetaLocked_some hfind).1).quiet
        (w.ctx.books_invalidateFeedbackLocked m))
  case recordComplete rq nrBytes nowNs =>
    cases hfind : w.ctx.findMetaLocked rq with
    | none => exact hnone
    | some m =>
      dsimp only
      split
      · exact not_zeroMet_releaseSites ((Posted.refl h.books (findMetaLocked_some hfind).1).quiet
          (books_recordLatency w.ctx w.globals m nowNs))
      · exact hnone

/-! ## Snapshots count what the counters count -/

/-- One round of a snapshot counts its record. -/
theorem snapshotScanStep_seen (c : ThrottleCtx) (nowNs thr : ℕ) (a : SnapshotScan)
    (m : MetaId) :
    (c.snapshotScanStep nowNs thr a m).issuedSeen
        = a.issuedSeen + (c.metaPool m).issuedAccounted.toNat
      ∧ (c.snapshotScanStep nowNs thr a m).waitingSeen
        = a.waitingSeen + (c.metaPool m).queued.toNat := by
  unfold snapshotScanStep
  dsimp only
  cases hi : (c.metaPool m).issuedAccounted <;> cases hq : (c.metaPool m).queued <;>
    simp

/-- A snapshot counts the issued and the waiting records. -/
theorem snapshotScan_seen (c : ThrottleCtx) (nowNs thr : ℕ) (s : StateSnapshot) :
    (c.snapshotScan nowNs thr s).issuedSeen
        = countAt c.activeMetas c.metaPool RqMeta.issuedAccounted
      ∧ (c.snapshotScan nowNs thr s).waitingSeen
        = countAt c.activeMetas c.metaPool RqMeta.queued := by
  have key (l : List MetaId) (a : SnapshotScan) :
      (l.foldl (c.snapshotScanStep nowNs thr) a).issuedSeen
          = a.issuedSeen + countAt l c.metaPool RqMeta.issuedAccounted
        ∧ (l.foldl (c.snapshotScanStep nowNs thr) a).waitingSeen
          = a.waitingSeen + countAt l c.metaPool RqMeta.queued := by
    induction l generalizing a with
    | nil => exact ⟨rfl, rfl⟩
    | cons m l ih =>
      obtain ⟨hi, hq⟩ := ih (c.snapshotScanStep nowNs thr a m)
      obtain ⟨hsi, hsq⟩ := snapshotScanStep_seen c nowNs thr a m
      rw [List.foldl_cons, hi, hq, hsi, hsq, countAt_cons, countAt_cons]
      omega
  obtain ⟨hi, hq⟩ := key c.activeMetas { issuedSeen := 0, waitingSeen := 0, state := s }
  exact ⟨hi.trans (Nat.zero_add _), hq.trans (Nat.zero_add _)⟩

/-- **With sound books the last comparison of a snapshot never fails.** -/
theorem snapshotScan_agrees {c : ThrottleCtx} (h : c.books.Sound) (nowNs thr : ℕ)
    (s : StateSnapshot) :
    (c.snapshotScan nowNs thr s).issuedSeen = c.issuedDepth
      ∧ (c.snapshotScan nowNs thr s).waitingSeen = (c.pendingFg + c.pendingBg) % 2 ^ 32 := by
  obtain ⟨hi, hq⟩ := snapshotScan_seen c nowNs thr s
  have hwait : c.pendingFg + c.pendingBg
      = countAt c.activeMetas (fun m => (c.metaPool m).status) MetaStatus.queued :=
    (congrArg₂ (· + ·) (h.balanced.balance .pendingFg) (h.balanced.balance .pendingBg)).trans
      (countAt_add (fun s => by cases hs : s.rqClass <;> simp [Counter.test, hs]))
  have hle : countAt c.activeMetas (fun m => (c.metaPool m).status) MetaStatus.queued
      ≤ u32Max := h.countAt_le _
  refine ⟨hi.trans (h.balanced.balance .issuedDepth).symm, hq.trans ?_⟩
  rw [hwait, Nat.mod_eq_of_lt (Nat.lt_of_le_of_lt hle (by decide))]
  rfl

/-- The books of a snapshot are sound. -/
theorem sound_snapshotSites {w : Throttle} (h : Accounted w) (op : ThrottleOp) :
    ∀ c ∈ w.snapshotSites op, c.books.Sound := by
  have hnone : ∀ c ∈ ([] : List ThrottleCtx), c.books.Sound :=
    fun c hc => absurd hc List.not_mem_nil
  cases op <;> simp only [snapshotSites] <;> try exact hnone
  case modelThreadRun nowNs => exact List.forall_mem_singleton.mpr h.books
  case recordComplete rq nrBytes nowNs =>
    cases hfind : w.ctx.findMetaLocked rq with
    | none => exact hnone
    | some m =>
      obtain ⟨hm, -⟩ := findMetaLocked_some hfind
      have hp := ((Posted.refl h.books hm).quiet
        (books_recordLatency w.ctx w.globals m nowNs)).release
      dsimp only
      split
      · refine List.forall_mem_singleton.mpr ?_
        show (freeMetaLocked (w.withCtx _) rq m).ctx.books.Sound
        rw [freeMetaLocked_ctx hp.sound hp.mem]
        exact (books_returnMeta hp) ▸ h.books.leave hm
      · exact hnone

/-! ## Conservation -/

/-- **Conserved accounting**, in the words of the source: the free list and the
active table share out the pool, and each counter is the number of records in
use that carry its flag. -/
structure Conserved (c : ThrottleCtx) : Prop where
  disjoint : (c.freeMeta ++ c.activeMetas).Nodup
  pool : ∀ m, m ∈ c.freeMeta ++ c.activeMetas ↔ m < c.metaCapacity
  inuse : c.metaInuse = c.activeMetas.length
  capacity : c.metaInuse + c.freeMeta.length = c.metaCapacity
  currentDepth : c.currentDepth = countAt c.activeMetas c.metaPool (·.depthAccounted)
  bgCurrentDepth : c.bgCurrentDepth = countAt c.activeMetas c.metaPool (·.bgDepthAccounted)
  issuedDepth : c.issuedDepth = countAt c.activeMetas c.metaPool (·.issuedAccounted)
  pendingFg : c.pendingFg
    = countAt c.activeMetas c.metaPool (fun x => x.queued && decide (x.rqClass = .foreground))
  pendingBg : c.pendingBg
    = countAt c.activeMetas c.metaPool (fun x => x.queued && decide (x.rqClass = .background))
  deadline : c.deadlineForcedActive = true
    ↔ countAt c.activeMetas c.metaPool (·.deadlineForced) = 1

/-- Sound books are conserved accounting. -/
theorem conserved_of_sound {c : ThrottleCtx} (h : c.books.Sound) : Conserved c where
  disjoint := h.balanced.nodup
  pool m := h.balanced.perm.mem_iff.trans List.mem_range
  inuse := h.inuse
  capacity := by
    have hlen := h.balanced.length_add_length
    rw [List.length_range] at hlen
    exact (congrArg (· + c.freeMeta.length) h.inuse).trans hlen
  currentDepth := h.balanced.balance .currentDepth
  bgCurrentDepth := h.balanced.balance .bgCurrentDepth
  issuedDepth := h.balanced.balance .issuedDepth
  pendingFg := h.balanced.balance .pendingFg
  pendingBg := h.balanced.balance .pendingBg
  deadline := by
    have hd : c.deadlineForcedActive.toNat
        = countAt c.activeMetas c.metaPool (·.deadlineForced) :=
      h.balanced.balance .deadlineForcedActive
    rw [← hd]
    cases c.deadlineForcedActive <;> decide

/-- **Accounting conservation.** In every reachable state the metadata pool is
shared out between the free list and the active table and every counter counts
its flag; no section releases a record while its counter is zero, wherever in
the section that is; and the counts of a snapshot agree with the counters. -/
theorem accounting_conserved {w : Throttle} (h : machine.Reachable w) :
    Conserved w.ctx
      ∧ (∀ op, ∀ p ∈ w.sites op, ¬ ZeroMet p.1 p.2)
      ∧ ∀ op, ∀ c ∈ w.snapshotSites op, ∀ nowNs thr s,
          (c.snapshotScan nowNs thr s).issuedSeen = c.issuedDepth
            ∧ (c.snapshotScan nowNs thr s).waitingSeen
              = (c.pendingFg + c.pendingBg) % 2 ^ 32 := by
  have ha := accounted_of_reachable h
  exact ⟨conserved_of_sound ha.books, not_zeroMet_sites ha,
    fun op c hc nowNs thr s => snapshotScan_agrees (sound_snapshotSites ha op c hc) nowNs thr s⟩

/-- A queue that has issued one request of its own accord. -/
theorem accounting_conserved_issued :
    Conserved (machine.run (attach 2 [])
      [.recordIssue 7 { uid := 0, pid := 0, comm := [] } 1]).ctx :=
  (accounting_conserved (reachable_attach [] _)).1

end Throttle
