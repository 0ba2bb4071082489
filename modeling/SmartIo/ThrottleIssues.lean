import SmartIo.ThrottleDecisions

/-!
# Issues and samples

What the throttle knows of the requests in the device: the records in use, with
the place and the operation each was issued with, the two in-flight tables, and
the window of the last latencies. A lock section changes these in a few moves
(`IssueMove`), and the rest of what it does – counters, decisions, feedback – has
no part in them. `Throttle.issueMoves` reads off the state which moves a section
makes, and `issues_step` says that these are all it does to them.

Two results are built on the moves: that the in-flight tables answer like a scan of
all records, and that the window holds the last samples and no others.
-/

open ThrottleCtx

/-! ## The view -/

/-- What a record says of the request in the device. -/
structure IssueCard where
  rq : Option RqAddr
  op : ReqOp
  startSector : ℕ
  endSector : ℕ
  issuedAccounted : Bool
  inflightIndexed : Bool
  issueTsNs : ℕ
  issueSessionId : ℕ
  completionSampled : Bool
deriving DecidableEq, Repr

/-- The card of a record. -/
def RqMeta.issueCard (x : RqMeta) : IssueCard where
  rq := x.rq
  op := x.op
  startSector := x.startSector
  endSector := x.endSector
  issuedAccounted := x.issuedAccounted
  inflightIndexed := x.inflightIndexed
  issueTsNs := x.issueTsNs
  issueSessionId := x.issueSessionId
  completionSampled := x.completionSampled

/-- The records in use and their cards, the in-flight tables, and the window. -/
structure IssueView where
  live : List MetaId
  card : MetaId → IssueCard
  inflight : ChainTable ℕ MetaId
  inflightStart : ChainTable ℕ MetaId
  window : DevLatWindow
  sessionId : ℕ

/-- The view of a context. -/
def ThrottleCtx.issues (c : ThrottleCtx) : IssueView where
  live := c.activeMetas
  card := fun m => (c.metaPool m).issueCard
  inflight := c.inflight
  inflightStart := c.inflightStart
  window := c.window
  sessionId := c.sessionId

/-! ## Moves -/

/-- `REQ_OP_READ` or `REQ_OP_WRITE`. -/
def ReqOp.readOrWrite (op : ReqOp) : Bool := op = .read || op = .write

/-- What a section does to the records in the device. -/
inductive IssueMove where
  /-- A free record is taken into use. -/
  | enter (m : MetaId) (k : IssueCard)
  /-- A waiting request tells its place again. -/
  | restate (m : MetaId) (r : Request)
  /-- A request goes to the device, from the section of `record_issue`. -/
  | issue (m : MetaId) (r : Request) (enabled : Bool) (nowNs : ℕ)
  /-- The index and the issued depth are given back. -/
  | release (m : MetaId)
  /-- A requeued request has no issue time any more. -/
  | unstamp (m : MetaId)
  /-- A completion is taken note of. -/
  | mark (m : MetaId)
  /-- The sample of a completion enters the window. -/
  | sample (m : MetaId) (x : CompletionSample)
  /-- The window is emptied. -/
  | reset
  | newSession
  /-- A record is given back. -/
  | leave (m : MetaId)

/-- A move that asks nothing of the record it is about. -/
def IssueMove.Plain : IssueMove → Prop
  | .enter .. | .restate .. | .issue .. | .sample .. => False
  | _ => True

namespace IssueView

/-- Rewrite one card. -/
def setCard (V : IssueView) (m : MetaId) (k : IssueCard) : IssueView :=
  { V with card := Function.update V.card m k }

/-- Take a record off the index. -/
def unlink (V : IssueView) (m : MetaId) : IssueView :=
  if !(V.card m).inflightIndexed then V
  else
    { V with
      inflight := V.inflight.del m
      inflightStart := V.inflightStart.del m }.setCard m
        { V.card m with inflightIndexed := false }

/-- Put a record on the index, with the place of its request. -/
def link (V : IssueView) (m : MetaId) (r : Request) : IssueView :=
  if (V.card m).inflightIndexed || !(V.card m).op.readOrWrite then V
  else
    { V with
      inflight := V.inflight.add (inflightKey (V.card m).op (r.pos + r.sectors)) m
      inflightStart := V.inflightStart.add (inflightKey (V.card m).op r.pos) m }.setCard m
        { V.card m with
          startSector := r.pos
          endSector := r.pos + r.sectors
          inflightIndexed := true }

/-- Start the device time of a record that has none. -/
def stamp (V : IssueView) (m : MetaId) (enabled : Bool) (nowNs : ℕ) : IssueView :=
  if (V.card m).issueTsNs ≠ 0 then V
  else V.setCard m
    { V.card m with
      issueTsNs := nowNs
      completionSampled := false
      issueSessionId := if enabled then V.sessionId else 0 }

/-- Make a move. -/
def make (V : IssueView) : IssueMove → IssueView
  | .enter m k => { V with live := m :: V.live }.setCard m k
  | .restate m r => V.setCard m
      { V.card m with op := r.op, startSector := r.pos, endSector := r.pos + r.sectors }
  | .issue m r enabled nowNs =>
    ((V.setCard m { V.card m with issuedAccounted := true, op := r.op }).link m r).stamp m
      enabled nowNs
  | .release m =>
    (V.unlink m).setCard m { (V.unlink m).card m with issuedAccounted := false }
  | .unstamp m => V.setCard m
      { V.card m with issueTsNs := 0, issueSessionId := 0, completionSampled := false }
  | .mark m => V.setCard m { V.card m with completionSampled := true }
  | .sample m x => { V with window := V.window.push x }.setCard m
      { V.card m with completionSampled := true }
  | .reset => { V with window := .zero }
  | .newSession => { V with sessionId := V.sessionId + 1 }
  | .leave m =>
    { V.unlink m with live := V.live.filter (fun n => n ≠ m) }.setCard m RqMeta.zero.issueCard

@[simp] theorem setCard_card (V : IssueView) (m : MetaId) (k : IssueCard) :
    (V.setCard m k).card m = k := by
  show Function.update V.card m k m = k
  rw [Function.update_self]

theorem setCard_card_of_ne (V : IssueView) {m n : MetaId} (h : n ≠ m) (k : IssueCard) :
    (V.setCard m k).card n = V.card n := by
  show Function.update V.card m k n = V.card n
  rw [Function.update_of_ne h]

@[simp] theorem setCard_self (V : IssueView) (m : MetaId) : V.setCard m (V.card m) = V := by
  unfold setCard
  rw [Function.update_eq_self]

@[simp] theorem setCard_setCard (V : IssueView) (m : MetaId) (k l : IssueCard) :
    (V.setCard m k).setCard m l = V.setCard m l := by
  unfold setCard
  rw [Function.update_idem]

/-- An unlinked card is not indexed, and is otherwise what it was. -/
theorem unlink_card (V : IssueView) (m : MetaId) :
    (V.unlink m).card = Function.update V.card m { V.card m with inflightIndexed := false } := by
  unfold unlink
  split
  · rename_i h
    rw [Bool.not_eq_true'] at h
    rw [show ({ V.card m with inflightIndexed := false } : IssueCard) = V.card m by
      rw [← h], Function.update_eq_self]
  · rfl

end IssueView

/-! ## Helpers that change nothing of the view -/

namespace ThrottleCtx

/-- A store to a record is a store to its card. -/
theorem issueCard_update (pool : MetaId → RqMeta) (m : MetaId) (x : RqMeta) :
    (fun j => (Function.update pool m x j).issueCard)
      = Function.update (fun j => (pool j).issueCard) m x.issueCard :=
  funext fun j => Function.apply_update (fun _ => RqMeta.issueCard) pool m x j

/-- A store to a record rewrites its card. -/
theorem issues_modifyMeta (c : ThrottleCtx) (m : MetaId) (f : RqMeta → RqMeta) :
    (c.modifyMeta m f).issues = c.issues.setCard m (f (c.metaPool m)).issueCard := by
  unfold issues IssueView.setCard
  congr 1
  exact issueCard_update c.metaPool m (f (c.metaPool m))

/-- A store that leaves the card alone leaves the view alone. -/
theorem issues_modifyMeta_of_card (c : ThrottleCtx) (m : MetaId) {f : RqMeta → RqMeta}
    (h : (f (c.metaPool m)).issueCard = (c.metaPool m).issueCard) :
    (c.modifyMeta m f).issues = c.issues := by
  rw [issues_modifyMeta, h]
  exact c.issues.setCard_self m

/-- Two contexts with the same parts have the same view. -/
theorem issues_congr {c c' : ThrottleCtx} (hactive : c'.active = c.active)
    (hcard : ∀ m, (c'.metaPool m).issueCard = (c.metaPool m).issueCard)
    (hinflight : c'.inflight = c.inflight) (hstart : c'.inflightStart = c.inflightStart)
    (hwindow : c'.window = c.window) (hsession : c'.sessionId = c.sessionId) :
    c'.issues = c.issues := by
  unfold issues activeMetas
  rw [hactive, hinflight, hstart, hwindow, hsession, funext hcard]

section Frame

variable (c : ThrottleCtx) (m : MetaId)

@[simp] theorem issues_anomaly : c.anomaly.issues = c.issues := rfl

theorem issueCard_clearFeedbackBindingLocked (j : MetaId) :
    (c.clearFeedbackBindingLocked.metaPool j).issueCard = (c.metaPool j).issueCard := by
  unfold clearFeedbackBindingLocked
  dsimp only
  cases c.control.feedbackMeta with
  | none => rfl
  | some m =>
    exact congrFun (congrArg IssueView.card
      (c.issues_modifyMeta_of_card m (f := fun x => { x with feedbackBound := false }) rfl)) j

@[simp] theorem issues_clearFeedbackBindingLocked :
    c.clearFeedbackBindingLocked.issues = c.issues :=
  issues_congr rfl c.issueCard_clearFeedbackBindingLocked rfl rfl rfl rfl

@[simp] theorem issues_resetFeedbackLocked : c.resetFeedbackLocked.issues = c.issues :=
  issues_congr rfl c.issueCard_clearFeedbackBindingLocked rfl rfl rfl rfl

/-- **A fallback** empties the window. -/
@[simp] theorem issues_fallbackLocked :
    c.fallbackLocked.1.issues = c.issues.make .reset := by
  have hcard : (fun j => (c.fallbackLocked.1.metaPool j).issueCard)
      = fun j => (c.metaPool j).issueCard :=
    funext fun j => issueCard_clearFeedbackBindingLocked _ j
  show ({ c.issues with
    card := fun j => (c.fallbackLocked.1.metaPool j).issueCard, window := .zero } : IssueView) = _
  rw [hcard]
  rfl

@[simp] theorem issues_invalidateFeedbackLocked :
    (c.invalidateFeedbackLocked m).issues = c.issues := by
  unfold invalidateFeedbackLocked
  dsimp only
  split
  · rfl
  · split
    · exact issues_congr rfl c.issueCard_clearFeedbackBindingLocked rfl rfl rfl rfl
    · exact issues_congr rfl c.issueCard_clearFeedbackBindingLocked rfl rfl rfl rfl

@[simp] theorem issues_pendingIncLocked (g : Globals) (nowNs : ℕ) :
    (c.pendingIncLocked g m nowNs).issues = c.issues := by
  unfold pendingIncLocked
  dsimp only
  split
  · rfl
  · split
    · rfl
    · refine (issues_modifyMeta_of_card _ m ?_).trans ?_
      · rfl
      · cases (c.metaPool m).rqClass <;> rfl

@[simp] theorem issues_pendingDecLocked : (c.pendingDecLocked m).issues = c.issues := by
  unfold pendingDecLocked
  dsimp only
  split
  · rfl
  · refine (issues_modifyMeta_of_card _ m ?_).trans ?_
    · rfl
    · split
      · rfl
      · cases (c.metaPool m).rqClass <;> rfl

@[simp] theorem issues_reopenGateLocked : c.reopenGateLocked.1.issues = c.issues := by
  unfold reopenGateLocked
  split <;> rfl

@[simp] theorem issues_releaseDeadlineLocked :
    (c.releaseDeadlineLocked m).1.issues = c.issues := by
  have hcard := c.issues_modifyMeta_of_card m
    (f := fun x => { x with deadlineForced := false }) rfl
  unfold releaseDeadlineLocked
  dsimp only
  split
  · rfl
  · split
    · exact hcard
    · exact hcard

@[simp] theorem issues_snapshotStateLocked (nowNs queueMax thr : ℕ) :
    (c.snapshotStateLocked nowNs queueMax thr).1.issues = c.issues := by
  unfold snapshotStateLocked
  dsimp only
  split
  · rfl
  · split
    · rfl
    · split <;> rfl

@[simp] theorem issues_armInferenceLocked (newControl : Bool) (state : Option StateSnapshot) :
    (c.armInferenceLocked newControl state).issues = c.issues :=
  issues_congr rfl (issueCard_clearFeedbackBindingLocked _) rfl rfl rfl rfl

@[simp] theorem issues_startInferenceLocked (g : Globals) (newControl : Bool) (nowNs : ℕ) :
    (c.startInferenceLocked g newControl nowNs).1.issues = c.issues := by
  unfold startInferenceLocked
  dsimp only
  split
  · rfl
  · split
    · exact issues_armInferenceLocked _ _ _
    · have hsnap := (c.snapshotConfigLocked g).issues_snapshotStateLocked nowNs
        g.queueDepth g.devLatThresholdUs
      split
      · rename_i c₂ heq
        rw [heq] at hsnap
        exact hsnap
      · rename_i c₂ s heq
        rw [heq] at hsnap
        exact (issues_armInferenceLocked _ _ _).trans hsnap

end Frame

/-! ## Helpers that make a move -/

section Moves

variable {c : ThrottleCtx} {m : MetaId}

theorem issues_inflightRemoveLocked (c : ThrottleCtx) (m : MetaId) :
    (c.inflightRemoveLocked m).issues = c.issues.unlink m := by
  unfold inflightRemoveLocked IssueView.unlink
  show (if !(c.metaPool m).inflightIndexed then c else _).issues
    = if !(c.metaPool m).inflightIndexed then c.issues else _
  split
  · rfl
  · exact issues_modifyMeta _ m _

theorem issues_inflightAddLocked (c : ThrottleCtx) (m : MetaId) (r : Request) :
    (c.inflightAddLocked m r).issues = c.issues.link m r := by
  unfold inflightAddLocked IssueView.link ReqOp.readOrWrite
  dsimp only
  show (if (c.metaPool m).inflightIndexed
        || !((c.metaPool m).op = .read || (c.metaPool m).op = .write) then c else _).issues
    = if (c.metaPool m).inflightIndexed
        || !((c.metaPool m).op = .read || (c.metaPool m).op = .write) then c.issues else _
  split
  · rfl
  · exact issues_modifyMeta _ m _

/-- The issued depth is given back with its flag. -/
theorem issues_releaseIssuedDepthLocked (h : c.books.Sound) (hm : m ∈ c.activeMetas) :
    (c.releaseIssuedDepthLocked m).1.issues
      = c.issues.setCard m { c.issues.card m with issuedAccounted := false } := by
  rw [releaseIssuedDepthLocked_eq h hm]
  dsimp only
  split
  · exact issues_modifyMeta _ m _
  · rename_i hissued
    have hcard : ({ c.issues.card m with issuedAccounted := false } : IssueCard)
        = c.issues.card m := by
      simp [issues, RqMeta.issueCard, hissued]
    rw [hcard]
    exact (c.issues.setCard_self m).symm

theorem issues_releaseDepthLocked (h : c.books.Sound) (hm : m ∈ c.activeMetas) :
    (c.releaseDepthLocked m).1.issues = c.issues := by
  rw [releaseDepthLocked_eq h hm]
  split
  · rw [issues_reopenGateLocked]
    exact issues_modifyMeta_of_card _ m rfl
  · rfl

/-- **A release** takes the record off the index and gives the issued depth back. -/
theorem issues_releaseLocked (h : c.books.Sound) (hm : m ∈ c.activeMetas) :
    (c.releaseLocked m).1.issues = c.issues.make (.release m) := by
  have hp₂ := ((Posted.refl h hm).quiet (c.books_inflightRemoveLocked m)).unforce
  have hp₃ := hp₂.unissue
  unfold releaseLocked
  rw [issues_releaseDepthLocked hp₃.sound hp₃.mem, issues_releaseIssuedDepthLocked hp₂.sound
    hp₂.mem, issues_releaseDeadlineLocked, issues_inflightRemoveLocked]
  rfl

/-- **A reservation of depth** leaves the view alone – or is refused with a fallback,
for a record that holds some. -/
theorem issues_accountDepthLocked (h : c.books.Sound) (hm : m ∈ c.activeMetas) :
    (c.accountDepthLocked m).1.issues
      = if (c.metaPool m).depthAccounted then c.issues.make .reset else c.issues := by
  rw [accountDepthLocked_eq h hm]
  split
  · exact issues_fallbackLocked _
  · exact issues_modifyMeta_of_card _ m rfl

theorem issues_accountIssuedDepthLocked (h : c.books.Sound) (hm : m ∈ c.activeMetas)
    (hissued : (c.metaPool m).issuedAccounted = false) :
    (c.accountIssuedDepthLocked m).1.issues
      = c.issues.setCard m { c.issues.card m with issuedAccounted := true } := by
  rw [accountIssuedDepthLocked_eq h hm, hissued]
  exact issues_modifyMeta _ m _

end Moves

end ThrottleCtx

namespace Throttle

section Moves

variable {c c' : ThrottleCtx} {m : MetaId} {s : MetaStatus}

/-- **The reservations of an issue** set the flag of the issued depth. -/
theorem issues_reserveIssue (h : c.books.Sound) (hm : m ∈ c.activeMetas) :
    (reserveIssue c m).1.issues
      = c.issues.setCard m { c.issues.card m with issuedAccounted := true } := by
  have hdepth : ∃ s, Posted c m s (if (c.metaPool m).depthAccounted = true then (c, false)
        else c.accountDepthLocked m).1
      ∧ (if (c.metaPool m).depthAccounted = true then (c, false)
        else c.accountDepthLocked m).1.issues = c.issues := by
    split
    · exact ⟨_, .refl h hm, rfl⟩
    · rename_i hd
      refine ⟨_, (Posted.refl h hm).reserve, ?_⟩
      rw [issues_accountDepthLocked h hm, if_neg hd]
  obtain ⟨s, hp, hissues⟩ := hdepth
  unfold reserveIssue
  dsimp only
  generalize (if (c.metaPool m).depthAccounted = true then (c, false)
    else c.accountDepthLocked m) = p at hp hissues
  rw [← hissues]
  split
  · rename_i hissued
    have hcard : ({ p.1.issues.card m with issuedAccounted := true } : IssueCard)
        = p.1.issues.card m := by
      simp [issues, RqMeta.issueCard, hissued]
    rw [hcard]
    exact (p.1.issues.setCard_self m).symm
  · rename_i hissued
    exact issues_accountIssuedDepthLocked hp.sound hp.mem (Bool.not_eq_true _ ▸ hissued)

theorem issues_issueFeedback (c : ThrottleCtx) (m : MetaId) :
    (issueFeedback c m).issues = c.issues := by
  unfold issueFeedback
  split <;> rfl

theorem issues_stampIssue (c : ThrottleCtx) (g : Globals) (m : MetaId) (nowNs : ℕ) :
    (stampIssue c g m nowNs).issues = c.issues.stamp m g.throttleEnabled nowNs := by
  unfold stampIssue IssueView.stamp
  show (if (c.metaPool m).issueTsNs ≠ 0 then c else _).issues
    = if (c.metaPool m).issueTsNs ≠ 0 then c.issues else _
  split
  · rfl
  · exact issues_modifyMeta _ m _

/-- **The section of an issue** makes the move of one. -/
theorem issues_issueMeta (h : c.books.Sound) (hm : m ∈ c.activeMetas) (g : Globals)
    (r : Request) (nowNs : ℕ) :
    (issueMeta c g r m nowNs).1.issues
      = c.issues.make (.issue m r g.throttleEnabled nowNs) := by
  have hp := (Posted.refl h hm).quiet (c.books_modifyMeta m
    (f := fun x => { x with deviceTimeExcluded := deviceTimeExcludedOf r }) rfl)
  have hcard := c.issues_modifyMeta_of_card m
    (f := fun x => { x with deviceTimeExcluded := deviceTimeExcludedOf r }) rfl
  have hres := issues_reserveIssue hp.sound hp.mem
  unfold issueMeta
  dsimp only
  generalize reserveIssue _ m = q at hres
  rw [issues_issueFeedback, issues_stampIssue, issues_inflightAddLocked, issues_modifyMeta]
  have hop : ({ q.1.metaPool m with op := r.op } : RqMeta).issueCard
      = { q.1.issues.card m with op := r.op } := rfl
  rw [hop, hres, hcard, IssueView.setCard_card, IssueView.setCard_setCard]
  rfl

/-- **A record given back** leaves the index and the table. -/
theorem issues_returnMeta (c : ThrottleCtx) (m : MetaId) :
    (returnMeta c m).issues = c.issues.make (.leave m) := by
  have hissues : ((c.pendingDecLocked m).inflightRemoveLocked m).issues = c.issues.unlink m := by
    rw [issues_inflightRemoveLocked, issues_pendingDecLocked]
  unfold returnMeta
  dsimp only
  generalize (c.pendingDecLocked m).inflightRemoveLocked m = c₁ at hissues
  have hfeedback : (if c₁.control.feedbackMeta = some m then c₁.resetFeedbackLocked else c₁).issues
      = c.issues.unlink m := by
    split
    · rw [issues_resetFeedbackLocked, hissues]
    · exact hissues
  generalize (if c₁.control.feedbackMeta = some m then c₁.resetFeedbackLocked else c₁) = c₂
    at hfeedback
  have hlive : (c.issues.unlink m).live = c.issues.live := by
    unfold IssueView.unlink
    split <;> rfl
  show (IssueView.mk (c₂.active.del m).all
    (fun j => (Function.update c₂.metaPool m RqMeta.zero j).issueCard) c₂.inflight
    c₂.inflightStart c₂.window c₂.sessionId) = _
  rw [issueCard_update, ChainTable.all_del]
  show ({ c₂.issues with live := c₂.issues.live.filter (fun n => n ≠ m) } : IssueView).setCard m
    RqMeta.zero.issueCard = _
  rw [hfeedback, hlive]
  rfl

theorem issues_freeMetaLocked {w : Throttle} (h : w.ctx.books.Sound) (hm : m ∈ w.ctx.activeMetas)
    (rq : RqAddr) : (w.freeMetaLocked rq m).ctx.issues = w.ctx.issues.make (.leave m) := by
  rw [freeMetaLocked_ctx h hm]
  exact issues_returnMeta w.ctx m

end Moves

/-! ## The moves of a section -/

/-- The card of a record that is taken into use. -/
def enterCard (w : Throttle) (rq : RqAddr) : IssueCard :=
  { RqMeta.zero.issueCard with
    rq := some rq
    op := (w.rqs rq).op
    startSector := (w.rqs rq).pos
    endSector := (w.rqs rq).pos + (w.rqs rq).sectors }

/-- The sample of a completion, if it is one: the first of its issue, of a timed
device, and issued in the session. -/
def sampleOf (c : ThrottleCtx) (g : Globals) (m : MetaId) (nowNs latencyUs : ℕ) :
    Option CompletionSample :=
  let x := c.metaPool m
  if !x.completionSampled && !x.deviceTimeExcluded && g.throttleEnabled
      && x.issueSessionId = c.sessionId then
    some { completeTsNs := nowNs, devLatUs := latencyUs,
           isFg := decide (x.rqClass = .foreground) }
  else none

/-- The moves of the sample block of `smart_io_throttle_record_complete`. -/
def sampleMoves (c : ThrottleCtx) (g : Globals) (m : MetaId) (nowNs latencyUs : ℕ) :
    List IssueMove :=
  match sampleOf c g m nowNs latencyUs with
  | some x => [.sample m x]
  | none => [.mark m]

/-- The last vote ends the control, if the device is fast again. -/
def voteMoves (c : ThrottleCtx) (v : VoteResult) : List IssueMove :=
  if v.complete && !v.reinfer && c.control.feedbackVoteCount + 1 = feedbackSampleMax then [.reset]
  else []

/-- The moves of a final completion up to its release. -/
def latencyMoves (c : ThrottleCtx) (g : Globals) (m : MetaId) (nowNs : ℕ) : List IssueMove :=
  match completionLatency (c.metaPool m) nowNs with
  | none => []
  | some latencyUs =>
    let p := recordSample c g m nowNs latencyUs
    sampleMoves c g m nowNs latencyUs ++ voteMoves p.1 (recordVote p.1 g m latencyUs)

/-- A new inference that was asked for and cannot be started ends the control. -/
def restartMoves (c : ThrottleCtx) (g : Globals) (reinfer slow : Bool) (nowNs : ℕ) :
    List IssueMove :=
  if reinfer && !(c.startInferenceLocked g slow nowNs).2 then [.reset] else []

/-- A window that is emptied under a condition. -/
def resetIf (b : Bool) : List IssueMove := if b then [.reset] else []

/-- The moves of `classifyRequest`. -/
def classifyMoves (w : Throttle) (rq : RqAddr) : List IssueMove :=
  match (w.rqs rq).priv1, w.ctx.freeMeta with
  | some _, _ => []
  | none, [] => [.reset]
  | none, m :: _ => [.enter m (w.enterCard rq)]

/-- The moves of `updateRequest`. -/
def updateMoves (w : Throttle) (rq : RqAddr) : List IssueMove :=
  match (w.rqs rq).priv1 with
  | none => []
  | some m => if (w.ctx.metaPool m).issuedAccounted then [] else [.restate m (w.rqs rq)]

/-- The moves of `accountDispatch`. -/
def accountMoves (w : Throttle) (rq : RqAddr) : List IssueMove :=
  match (w.rqs rq).priv1 with
  | none => [.reset]
  | some m => resetIf (w.ctx.metaPool m).depthAccounted

/-- The moves of `finishRequest`. -/
def finishMoves (w : Throttle) (rq : RqAddr) : List IssueMove :=
  match (w.rqs rq).priv1 with
  | none => []
  | some m => [.release m, .leave m]

/-- The moves of `recordIssue`. -/
def recordIssueMoves (w : Throttle) (rq : RqAddr) (nowNs : ℕ) : List IssueMove :=
  match w.ctx.findMetaLocked rq, w.ctx.freeMeta with
  | some m, _ => [.issue m (w.rqs rq) w.globals.throttleEnabled nowNs]
  | none, [] => [.reset]
  | none, m :: _ =>
    [.enter m (w.enterCard rq), .issue m (w.rqs rq) w.globals.throttleEnabled nowNs]

/-- The moves of `recordRequeue`. -/
def requeueMoves (w : Throttle) (rq : RqAddr) : List IssueMove :=
  match w.ctx.findMetaLocked rq with
  | none => []
  | some m => [.release m, .unstamp m]

/-- The moves of `recordComplete`. -/
def completeMoves (w : Throttle) (rq : RqAddr) (nrBytes nowNs : ℕ) : List IssueMove :=
  match w.ctx.findMetaLocked rq with
  | none => []
  | some m =>
    if !w.finalCompletion rq nrBytes then []
    else
      let v := recordLatency w.ctx w.globals m nowNs
      latencyMoves w.ctx w.globals m nowNs ++ [.release m, .leave m]
        ++ restartMoves ((w.withCtx (v.ctx.releaseLocked m).1).freeMetaLocked rq m).ctx
          w.globals v.reinfer v.slow nowNs

/-- The moves of `modelThreadRun`. -/
def modelThreadMoves (w : Throttle) (nowNs : ℕ) : List IssueMove :=
  let c := w.ctx
  resetIf (c.control.inferencePending && !c.control.inferenceTimedOut && !c.dying
    && decide (c.pending.source = .model)
    && (c.snapshotStateLocked nowNs w.globals.queueDepth w.globals.devLatThresholdUs).2.isNone)

/-- The moves of `inferenceWorkFinish`. -/
def workFinishMoves (w : Throttle) (i : ℕ) (predicted : Option (Fin 12)) : List IssueMove :=
  match w.frames[i]? with
  | none => []
  | some f =>
    match frameAction f predicted with
    | none => resetIf (framePending w.ctx f)
    | some a =>
      if w.globals.queueDepth = 0 then resetIf (framePending w.ctx f)
      else resetIf (framePending w.ctx f && !w.ctx.dying
        && (actionTarget w.ctx a w.globals.queueDepth).isNone)

/-- **The moves a section makes.** -/
def issueMoves (w : Throttle) : ThrottleOp → List IssueMove
  | .classifyRequest rq _ _ => w.classifyMoves rq
  | .updateRequest rq => w.updateMoves rq
  | .accountDispatch rq _ _ => w.accountMoves rq
  | .finishRequest rq => w.finishMoves rq
  | .recordIssue rq _ nowNs => w.recordIssueMoves rq nowNs
  | .recordRequeue rq => w.requeueMoves rq
  | .recordComplete rq nrBytes nowNs => w.completeMoves rq nrBytes nowNs
  | .scheduleFallback => resetIf w.ctx.control.inferencePending
  | .dispatchModelIfNeeded slotFree =>
    resetIf (w.globals.throttleEnabled && w.ctx.modelDispatchNeededLocked && !slotFree)
  | .modelThreadRun nowNs => w.modelThreadMoves nowNs
  | .inferenceWorkFinish i predicted => w.workFinishMoves i predicted
  | .timeoutWork =>
    resetIf (w.ctx.control.inferencePending && w.ctx.control.inferenceTimedOut)
  | .resetContext newSession _ => if newSession then [.newSession, .reset] else [.reset]
  | _ => []

/-! ## Sections make their moves -/

/-- Several moves, one after another. -/
def makeMoves (V : IssueView) (mvs : List IssueMove) : IssueView := mvs.foldl IssueView.make V

@[simp] theorem makeMoves_nil (V : IssueView) : makeMoves V [] = V := rfl

@[simp] theorem makeMoves_cons (V : IssueView) (mv : IssueMove) (mvs : List IssueMove) :
    makeMoves V (mv :: mvs) = makeMoves (V.make mv) mvs := rfl

theorem makeMoves_append (V : IssueView) (mvs nvs : List IssueMove) :
    makeMoves V (mvs ++ nvs) = makeMoves (makeMoves V mvs) nvs := List.foldl_append

/-- A window emptied under a condition, in the two cases. -/
theorem makeMoves_resetIf (V : IssueView) (b : Bool) :
    makeMoves V (resetIf b) = if b then V.make .reset else V := by
  cases b <;> rfl

/-- **A record taken into use.** -/
theorem issues_allocTaken (w : Throttle) (rq : RqAddr) (cls : RqClass) (m : MetaId)
    (rest : List MetaId) :
    (w.allocTaken rq cls m rest).ctx.issues
      = w.ctx.issues.make (.enter m (w.enterCard rq)) := by
  rw [allocTaken_ctx]
  show (IssueView.mk (m :: w.ctx.activeMetas)
    (fun j => (Function.update w.ctx.metaPool m _ j).issueCard) w.ctx.inflight
    w.ctx.inflightStart w.ctx.window w.ctx.sessionId) = _
  rw [issueCard_update]
  rfl

theorem issues_allocFailed (w : Throttle) :
    w.allocFailed.ctx.issues = w.ctx.issues.make .reset := issues_fallbackLocked _

section Complete

variable {c : ThrottleCtx} {m : MetaId}

/-- The sample block, with the sample it takes. -/
theorem recordSample_eq (c : ThrottleCtx) (g : Globals) (m : MetaId) (nowNs latencyUs : ℕ) :
    recordSample c g m nowNs latencyUs
      = match sampleOf c g m nowNs latencyUs with
        | some x =>
          let c₁ := c.modifyMeta m fun x => { x with completionSampled := true }
          let c₂ := { c₁ with window := c.window.push x }
          (c₂, !c.control.throttleActive && !c.control.inferencePending
            && c₂.slowWindowLocked g.devLatThresholdUs)
        | none =>
          if (c.metaPool m).completionSampled then (c, false)
          else (c.modifyMeta m fun x => { x with completionSampled := true }, false) := by
  unfold recordSample sampleOf
  dsimp only
  by_cases hsampled : (c.metaPool m).completionSampled = true
  · rw [if_pos hsampled, if_neg (by simp [hsampled])]
    exact (if_pos hsampled).symm
  · rw [if_neg hsampled]
    simp only [modifyMeta, Function.update_self, Bool.not_eq_true _ ▸ hsampled, Bool.not_false,
      Bool.true_and]
    split <;> rfl

theorem issues_recordSample (c : ThrottleCtx) (g : Globals) (m : MetaId) (nowNs latencyUs : ℕ) :
    (recordSample c g m nowNs latencyUs).1.issues
      = makeMoves c.issues (sampleMoves c g m nowNs latencyUs) := by
  have hmark : (c.modifyMeta m fun x => { x with completionSampled := true }).issues
      = c.issues.make (.mark m) := issues_modifyMeta c m _
  rw [recordSample_eq]
  unfold sampleMoves
  cases sampleOf c g m nowNs latencyUs with
  | some x =>
    exact congrArg (fun V : IssueView => ({ V with window := V.window.push x } : IssueView)) hmark
  | none =>
    dsimp only
    split
    · rename_i hsampled
      refine Eq.trans (c.issues_modifyMeta_of_card m ?_).symm hmark
      rw [← hsampled]
    · exact hmark

/-- **A vote** empties the window if it is the last one and the device is fast. -/
theorem issues_recordVote (c : ThrottleCtx) (g : Globals) (m : MetaId) (latencyUs : ℕ) :
    (recordVote c g m latencyUs).ctx.issues
      = makeMoves c.issues (voteMoves c (recordVote c g m latencyUs)) := by
  unfold recordVote
  split
  · generalize hvote : ({ c with
      control := { c.control with
        feedbackVoteCount := c.control.feedbackVoteCount + 1
        feedbackTotalDevLatUs := c.control.feedbackTotalDevLatUs + latencyUs
        feedbackMaxDevLatUs := max c.control.feedbackMaxDevLatUs latencyUs } } : ThrottleCtx) = c₁
    have hissues : c₁.clearFeedbackBindingLocked.issues = c.issues := by
      rw [issues_clearFeedbackBindingLocked, ← hvote]
      rfl
    have hcount : c₁.clearFeedbackBindingLocked.control.feedbackVoteCount
        = c.control.feedbackVoteCount + 1 := by
      rw [← hvote]
      rfl
    dsimp only
    rw [hcount]
    unfold voteMoves
    by_cases hlast : c.control.feedbackVoteCount + 1 = feedbackSampleMax
    · rw [if_pos hlast]
      split
      · rw [if_pos (by simp [hlast])]
        exact (issues_fallbackLocked _).trans
          (congrArg (fun V : IssueView => V.make .reset) hissues)
      · rw [if_neg (by simp)]
        exact hissues
    · rw [if_neg hlast, if_neg (by simp [hlast])]
      exact hissues
  · rfl

theorem issues_recordLatency (c : ThrottleCtx) (g : Globals) (m : MetaId) (nowNs : ℕ) :
    (recordLatency c g m nowNs).ctx.issues = makeMoves c.issues (latencyMoves c g m nowNs) := by
  unfold recordLatency latencyMoves
  cases completionLatency (c.metaPool m) nowNs with
  | none => exact issues_invalidateFeedbackLocked c m
  | some latencyUs =>
    have hvote := issues_recordVote (recordSample c g m nowNs latencyUs).1 g m latencyUs
    rw [issues_recordSample] at hvote
    dsimp only
    rw [makeMoves_append, ← hvote]
    split
    · rfl
    · exact issues_invalidateFeedbackLocked _ m

theorem issues_restartInference (c : ThrottleCtx) (g : Globals) (reinfer slow : Bool)
    (nowNs : ℕ) :
    (restartInference c g reinfer slow nowNs).1.issues
      = makeMoves c.issues (restartMoves c g reinfer slow nowNs) := by
  have hstart := c.issues_startInferenceLocked g slow nowNs
  unfold restartInference restartMoves
  dsimp only
  generalize c.startInferenceLocked g slow nowNs = p at hstart ⊢
  cases reinfer with
  | false =>
    cases slow with
    | false => rfl
    | true =>
      simp only [Bool.false_or, Bool.false_and, if_true]
      split
      · exact hstart
      · exact hstart
  | true =>
    simp only [Bool.true_or, if_true, Bool.true_and]
    cases p.2 with
    | true => exact hstart
    | false =>
      exact (issues_fallbackLocked _).trans
        (congrArg (fun V : IssueView => V.make .reset) hstart)

end Complete

theorem issues_classifyRequest (w : Throttle) (rq : RqAddr) (t : TaskCtx) (nowNs : ℕ) :
    (w.classifyRequest rq t nowNs).1.ctx.issues
      = makeMoves w.ctx.issues (w.classifyMoves rq) := by
  have hset (w₁ : Throttle) (m : MetaId) (q : QueueClass) :
      ((w₁.ctx.modifyMeta m (fun x => { x with queueClass := q })).pendingIncLocked
        w₁.globals m nowNs).issues = w₁.ctx.issues := by
    rw [issues_pendingIncLocked]
    exact w₁.ctx.issues_modifyMeta_of_card m rfl
  simp only [classifyRequest, classifyMoves]
  cases (w.rqs rq).priv1 with
  | some m => exact hset w m _
  | none =>
    unfold allocMetaLocked
    cases w.ctx.freeMeta with
    | nil => exact w.issues_allocFailed
    | cons m rest => exact (hset _ m _).trans (w.issues_allocTaken rq _ m rest)

theorem issues_updateRequest (w : Throttle) (rq : RqAddr) :
    (w.updateRequest rq).1.ctx.issues
      = makeMoves w.ctx.issues (w.updateMoves rq) := by
  simp only [updateRequest, updateMoves]
  cases (w.rqs rq).priv1 with
  | none => rfl
  | some m =>
    dsimp only
    split
    · rfl
    · exact issues_modifyMeta w.ctx m _

theorem issues_countSelection (c : ThrottleCtx) (m : MetaId) (selection : DispatchSelection) :
    (countSelection c m selection).issues = c.issues := by
  cases selection with
  | backgroundDeadline =>
    show (forceDeadline c m).issues = c.issues
    unfold forceDeadline
    split
    · rfl
    · exact issues_modifyMeta_of_card _ m rfl
  | foregroundFifo => rfl
  | seqHit => rfl
  | seqFallback => rfl
  | small => rfl
  | backgroundBaseline => rfl

theorem issues_countClass (c : ThrottleCtx) (m : MetaId) :
    (countClass c m).issues = c.issues := by
  unfold countClass
  split <;> rfl

theorem issues_bindFeedback (c : ThrottleCtx) (g : Globals) (m : MetaId) (nowNs : ℕ) :
    (bindFeedback c g m nowNs).issues = c.issues := by
  unfold bindFeedback
  split
  · exact issues_modifyMeta_of_card _ m rfl
  · rfl

/-- Marking a dispatch changes nothing of the view, nor the reservation. -/
theorem issues_markDispatch (c : ThrottleCtx) (g : Globals) (m : MetaId) (r : Request) :
    (markDispatch c g m r).issues = c.issues := by
  have hmarked (d : ℕ) : (((c.modifyMeta m (fun x =>
      { x with deviceTimeExcluded := deviceTimeExcludedOf r })).pendingDecLocked m).modifyMeta m
        (fun x => { x with dispatchDecisionId := d })).issues = c.issues := by
    refine (issues_modifyMeta_of_card _ m rfl).trans ?_
    rw [issues_pendingDecLocked]
    exact issues_modifyMeta_of_card _ m rfl
  unfold markDispatch
  dsimp only
  split
  · exact hmarked _
  · exact hmarked _

theorem issues_accountDispatch {w : Throttle} (h : Accounted w) (rq : RqAddr)
    (selection : DispatchSelection) (nowNs : ℕ) :
    (w.accountDispatch rq selection nowNs).1.ctx.issues
      = makeMoves w.ctx.issues (w.accountMoves rq) := by
  simp only [accountDispatch, accountMoves]
  cases hpriv : (w.rqs rq).priv1 with
  | none => exact issues_fallbackLocked _
  | some m =>
    have hp := posted_markDispatch (.refl h.books (h.priv rq m hpriv).1) w.globals (w.rqs rq)
    have hdepth : ((markDispatch w.ctx w.globals m (w.rqs rq)).metaPool m).depthAccounted
        = (w.ctx.metaPool m).depthAccounted := congrArg MetaStatus.depthAccounted hp.status
    show (bindFeedback _ w.globals m nowNs).issues = _
    rw [issues_bindFeedback, issues_countSelection, issues_countClass,
      issues_accountDepthLocked hp.sound hp.mem, issues_markDispatch, hdepth,
      makeMoves_resetIf]

theorem issues_finishRequest {w : Throttle} (h : Accounted w) (rq : RqAddr) :
    (w.finishRequest rq).1.ctx.issues
      = makeMoves w.ctx.issues (w.finishMoves rq) := by
  simp only [finishRequest, finishMoves]
  cases hpriv : (w.rqs rq).priv1 with
  | none => rfl
  | some m =>
    have hp := (Posted.refl h.books (h.priv rq m hpriv).1).quiet
      (w.ctx.books_invalidateFeedbackLocked m)
    have hrel := issues_releaseLocked hp.sound hp.mem
    rw [issues_invalidateFeedbackLocked] at hrel
    show ((w.withCtx _).freeMetaLocked rq m).ctx.issues = _
    rw [issues_freeMetaLocked hp.release.sound hp.release.mem, withCtx_ctx, hrel]
    rfl

theorem issues_recordIssue {w : Throttle} (h : Accounted w) (rq : RqAddr) (t : TaskCtx)
    (nowNs : ℕ) :
    (w.recordIssue rq t nowNs).1.ctx.issues
      = makeMoves w.ctx.issues (w.recordIssueMoves rq nowNs) := by
  simp only [recordIssue, recordIssueMoves]
  cases hfind : w.ctx.findMetaLocked rq with
  | some m => exact issues_issueMeta h.books (findMetaLocked_some hfind).1 _ _ nowNs
  | none =>
    unfold allocMetaLocked
    cases hfree : w.ctx.freeMeta with
    | nil => exact w.issues_allocFailed
    | cons m rest =>
      generalize classForQueue _ = cls
      have hp := posted_allocTaken h hfree rq cls
      have hrq : (w.allocTaken rq cls m rest).rqs rq
          = { w.rqs rq with priv1 := ((w.allocTaken rq cls m rest).rqs rq).priv1 } := by
        unfold allocTaken
        dsimp only
        split
        · simp [setRqMeta, withCtx]
        · rfl
      have hglobals : (w.allocTaken rq cls m rest).globals = w.globals := by
        unfold allocTaken
        dsimp only
        split <;> rfl
      refine (issues_issueMeta hp.sound hp.mem _ _ nowNs).trans ?_
      rw [issues_allocTaken, hglobals, hrq]
      rfl

theorem issues_recordRequeue {w : Throttle} (h : Accounted w) (rq : RqAddr) :
    (w.recordRequeue rq).1.ctx.issues
      = makeMoves w.ctx.issues (w.requeueMoves rq) := by
  simp only [recordRequeue, requeueMoves]
  cases hfind : w.ctx.findMetaLocked rq with
  | none => rfl
  | some m =>
    have hp := (Posted.refl h.books (findMetaLocked_some hfind).1).quiet
      (w.ctx.books_invalidateFeedbackLocked m)
    have hrel := issues_releaseLocked hp.sound hp.mem
    rw [issues_invalidateFeedbackLocked] at hrel
    refine (issues_modifyMeta _ m _).trans ?_
    rw [hrel]
    show (w.ctx.issues.make (.release m)).setCard m _ = (w.ctx.issues.make (.release m)).setCard m _
    rw [← hrel]
    rfl

theorem issues_recordComplete {w : Throttle} (h : Accounted w) (rq : RqAddr)
    (nrBytes nowNs : ℕ) :
    (w.recordComplete rq nrBytes nowNs).1.ctx.issues
      = makeMoves w.ctx.issues (w.completeMoves rq nrBytes nowNs) := by
  simp only [recordComplete, completeMoves]
  cases hfind : w.ctx.findMetaLocked rq with
  | none => rfl
  | some m =>
    have hp := (Posted.refl h.books (findMetaLocked_some hfind).1).quiet
      (books_recordLatency w.ctx w.globals m nowNs)
    have hlat := issues_recordLatency w.ctx w.globals m nowNs
    dsimp only
    generalize recordLatency w.ctx w.globals m nowNs = v at hp hlat ⊢
    by_cases hfinal : (!w.finalCompletion rq nrBytes) = true
    · rw [if_pos hfinal]
      exact congrArg (fun p : Throttle × Effects => p.1.ctx.issues) (if_pos hfinal)
    · rw [if_neg hfinal]
      refine (congrArg (fun p : Throttle × Effects => p.1.ctx.issues) (if_neg hfinal)).trans ?_
      have hfree := issues_freeMetaLocked (w := w.withCtx (v.ctx.releaseLocked m).1)
        hp.release.sound hp.release.mem rq
      rw [withCtx_ctx, issues_releaseLocked hp.sound hp.mem, hlat] at hfree
      refine (issues_restartInference _ w.globals v.reinfer v.slow nowNs).trans ?_
      rw [hfree, makeMoves_append, makeMoves_append]
      rfl

theorem issues_modelThreadRun (w : Throttle) (nowNs : ℕ) :
    (w.modelThreadRun nowNs).1.ctx.issues
      = makeMoves w.ctx.issues (w.modelThreadMoves nowNs) := by
  have hsnap := w.ctx.issues_snapshotStateLocked nowNs w.globals.queueDepth
    w.globals.devLatThresholdUs
  simp only [modelThreadRun, modelThreadMoves, makeMoves_resetIf]
  generalize w.ctx.snapshotStateLocked nowNs w.globals.queueDepth w.globals.devLatThresholdUs = p
    at hsnap ⊢
  by_cases hskip : (!w.ctx.control.inferencePending || w.ctx.control.inferenceTimedOut
      || w.ctx.dying || decide (w.ctx.pending.source ≠ .model)) = true
  · rw [if_pos hskip, if_neg (by simp_all; grind)]
    rfl
  · rw [if_neg hskip]
    obtain ⟨c₁, _ | s⟩ := p
    · rw [if_pos (by simp_all)]
      exact (issues_fallbackLocked c₁).trans
        (congrArg (fun V : IssueView => V.make .reset) hsnap)
    · rw [if_neg (by simp)]
      exact hsnap

theorem issues_inferenceWorkFinish (w : Throttle) (i : ℕ) (predicted : Option (Fin 12)) :
    (w.inferenceWorkFinish i predicted).1.ctx.issues
      = makeMoves w.ctx.issues (w.workFinishMoves i predicted) := by
  simp only [inferenceWorkFinish, workFinishMoves]
  cases hf : w.frames[i]? with
  | none => rfl
  | some f =>
    have hfail : (({ w with frames := w.frames.eraseIdx i } : Throttle).inferenceWorkFail
        f).1.ctx.issues = makeMoves w.ctx.issues (resetIf (framePending w.ctx f)) := by
      unfold inferenceWorkFail
      rw [makeMoves_resetIf]
      dsimp only
      split
      · exact issues_fallbackLocked _
      · rfl
    dsimp only
    cases hact : frameAction f predicted with
    | none => exact hfail
    | some a =>
      dsimp only
      by_cases hq : w.globals.queueDepth = 0
      · rw [if_pos hq, if_pos hq]
        exact hfail
      · rw [if_neg hq, if_neg hq, makeMoves_resetIf]
        unfold inferenceWorkApply
        dsimp only
        by_cases hstale : (!framePending w.ctx f || w.ctx.dying) = true
        · rw [if_pos hstale, if_neg (by simp_all; grind)]
          rfl
        · rw [if_neg hstale]
          cases actionTarget w.ctx a w.globals.queueDepth with
          | none =>
            rw [if_pos (by simp_all)]
            exact issues_fallbackLocked _
          | some target =>
            rw [if_neg (by simp)]
            rfl

theorem issueCard_restamp (newSession : Bool) (nowNs : ℕ) (x : RqMeta) :
    (restamp newSession nowNs x).issueCard = x.issueCard := rfl

/-- **Every section makes its moves**, and changes nothing else of the view. -/
theorem issues_step {w : Throttle} (h : Accounted w) (op : ThrottleOp) :
    (w.step op).1.ctx.issues = makeMoves w.ctx.issues (w.issueMoves op) := by
  cases op with
  | prepareRequest rq r =>
    simp only [step, prepareRequest]
    split <;> rfl
  | changeRequest rq r => rfl
  | classifyRequest rq t nowNs => exact issues_classifyRequest w rq t nowNs
  | updateRequest rq => exact issues_updateRequest w rq
  | unqueueRequest rq =>
    simp only [step, unqueueRequest]
    split
    · rfl
    · exact issues_pendingDecLocked _ _
  | accountDispatch rq selection nowNs => exact issues_accountDispatch h rq selection nowNs
  | finishRequest rq => exact issues_finishRequest h rq
  | recordIssue rq t nowNs => exact issues_recordIssue h rq t nowNs
  | recordRequeue rq => exact issues_recordRequeue h rq
  | recordComplete rq nrBytes nowNs => exact issues_recordComplete h rq nrBytes nowNs
  | scheduleFallback =>
    simp only [step, scheduleFallback, issueMoves, makeMoves_resetIf]
    split
    · exact issues_fallbackLocked _
    · rfl
  | nonHpAllowed =>
    simp only [step, nonHpAllowed]
    split
    · rfl
    · unfold closeGate
      dsimp only
      split <;> rfl
  | dispatchModelIfNeeded slotFree =>
    simp only [step, dispatchModelIfNeeded, issueMoves, makeMoves_resetIf]
    cases w.globals.throttleEnabled <;> cases w.ctx.modelDispatchNeededLocked <;> cases slotFree
    all_goals first | rfl | exact issues_fallbackLocked _
  | modelThreadRun nowNs => exact issues_modelThreadRun w nowNs
  | inferenceWorkBegin =>
    simp only [step, inferenceWorkBegin]
    split <;> rfl
  | inferenceWorkFinish i predicted => exact issues_inferenceWorkFinish w i predicted
  | inferenceTimer =>
    simp only [step, inferenceTimer]
    split <;> rfl
  | timeoutWork =>
    simp only [step, timeoutWork, issueMoves, makeMoves_resetIf]
    split
    · exact issues_fallbackLocked _
    · rfl
  | resetContext newSession nowNs =>
    refine Eq.trans (issues_congr (c := { w.ctx with
        sessionId := if newSession then w.ctx.sessionId + 1 else w.ctx.sessionId }.fallbackLocked.1)
      rfl (fun m => ?_) rfl rfl rfl rfl) ?_
    · show ((w.resetContext newSession nowNs).1.ctx.metaPool m).issueCard = _
      simp only [resetContext, withCtx]
      rw [apply_ite RqMeta.issueCard, issueCard_restamp, ite_self]
    · cases newSession with
      | false => exact issues_fallbackLocked _
      | true => exact issues_fallbackLocked _
  | configure k => rfl
  | setDying => rfl

/-! ## The kinds of sections -/

/-- **The moves of a section**, with what it has found before it makes them. A move
that asks for nothing is plain. -/
inductive SectionMoves (w : Throttle) : ThrottleOp → List IssueMove → Prop
  | plain {op : ThrottleOp} {mvs : List IssueMove} (hmvs : ∀ mv ∈ mvs, mv.Plain) :
      SectionMoves w op mvs
  | enter {rq : RqAddr} {t : TaskCtx} {nowNs : ℕ} {m : MetaId} {rest : List MetaId}
      (hfree : w.ctx.freeMeta = m :: rest) :
      SectionMoves w (.classifyRequest rq t nowNs) [.enter m (w.enterCard rq)]
  | restate {rq : RqAddr} {m : MetaId} (hissued : (w.ctx.metaPool m).issuedAccounted = false) :
      SectionMoves w (.updateRequest rq) [.restate m (w.rqs rq)]
  | issue {rq : RqAddr} {t : TaskCtx} {nowNs : ℕ} {m : MetaId} {enabled : Bool}
      (hfind : w.ctx.findMetaLocked rq = some m) :
      SectionMoves w (.recordIssue rq t nowNs) [.issue m (w.rqs rq) enabled nowNs]
  | enterIssue {rq : RqAddr} {t : TaskCtx} {nowNs : ℕ} {m : MetaId} {rest : List MetaId}
      {enabled : Bool} (hfree : w.ctx.freeMeta = m :: rest) :
      SectionMoves w (.recordIssue rq t nowNs)
        [.enter m (w.enterCard rq), .issue m (w.rqs rq) enabled nowNs]
  | sample {rq : RqAddr} {nrBytes nowNs : ℕ} {m : MetaId} {x : CompletionSample}
      {mvs : List IssueMove} (hissued : (w.ctx.metaPool m).issueTsNs ≠ 0)
      (hsampled : (w.ctx.metaPool m).completionSampled = false)
      (hsession : (w.ctx.metaPool m).issueSessionId = w.ctx.sessionId)
      (hmvs : ∀ mv ∈ mvs, mv.Plain) :
      SectionMoves w (.recordComplete rq nrBytes nowNs) (.sample m x :: mvs)

theorem plain_resetIf (b : Bool) : ∀ mv ∈ resetIf b, mv.Plain := by
  cases b <;> simp [resetIf, IssueMove.Plain]

/-- **A sample** is taken of an issue that was not sampled, in the current session. -/
theorem sampleOf_some {c : ThrottleCtx} {g : Globals} {m : MetaId} {nowNs latencyUs : ℕ}
    {x : CompletionSample} (h : sampleOf c g m nowNs latencyUs = some x) :
    (c.metaPool m).completionSampled = false ∧ (c.metaPool m).issueSessionId = c.sessionId := by
  unfold sampleOf at h
  dsimp only at h
  split at h
  · rename_i hc
    rw [Bool.and_eq_true, Bool.and_eq_true, Bool.and_eq_true, Bool.not_eq_true',
      decide_eq_true_eq] at hc
    exact ⟨hc.1.1.1, hc.2⟩
  · exact absurd h (Option.some_ne_none x).symm

theorem issueTsNs_of_latency {x : RqMeta} {nowNs latencyUs : ℕ}
    (h : completionLatency x nowNs = some latencyUs) : x.issueTsNs ≠ 0 := by
  unfold completionLatency at h
  split at h
  · rename_i hc
    exact hc.1
  · exact absurd h (Option.some_ne_none latencyUs).symm

/-- A completion samples at its very beginning, if it does. -/
theorem sectionMoves_latencyMoves (w : Throttle) {rq : RqAddr} {nrBytes nowNs : ℕ} (m : MetaId)
    {mvs : List IssueMove} (hmvs : ∀ mv ∈ mvs, mv.Plain) :
    SectionMoves w (.recordComplete rq nrBytes nowNs)
      (latencyMoves w.ctx w.globals m nowNs ++ mvs) := by
  unfold latencyMoves
  cases hlat : completionLatency (w.ctx.metaPool m) nowNs with
  | none => exact .plain hmvs
  | some latencyUs =>
    have hrest : ∀ mv ∈ voteMoves (recordSample w.ctx w.globals m nowNs latencyUs).1
        (recordVote (recordSample w.ctx w.globals m nowNs latencyUs).1 w.globals m latencyUs)
          ++ mvs, mv.Plain := by
      intro mv hmv
      rcases List.mem_append.mp hmv with hmv | hmv
      · exact plain_resetIf _ mv hmv
      · exact hmvs mv hmv
    dsimp only
    rw [List.append_assoc]
    unfold sampleMoves
    cases hsample : sampleOf w.ctx w.globals m nowNs latencyUs with
    | none => exact .plain (List.forall_mem_cons.mpr ⟨trivial, hrest⟩)
    | some x =>
      obtain ⟨hsampled, hsession⟩ := sampleOf_some hsample
      exact .sample (issueTsNs_of_latency hlat) hsampled hsession hrest

/-- **Every section is of one of the kinds.** -/
theorem sectionMoves (w : Throttle) (op : ThrottleOp) : SectionMoves w op (w.issueMoves op) := by
  have hnil : ∀ op, SectionMoves w op [] := fun _ =>
    .plain fun _ hmv => absurd hmv List.not_mem_nil
  have hreset : ∀ op, SectionMoves w op [.reset] := fun _ =>
    .plain (List.forall_mem_singleton.mpr trivial)
  cases op with
  | classifyRequest rq t nowNs =>
    simp only [issueMoves, classifyMoves]
    cases (w.rqs rq).priv1 with
    | some m => exact hnil _
    | none =>
      cases hfree : w.ctx.freeMeta with
      | nil => exact hreset _
      | cons m rest => exact .enter hfree
  | updateRequest rq =>
    simp only [issueMoves, updateMoves]
    cases (w.rqs rq).priv1 with
    | none => exact hnil _
    | some m =>
      dsimp only
      split
      · exact hnil _
      · rename_i hissued
        exact .restate (Bool.eq_false_iff.mpr hissued)
  | recordIssue rq t nowNs =>
    simp only [issueMoves, recordIssueMoves]
    cases hfind : w.ctx.findMetaLocked rq with
    | some m => exact .issue hfind
    | none =>
      cases hfree : w.ctx.freeMeta with
      | nil => exact hreset _
      | cons m rest => exact .enterIssue hfree
  | accountDispatch rq selection nowNs =>
    simp only [issueMoves, accountMoves]
    cases (w.rqs rq).priv1 with
    | none => exact hreset _
    | some m => exact .plain (plain_resetIf _)
  | finishRequest rq =>
    simp only [issueMoves, finishMoves]
    cases (w.rqs rq).priv1 with
    | none => exact hnil _
    | some m => exact .plain (by simp [IssueMove.Plain])
  | recordRequeue rq =>
    simp only [issueMoves, requeueMoves]
    cases w.ctx.findMetaLocked rq with
    | none => exact hnil _
    | some m => exact .plain (by simp [IssueMove.Plain])
  | recordComplete rq nrBytes nowNs =>
    simp only [issueMoves, completeMoves]
    cases w.ctx.findMetaLocked rq with
    | none => exact hnil _
    | some m =>
      dsimp only
      split
      · exact hnil _
      · rw [List.append_assoc]
        exact w.sectionMoves_latencyMoves m (List.forall_mem_cons.mpr
          ⟨trivial, List.forall_mem_cons.mpr ⟨trivial, plain_resetIf _⟩⟩)
  | scheduleFallback => exact .plain (plain_resetIf _)
  | dispatchModelIfNeeded slotFree => exact .plain (plain_resetIf _)
  | modelThreadRun nowNs => exact .plain (plain_resetIf _)
  | inferenceWorkFinish i predicted =>
    simp only [issueMoves, workFinishMoves]
    cases w.frames[i]? with
    | none => exact hnil _
    | some f =>
      dsimp only
      cases frameAction f predicted with
      | none => exact .plain (plain_resetIf _)
      | some a =>
        dsimp only
        split
        · exact .plain (plain_resetIf _)
        · exact .plain (plain_resetIf _)
  | timeoutWork => exact .plain (plain_resetIf _)
  | resetContext newSession nowNs =>
    cases newSession with
    | false => exact hreset _
    | true =>
      exact .plain (List.forall_mem_cons.mpr ⟨trivial, List.forall_mem_singleton.mpr trivial⟩)
  | _ => exact hnil _

end Throttle
