import SmartIo.ChainTable
import SmartIo.ThrottleQueue

/-!
# The throttle context and its locked helpers

`struct smart_io_throttle_ctx` and the helpers of `smart_io_throttle.c` whose
name ends in `_locked`: they run inside a lock section and touch the context
alone. A helper that reports something to its caller – most often that the
hardware queues must be run, the `wake` of the source – returns it beside the
context.

The metadata in use are the values of the `active` table; `modifyMeta` writes
one record of the pool, as a store through a `struct smart_io_rq_meta *` does.
-/

/-! ## The context -/

/-- The sample window: `dev_lat`, `dev_lat_head` and `dev_lat_count`. -/
structure DevLatWindow where
  devLat : Fin 5 → CompletionSample
  devLatHead : Fin 5
  devLatCount : ℕ

/-- The decision being computed: the `pending_*` fields, less
`pending_state_valid`, which is a control flag. -/
structure PendingDecision where
  sessionId : ℕ
  controlId : ℕ
  decisionId : ℕ
  source : ActionSource
  fixedAction : ThrottleAction
  state : StateSnapshot
  lightPct : ℕ
  mediumPct : ℕ
  heavyPct : ℕ
deriving DecidableEq, Repr

/-- The control flags, the action in force and the feedback it waits for. -/
structure ControlState where
  throttleActive : Bool
  inferencePending : Bool
  actionValid : Bool
  inferenceTimedOut : Bool
  inferenceRunning : Bool
  pendingStateValid : Bool
  modelPostApplyPending : Bool
  action : ThrottleAction
  feedbackState : FeedbackState
  feedbackMeta : Option MetaId
  feedbackDispatchTsNs : ℕ
  feedbackIssueTsNs : ℕ
  feedbackVoteCount : ℕ
  feedbackTotalDevLatUs : ℕ
  feedbackMaxDevLatUs : ℕ
deriving DecidableEq, Repr

/-- The `u64` statistics at the end of the context. -/
structure ThrottleStats where
  inferenceCount : ℕ := 0
  timeoutCount : ℕ := 0
  invalidResultCount : ℕ := 0
  fgDispatched : ℕ := 0
  bgDispatched : ℕ := 0
  bgBlocked : ℕ := 0
  bgDeadlineForced : ℕ := 0
  baselineHits : ℕ := 0
  seqHits : ℕ := 0
  seqFallbacks : ℕ := 0
  smallHits : ℕ := 0
  depthAnomalies : ℕ := 0
  feedbackRebindCount : ℕ := 0
  allocationFailures : ℕ := 0
deriving DecidableEq, Repr

/-- `struct smart_io_throttle_ctx`. -/
structure ThrottleCtx where
  metaCapacity : ℕ
  metaInuse : ℕ
  freeMeta : List MetaId
  metaPool : MetaId → RqMeta
  active : ChainTable RqAddr MetaId
  inflight : ChainTable ℕ MetaId
  inflightStart : ChainTable ℕ MetaId
  dying : Bool
  gateBlocked : Bool
  gateReason : GateReason
  deadlineForcedActive : Bool
  currentDepth : ℕ
  bgCurrentDepth : ℕ
  issuedDepth : ℕ
  pendingFg : ℕ
  pendingBg : ℕ
  window : DevLatWindow
  sessionId : ℕ
  controlId : ℕ
  decisionId : ℕ
  nextRqId : ℕ
  control : ControlState
  pending : PendingDecision
  stats : ThrottleStats

/-- The window after `memset`. -/
def DevLatWindow.zero : DevLatWindow where
  devLat := fun _ => { completeTsNs := 0, devLatUs := 0, isFg := false }
  devLatHead := 0
  devLatCount := 0

/-- The control state of a context that throttles nothing: what
`smart_io_throttle_fallback_locked` leaves and `queue_init` starts from. -/
def ControlState.idle : ControlState where
  throttleActive := false
  inferencePending := false
  actionValid := false
  inferenceTimedOut := false
  inferenceRunning := false
  pendingStateValid := false
  modelPostApplyPending := false
  action := .baseline
  feedbackState := .none
  feedbackMeta := none
  feedbackDispatchTsNs := 0
  feedbackIssueTsNs := 0
  feedbackVoteCount := 0
  feedbackTotalDevLatUs := 0
  feedbackMaxDevLatUs := 0

/-- The pending fields after `memset`. -/
def PendingDecision.zero : PendingDecision where
  sessionId := 0
  controlId := 0
  decisionId := 0
  source := .fixed
  fixedAction := .baseline
  state := {}
  lightPct := 0
  mediumPct := 0
  heavyPct := 0

/-- What `smart_io_throttle_queue_init` leaves: every field zero, and a pool of
`capacity` records, all on the free list. -/
def ThrottleCtx.queueInit (capacity : ℕ) : ThrottleCtx where
  metaCapacity := capacity
  metaInuse := 0
  freeMeta := List.range capacity
  metaPool := fun _ => .zero
  active := []
  inflight := []
  inflightStart := []
  dying := false
  gateBlocked := false
  gateReason := .none
  deadlineForcedActive := false
  currentDepth := 0
  bgCurrentDepth := 0
  issuedDepth := 0
  pendingFg := 0
  pendingBg := 0
  window := .zero
  sessionId := 0
  controlId := 0
  decisionId := 0
  nextRqId := 0
  control := .idle
  pending := .zero
  stats := {}

/-- `hash_min` of a 64-bit key over a table of `2 ^ 6` buckets. -/
def hashMin (key : ℕ) : ℕ := key * 0x61C8864680B583EB % 2 ^ 64 / 2 ^ 58

namespace ThrottleCtx

/-- The metadata in use. -/
def activeMetas (c : ThrottleCtx) : List MetaId := c.active.all

/-- A store to one record of the pool. -/
def modifyMeta (c : ThrottleCtx) (m : MetaId) (f : RqMeta → RqMeta) : ThrottleCtx :=
  { c with metaPool := Function.update c.metaPool m (f (c.metaPool m)) }

/-- `ctx->depth_anomalies++`. -/
def anomaly (c : ThrottleCtx) : ThrottleCtx :=
  { c with stats := { c.stats with depthAnomalies := c.stats.depthAnomalies + 1 } }

/-! ## Waiting requests -/

/-- The counter `smart_io_throttle_pending_counter` points to. -/
def pendingCounter (c : ThrottleCtx) : RqClass → ℕ
  | .foreground => c.pendingFg
  | .background => c.pendingBg

/-- A store through that pointer. -/
def setPendingCounter (c : ThrottleCtx) : RqClass → ℕ → ThrottleCtx
  | .foreground, n => { c with pendingFg := n }
  | .background, n => { c with pendingBg := n }

/-- `smart_io_throttle_pending_inc_locked`. -/
def pendingIncLocked (c : ThrottleCtx) (g : Globals) (m : MetaId) (nowNs : ℕ) :
    ThrottleCtx :=
  let cls := (c.metaPool m).rqClass
  if (c.metaPool m).queued then c
  else if c.pendingCounter cls = u32Max then c.anomaly
  else
    (c.setPendingCounter cls (c.pendingCounter cls + 1)).modifyMeta m (fun x =>
      { x with
        queued := true
        queuedTsNs := if cls = .background && g.throttleEnabled then nowNs
          else x.queuedTsNs })

/-- `smart_io_throttle_pending_dec_locked`. -/
def pendingDecLocked (c : ThrottleCtx) (m : MetaId) : ThrottleCtx :=
  let cls := (c.metaPool m).rqClass
  if !(c.metaPool m).queued then c
  else
    (if c.pendingCounter cls = 0 then c.anomaly
      else c.setPendingCounter cls (c.pendingCounter cls - 1)).modifyMeta m
        (fun x => { x with queued := false, queuedTsNs := 0 })

/-! ## The in-flight index -/

/-- `smart_io_throttle_inflight_key`. -/
def inflightKey (op : ReqOp) (sector : ℕ) : ℕ := sector * 2 ^ 8 + op.code % 2 ^ 8

/-- `smart_io_throttle_inflight_remove_locked`. -/
def inflightRemoveLocked (c : ThrottleCtx) (m : MetaId) : ThrottleCtx :=
  if !(c.metaPool m).inflightIndexed then c
  else
    { c with
      inflight := c.inflight.del m
      inflightStart := c.inflightStart.del m }.modifyMeta m
        (fun x => { x with inflightIndexed := false })

/-- `smart_io_throttle_inflight_add_locked`. -/
def inflightAddLocked (c : ThrottleCtx) (m : MetaId) (r : Request) : ThrottleCtx :=
  let op := (c.metaPool m).op
  if (c.metaPool m).inflightIndexed || !(op = .read || op = .write) then c
  else
    { c with
      inflight := c.inflight.add (inflightKey op (r.pos + r.sectors)) m
      inflightStart := c.inflightStart.add (inflightKey op r.pos) m }.modifyMeta m
        (fun x =>
          { x with
            startSector := r.pos
            endSector := r.pos + r.sectors
            inflightIndexed := true })

/-! ## Feedback, window and fallback -/

/-- `smart_io_throttle_clear_feedback_binding_locked`. -/
def clearFeedbackBindingLocked (c : ThrottleCtx) : ThrottleCtx :=
  { c with
    metaPool := match c.control.feedbackMeta with
      | some m => (c.modifyMeta m (fun x => { x with feedbackBound := false })).metaPool
      | none => c.metaPool
    control := { c.control with
      feedbackMeta := none
      feedbackDispatchTsNs := 0
      feedbackIssueTsNs := 0
      feedbackState := .none } }

/-- `smart_io_throttle_reset_feedback_locked`. -/
def resetFeedbackLocked (c : ThrottleCtx) : ThrottleCtx :=
  let c₁ := c.clearFeedbackBindingLocked
  { c₁ with
    control := { c₁.control with
      feedbackVoteCount := 0
      feedbackTotalDevLatUs := 0
      feedbackMaxDevLatUs := 0 } }

/-- `smart_io_throttle_feedback_mean_locked`. -/
def feedbackMeanLocked (c : ThrottleCtx) : ℕ :=
  if c.control.feedbackVoteCount = 0 then 0
  else min (c.control.feedbackTotalDevLatUs / c.control.feedbackVoteCount) u32Max

/-- `smart_io_throttle_reset_window_locked`. -/
def resetWindowLocked (c : ThrottleCtx) : ThrottleCtx :=
  { c with window := .zero }

/-- `smart_io_throttle_set_baseline_action_locked`. -/
def setBaselineActionLocked (c : ThrottleCtx) : ThrottleCtx :=
  { c with control := { c.control with action := .baseline } }

/-- `smart_io_throttle_fallback_locked`: throttle nothing from here on, and
report whether the gate was closed. -/
def fallbackLocked (c : ThrottleCtx) : ThrottleCtx × Bool :=
  let c₁ : ThrottleCtx := { c with
    gateBlocked := false
    gateReason := .none
    control := { c.control with
      throttleActive := false
      inferencePending := false
      inferenceTimedOut := false
      inferenceRunning := false
      actionValid := false
      pendingStateValid := false
      modelPostApplyPending := false } }
  (c₁.resetFeedbackLocked.resetWindowLocked.setBaselineActionLocked, c.gateBlocked)

/-- `smart_io_throttle_depth_can_run_locked`. -/
def depthCanRunLocked (c : ThrottleCtx) : Bool :=
  if !c.control.throttleActive || !c.control.actionValid
      || c.control.action.level = .no then true
  else decide (c.bgCurrentDepth < c.control.action.targetDepth)

/-! ## Depth reservations -/

/-- The end of `smart_io_throttle_release_depth_locked`: a closed gate opens
once the depth allows a request again. -/
def reopenGateLocked (c : ThrottleCtx) : ThrottleCtx × Bool :=
  if c.gateBlocked && c.depthCanRunLocked then
    ({ c with gateBlocked := false, gateReason := .none }, true)
  else (c, false)

/-- The anomaly branch of a release: count it, and stop throttling. -/
def releaseAnomalyLocked (c : ThrottleCtx) : ThrottleCtx :=
  if c.control.throttleActive then c.anomaly.fallbackLocked.1 else c.anomaly

/-- `smart_io_throttle_release_depth_locked`. -/
def releaseDepthLocked (c : ThrottleCtx) (m : MetaId) : ThrottleCtx × Bool :=
  if !(c.metaPool m).depthAccounted then (c, false)
  else
    let c₁ := c.modifyMeta m (fun x => { x with depthAccounted := false })
    if c₁.currentDepth = 0 then (c₁.releaseAnomalyLocked, true)
    else
      let c₂ := { c₁ with currentDepth := c₁.currentDepth - 1 }
      if !(c₂.metaPool m).bgDepthAccounted then c₂.reopenGateLocked
      else
        let c₃ := c₂.modifyMeta m (fun x => { x with bgDepthAccounted := false })
        if c₃.bgCurrentDepth = 0 then (c₃.releaseAnomalyLocked, true)
        else { c₃ with bgCurrentDepth := c₃.bgCurrentDepth - 1 }.reopenGateLocked

/-- `smart_io_throttle_account_depth_locked`. -/
def accountDepthLocked (c : ThrottleCtx) (m : MetaId) : ThrottleCtx × Bool :=
  let bg := decide ((c.metaPool m).queueClass ≠ .hp)
  if (c.metaPool m).depthAccounted then (c.anomaly.fallbackLocked.1, true)
  else if c.currentDepth = u32Max || (bg && c.bgCurrentDepth = u32Max) then
    (c.anomaly.fallbackLocked.1, true)
  else
    let c₁ := { c with currentDepth := c.currentDepth + 1 }.modifyMeta m
      (fun x => { x with depthAccounted := true })
    if bg then
      ({ c₁ with bgCurrentDepth := c₁.bgCurrentDepth + 1 }.modifyMeta m
        (fun x => { x with bgDepthAccounted := true }), false)
    else (c₁, false)

/-- `smart_io_throttle_account_issued_depth_locked`. -/
def accountIssuedDepthLocked (c : ThrottleCtx) (m : MetaId) : ThrottleCtx × Bool :=
  if (c.metaPool m).issuedAccounted then (c.anomaly.fallbackLocked.1, true)
  else if c.issuedDepth = u32Max then (c.anomaly.fallbackLocked.1, true)
  else
    ({ c with issuedDepth := c.issuedDepth + 1 }.modifyMeta m
      (fun x => { x with issuedAccounted := true }), false)

/-- `smart_io_throttle_release_issued_depth_locked`. -/
def releaseIssuedDepthLocked (c : ThrottleCtx) (m : MetaId) : ThrottleCtx × Bool :=
  if !(c.metaPool m).issuedAccounted then (c, false)
  else
    let c₁ := c.modifyMeta m (fun x => { x with issuedAccounted := false })
    if c₁.issuedDepth = 0 then
      if c₁.control.throttleActive then c₁.anomaly.fallbackLocked
      else (c₁.anomaly, false)
    else ({ c₁ with issuedDepth := c₁.issuedDepth - 1 }, false)

/-- `smart_io_throttle_release_deadline_locked`. -/
def releaseDeadlineLocked (c : ThrottleCtx) (m : MetaId) : ThrottleCtx × Bool :=
  if !(c.metaPool m).deadlineForced then (c, false)
  else
    let c₁ := c.modifyMeta m (fun x => { x with deadlineForced := false })
    if !c₁.deadlineForcedActive then (c₁.anomaly, false)
    else ({ c₁ with deadlineForcedActive := false }, true)

/-- What a requeue, a final completion and a finished request give back, in the
order all three do: the in-flight index, the deadline, the issued depth and the
reserved depth. -/
def releaseLocked (c : ThrottleCtx) (m : MetaId) : ThrottleCtx × Bool :=
  let c₁ := c.inflightRemoveLocked m
  let p₂ := c₁.releaseDeadlineLocked m
  let p₃ := p₂.1.releaseIssuedDepthLocked m
  let p₄ := p₃.1.releaseDepthLocked m
  (p₄.1, p₂.2 || p₃.2 || p₄.2)

/-- `smart_io_throttle_invalidate_feedback_locked`. -/
def invalidateFeedbackLocked (c : ThrottleCtx) (m : MetaId) : ThrottleCtx :=
  if c.control.feedbackMeta ≠ some m then c
  else
    let c₁ := c.clearFeedbackBindingLocked
    let c₂ :=
      if c₁.control.throttleActive && c₁.control.actionValid
          && !c₁.control.inferencePending then
        { c₁ with control := { c₁.control with feedbackState := .waitDispatch } }
      else c₁
    { c₂ with
      stats := { c₂.stats with
        feedbackRebindCount := c₂.stats.feedbackRebindCount + 1 } }

/-! ## Snapshots -/

/-- Whether a record of an in-flight chain touches a waiting record at a given
sector, on the side `edge` reads. -/
def touchesAt (c : ThrottleCtx) (edge : RqMeta → ℕ) (w : RqMeta) (sector : ℕ)
    (m : MetaId) : Bool :=
  (c.metaPool m).issuedAccounted && decide ((c.metaPool m).op = w.op)
    && decide (edge (c.metaPool m) = sector)

/-- `smart_io_throttle_contiguous_locked`. -/
def contiguousLocked (c : ThrottleCtx) (waiting : MetaId) : Bool :=
  let w := c.metaPool waiting
  if !(w.op = .read || w.op = .write) then false
  else
    (c.inflight.scan hashMin (inflightKey w.op w.startSector) c.metaCapacity
      (c.touchesAt RqMeta.endSector w w.startSector)).isSome
    || (c.inflightStart.scan hashMin (inflightKey w.op w.endSector) c.metaCapacity
      (c.touchesAt RqMeta.startSector w w.endSector)).isSome

/-- `smart_io_throttle_window_snapshot_locked`. -/
def windowSnapshotLocked (c : ThrottleCtx) (s : StateSnapshot) (thresholdUs : ℕ) :
    Option StateSnapshot :=
  let w := c.window
  let oldest := w.devLat w.devLatHead
  let newest := w.devLat (w.devLatHead + 4)
  if w.devLatCount ≠ devLatWindowSize then none
  else if oldest.completeTsNs = 0 || newest.completeTsNs < oldest.completeTsNs then
    none
  else
    let spanNs := newest.completeTsNs - oldest.completeTsNs
    if devLatWindowMaxUs * nsecPerUsec < spanNs then none
    else
      let samples := [0, 1, 2, 3, 4].map w.devLat
      some { s with
        windowCompleteCount := devLatWindowSize
        windowSpanUs := spanNs / nsecPerUsec
        windowSlowCount :=
          s.windowSlowCount + samples.countP (fun x => thresholdUs ≤ x.devLatUs)
        windowFgCompleteCount := s.windowFgCompleteCount + samples.countP (·.isFg)
        windowMeanDevUs := (samples.map (·.devLatUs)).sum / devLatWindowSize }

/-- What the loop of `smart_io_throttle_snapshot_state_locked` has seen. -/
structure SnapshotScan where
  issuedSeen : ℕ
  waitingSeen : ℕ
  state : StateSnapshot

/-- One round of that loop. -/
def snapshotScanStep (c : ThrottleCtx) (nowNs thresholdUs : ℕ) (a : SnapshotScan)
    (m : MetaId) : SnapshotScan :=
  let x := c.metaPool m
  let slow := !x.deviceTimeExcluded && decide (x.issueTsNs ≠ 0)
    && decide (x.issueTsNs ≤ nowNs)
    && decide (thresholdUs * nsecPerUsec ≤ nowNs - x.issueTsNs)
  let a₁ : SnapshotScan :=
    if !x.issuedAccounted then a
    else
      { a with
        issuedSeen := a.issuedSeen + 1
        state := { a.state with
          deviceQFgCount :=
            a.state.deviceQFgCount + if x.rqClass = .foreground then 1 else 0
          deviceQSlowCount := a.state.deviceQSlowCount + if slow then 1 else 0 } }
  if !x.queued then a₁
  else
    { a₁ with
      waitingSeen := a₁.waitingSeen + 1
      state := { a₁.state with
        waitingCount := a₁.state.waitingCount + if x.rqClass = .background then 1 else 0
        waitingFg := a₁.state.waitingFg + if x.rqClass = .foreground then 1 else 0
        waitingHighIoprioCount :=
          a₁.state.waitingHighIoprioCount + if x.highIoprio then 1 else 0
        waitingToIssuedContiguousCount :=
          a₁.state.waitingToIssuedContiguousCount
            + if c.contiguousLocked m then 1 else 0 } }

/-- The loop of `smart_io_throttle_snapshot_state_locked` over the active
table. -/
def snapshotScan (c : ThrottleCtx) (nowNs thresholdUs : ℕ) (s : StateSnapshot) :
    SnapshotScan :=
  c.activeMetas.foldl (c.snapshotScanStep nowNs thresholdUs)
    { issuedSeen := 0, waitingSeen := 0, state := s }

/-- `smart_io_throttle_snapshot_state_locked`. -/
def snapshotStateLocked (c : ThrottleCtx) (nowNs queueMax thresholdUs : ℕ) :
    ThrottleCtx × Option StateSnapshot :=
  let s₀ : StateSnapshot :=
    { decisionTsNs := nowNs, queueMax := queueMax, devLatThresholdUs := thresholdUs }
  if queueMax = 0 then (c, none)
  else match c.windowSnapshotLocked s₀ thresholdUs with
    | none => (c, none)
    | some s₁ =>
      let a := c.snapshotScan nowNs thresholdUs s₁
      if a.issuedSeen ≠ c.issuedDepth
          || a.waitingSeen ≠ (c.pendingFg + c.pendingBg) % 2 ^ 32 then
        (c.anomaly, none)
      else
        (c, some { a.state with
          deviceQCount := c.issuedDepth
          reservedDepthCount := c.currentDepth
          waitingTotalCount := a.waitingSeen })

/-- `smart_io_throttle_slow_window_locked`. -/
def slowWindowLocked (c : ThrottleCtx) (thresholdUs : ℕ) : Bool :=
  match c.windowSnapshotLocked {} thresholdUs with
  | none => false
  | some s => decide (s.windowSlowCount = devLatWindowSize)

/-! ## Starting an inference -/

/-- `smart_io_throttle_snapshot_config_locked`. -/
def snapshotConfigLocked (c : ThrottleCtx) (g : Globals) : ThrottleCtx :=
  { c with
    pending := { c.pending with
      source := g.config.source
      fixedAction := g.config.fixedAction
      lightPct := g.config.lightPct
      mediumPct := g.config.mediumPct
      heavyPct := g.config.heavyPct } }

/-- The second half of `smart_io_throttle_start_inference_locked`, past its
early returns; `state` is the snapshot of a decision of the fixed source. -/
def armInferenceLocked (c : ThrottleCtx) (newControl : Bool)
    (state : Option StateSnapshot) : ThrottleCtx :=
  let c₁ : ThrottleCtx := { c with
    controlId := if newControl then c.controlId + 1 else c.controlId }
  let c₂ : ThrottleCtx := { c₁ with
    control := { c₁.control with
      throttleActive := true
      inferencePending := true
      inferenceTimedOut := false
      inferenceRunning := false
      actionValid := false
      modelPostApplyPending := false
      pendingStateValid := decide (c₁.pending.source ≠ .model) } }
  let c₃ := c₂.resetFeedbackLocked
  let c₄ := { c₃ with decisionId := c₃.decisionId + 1 }
  { c₄ with
    pending := { c₄.pending with
      sessionId := c₄.sessionId
      controlId := c₄.controlId
      decisionId := c₄.decisionId
      state := state.getD c₄.pending.state } }

/-- `smart_io_throttle_start_inference_locked`. -/
def startInferenceLocked (c : ThrottleCtx) (g : Globals) (newControl : Bool)
    (nowNs : ℕ) : ThrottleCtx × Bool :=
  if !g.throttleEnabled || c.dying || c.control.inferencePending then (c, false)
  else
    let c₁ := c.snapshotConfigLocked g
    if c₁.pending.source = .model then (c₁.armInferenceLocked newControl none, true)
    else
      match c₁.snapshotStateLocked nowNs g.queueDepth g.devLatThresholdUs with
      | (c₂, none) => (c₂, false)
      | (c₂, some s) => (c₂.armInferenceLocked newControl (some s), true)

/-- `smart_io_throttle_action_ratio`. -/
def actionRatio (c : ThrottleCtx) : ThrottleLevel → ℕ
  | .light => c.pending.lightPct
  | .medium => c.pending.mediumPct
  | .heavy => c.pending.heavyPct
  | .no => 0

/-- `smart_io_throttle_model_dispatch_needed_locked`. -/
def modelDispatchNeededLocked (c : ThrottleCtx) : Bool :=
  c.control.inferencePending && !c.control.inferenceRunning
    && decide (c.pending.source = .model) && decide (c.pendingBg ≠ 0)

/-- `smart_io_throttle_find_meta_locked`. -/
def findMetaLocked (c : ThrottleCtx) (rq : RqAddr) : Option MetaId :=
  c.active.scan hashMin rq c.metaCapacity
    (fun m => decide ((c.metaPool m).rq = some rq))

end ThrottleCtx
