import SmartIo.StepMachine
import SmartIo.ThrottleCtx

/-!
# The operations of the throttle

Every function of `smart_io_throttle.c` that takes `ctx->lock`, one definition
per lock section, over the state such a section can see: the context, the
requests of its queue, the module's static variables, and the local variables
of the `inference_work` calls that are between their two sections.

A section is one step. What its caller does after the lock is dropped is in its
`Effects`: most of all whether it calls `blk_mq_run_hw_queues` before it
returns. `smart_io_throttle_record_complete` may go on to
`smart_io_throttle_schedule_inference`, whose own section is a step of its own.

The timer, the two work items and the model thread run at any moment in this
machine, which includes every moment at which the kernel can run them; and a
task, the time and the metadata of a request are inputs.
-/

/-- The local variables of `smart_io_throttle_inference_work` while it computes
an action without the lock. -/
structure InferenceFrame where
  sessionId : ℕ
  controlId : ℕ
  decisionId : ℕ
  source : ActionSource
  action : ThrottleAction
  state : StateSnapshot
deriving DecidableEq, Repr

/-- What one lock section of one queue can see. -/
structure Throttle where
  ctx : ThrottleCtx
  rqs : RqAddr → Request
  globals : Globals
  /-- The inference calls between their two lock sections. -/
  frames : List InferenceFrame

/-- What an operation does besides changing the state. -/
structure Effects where
  /-- It calls `blk_mq_run_hw_queues` before it returns. -/
  runHwQueues : Bool := false
  /-- It goes on to `smart_io_throttle_schedule_inference`. -/
  scheduleInference : Bool := false
  /-- The latency it counts as a feedback vote. -/
  voted : Option ℕ := none
  /-- The action it puts in force. -/
  installed : Option ThrottleAction := none
deriving DecidableEq, Repr

namespace Throttle

/-- A store to the context. -/
def withCtx (w : Throttle) (c : ThrottleCtx) : Throttle := { w with ctx := c }

@[simp] theorem withCtx_ctx (w : Throttle) (c : ThrottleCtx) : (w.withCtx c).ctx = c := rfl

/-- `smart_io_throttle_set_rq_meta`. -/
def setRqMeta (w : Throttle) (rq : RqAddr) (m : Option MetaId) : Throttle :=
  { w with rqs := Function.update w.rqs rq { w.rqs rq with priv1 := m } }

/-! ## The metadata pool -/

/-- The record `smart_io_throttle_alloc_meta_locked` fills in. -/
def newMeta (rq : RqAddr) (r : Request) (cls : RqClass) (rqId : ℕ) : RqMeta :=
  { RqMeta.zero with
    rq := some rq
    rqClass := cls
    op := r.op
    startSector := r.pos
    endSector := r.pos + r.sectors
    deviceTimeExcluded := deviceTimeExcludedOf r
    highIoprio := highIoprioOf r
    rqId := rqId }

/-- `smart_io_throttle_alloc_meta_locked` without a free record: it stops the
throttling and reports nothing but the missing record. -/
def allocFailed (w : Throttle) : Throttle :=
  let c := w.ctx
  let c₁ := { c with
    stats := { c.stats with allocationFailures := c.stats.allocationFailures + 1 } }
  w.withCtx c₁.anomaly.fallbackLocked.1

/-- `smart_io_throttle_alloc_meta_locked` with a first free record `m`. -/
def allocTaken (w : Throttle) (rq : RqAddr) (cls : RqClass) (m : MetaId)
    (rest : List MetaId) : Throttle :=
  let c := w.ctx
  let w₁ := w.withCtx { c with
    freeMeta := rest
    nextRqId := c.nextRqId + 1
    metaPool := Function.update c.metaPool m
      (newMeta rq (w.rqs rq) cls (c.nextRqId + 1))
    active := c.active.add rq m
    metaInuse := c.metaInuse + 1 }
  if (w.rqs rq).useSched then w₁.setRqMeta rq (some m) else w₁

/-- `smart_io_throttle_alloc_meta_locked`. -/
def allocMetaLocked (w : Throttle) (rq : RqAddr) (cls : RqClass) :
    Throttle × Option MetaId :=
  match w.ctx.freeMeta with
  | [] => (w.allocFailed, none)
  | m :: rest => (w.allocTaken rq cls m rest, some m)

/-- The context after `smart_io_throttle_free_meta_locked`, when there is a
record in use. -/
def returnMeta (c : ThrottleCtx) (m : MetaId) : ThrottleCtx :=
  let c₁ := (c.pendingDecLocked m).inflightRemoveLocked m
  let c₂ := if c₁.control.feedbackMeta = some m then c₁.resetFeedbackLocked else c₁
  { c₂ with
    active := c₂.active.del m
    metaInuse := c₂.metaInuse - 1
    freeMeta := c₂.freeMeta ++ [m]
    metaPool := Function.update c₂.metaPool m RqMeta.zero }

/-- `smart_io_throttle_free_meta_locked`. -/
def freeMetaLocked (w : Throttle) (rq : RqAddr) (m : MetaId) : Throttle :=
  if w.ctx.metaInuse = 0 then w.withCtx w.ctx.anomaly.fallbackLocked.1
  else
    let w₁ := w.withCtx (returnMeta w.ctx m)
    if (w.rqs rq).useSched && (w.rqs rq).priv1 = some m then w₁.setRqMeta rq none
    else w₁

/-! ## The scheduler's calls -/

/-- A request starts a new life at its address: `smart_io_throttle_prepare_request`
clears the metadata of a scheduled one. The block layer has called
`finish_request` on the previous life of a scheduled request, so an address is
reused for an unscheduled one only without metadata. -/
def prepareRequest (w : Throttle) (rq : RqAddr) (r : Request) : Throttle :=
  if r.useSched || (w.rqs rq).priv1 = none then
    { w with rqs := Function.update w.rqs rq { r with priv1 := none } }
  else w

/-- The block layer changes a request it owns: a merge, a completion of part of
it, a new `ioprio`. Its scheduler flag and its metadata stay. -/
def changeRequest (w : Throttle) (rq : RqAddr) (r : Request) : Throttle :=
  { w with
    rqs := Function.update w.rqs rq
      { r with useSched := (w.rqs rq).useSched, priv1 := (w.rqs rq).priv1 } }

/-- `smart_io_throttle_classify_request`. -/
def classifyRequest (w : Throttle) (rq : RqAddr) (t : TaskCtx) (nowNs : ℕ) :
    Throttle × Effects :=
  let queueClass := selectQueue w.ctx.metaPool w.globals t (w.rqs rq)
  let p := match (w.rqs rq).priv1 with
    | some m => (w, some m)
    | none => w.allocMetaLocked rq (classForQueue queueClass)
  match p with
  | (w₁, none) => (w₁, {})
  | (w₁, some m) =>
    let c₁ := w₁.ctx.modifyMeta m (fun x => { x with queueClass := queueClass })
    (w₁.withCtx (c₁.pendingIncLocked w₁.globals m nowNs), {})

/-- `smart_io_throttle_update_request`. -/
def updateRequest (w : Throttle) (rq : RqAddr) : Throttle × Effects :=
  let r := w.rqs rq
  match r.priv1 with
  | none => (w, {})
  | some m =>
    if (w.ctx.metaPool m).issuedAccounted then (w, {})
    else
      (w.withCtx (w.ctx.modifyMeta m (fun x =>
        { x with
          op := r.op
          startSector := r.pos
          endSector := r.pos + r.sectors
          deviceTimeExcluded := deviceTimeExcludedOf r
          highIoprio := highIoprioOf r })), {})

/-- `smart_io_throttle_unqueue_request`. -/
def unqueueRequest (w : Throttle) (rq : RqAddr) : Throttle × Effects :=
  match (w.rqs rq).priv1 with
  | none => (w, {})
  | some m => (w.withCtx (w.ctx.pendingDecLocked m), {})

/-- A background request that is dispatched for its age takes the deadline. -/
def forceDeadline (c : ThrottleCtx) (m : MetaId) : ThrottleCtx :=
  if c.deadlineForcedActive then c.anomaly
  else
    { c with
      deadlineForcedActive := true
      stats := { c.stats with
        bgDeadlineForced := c.stats.bgDeadlineForced + 1 } }.modifyMeta m
          (fun x => { x with deadlineForced := true })

/-- `ctx->fg_dispatched++` or `ctx->bg_dispatched++`. -/
def countClass (c : ThrottleCtx) (m : MetaId) : ThrottleCtx :=
  if (c.metaPool m).rqClass = .foreground then
    { c with stats := { c.stats with fgDispatched := c.stats.fgDispatched + 1 } }
  else
    { c with stats := { c.stats with bgDispatched := c.stats.bgDispatched + 1 } }

/-- The `switch` over the selection in `smart_io_throttle_account_dispatch`. -/
def countSelection (c : ThrottleCtx) (m : MetaId) : DispatchSelection → ThrottleCtx
  | .backgroundBaseline =>
    { c with stats := { c.stats with baselineHits := c.stats.baselineHits + 1 } }
  | .backgroundDeadline => forceDeadline c m
  | .seqHit => { c with stats := { c.stats with seqHits := c.stats.seqHits + 1 } }
  | .seqFallback =>
    { c with stats := { c.stats with seqFallbacks := c.stats.seqFallbacks + 1 } }
  | .small => { c with stats := { c.stats with smallHits := c.stats.smallHits + 1 } }
  | .foregroundFifo => c

/-- Whether an action is in force: valid, and no decision on its way. -/
def actionInForce (c : ThrottleCtx) : Bool :=
  c.control.actionValid && !c.control.inferencePending

/-- The feedback binding of `smart_io_throttle_account_dispatch`. -/
def bindFeedback (c : ThrottleCtx) (g : Globals) (m : MetaId) (nowNs : ℕ) :
    ThrottleCtx :=
  if !(c.metaPool m).deviceTimeExcluded && g.throttleEnabled
      && c.control.throttleActive && actionInForce c
      && c.control.feedbackState = .waitDispatch
      && decide (c.control.feedbackVoteCount < feedbackSampleMax) then
    { c with
      control := { c.control with
        feedbackMeta := some m
        feedbackDispatchTsNs := nowNs
        feedbackIssueTsNs := 0
        feedbackState := .waitIssue } }.modifyMeta m (fun x =>
          { x with
            feedbackBound := true
            dispatchDecisionId := c.control.action.decisionId })
  else c

/-- The decision a dispatched request remembers. -/
def dispatchDecision (c : ThrottleCtx) (g : Globals) : ℕ :=
  if g.throttleEnabled && c.control.throttleActive && actionInForce c then
    c.control.action.decisionId
  else 0

/-- The first half of `smart_io_throttle_account_dispatch`: the request leaves
its queue, and remembers the decision in force. -/
def markDispatch (c : ThrottleCtx) (g : Globals) (m : MetaId) (r : Request) :
    ThrottleCtx :=
  let c₁ := c.modifyMeta m (fun x =>
    { x with deviceTimeExcluded := deviceTimeExcludedOf r })
  let c₂ := c₁.pendingDecLocked m
  let c₃ := c₂.modifyMeta m (fun x =>
    { x with dispatchDecisionId := dispatchDecision c₂ g })
  if c₃.control.modelPostApplyPending && actionInForce c₃ then
    { c₃ with control := { c₃.control with modelPostApplyPending := false } }
  else c₃

/-- `smart_io_throttle_account_dispatch`. -/
def accountDispatch (w : Throttle) (rq : RqAddr) (selection : DispatchSelection)
    (nowNs : ℕ) : Throttle × Effects :=
  let g := w.globals
  match (w.rqs rq).priv1 with
  | none =>
    let p := w.ctx.anomaly.fallbackLocked
    (w.withCtx p.1, { runHwQueues := p.2 })
  | some m =>
    let p := (markDispatch w.ctx g m (w.rqs rq)).accountDepthLocked m
    let c := countSelection (countClass p.1 m) m selection
    (w.withCtx (bindFeedback c g m nowNs), { runHwQueues := p.2 })

/-- `smart_io_throttle_finish_request`. -/
def finishRequest (w : Throttle) (rq : RqAddr) : Throttle × Effects :=
  match (w.rqs rq).priv1 with
  | none => (w, {})
  | some m =>
    let c₁ := w.ctx.invalidateFeedbackLocked m
    let p := c₁.releaseLocked m
    ((w.withCtx p.1).freeMetaLocked rq m, { runHwQueues := p.2 })

/-- The reason to hold non-HP requests back, if there is one. -/
def gateReasonOf (c : ThrottleCtx) (g : Globals) : GateReason :=
  if !g.queueRqThrottleDemo && c.control.inferencePending then .inference
  else if !g.queueRqThrottleDemo && !c.depthCanRunLocked then .depth
  else .none

/-- Close the gate, or give it another reason. -/
def closeGate (c : ThrottleCtx) (reason : GateReason) : ThrottleCtx :=
  if !c.gateBlocked || c.gateReason ≠ reason then
    { c with
      gateBlocked := true
      gateReason := reason
      stats := { c.stats with bgBlocked := c.stats.bgBlocked + 1 } }
  else c

/-- `smart_io_throttle_non_hp_allowed`: the gate, and the answer it gives. -/
def nonHpAllowed (w : Throttle) : Throttle × Bool :=
  if !w.globals.throttleEnabled || gateReasonOf w.ctx w.globals = .none then (w, true)
  else (w.withCtx (closeGate w.ctx (gateReasonOf w.ctx w.globals)), false)

/-- `smart_io_throttle_ufs_should_requeue`. -/
def ufsShouldRequeue (w : Throttle) (rq : RqAddr) : Bool :=
  let c := w.ctx
  if !w.globals.throttleEnabled || !w.globals.queueRqThrottleDemo then false
  else match c.findMetaLocked rq with
    | none => false
    | some m =>
      c.control.throttleActive && c.control.actionValid && !c.control.inferencePending
        && decide (c.control.action.level ≠ .no)
        && decide ((c.metaPool m).queueClass ≠ .hp)
        && decide (c.control.action.targetDepth < c.bgCurrentDepth)

/-! ## Issue, requeue and completion -/

/-- The feedback step of `smart_io_throttle_record_issue`. -/
def issueFeedback (c : ThrottleCtx) (m : MetaId) : ThrottleCtx :=
  if !(c.metaPool m).deviceTimeExcluded && c.control.feedbackMeta = some m
      && c.control.feedbackState = .waitIssue
      && (c.metaPool m).dispatchDecisionId = c.control.action.decisionId then
    { c with
      control := { c.control with
        feedbackIssueTsNs := (c.metaPool m).issueTsNs
        feedbackState := .waitComplete } }
  else c

/-- The reservations of `smart_io_throttle_record_issue`: the depth, unless the
dispatch reserved it, and the issued depth. -/
def reserveIssue (c : ThrottleCtx) (m : MetaId) : ThrottleCtx × Bool :=
  let p := if (c.metaPool m).depthAccounted then (c, false) else c.accountDepthLocked m
  let q := if (p.1.metaPool m).issuedAccounted then (p.1, false)
    else p.1.accountIssuedDepthLocked m
  (q.1, p.2 || q.2)

/-- The first issue of a request starts its device time. -/
def stampIssue (c : ThrottleCtx) (g : Globals) (m : MetaId) (nowNs : ℕ) : ThrottleCtx :=
  if (c.metaPool m).issueTsNs ≠ 0 then c
  else c.modifyMeta m (fun x =>
    { x with
      issueTsNs := nowNs
      completionSampled := false
      issueSessionId := if g.throttleEnabled then c.sessionId else 0 })

/-- `smart_io_throttle_record_issue`, once the request has metadata. -/
def issueMeta (c : ThrottleCtx) (g : Globals) (r : Request) (m : MetaId)
    (nowNs : ℕ) : ThrottleCtx × Bool :=
  let p := reserveIssue (c.modifyMeta m (fun x =>
    { x with deviceTimeExcluded := deviceTimeExcludedOf r })) m
  let c₁ := (p.1.modifyMeta m (fun x => { x with op := r.op })).inflightAddLocked m r
  (issueFeedback (stampIssue c₁ g m nowNs) m, p.2)

/-- `smart_io_throttle_record_issue`. A request that the scheduler did not see
gets its metadata here. -/
def recordIssue (w : Throttle) (rq : RqAddr) (t : TaskCtx) (nowNs : ℕ) :
    Throttle × Effects :=
  let p := match w.ctx.findMetaLocked rq with
    | some m => (w, some m)
    | none => w.allocMetaLocked rq
        (classForQueue (selectQueue w.ctx.metaPool w.globals t (w.rqs rq)))
  match p with
  | (w₁, none) => (w₁, { runHwQueues := true })
  | (w₁, some m) =>
    let q := issueMeta w₁.ctx w₁.globals (w₁.rqs rq) m nowNs
    (w₁.withCtx q.1, { runHwQueues := q.2 })

/-- `smart_io_throttle_record_requeue`. -/
def recordRequeue (w : Throttle) (rq : RqAddr) : Throttle × Effects :=
  match w.ctx.findMetaLocked rq with
  | none => (w, {})
  | some m =>
    let c₁ := w.ctx.invalidateFeedbackLocked m
    let p := c₁.releaseLocked m
    let c₂ := p.1.modifyMeta m (fun x =>
      { x with
        issueTsNs := 0
        issueSessionId := 0
        dispatchDecisionId := 0
        completionSampled := false })
    (w.withCtx c₂, { runHwQueues := p.2 })

/-- The `latency_us` of a completion, when `latency_valid`. -/
def completionLatency (x : RqMeta) (nowNs : ℕ) : Option ℕ :=
  if x.issueTsNs ≠ 0 ∧ x.issueTsNs < nowNs then
    some (min ((nowNs - x.issueTsNs) / nsecPerUsec) u32Max)
  else none

/-- The sample block of `smart_io_throttle_record_complete`: the context and
`slow_window_trigger`. -/
def recordSample (c : ThrottleCtx) (g : Globals) (m : MetaId) (nowNs latencyUs : ℕ) :
    ThrottleCtx × Bool :=
  if (c.metaPool m).completionSampled then (c, false)
  else
    let c₁ := c.modifyMeta m (fun x => { x with completionSampled := true })
    let x := c₁.metaPool m
    if !x.deviceTimeExcluded && g.throttleEnabled
        && x.issueSessionId = c₁.sessionId then
      let win := c₁.window
      let c₂ := { c₁ with
        window :=
          { devLat := Function.update win.devLat win.devLatHead
              { completeTsNs := nowNs, devLatUs := latencyUs,
                isFg := decide (x.rqClass = .foreground) }
            devLatHead := win.devLatHead + 1
            devLatCount :=
              if win.devLatCount < devLatWindowSize then win.devLatCount + 1
              else win.devLatCount } }
      (c₂, !c₂.control.throttleActive && !c₂.control.inferencePending
        && c₂.slowWindowLocked g.devLatThresholdUs)
    else (c₁, false)

/-- What the feedback block of `smart_io_throttle_record_complete` decides. -/
structure VoteResult where
  ctx : ThrottleCtx
  /-- `feedback_complete`: the latency was counted. -/
  complete : Bool
  /-- `reinfer_requested`. -/
  reinfer : Bool
  wake : Bool

/-- The feedback block of `smart_io_throttle_record_complete`: count the latency
as a vote, and after the last one either end the control or ask for a new
inference. -/
def recordVote (c : ThrottleCtx) (g : Globals) (m : MetaId) (latencyUs : ℕ) :
    VoteResult :=
  if !(c.metaPool m).deviceTimeExcluded && c.control.feedbackMeta = some m
      && c.control.feedbackState = .waitComplete
      && c.control.feedbackIssueTsNs ≠ 0 then
    let c₁ := { c with
      control := { c.control with
        feedbackVoteCount := c.control.feedbackVoteCount + 1
        feedbackTotalDevLatUs := c.control.feedbackTotalDevLatUs + latencyUs
        feedbackMaxDevLatUs := max c.control.feedbackMaxDevLatUs latencyUs } }
    let mean := c₁.feedbackMeanLocked
    let c₂ := c₁.clearFeedbackBindingLocked
    if c₂.control.feedbackVoteCount = feedbackSampleMax then
      if mean < g.devLatThresholdUs then
        { ctx := c₂.fallbackLocked.1, complete := true, reinfer := false,
          wake := c₂.fallbackLocked.2 }
      else { ctx := c₂, complete := true, reinfer := true, wake := false }
    else
      { ctx := { c₂ with control := { c₂.control with feedbackState := .waitDispatch } },
        complete := true, reinfer := false, wake := false }
  else { ctx := c, complete := false, reinfer := false, wake := false }

/-- The end of the section of `smart_io_throttle_record_complete`: start the
inference that the sample or the vote asked for. -/
def restartInference (c : ThrottleCtx) (g : Globals) (reinfer slow : Bool)
    (nowNs : ℕ) : ThrottleCtx × Effects :=
  if reinfer || slow then
    let p := c.startInferenceLocked g slow nowNs
    if p.2 then
      (p.1, { scheduleInference := decide (p.1.pending.source ≠ .model) })
    else if reinfer then
      (p.1.fallbackLocked.1, { runHwQueues := p.1.fallbackLocked.2 })
    else (p.1, {})
  else (c, {})

/-- What the sample and the feedback block of
`smart_io_throttle_record_complete` leave for the rest of it. -/
structure CompletionResult where
  ctx : ThrottleCtx
  /-- The latency, when it was counted as a vote. -/
  voted : Option ℕ
  reinfer : Bool
  /-- `slow_window_trigger`. -/
  slow : Bool
  wake : Bool

/-- The sample and the feedback block of `smart_io_throttle_record_complete`,
for a final completion. -/
def recordLatency (c : ThrottleCtx) (g : Globals) (m : MetaId) (nowNs : ℕ) :
    CompletionResult :=
  match completionLatency (c.metaPool m) nowNs with
  | none =>
    { ctx := c.invalidateFeedbackLocked m, voted := none, reinfer := false,
      slow := false, wake := false }
  | some latencyUs =>
    let p := recordSample c g m nowNs latencyUs
    let v := recordVote p.1 g m latencyUs
    { ctx := if v.complete then v.ctx else v.ctx.invalidateFeedbackLocked m
      voted := if v.complete then some latencyUs else none
      reinfer := v.reinfer
      slow := p.2
      wake := v.wake }

/-- `smart_io_throttle_record_complete` up to `smart_io_throttle_schedule_inference`.
Everything but the lookup is for the final completion only. -/
def recordComplete (w : Throttle) (rq : RqAddr) (nrBytes nowNs : ℕ) :
    Throttle × Effects :=
  let r := w.rqs rq
  let final := !r.hasBio || decide (r.bytes ≤ nrBytes)
  match w.ctx.findMetaLocked rq with
  | none => (w, {})
  | some m =>
    if !final then (w, {})
    else
      let v := recordLatency w.ctx w.globals m nowNs
      let p := v.ctx.releaseLocked m
      let w₁ := (w.withCtx p.1).freeMetaLocked rq m
      let q := restartInference w₁.ctx w.globals v.reinfer v.slow nowNs
      (w₁.withCtx q.1,
        { q.2 with
          runHwQueues := v.wake || p.2 || q.2.runHwQueues
          voted := v.voted })

/-! ## Inference -/

/-- The section of `smart_io_throttle_schedule_inference`, reached when
`queue_work` refused the work item. -/
def scheduleFallback (w : Throttle) : Throttle × Effects :=
  if w.ctx.control.inferencePending then
    let p := w.ctx.fallbackLocked
    (w.withCtx p.1, { runHwQueues := p.2 })
  else (w, {})

/-- `ctx->inference_running = false`. -/
def stopRunning (c : ThrottleCtx) : ThrottleCtx :=
  { c with control := { c.control with inferenceRunning := false } }

/-- The first section of `smart_io_throttle_inference_work`: take the pending
decision, if there is one to compute. -/
def inferenceWorkBegin (w : Throttle) : Throttle × Effects :=
  let c := w.ctx
  if !c.control.inferencePending || c.control.inferenceTimedOut || c.dying
      || !c.control.pendingStateValid then
    (w.withCtx (stopRunning c), {})
  else
    ({ w with
      frames := w.frames ++ [
        { sessionId := c.pending.sessionId
          controlId := c.pending.controlId
          decisionId := c.pending.decisionId
          source := c.pending.source
          action := c.pending.fixedAction
          state := c.pending.state }] }, {})

/-- `smart_io_throttle_action_valid`. -/
def actionValid (a : ThrottleAction) : Bool :=
  decide (a.level.code < throttleLevelCount)
    && decide (a.policy.code < dispatchPolicyCount)

/-- The action an inference call computed without the lock. `predicted` is what
`smart_io_model_fp32_predict_timed` answered in time, an action number below
`SMART_IO_MODEL_FP32_ACTIONS`; a fixed source does not ask it. -/
def frameAction (f : InferenceFrame) (predicted : Option (Fin 12)) : Option ThrottleAction :=
  match f.source with
  | .model => predicted.map (fun a =>
      { f.action with
        level := .ofCode (a.val / dispatchPolicyCount)
        policy := .ofCode (a.val % dispatchPolicyCount) })
  | .fixed => if actionValid f.action then some f.action else none

/-- Whether the decision of a frame is still the pending one. -/
def framePending (c : ThrottleCtx) (f : InferenceFrame) : Bool :=
  c.control.inferencePending && !c.control.inferenceTimedOut
    && decide (f.sessionId = c.pending.sessionId)
    && decide (f.controlId = c.pending.controlId)
    && decide (f.decisionId = c.pending.decisionId)

/-- `DIV_ROUND_UP((u64)queue_max * ratio_pct, 100)`, capped at the queue. -/
def targetDepthOf (queueMax ratioPct : ℕ) : ℕ :=
  min queueMax ((queueMax * ratioPct + 99) / 100)

/-- The last section of `smart_io_throttle_inference_work` on its `fallback`
label. -/
def inferenceWorkFail (w : Throttle) (f : InferenceFrame) : Throttle × Effects :=
  if framePending w.ctx f then
    let c := w.ctx
    let c₁ := { c with
      stats := { c.stats with invalidResultCount := c.stats.invalidResultCount + 1 } }
    let p := c₁.fallbackLocked
    (w.withCtx p.1, { runHwQueues := p.2 })
  else (w, {})

/-- The target depth of an action, unless its ratio is out of range or leaves no
depth at all. -/
def actionTarget (c : ThrottleCtx) (a : ThrottleAction) (queueMax : ℕ) : Option ℕ :=
  if a.level = .no then some 0
  else if c.actionRatio a.level = 0 ∨ 100 < c.actionRatio a.level then none
  else if targetDepthOf queueMax (c.actionRatio a.level) = 0 then none
  else some (targetDepthOf queueMax (c.actionRatio a.level))

/-- The action an inference puts in force. -/
def appliedAction (c : ThrottleCtx) (f : InferenceFrame) (a : ThrottleAction)
    (queueMax target : ℕ) : ThrottleAction :=
  { a with
    ratioPct := c.actionRatio a.level
    queueMax := queueMax
    targetDepth := target
    decisionId := f.decisionId }

/-- The context once an action is in force. -/
def installAction (c : ThrottleCtx) (f : InferenceFrame) (action : ThrottleAction) :
    ThrottleCtx :=
  { c with
    gateBlocked := false
    gateReason := .none
    stats := { c.stats with inferenceCount := c.stats.inferenceCount + 1 }
    control := { c.control with
      action := action
      actionValid := true
      inferencePending := false
      inferenceTimedOut := false
      inferenceRunning := false
      feedbackState := .waitDispatch
      modelPostApplyPending :=
        if f.source = .model then true else c.control.modelPostApplyPending } }

/-- The last section of `smart_io_throttle_inference_work` with an action to
apply. -/
def inferenceWorkApply (w : Throttle) (f : InferenceFrame) (a : ThrottleAction)
    (queueMax : ℕ) : Throttle × Effects :=
  let c := w.ctx
  if !framePending c f || c.dying then (w.withCtx (stopRunning c), {})
  else match actionTarget c a queueMax with
    | none =>
      let c₁ := { c with
        stats := { c.stats with invalidResultCount := c.stats.invalidResultCount + 1 } }
      (w.withCtx c₁.fallbackLocked.1, { runHwQueues := c₁.fallbackLocked.2 })
    | some target =>
      let action := appliedAction c f a queueMax target
      (w.withCtx (installAction c f action),
        { runHwQueues := true, installed := some action })

/-- The end of an inference call: its last section, with what it computed. -/
def inferenceWorkFinish (w : Throttle) (i : ℕ) (predicted : Option (Fin 12)) :
    Throttle × Effects :=
  match w.frames[i]? with
  | none => (w, {})
  | some f =>
    let w₁ := { w with frames := w.frames.eraseIdx i }
    match frameAction f predicted with
    | none => w₁.inferenceWorkFail f
    | some a =>
      if w.globals.queueDepth = 0 then w₁.inferenceWorkFail f
      else w₁.inferenceWorkApply f a w.globals.queueDepth

/-- The section of `smart_io_throttle_model_thread_run`; it goes on to
`smart_io_throttle_inference_work`. -/
def modelThreadRun (w : Throttle) (nowNs : ℕ) : Throttle × Effects :=
  let c := w.ctx
  let g := w.globals
  if !c.control.inferencePending || c.control.inferenceTimedOut || c.dying
      || c.pending.source ≠ .model then
    (w.withCtx (stopRunning c), {})
  else
    match c.snapshotStateLocked nowNs g.queueDepth g.devLatThresholdUs with
    | (c₁, none) =>
      (w.withCtx c₁.fallbackLocked.1, { runHwQueues := c₁.fallbackLocked.2 })
    | (c₁, some s) =>
      (w.withCtx { c₁ with
        pending := { c₁.pending with state := s }
        control := { c₁.control with pendingStateValid := true } }, {})

/-- `smart_io_throttle_dispatch_model_if_needed`. `slotFree` says that neither
`model_thread_ctx` nor `model_thread_running_ctx` is set. -/
def dispatchModelIfNeeded (w : Throttle) (slotFree : Bool) : Throttle × Effects :=
  let c := w.ctx
  if !w.globals.throttleEnabled || !c.modelDispatchNeededLocked then (w, {})
  else
    let c₁ := { c with control := { c.control with inferenceRunning := true } }
    if slotFree then (w.withCtx c₁, {})
    else
      let p := c₁.fallbackLocked
      (w.withCtx p.1, { runHwQueues := p.2 })

/-- `smart_io_throttle_inference_timer`. -/
def inferenceTimer (w : Throttle) : Throttle × Effects :=
  let c := w.ctx
  if c.control.inferencePending && !c.dying then
    (w.withCtx { c with control := { c.control with inferenceTimedOut := true } }, {})
  else (w, {})

/-- `smart_io_throttle_timeout_work`. It returns early, before it looks at
`wake`, when the session of the decision it abandoned is number zero. -/
def timeoutWork (w : Throttle) : Throttle × Effects :=
  let c := w.ctx
  if c.control.inferencePending && c.control.inferenceTimedOut then
    let c₁ := { c with stats := { c.stats with timeoutCount := c.stats.timeoutCount + 1 } }
    let p := c₁.fallbackLocked
    (w.withCtx p.1,
      { runHwQueues := if c.pending.sessionId = 0 then false else p.2 })
  else (w, {})

/-- The waiting time of a record after a reset: it starts again with a new
session. -/
def restamp (newSession : Bool) (nowNs : ℕ) (x : RqMeta) : RqMeta :=
  { x with
    queuedTsNs := if newSession && x.queued && x.rqClass = .background then nowNs else 0 }

/-- `smart_io_throttle_reset_context`: the loop at its end visits every record in
use. -/
def resetContext (w : Throttle) (newSession : Bool) (nowNs : ℕ) : Throttle × Effects :=
  let c := w.ctx
  let c₁ := { c with sessionId := if newSession then c.sessionId + 1 else c.sessionId }
  let c₂ := c₁.fallbackLocked.1
  (w.withCtx { c₂ with
      metaPool := fun m =>
        if m ∈ c₂.activeMetas then restamp newSession nowNs (c₂.metaPool m)
        else c₂.metaPool m },
    { runHwQueues := true })

end Throttle
