import Mathlib.Data.List.Infix
import Mathlib.Logic.Function.Basic
import SmartIo.KernelInt

/-!
# The data of the throttle

The types of `smart_io_types.h` and `smart_io_throttle.h`, as far as a lock
section of `smart_io_throttle.c` reads or writes them.

A `struct request *` is its address (`RqAddr`) and a `struct smart_io_rq_meta *`
is its index in `meta_pool` (`MetaId`), so pointer identity is equality of
numbers and the pool is a function on indices. Counters of fixed width are
natural numbers: every one of them that a decision reads is guarded against
its maximum by the code itself, and the guards are kept. The fields of
`struct smart_io_throttle_ctx` that one helper always rewrites together are
grouped – the sample window, the pending decision, the control state and the
statistics – and keep their names inside the group.

What only a trace line reads is left out: the `model_*_ts_ns` stamps, the
`released_reason` and `feedback_result` out-parameters and `tag_depth_max`.
-/

/-- The address of a `struct request`. -/
abbrev RqAddr := ℕ

/-- The index of a `struct smart_io_rq_meta` in `meta_pool`. -/
abbrev MetaId := ℕ

/-! ## Enumerations -/

/-- `enum smart_io_rq_class`. -/
inductive RqClass where
  | foreground
  | background
deriving DecidableEq, Repr

/-- `enum smart_io_queue_class`. -/
inductive QueueClass where
  | hp
  | rt
  | be
deriving DecidableEq, Repr

/-- `enum smart_io_throttle_level`. -/
inductive ThrottleLevel where
  | no
  | light
  | medium
  | heavy
deriving DecidableEq, Repr

/-- `enum smart_io_dispatch_policy`. -/
inductive DispatchPolicy where
  | baseline
  | seq
  | small
deriving DecidableEq, Repr

/-- `enum smart_io_action_source`. -/
inductive ActionSource where
  | fixed
  | model
deriving DecidableEq, Repr

/-- `enum smart_io_feedback_state`. -/
inductive FeedbackState where
  | none
  | waitDispatch
  | waitIssue
  | waitComplete
deriving DecidableEq, Repr

/-- `enum smart_io_gate_reason`. -/
inductive GateReason where
  | none
  | inference
  | depth
deriving DecidableEq, Repr

/-- `enum smart_io_dispatch_selection`. -/
inductive DispatchSelection where
  | foregroundFifo
  | seqHit
  | seqFallback
  | small
  | backgroundBaseline
  | backgroundDeadline
deriving DecidableEq, Repr

/-- `enum req_op` of the block layer: the two operations the throttle tells
apart, and the code of any other. -/
inductive ReqOp where
  | read
  | write
  | other (code : ℕ)
deriving DecidableEq, Repr

/-- The numeric value of a `REQ_OP_*`. -/
def ReqOp.code : ReqOp → ℕ
  | .read => 0
  | .write => 1
  | .other n => n

/-- `SMART_IO_THROTTLE_LEVEL_COUNT` values, read off a number that passed the
range check. -/
def ThrottleLevel.ofCode : ℕ → ThrottleLevel
  | 0 => .no
  | 1 => .light
  | 2 => .medium
  | _ => .heavy

/-- The numeric value of a level. -/
def ThrottleLevel.code : ThrottleLevel → ℕ
  | .no => 0
  | .light => 1
  | .medium => 2
  | .heavy => 3

/-- A policy, read off a number that passed the range check. -/
def DispatchPolicy.ofCode : ℕ → DispatchPolicy
  | 0 => .baseline
  | 1 => .seq
  | _ => .small

/-- The numeric value of a policy. -/
def DispatchPolicy.code : DispatchPolicy → ℕ
  | .baseline => 0
  | .seq => 1
  | .small => 2

/-- `SMART_IO_THROTTLE_LEVEL_COUNT`. -/
def throttleLevelCount : ℕ := 4

/-- `SMART_IO_DISPATCH_POLICY_COUNT`. -/
def dispatchPolicyCount : ℕ := 3

/-- `SMART_IO_DEV_LAT_WINDOW`. -/
def devLatWindowSize : ℕ := 5

instance neZero_devLatWindowSize : NeZero 5 := ⟨Nat.succ_ne_zero 4⟩

/-- `SMART_IO_DEV_LAT_WINDOW_MAX_US`. -/
def devLatWindowMaxUs : ℕ := 10000

/-- `SMART_IO_FEEDBACK_SAMPLE_MAX`. -/
def feedbackSampleMax : ℕ := 5

/-- `NSEC_PER_USEC`. -/
def nsecPerUsec : ℕ := 1000

/-! ## Records -/

/-- `struct smart_io_action`. -/
structure ThrottleAction where
  level : ThrottleLevel
  policy : DispatchPolicy
  ratioPct : ℕ
  queueMax : ℕ
  targetDepth : ℕ
  decisionId : ℕ
deriving DecidableEq, Repr

/-- What `smart_io_throttle_set_baseline_action_locked` writes. -/
def ThrottleAction.baseline : ThrottleAction where
  level := .no
  policy := .baseline
  ratioPct := 0
  queueMax := 0
  targetDepth := 0
  decisionId := 0

/-- `struct smart_io_completion_sample`. -/
structure CompletionSample where
  completeTsNs : ℕ
  devLatUs : ℕ
  isFg : Bool
deriving DecidableEq, Repr

/-- `struct smart_io_state_snapshot`. -/
structure StateSnapshot where
  decisionTsNs : ℕ := 0
  deviceQCount : ℕ := 0
  reservedDepthCount : ℕ := 0
  deviceQFgCount : ℕ := 0
  deviceQSlowCount : ℕ := 0
  queueMax : ℕ := 0
  devLatThresholdUs : ℕ := 0
  windowCompleteCount : ℕ := 0
  windowMeanDevUs : ℕ := 0
  windowSpanUs : ℕ := 0
  windowSlowCount : ℕ := 0
  windowFgCompleteCount : ℕ := 0
  waitingTotalCount : ℕ := 0
  waitingCount : ℕ := 0
  waitingFg : ℕ := 0
  waitingHighIoprioCount : ℕ := 0
  waitingToIssuedContiguousCount : ℕ := 0
deriving DecidableEq, Repr

/-- `struct smart_io_rq_meta`, less its list nodes: the lists hold indices. -/
structure RqMeta where
  rq : Option RqAddr
  rqClass : RqClass
  queueClass : QueueClass
  op : ReqOp
  startSector : ℕ
  endSector : ℕ
  rqId : ℕ
  issueTsNs : ℕ
  issueSessionId : ℕ
  dispatchDecisionId : ℕ
  queuedTsNs : ℕ
  queued : Bool
  /-- The `current_depth` reservation. -/
  depthAccounted : Bool
  /-- The `bg_current_depth` reservation. -/
  bgDepthAccounted : Bool
  /-- The `issued_depth` reservation. -/
  issuedAccounted : Bool
  inflightIndexed : Bool
  feedbackBound : Bool
  completionSampled : Bool
  deadlineForced : Bool
  highIoprio : Bool
  deviceTimeExcluded : Bool
deriving DecidableEq, Repr

/-- A metadata record after `memset(meta, 0, sizeof(*meta))`: every flag clear,
and every enumeration at its zero value – foreground class, HP queue. -/
def RqMeta.zero : RqMeta where
  rq := none
  rqClass := .foreground
  queueClass := .hp
  op := .read
  startSector := 0
  endSector := 0
  rqId := 0
  issueTsNs := 0
  issueSessionId := 0
  dispatchDecisionId := 0
  queuedTsNs := 0
  queued := false
  depthAccounted := false
  bgDepthAccounted := false
  issuedAccounted := false
  inflightIndexed := false
  feedbackBound := false
  completionSampled := false
  deadlineForced := false
  highIoprio := false
  deviceTimeExcluded := false

/-- The fields of a `struct request` that the throttle reads, and the one it
writes, `elv.priv[1]`. -/
structure Request where
  /-- `RQF_USE_SCHED`. -/
  useSched : Bool
  /-- `elv.priv[1]`, the metadata of a scheduled request. -/
  priv1 : Option MetaId
  op : ReqOp
  /-- `blk_rq_pos`. -/
  pos : ℕ
  /-- `blk_rq_sectors`. -/
  sectors : ℕ
  /-- `blk_rq_bytes`: what is still to be completed. -/
  bytes : ℕ
  /-- `req_get_ioprio`. -/
  ioprio : ℕ
  /-- `rq->bio != NULL`. -/
  hasBio : Bool
  /-- The name `extract_device_name` finds. -/
  devName : List Char
  /-- `fifo_time`, in jiffies. -/
  fifoTime : ℕ
deriving DecidableEq, Repr

/-- A request no one has prepared yet. -/
def Request.zero : Request where
  useSched := false
  priv1 := none
  op := .read
  pos := 0
  sectors := 0
  bytes := 0
  ioprio := 0
  hasBio := false
  devName := []
  fifoTime := 0

/-- The task that runs an operation: `current`. -/
structure TaskCtx where
  uid : ℕ
  pid : ℤ
  comm : List Char
deriving DecidableEq, Repr

/-! ## The module's static variables -/

/-- `struct smart_io_throttle_config`. -/
structure ThrottleConfig where
  lightPct : ℕ
  mediumPct : ℕ
  heavyPct : ℕ
  source : ActionSource
  fixedAction : ThrottleAction
deriving DecidableEq, Repr

/-- The file-scope variables of `smart_io_throttle.c` that a lock section reads,
with the two of `system_context.c` and the queue depth of the block layer. -/
structure Globals where
  throttleEnabled : Bool
  queueRqThrottleDemo : Bool
  uxHpEnabled : Bool
  rtReadHpEnabled : Bool
  devLatThresholdUs : ℕ
  backgroundDeadlineMs : ℕ
  config : ThrottleConfig
  /-- `fg_uid` of `system_context.c`, negative when there is none. -/
  fgUid : ℤ
  /-- `fg_main_pid` of `system_context.c`. -/
  fgMainPid : ℤ
  /-- `blk_queue_depth(ctx->queue)`. -/
  queueDepth : ℕ
deriving DecidableEq, Repr

/-- The initialisers of the file-scope variables. -/
def Globals.initial : Globals where
  throttleEnabled := false
  queueRqThrottleDemo := false
  uxHpEnabled := false
  rtReadHpEnabled := false
  devLatThresholdUs := 600
  backgroundDeadlineMs := 2000
  config :=
    { lightPct := 75, mediumPct := 50, heavyPct := 25, source := .fixed,
      fixedAction := { ThrottleAction.baseline with level := .medium } }
  fgUid := -1
  fgMainPid := -1
  queueDepth := 0
