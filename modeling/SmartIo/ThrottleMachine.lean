import SmartIo.ThrottleOps

/-!
# The throttle of one queue as a machine

Every lock section of `SmartIo.ThrottleOps` is an input of the machine, with the
configuration calls of the module beside them, and a run is any sequence of
them: in any order, on any requests, with any times and tasks. A queue may be
attached while throttling is already enabled, so the static variables of a
start state are whatever configuration calls have left.
-/

/-! ## Configuration -/

/-- The error a configuration call returns. -/
inductive Errno where
  | einval
  | ebusy
  | thread
deriving DecidableEq, Repr

/-- The calls that change the module's static variables. The last four are the
variables of `system_context.c` and the queue depth, which other code sets, and
the flag that `smart_io_throttle_set_enabled` writes around its resets. -/
inductive ConfigOp where
  | setDevLatThreshold (thresholdUs : ℕ)
  | setBackgroundDeadlineMs (deadlineMs : ℕ)
  | setRatios (lightPct mediumPct heavyPct : ℕ)
  | setActionSource (source : ℕ) (threadEnsured : Bool)
  | setFixedAction (level policy : ℕ)
  | setUxHpEnable (enabled : Bool)
  | setRtReadHpEnable (enabled : Bool)
  | setQueueRqDemo (enabled : Bool)
  | setThrottleEnabled (enabled : Bool)
  | setFgUid (uid : ℤ)
  | setFgMainPid (pid : ℤ)
  | setQueueDepth (depth : ℕ)
deriving DecidableEq, Repr

namespace Globals

/-- `smart_io_throttle_set_dev_lat_threshold`. -/
def setDevLatThreshold (g : Globals) (thresholdUs : ℕ) : Except Errno Globals :=
  if thresholdUs = 0 ∨ intMax < thresholdUs then .error .einval
  else if g.throttleEnabled then .error .ebusy
  else .ok { g with devLatThresholdUs := thresholdUs }

/-- `smart_io_throttle_set_background_deadline_ms`. -/
def setBackgroundDeadlineMs (g : Globals) (deadlineMs : ℕ) : Except Errno Globals :=
  if deadlineMs = 0 ∨ intMax < deadlineMs then .error .einval
  else if g.throttleEnabled then .error .ebusy
  else .ok { g with backgroundDeadlineMs := deadlineMs }

/-- `smart_io_throttle_set_ratios`. -/
def setRatios (g : Globals) (lightPct mediumPct heavyPct : ℕ) :
    Except Errno Globals :=
  if 100 < lightPct ∨ lightPct = 0 ∨ lightPct ≤ mediumPct ∨ mediumPct = 0
      ∨ mediumPct ≤ heavyPct ∨ heavyPct = 0 then .error .einval
  else .ok { g with
    config := { g.config with
      lightPct := lightPct, mediumPct := mediumPct, heavyPct := heavyPct } }

/-- `smart_io_throttle_set_action_source`; the model source needs its thread,
which `smart_io_throttle_model_thread_ensure` may fail to create. -/
def setActionSource (g : Globals) (source : ℕ) (threadEnsured : Bool) :
    Except Errno Globals :=
  match source with
  | 0 => .ok { g with config := { g.config with source := .fixed } }
  | 1 =>
    if threadEnsured then .ok { g with config := { g.config with source := .model } }
    else .error .thread
  | _ => .error .einval

/-- `smart_io_throttle_set_fixed_action`. -/
def setFixedAction (g : Globals) (level policy : ℕ) : Except Errno Globals :=
  if throttleLevelCount ≤ level ∨ dispatchPolicyCount ≤ policy then .error .einval
  else .ok { g with
    config := { g.config with
      fixedAction := { g.config.fixedAction with
        level := .ofCode level, policy := .ofCode policy } } }

/-- One configuration call; a call that fails changes nothing. -/
def configure (g : Globals) : ConfigOp → Globals
  | .setDevLatThreshold n => (g.setDevLatThreshold n).toOption.getD g
  | .setBackgroundDeadlineMs n => (g.setBackgroundDeadlineMs n).toOption.getD g
  | .setRatios l m h => (g.setRatios l m h).toOption.getD g
  | .setActionSource s ok => (g.setActionSource s ok).toOption.getD g
  | .setFixedAction l p => (g.setFixedAction l p).toOption.getD g
  | .setUxHpEnable b => { g with uxHpEnabled := b }
  | .setRtReadHpEnable b => { g with rtReadHpEnabled := b }
  | .setQueueRqDemo b => { g with queueRqThrottleDemo := b }
  | .setThrottleEnabled b => { g with throttleEnabled := b }
  | .setFgUid u => { g with fgUid := u }
  | .setFgMainPid p => { g with fgMainPid := p }
  | .setQueueDepth n => { g with queueDepth := n }

end Globals

/-! ## The capacity of the pool -/

/-- The tag sets of a queue that `smart_io_throttle_meta_capacity` reads. -/
structure QueueTags where
  /-- `nr_tags` of `sched_shared_tags`, if the queue has one. -/
  schedSharedTags : Option ℕ
  /-- `nr_tags` of each hardware context's `sched_tags`, if it has them. -/
  hctxTags : List (Option ℕ)
  nrHwQueues : ℕ
deriving DecidableEq, Repr

/-- `check_add_overflow` on two `u32`. -/
def checkAddU32 (a b : ℕ) : Option ℕ := if a + b ≤ u32Max then some (a + b) else none

/-- `smart_io_throttle_meta_capacity`. -/
def metaCapacityOf (q : QueueTags) : Option ℕ :=
  let tagSlots := match q.schedSharedTags with
    | some n => some n
    | none => q.hctxTags.foldlM (fun (a : ℕ) (n : Option ℕ) => n.bind (checkAddU32 a)) 0
  tagSlots.bind (fun n =>
    if n = 0 ∨ q.nrHwQueues = 0 then none else checkAddU32 n q.nrHwQueues)

/-- **The pool of an attached queue has a record for every tag and every flush
request**, and its size is a `u32`. -/
theorem metaCapacityOf_bounds {q : QueueTags} {n : ℕ} (h : metaCapacityOf q = some n) :
    2 ≤ n ∧ n ≤ u32Max := by
  obtain ⟨k, -, hk⟩ := Option.bind_eq_some_iff.mp h
  split at hk
  · exact absurd hk (by simp)
  · rename_i hne
    unfold checkAddU32 at hk
    split at hk
    · rename_i hle
      obtain rfl := Option.some.inj hk
      omega
    · exact absurd hk (by simp)

/-! ## The machine -/

/-- The steps of the throttle of one queue. -/
inductive ThrottleOp where
  | prepareRequest (rq : RqAddr) (r : Request)
  | changeRequest (rq : RqAddr) (r : Request)
  | classifyRequest (rq : RqAddr) (t : TaskCtx) (nowNs : ℕ)
  | updateRequest (rq : RqAddr)
  | unqueueRequest (rq : RqAddr)
  | accountDispatch (rq : RqAddr) (selection : DispatchSelection) (nowNs : ℕ)
  | finishRequest (rq : RqAddr)
  | recordIssue (rq : RqAddr) (t : TaskCtx) (nowNs : ℕ)
  | recordRequeue (rq : RqAddr)
  | recordComplete (rq : RqAddr) (nrBytes nowNs : ℕ)
  | scheduleFallback
  | nonHpAllowed
  | dispatchModelIfNeeded (slotFree : Bool)
  | modelThreadRun (nowNs : ℕ)
  | inferenceWorkBegin
  | inferenceWorkFinish (i : ℕ) (predicted : Option (Fin 12))
  | inferenceTimer
  | timeoutWork
  | resetContext (newSession : Bool) (nowNs : ℕ)
  | configure (k : ConfigOp)
  /-- `queue_exit` marks the context as dying. -/
  | setDying
deriving DecidableEq, Repr

namespace Throttle

/-- One step. -/
def step (w : Throttle) : ThrottleOp → Throttle × Effects
  | .prepareRequest rq r => (w.prepareRequest rq r, {})
  | .changeRequest rq r => (w.changeRequest rq r, {})
  | .classifyRequest rq t nowNs => w.classifyRequest rq t nowNs
  | .updateRequest rq => w.updateRequest rq
  | .unqueueRequest rq => w.unqueueRequest rq
  | .accountDispatch rq s nowNs => w.accountDispatch rq s nowNs
  | .finishRequest rq => w.finishRequest rq
  | .recordIssue rq t nowNs => w.recordIssue rq t nowNs
  | .recordRequeue rq => w.recordRequeue rq
  | .recordComplete rq nrBytes nowNs => w.recordComplete rq nrBytes nowNs
  | .scheduleFallback => w.scheduleFallback
  | .nonHpAllowed => (w.nonHpAllowed.1, {})
  | .dispatchModelIfNeeded slotFree => w.dispatchModelIfNeeded slotFree
  | .modelThreadRun nowNs => w.modelThreadRun nowNs
  | .inferenceWorkBegin => w.inferenceWorkBegin
  | .inferenceWorkFinish i predicted => w.inferenceWorkFinish i predicted
  | .inferenceTimer => w.inferenceTimer
  | .timeoutWork => w.timeoutWork
  | .resetContext newSession nowNs => w.resetContext newSession nowNs
  | .configure k => ({ w with globals := w.globals.configure k }, {})
  | .setDying => (w.withCtx { w.ctx with dying := true }, {})

/-- A queue the scheduler has just been attached to. -/
structure Attached (w : Throttle) : Prop where
  ctx : ∃ q n, metaCapacityOf q = some n ∧ w.ctx = .queueInit n
  rqs : ∀ rq, (w.rqs rq).priv1 = none
  frames : w.frames = []
  globals : ∃ ks : List ConfigOp, w.globals = ks.foldl Globals.configure .initial

/-- The throttle of a queue that is attached after some configuration calls. -/
def attach (capacity : ℕ) (ks : List ConfigOp) : Throttle where
  ctx := .queueInit capacity
  rqs := fun _ => .zero
  globals := ks.foldl Globals.configure .initial
  frames := []

/-- A queue with shared tags is attached with a pool of their number and one
record for every hardware context. -/
theorem attached_attach {tags hwQueues : ℕ} (ht : tags ≠ 0) (hq : hwQueues ≠ 0)
    (hle : tags + hwQueues ≤ u32Max) (ks : List ConfigOp) :
    Attached (attach (tags + hwQueues) ks) where
  ctx := by
    refine ⟨⟨some tags, [], hwQueues⟩, tags + hwQueues, ?_, rfl⟩
    simp [metaCapacityOf, checkAddU32, ht, hq, hle]
  rqs _ := rfl
  frames := rfl
  globals := ⟨ks, rfl⟩

/-- **The throttle of one queue**, from the moment the queue is attached. -/
def machine : StepMachine Throttle ThrottleOp Effects where
  init := Attached
  step := step

@[simp] theorem machine_next (w : Throttle) (op : ThrottleOp) :
    machine.next w op = (w.step op).1 := rfl

@[simp] theorem machine_out (w : Throttle) (op : ThrottleOp) :
    machine.out w op = (w.step op).2 := rfl

/-- The runs of a queue with one tag and one hardware context. -/
theorem reachable_attach (ks : List ConfigOp) (ops : List ThrottleOp) :
    machine.Reachable (machine.run (attach 2 ks) ops) :=
  (StepMachine.Reachable.of_init (attached_attach (Nat.one_ne_zero) (Nat.one_ne_zero)
    (by decide) ks)).run ops

end Throttle
