import SmartIo.ThrottleTypes

/-!
# Which queue a request belongs to

The selection of the HP, RT or BE queue: the arithmetic of `ioprio`, the HP
hint a marked request carries, and `smart_io_throttle_select_queue` with the
task context it falls back on. Once a request has metadata the answer is the
class recorded there; before that it depends on the current task, which is why
the same request can be given two different answers at two moments.
-/

/-! ## The fields of an `ioprio` -/

/-- `IOPRIO_PRIO_CLASS`. -/
def ioprioClass (ioprio : ℕ) : ℕ := ioprio / 2 ^ 13 % 8

/-- `IOPRIO_PRIO_HINT`. -/
def ioprioHint (ioprio : ℕ) : ℕ := ioprio / 2 ^ 3 % 2 ^ 10

/-- `IOPRIO_PRIO_LEVEL`. -/
def ioprioLevel (ioprio : ℕ) : ℕ := ioprio % 2 ^ 3

/-- `IOPRIO_CLASS_RT`. -/
def ioprioClassRt : ℕ := 1

/-- `IOPRIO_CLASS_BE`. -/
def ioprioClassBe : ℕ := 2

/-- `IOPRIO_CLASS_IDLE`. -/
def ioprioClassIdle : ℕ := 3

/-- `IOPRIO_BE_NORM`. -/
def ioprioBeNorm : ℕ := 4

/-- `SMART_IO_HP_IOPRIO_HINT`: every bit of the hint field. -/
def hpIoprioHint : ℕ := 2 ^ 10 - 1

/-- `IOPRIO_PRIO_VALUE_HINT`. -/
def ioprioValueHint (cls level hint : ℕ) : ℕ := cls * 2 ^ 13 + hint * 2 ^ 3 + level

/-- `smart_io_throttle_is_hp_ioprio`. -/
def isHpIoprio (ioprio : ℕ) : Bool := ioprioHint ioprio == hpIoprioHint

/-- `smart_io_throttle_add_hp_hint`. A request without a class is first given
the best-effort one at its normal level. -/
def addHpHint (ioprio : ℕ) : ℕ :=
  if ioprioClassIdle < ioprioClass ioprio then ioprio
  else if ioprioClass ioprio = 0 then
    ioprioValueHint ioprioClassBe ioprioBeNorm hpIoprioHint
  else ioprioValueHint (ioprioClass ioprio) (ioprioLevel ioprio) hpIoprioHint

/-- `smart_io_throttle_queue_from_ioprio`. -/
def queueFromIoprio (ioprio : ℕ) : QueueClass :=
  if ioprioClass ioprio = ioprioClassRt then .rt else .be

/-! ## The task context -/

/-- `smart_io_throttle_current_uid_is_fg`. -/
def currentUidIsFg (g : Globals) (t : TaskCtx) : Bool :=
  decide (0 ≤ g.fgUid) && decide ((t.uid : ℤ) = g.fgUid)

/-- `smart_io_throttle_current_can_mark_hp`. -/
def currentCanMarkHp (g : Globals) (t : TaskCtx) : Bool :=
  if !currentUidIsFg g t then false
  else if !g.uxHpEnabled then true
  else decide (t.pid = g.fgMainPid)
    || decide (['R', 'e', 'n', 'd', 'e', 'r', 'T', 'h', 'r', 'e', 'a', 'd'] <:+: t.comm)
    || decide (['G', 'L', 'T', 'h', 'r', 'e', 'a', 'd'] <:+: t.comm)

/-- `smart_io_throttle_rt_read_can_mark_hp`. -/
def rtReadCanMarkHp (g : Globals) (ioprio : ℕ) (op : ReqOp) : Bool :=
  g.rtReadHpEnabled && decide (ioprioClass ioprio = ioprioClassRt)
    && decide (op = .read)

/-! ## Selection -/

/-- `smart_io_throttle_select_queue`: the class recorded in the metadata, else
what the `ioprio` and the current task say. -/
def selectQueue (pool : MetaId → RqMeta) (g : Globals) (t : TaskCtx)
    (r : Request) : QueueClass :=
  match r.priv1 with
  | some m => (pool m).queueClass
  | none =>
    if isHpIoprio r.ioprio then .hp
    else if currentCanMarkHp g t || rtReadCanMarkHp g r.ioprio r.op then .hp
    else queueFromIoprio r.ioprio

/-- `smart_io_throttle_class_for_queue`. -/
def classForQueue : QueueClass → RqClass
  | .hp => .foreground
  | _ => .background

/-- `smart_io_throttle_rq_class`. -/
def rqClassOf (pool : MetaId → RqMeta) (r : Request) : RqClass :=
  match r.priv1 with
  | some m => (pool m).rqClass
  | none => .background

/-- `smart_io_throttle_mark_request_hp`. -/
def markRequestHp (r : Request) : Request :=
  if isHpIoprio r.ioprio then r else { r with ioprio := addHpHint r.ioprio }

/-- `smart_io_throttle_device_time_excluded`: loop devices are not timed. -/
def deviceTimeExcludedOf (r : Request) : Bool :=
  ['l', 'o', 'o', 'p'].isPrefixOf r.devName

/-- The `high_ioprio` of a request: its class is the real-time one. -/
def highIoprioOf (r : Request) : Bool := ioprioClass r.ioprio == ioprioClassRt

/-- The two other queues are the background class. -/
theorem classForQueue_eq_background {q : QueueClass} :
    classForQueue q = .background ↔ q ≠ .hp := by
  cases q <;> simp [classForQueue]
