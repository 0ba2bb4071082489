import SmartIo.ThrottleMachine

/-!
# The scheduler

`smart_deadline.c` keeps three priorities – HP, RT and BE, the values of a
queue class – and in each of them a list of requests inserted at the head, a
FIFO list and a sorted tree for either direction of data. It dispatches the
first HP request there is, and an RT or BE request only if the gate of the
throttle lets it pass.

`dd->lock` orders the calls of the scheduler, so between them the lists do not
change. It does not keep other CPUs from the lock of the throttle: what they do
between two lock sections of a dispatch is an argument of the dispatch
(`Interference`).

`list_del_init` takes a request off whatever list it is on. A tree is the list
of its nodes; the order is that of the positions, which the block layer may
change, and only lookups read it.
-/

/-! ## Data -/

/-- `enum dd_data_dir`. -/
inductive DataDir where
  | read
  | write
deriving DecidableEq, Repr

/-- `rq_data_dir`: the lowest bit of the operation. -/
def dataDir (r : Request) : DataDir := if r.op.code % 2 = 1 then .write else .read

/-- `time_before`, of two `unsigned long` stamps. -/
def timeBefore (a b : ℕ) : Bool := decide (2 ^ 63 ≤ (a + (2 ^ 64 - b % 2 ^ 64)) % 2 ^ 64)

/-- `struct io_stats_per_prio`. -/
structure IoStatsPerPrio where
  inserted : ℕ
  merged : ℕ
  dispatched : ℕ
  completed : ℕ
deriving DecidableEq, Repr

/-- `struct dd_per_prio`. -/
structure DdPerPrio where
  dispatch : List RqAddr
  sortList : DataDir → List RqAddr
  fifoList : DataDir → List RqAddr
  stats : IoStatsPerPrio

/-- `struct deadline_data`, with the field `elv.priv[0]` of the requests. A
priority is the queue class of the same number. -/
structure Deadline where
  perPrio : QueueClass → DdPerPrio
  priv0 : RqAddr → Option QueueClass
  throttle : Throttle

namespace DdPerPrio

/-- What `dd_init_sched` sets up. -/
def init : DdPerPrio := ⟨[], fun _ => [], fun _ => [], ⟨0, 0, 0, 0⟩⟩

/-- `dd_has_work_for_prio`. -/
def hasWork (p : DdPerPrio) : Bool :=
  !p.dispatch.isEmpty || !(p.fifoList .read).isEmpty || !(p.fifoList .write).isEmpty

/-- Whether a request is on a list of the priority. -/
def holds (p : DdPerPrio) (rq : RqAddr) : Bool :=
  decide (rq ∈ p.dispatch) || decide (rq ∈ p.fifoList .read) || decide (rq ∈ p.fifoList .write)

/-- `list_del_init`. -/
def listDel (p : DdPerPrio) (rq : RqAddr) : DdPerPrio :=
  { p with dispatch := p.dispatch.erase rq, fifoList := fun d => (p.fifoList d).erase rq }

/-- `list_move`: `rq` goes behind `after`, which is on another place of the
lists. -/
def listMove (p : DdPerPrio) (rq after : RqAddr) : DdPerPrio :=
  let behind := fun l : List RqAddr =>
    (l.erase rq).flatMap fun x => if x = after then [x, rq] else [x]
  { p with dispatch := behind p.dispatch, fifoList := fun d => behind (p.fifoList d) }

/-- The request `dd_dispatch_fifo` picks: the first one inserted at the head,
else the older of the first of either FIFO list. -/
def pick (p : DdPerPrio) (rqs : RqAddr → Request) : Option RqAddr :=
  match p.dispatch with
  | rq :: _ => some rq
  | [] =>
    match (p.fifoList .read).head?, (p.fifoList .write).head? with
    | none, writeRq => writeRq
    | some readRq, none => some readRq
    | some readRq, some writeRq =>
      if timeBefore (rqs readRq).fifoTime (rqs writeRq).fifoTime then some readRq
      else some writeRq

end DdPerPrio

/-- What other CPUs do to the throttle while a request is dispatched: before the
scheduler's lock is taken, before either look at the gate, and before the
dispatch is accounted. -/
structure Interference where
  beforeLock : List ThrottleOp := []
  beforeRt : List ThrottleOp := []
  beforeBe : List ThrottleOp := []
  beforeAccount : List ThrottleOp := []
deriving DecidableEq, Repr

namespace Deadline

/-! ## Helpers -/

/-- A lock section of the throttle. -/
def throttled (dd : Deadline) (op : ThrottleOp) : Deadline :=
  { dd with throttle := (dd.throttle.step op).1 }

/-- Lock sections of the throttle, by other CPUs. -/
def meanwhile (dd : Deadline) (ops : List ThrottleOp) : Deadline :=
  { dd with throttle := Throttle.machine.run dd.throttle ops }

/-- A store to a priority. -/
def setPrio (dd : Deadline) (prio : QueueClass) (p : DdPerPrio) : Deadline :=
  { dd with perPrio := Function.update dd.perPrio prio p }

/-- The request as it is now. -/
def rq (dd : Deadline) (rq : RqAddr) : Request := dd.throttle.rqs rq

/-- `smart_io_throttle_select_queue`, as a priority. -/
def selectPrio (dd : Deadline) (rq : RqAddr) (t : TaskCtx) : QueueClass :=
  selectQueue dd.throttle.ctx.metaPool dd.throttle.globals t (dd.rq rq)

/-- Whether a request is on a list of the scheduler. -/
def queued (dd : Deadline) (rq : RqAddr) : Bool :=
  (dd.perPrio .hp).holds rq || (dd.perPrio .rt).holds rq || (dd.perPrio .be).holds rq

/-- Whether a request is in a tree of a priority. -/
def sortedIn (dd : Deadline) (prio : QueueClass) (rq : RqAddr) : Bool :=
  decide (rq ∈ (dd.perPrio prio).sortList .read)
    || decide (rq ∈ (dd.perPrio prio).sortList .write)

/-- Whether a request is in a tree of the scheduler, where the block layer finds
the requests it merges into. -/
def sorted (dd : Deadline) (rq : RqAddr) : Bool :=
  dd.sortedIn .hp rq || dd.sortedIn .rt rq || dd.sortedIn .be rq

/-- `deadline_remove_request`: off its list, and off the tree of the priority
that is given. -/
def removeRequest (dd : Deadline) (prio : QueueClass) (rq : RqAddr) : Deadline :=
  let off := { dd with perPrio := fun k => (dd.perPrio k).listDel rq }
  let p := off.perPrio prio
  off.setPrio prio { p with
    sortList := Function.update p.sortList (dataDir (dd.rq rq))
      ((p.sortList (dataDir (dd.rq rq))).erase rq) }

/-! ## Insertion and merges -/

/-- `dd_merged_requests`. -/
def mergedRequests (dd : Deadline) (req next : RqAddr) (t : TaskCtx) : Deadline :=
  let prio := dd.selectPrio next t
  let dd := (dd.throttled (.updateRequest req)).throttled (.unqueueRequest next)
  let p := dd.perPrio prio
  let dd := dd.setPrio prio { p with stats := { p.stats with merged := p.stats.merged + 1 } }
  let dd :=
    if dd.queued req && dd.queued next
        && timeBefore (dd.rq next).fifoTime (dd.rq req).fifoTime then
      { dd with perPrio := fun k => (dd.perPrio k).listMove req next }.throttled
        (.changeRequest req { dd.rq req with fifoTime := (dd.rq next).fifoTime })
    else dd
  dd.removeRequest prio next

/-- `dd_request_merged`. -/
def requestMerged (dd : Deadline) (req : RqAddr) (front : Bool) (t : TaskCtx) : Deadline :=
  let prio := dd.selectPrio req t
  let p := dd.perPrio prio
  let dir := dataDir (dd.rq req)
  let dd :=
    if front then
      -- off the tree, and back on it at the new position
      dd.setPrio prio { p with
        sortList := Function.update p.sortList dir (req :: (p.sortList dir).erase req) }
    else dd
  dd.throttled (.updateRequest req)

/-- The end of `dd_insert_request`, for a request that was not merged. -/
def enqueue (dd : Deadline) (prio : QueueClass) (rq : RqAddr) (atHead : Bool) (jiffies : ℕ) :
    Deadline :=
  let p := dd.perPrio prio
  let dir := dataDir (dd.rq rq)
  let dd := dd.throttled (.changeRequest rq { dd.rq rq with fifoTime := jiffies })
  if atHead then dd.setPrio prio { p with dispatch := rq :: p.dispatch }
  else
    dd.setPrio prio { p with
      sortList := Function.update p.sortList dir (rq :: p.sortList dir)
      fifoList := Function.update p.fifoList dir (p.fifoList dir ++ [rq]) }

/-- The first half of `dd_insert_request`: the request is classified, marked, and
counted once. -/
def classify (dd : Deadline) (rq : RqAddr) (t : TaskCtx) (nowNs : ℕ) : Deadline :=
  let dd := dd.throttled (.classifyRequest rq t nowNs)
  let prio := dd.selectPrio rq t
  let dd := if prio = .hp then dd.throttled (.changeRequest rq (markRequestHp (dd.rq rq))) else dd
  let p := dd.perPrio prio
  let dd :=
    if dd.priv0 rq = none then
      dd.setPrio prio { p with stats := { p.stats with inserted := p.stats.inserted + 1 } }
    else dd
  { dd with priv0 := Function.update dd.priv0 rq (some prio) }

/-- `dd_insert_request`. `mergeInto` is the request that
`blk_mq_sched_try_insert_merge` merges it into, if there is one. -/
def insertRequest (dd : Deadline) (rq : RqAddr) (atHead : Bool) (mergeInto : Option RqAddr)
    (t : TaskCtx) (nowNs jiffies : ℕ) : Deadline :=
  let prio := (dd.throttled (.classifyRequest rq t nowNs)).selectPrio rq t
  let dd := dd.classify rq t nowNs
  match mergeInto with
  | some req => dd.mergedRequests req rq t
  | none => dd.enqueue prio rq atHead jiffies

/-! ## Dispatch -/

/-- `dd_dispatch_fifo`, with the priority the request is taken from. -/
def dispatchFifo (dd : Deadline) (prio : QueueClass) :
    Deadline × Option (QueueClass × RqAddr) :=
  match (dd.perPrio prio).pick dd.throttle.rqs with
  | none => (dd, none)
  | some rq =>
    let dd := dd.removeRequest prio rq
    let p := dd.perPrio prio
    (dd.setPrio prio { p with
      stats := { p.stats with dispatched := p.stats.dispatched + 1 } }, some (prio, rq))

/-- A look at the gate, and a dispatch if it is open. -/
def dispatchGated (dd : Deadline) (prio : QueueClass) :
    Deadline × Option (QueueClass × RqAddr) :=
  let allowed := dd.throttle.nonHpAllowed.2
  let dd := dd.throttled .nonHpAllowed
  if allowed then dd.dispatchFifo prio else (dd, none)

/-- The choice of `dd_dispatch_request`: the HP list, then the RT list, then the
BE list, the last two behind the gate. -/
def choose (dd : Deadline) (i : Interference) : Deadline × Option (QueueClass × RqAddr) :=
  match dd.dispatchFifo .hp with
  | (dd, some picked) => (dd, some picked)
  | (dd, none) =>
    match (dd.meanwhile i.beforeRt).dispatchGated .rt with
    | (dd, some picked) => (dd, some picked)
    | (dd, none) => (dd.meanwhile i.beforeBe).dispatchGated .be

/-- `dd_dispatch_request`. -/
def dispatchRequest (dd : Deadline) (slotFree : Bool) (i : Interference) (nowNs : ℕ) :
    Deadline × Option (QueueClass × RqAddr) :=
  let chosen := ((dd.throttled (.dispatchModelIfNeeded slotFree)).meanwhile i.beforeLock).choose i
  match chosen.2 with
  | none => (chosen.1, none)
  | some (prio, rq) =>
    ((chosen.1.meanwhile i.beforeAccount).throttled
      (.accountDispatch rq .backgroundBaseline nowNs), some (prio, rq))

/-! ## The life of a request -/

/-- `dd_prepare_request`. -/
def prepareRequest (dd : Deadline) (rq : RqAddr) (r : Request) : Deadline :=
  { dd.throttled (.prepareRequest rq r) with priv0 := Function.update dd.priv0 rq none }

/-- `dd_finish_request`. -/
def finishRequest (dd : Deadline) (rq : RqAddr) : Deadline :=
  let done := dd.throttled (.finishRequest rq)
  let counted := match dd.priv0 rq with
    | none => done
    | some prio =>
      let p := done.perPrio prio
      done.setPrio prio { p with stats := { p.stats with completed := p.stats.completed + 1 } }
  { counted with priv0 := Function.update counted.priv0 rq none }

end Deadline

/-! ## The machine -/

/-- The steps of a queue with its scheduler. -/
inductive DeadlineOp where
  | prepareRequest (rq : RqAddr) (r : Request)
  | insertRequest (rq : RqAddr) (atHead : Bool) (mergeInto : Option RqAddr) (t : TaskCtx)
      (nowNs jiffies : ℕ)
  | requestMerged (req : RqAddr) (front : Bool) (t : TaskCtx)
  | mergedRequests (req next : RqAddr) (t : TaskCtx)
  | dispatchRequest (slotFree : Bool) (nowNs : ℕ)
  | finishRequest (rq : RqAddr)
  /-- A lock section of the throttle that no call of the scheduler is part of. -/
  | throttle (op : ThrottleOp)
deriving DecidableEq, Repr

/-- The lock sections that only the scheduler runs. -/
def ThrottleOp.ofScheduler : ThrottleOp → Bool
  | .prepareRequest .. | .classifyRequest .. | .updateRequest .. | .unqueueRequest ..
  | .accountDispatch .. | .finishRequest .. => true
  | _ => false

/-- What the driver and the block layer do to a request that the scheduler has
not got: issue it, bounce it, complete it, or change its operation or its
`ioprio`. -/
def ThrottleOp.ofDriver (rqs : RqAddr → Request) : ThrottleOp → Option RqAddr
  | .recordIssue rq .. | .recordRequeue rq | .recordComplete rq .. => some rq
  | .changeRequest rq r =>
    if r.op = (rqs rq).op ∧ r.ioprio = (rqs rq).ioprio then none else some rq
  | _ => none

namespace Deadline

/-- One step. The block layer inserts a scheduled request that is on no list,
merges into requests that are in a tree – two of them if they are neighbours in
one – and prepares, frees and gives to the driver requests that are on none. -/
def step (dd : Deadline) : DeadlineOp → Deadline
  | .prepareRequest rq r => if dd.queued rq then dd else dd.prepareRequest rq r
  | .insertRequest rq atHead mergeInto t nowNs jiffies =>
    if !(dd.rq rq).useSched || dd.queued rq || !mergeInto.all dd.sorted then dd
    else dd.insertRequest rq atHead mergeInto t nowNs jiffies
  | .requestMerged req front t => if dd.sorted req then dd.requestMerged req front t else dd
  | .mergedRequests req next t =>
    if req ≠ next ∧ ∃ prio ∈ [QueueClass.hp, .rt, .be],
        ((dd.perPrio prio).holds req ∧ (dd.perPrio prio).holds next)
        ∧ ∃ dir ∈ [DataDir.read, .write],
          req ∈ (dd.perPrio prio).sortList dir ∧ next ∈ (dd.perPrio prio).sortList dir then
      dd.mergedRequests req next t
    else dd
  | .dispatchRequest slotFree nowNs => (dd.dispatchRequest slotFree {} nowNs).1
  | .finishRequest rq => if dd.queued rq then dd else dd.finishRequest rq
  | .throttle op =>
    if op.ofScheduler || (op.ofDriver dd.throttle.rqs).any dd.queued then dd
    else dd.throttled op

/-- `dd_init_sched`, with the throttle of the queue. -/
def attach (w : Throttle) : Deadline := ⟨fun _ => .init, fun _ => none, w⟩

/-- **A queue with its scheduler**, from the moment the scheduler is attached. -/
def machine : StepMachine Deadline DeadlineOp Unit where
  init dd := ∃ w, Throttle.Attached w ∧ dd = attach w
  step dd op := (dd.step op, ())

/-- The runs of a scheduler whose queue has one tag and one hardware context. -/
theorem reachable_attach (ks : List ConfigOp) (ops : List DeadlineOp) :
    machine.Reachable (machine.run (attach (Throttle.attach 2 ks)) ops) :=
  (StepMachine.Reachable.of_init (M := machine)
    ⟨_, Throttle.attached_attach Nat.one_ne_zero Nat.one_ne_zero (by decide) ks, rfl⟩).run ops

end Deadline
