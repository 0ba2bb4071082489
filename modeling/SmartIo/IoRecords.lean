import Mathlib.Tactic.Linarith
import SmartIo.KernelInt
import SmartIo.StepMachine
import SmartIo.TableCount

/-!
# Request records and the block layer

The module keeps a record for every request it has seen inserted or issued, in
a table by the address of the request: what is left of its bytes, when it was
inserted, and whether its issue has been counted as in flight. A completion
event takes its bytes off the record, and drops the record when nothing is
left.

What the record is to follow is the request itself, which lives in the block
layer: it starts with an insertion or a direct issue, grows by the bios merged
into it, shrinks with every completion, and ends with the last of its bytes or
by being merged away. `BlkTrace` puts the two side by side. The block layer
calls the module at an insertion, an issue, a requeue and a completion – not at
a merge.

The table is eight hash tables by shard. An address is in one bucket of one of
them, and every lookup compares the address, so it is one association list
here. Capture is on, and memory for a record is there.
-/

/-- The address of a request. -/
abbrev Rq := ℕ

/-- `enum smart_io_op_type`. -/
inductive SmartIoOp where
  | read
  | write
  | fsync
  | discard
deriving DecidableEq, Repr

/-- `io_op_is_write`. -/
def SmartIoOp.isWrite : SmartIoOp → Bool
  | .write | .fsync | .discard => true
  | .read => false

/-- `struct rq_record`, with the fields of its event that the functions below
use. -/
structure RqRecord where
  issued : Bool
  /-- A `u32`. -/
  dataBytes : ℕ
  tsInsert : ℕ
  tsIssue : ℕ
  tsRequeue : ℕ
  ioOp : SmartIoOp
  ioSizeKb : ℕ
deriving DecidableEq, Repr

/-- One call of `cur_bucket_add`: what the window statistics are told. -/
structure BucketAdd where
  op : SmartIoOp
  kb : ℕ
  latencyUs : ℕ
deriving DecidableEq, Repr

/-- The device as the module sees it: `in_flight`, `busy_ns` and
`ts_busy_start`. -/
structure DeviceUtil where
  inFlight : ℕ
  busyNs : ℕ
  tsBusyStart : ℕ
deriving DecidableEq, Repr

/-- `smart_io_cnts`, summed over the CPUs. -/
structure SmartIoCounters where
  insertCnt : ℕ
  issueCnt : ℕ
  directIssueCnt : ℕ
  completeCnt : ℕ
  lostCompleteCnt : ℕ
deriving DecidableEq, Repr

/-- The state of the module. -/
structure IoSemantics where
  /-- `rq_shards`. -/
  rqShards : AList fun _ : Rq => RqRecord
  util : DeviceUtil
  cnts : SmartIoCounters
  /-- The calls of `cur_bucket_add`, newest first. -/
  curBucket : List BucketAdd

/-- What an event reads when it comes: the time, whether raw mode is on, and
from the request its bytes (`blk_rq_bytes`) and operation. -/
structure RqView where
  nowNs : ℕ
  raw : Bool
  bytes : ℕ
  ioOp : SmartIoOp
deriving DecidableEq, Repr

namespace DeviceUtil

/-- `device_issue_account`. -/
def issueAccount (d : DeviceUtil) (nowNs : ℕ) : DeviceUtil :=
  { d with
    inFlight := d.inFlight + 1
    tsBusyStart := if d.inFlight + 1 = 1 then nowNs else d.tsBusyStart }

/-- `device_complete_account`. -/
def completeAccount (d : DeviceUtil) (nowNs : ℕ) : DeviceUtil :=
  if 0 < d.inFlight then
    if d.inFlight - 1 = 0 then
      { inFlight := 0
        busyNs :=
          if d.tsBusyStart ≠ 0 ∧ d.tsBusyStart < nowNs then d.busyNs + (nowNs - d.tsBusyStart)
          else d.busyNs
        tsBusyStart := 0 }
    else { d with inFlight := d.inFlight - 1 }
  else d

@[simp] theorem inFlight_issueAccount (d : DeviceUtil) (nowNs : ℕ) :
    (d.issueAccount nowNs).inFlight = d.inFlight + 1 := rfl

@[simp] theorem inFlight_completeAccount (d : DeviceUtil) (nowNs : ℕ) :
    (d.completeAccount nowNs).inFlight = d.inFlight - 1 := by
  unfold completeAccount
  by_cases hpos : 0 < d.inFlight
  · rw [if_pos hpos]
    by_cases hlast : d.inFlight - 1 = 0
    · rw [if_pos hlast, hlast]
    · rw [if_neg hlast]
  · rw [if_neg hpos]
    omega

end DeviceUtil

/-- `fill_record_from_current`, on a zeroed record. -/
def fillRecordFromCurrent (v : RqView) : RqRecord where
  issued := false
  dataBytes := v.bytes
  tsInsert := v.nowNs
  tsIssue := 0
  tsRequeue := 0
  ioOp := v.ioOp
  ioSizeKb := v.bytes / 1024

/-- The latency of a request, as `smart_io_record_complete` computes it. -/
def latencyUs (tsInsert tsComplete : ℕ) : ℕ :=
  if tsInsert < tsComplete then (tsComplete - tsInsert) / 1000 else 0

/-- A `u32` less another. -/
def subU32 (a b : ℕ) : ℕ := (a + (2 ^ 32 - b % 2 ^ 32)) % 2 ^ 32

/-- Nothing is left exactly if all that was there is taken. -/
theorem subU32_eq_zero_iff {a b : ℕ} (ha : a < 2 ^ 32) (hb : b < 2 ^ 32) :
    subU32 a b = 0 ↔ a = b := by
  unfold subU32
  omega

/-- A `u32` is what is left of one. -/
theorem subU32_lt (a b : ℕ) : subU32 a b < 2 ^ 32 := Nat.mod_lt _ (by decide)

namespace IoSemantics

/-- The module just loaded. -/
def zero : IoSemantics := ⟨∅, ⟨0, 0, 0⟩, ⟨0, 0, 0, 0, 0⟩, []⟩

/-- `smart_io_record_insert`. A record that the table has for the address already
is dropped. -/
def recordInsert (s : IoSemantics) (rq : Rq) (v : RqView) : IoSemantics :=
  { s with
    rqShards := s.rqShards.insert rq (fillRecordFromCurrent v)
    cnts := { s.cnts with insertCnt := s.cnts.insertCnt + 1 } }

/-- The end of `smart_io_record_issue`: the issue is counted, once. -/
def issueRecord (s : IoSemantics) (rq : Rq) (rec : RqRecord) (nowNs : ℕ) : IoSemantics :=
  { s with
    rqShards := s.rqShards.insert rq { rec with issued := true }
    util := if rec.issued then s.util else s.util.issueAccount nowNs
    cnts := { s.cnts with issueCnt := s.cnts.issueCnt + 1 } }

/-- `smart_io_record_issue`. A request without a record gets one. -/
def recordIssue (s : IoSemantics) (rq : Rq) (v : RqView) : IoSemantics :=
  match s.rqShards.lookup rq with
  | none =>
    { s with cnts := { s.cnts with directIssueCnt := s.cnts.directIssueCnt + 1 } }.issueRecord rq
      { fillRecordFromCurrent v with tsIssue := v.nowNs } v.nowNs
  -- the second lookup of the source, under a new lock, finds the same record
  | some rec => s.issueRecord rq { rec with tsIssue := v.nowNs } v.nowNs

/-- `smart_io_record_requeue`. -/
def recordRequeue (s : IoSemantics) (rq : Rq) (v : RqView) : IoSemantics :=
  if !v.raw then s
  else
    match s.rqShards.lookup rq with
    | none => s
    | some rec => { s with rqShards := s.rqShards.insert rq { rec with tsRequeue := v.nowNs } }

/-- `cur_bucket_add`. -/
def curBucketAdd (s : IoSemantics) (add : BucketAdd) : IoSemantics :=
  { s with curBucket := add :: s.curBucket }

/-- What `smart_io_record_complete` does to a record it has found, up to the
statistics. -/
def completeRecord (s : IoSemantics) (rq : Rq) (rec : RqRecord) (nrBytes nowNs : ℕ) :
    IoSemantics :=
  { s with
    rqShards := s.rqShards.insert rq { rec with dataBytes := subU32 rec.dataBytes nrBytes }
    util := if rec.issued then s.util.completeAccount nowNs else s.util
    cnts := { s.cnts with completeCnt := s.cnts.completeCnt + 1 } }

/-- The `cleanup` of `smart_io_record_complete`. -/
def cleanup (s : IoSemantics) (rq : Rq) : IoSemantics :=
  { s with rqShards := s.rqShards.erase rq }

/-- `smart_io_record_complete`. -/
def recordComplete (s : IoSemantics) (rq : Rq) (nrBytes : ℕ) (v : RqView) : IoSemantics :=
  match s.rqShards.lookup rq with
  | none => { s with cnts := { s.cnts with lostCompleteCnt := s.cnts.lostCompleteCnt + 1 } }
  | some rec =>
    let dataBytes := subU32 rec.dataBytes nrBytes
    let s := s.completeRecord rq rec nrBytes v.nowNs
    if v.raw then
      -- `<= 0`, of an unsigned number
      if dataBytes ≤ 0 then s.cleanup rq else s
    else
      let s := s.curBucketAdd ⟨rec.ioOp, rec.ioSizeKb, latencyUs rec.tsInsert v.nowNs⟩
      if 0 < dataBytes then s else s.cleanup rq

/-- A requeue of a request that has a record, in raw mode, stamps it. -/
theorem recordRequeue_of_some {s : IoSemantics} {rq : Rq} {rec : RqRecord} {v : RqView}
    (hraw : v.raw = true) (hrec : s.rqShards.lookup rq = some rec) :
    s.recordRequeue rq v
      = { s with rqShards := s.rqShards.insert rq { rec with tsRequeue := v.nowNs } } := by
  unfold recordRequeue
  rw [hraw, hrec]
  rfl

/-- Outside raw mode a requeue does nothing. -/
theorem recordRequeue_of_not_raw (s : IoSemantics) (rq : Rq) {v : RqView}
    (hraw : v.raw = false) : s.recordRequeue rq v = s := by
  unfold recordRequeue
  rw [hraw]
  rfl

/-- The issue of a request that has a record. -/
theorem recordIssue_of_some {s : IoSemantics} {rq : Rq} {rec : RqRecord} (v : RqView)
    (hrec : s.rqShards.lookup rq = some rec) :
    s.recordIssue rq v = s.issueRecord rq { rec with tsIssue := v.nowNs } v.nowNs := by
  unfold recordIssue
  rw [hrec]

/-- The issue of a request that has none. -/
theorem recordIssue_of_none {s : IoSemantics} {rq : Rq} (v : RqView)
    (hrec : s.rqShards.lookup rq = none) :
    s.recordIssue rq v
      = { s with cnts := { s.cnts with directIssueCnt := s.cnts.directIssueCnt + 1 } }.issueRecord
          rq { fillRecordFromCurrent v with tsIssue := v.nowNs } v.nowNs := by
  unfold recordIssue
  rw [hrec]

/-- An issue tells the statistics nothing. -/
theorem curBucket_recordIssue (s : IoSemantics) (rq : Rq) (v : RqView) :
    (s.recordIssue rq v).curBucket = s.curBucket := by
  unfold recordIssue
  split
  · rfl
  · rfl

/-- Nor does a requeue. -/
theorem curBucket_recordRequeue (s : IoSemantics) (rq : Rq) (v : RqView) :
    (s.recordRequeue rq v).curBucket = s.curBucket := by
  unfold recordRequeue
  split
  · rfl
  · split
    · rfl
    · rfl

/-- **What a completion does** to a request that has a record: whatever the mode,
the record goes if its bytes come to zero, and outside raw mode the statistics
are told. -/
theorem recordComplete_of_some {s : IoSemantics} {rq : Rq} {rec : RqRecord} (nrBytes : ℕ)
    (v : RqView) (hrec : s.rqShards.lookup rq = some rec) :
    s.recordComplete rq nrBytes v
      = { rqShards :=
            if subU32 rec.dataBytes nrBytes = 0 then
              (s.rqShards.insert rq { rec with
                dataBytes := subU32 rec.dataBytes nrBytes }).erase rq
            else s.rqShards.insert rq { rec with dataBytes := subU32 rec.dataBytes nrBytes }
          util := if rec.issued then s.util.completeAccount v.nowNs else s.util
          cnts := { s.cnts with completeCnt := s.cnts.completeCnt + 1 }
          curBucket :=
            if v.raw then s.curBucket
            else ⟨rec.ioOp, rec.ioSizeKb, latencyUs rec.tsInsert v.nowNs⟩ :: s.curBucket } := by
  unfold recordComplete
  rw [hrec]
  dsimp only
  cases v.raw with
  | false =>
    show (if 0 < subU32 rec.dataBytes nrBytes then _ else _) = _
    by_cases hzero : subU32 rec.dataBytes nrBytes = 0
    · rw [if_neg (Nat.not_lt.mpr hzero.le), if_pos hzero]
      rfl
    · rw [if_pos (Nat.pos_of_ne_zero hzero), if_neg hzero]
      rfl
  | true =>
    show (if subU32 rec.dataBytes nrBytes ≤ 0 then _ else _) = _
    by_cases hzero : subU32 rec.dataBytes nrBytes = 0
    · rw [if_pos hzero.le, if_pos hzero]
      rfl
    · rw [if_neg (fun hle => hzero (Nat.le_zero.mp hle)), if_neg hzero]
      rfl

end IoSemantics

/-! ## The block layer -/

/-- A request in the block layer. -/
structure BlkRequest where
  /-- In the scheduler, where bios and requests are merged. -/
  queued : Bool
  /-- `blk_rq_bytes`: what is left to complete. -/
  dataLen : ℕ
  /-- Its bytes as it was inserted or issued directly, and those merged since. -/
  size : ℕ
  /-- The bytes merged since. -/
  merged : ℕ
  /-- When that was. -/
  insertNs : ℕ
  ioOp : SmartIoOp
deriving DecidableEq, Repr

/-- What happens to a request. -/
inductive RqEventKind where
  /-- It is inserted, anew after a requeue, or over an old request that ended
  unseen. -/
  | insert (bytes : Fin (2 ^ 32)) (ioOp : SmartIoOp)
  /-- It is issued – directly, if it is a new one, which is what the arguments
  describe. -/
  | issue (bytes : Fin (2 ^ 32)) (ioOp : SmartIoOp)
  | requeue
  | complete (nrBytes : ℕ)
deriving DecidableEq, Repr

/-- An event of a request that the module is called at. -/
structure RqEvent where
  rq : Rq
  nowNs : ℕ
  raw : Bool
  kind : RqEventKind
deriving DecidableEq, Repr

/-- The module, the requests it is to follow, and what the window statistics
should have been told of them. -/
structure BlkTrace where
  io : IoSemantics
  requests : Rq → Option BlkRequest
  due : List BucketAdd

namespace BlkRequest

/-- A request that starts. -/
def start (queued : Bool) (bytes : ℕ) (nowNs : ℕ) (ioOp : SmartIoOp) : BlkRequest :=
  ⟨queued, bytes, bytes, 0, nowNs, ioOp⟩

/-- What the statistics should be told when the request is completed. -/
def due (r : BlkRequest) (nowNs : ℕ) : BucketAdd :=
  ⟨r.ioOp, r.size / 1024, latencyUs r.insertNs nowNs⟩

/-- What an event reads. -/
def view (r : BlkRequest) (nowNs : ℕ) (raw : Bool) : RqView := ⟨nowNs, raw, r.dataLen, r.ioOp⟩

end BlkRequest

namespace BlkTrace

/-- An empty block layer, and the module just loaded. -/
def start : BlkTrace := ⟨.zero, fun _ => none, []⟩

/-- An event. A completion is of a request that lives, and of no more bytes than
it has left; the one that leaves none is its last. -/
def event (s : BlkTrace) (e : RqEvent) : BlkTrace :=
  match e.kind with
  | .insert bytes ioOp =>
    let r := BlkRequest.start true bytes e.nowNs ioOp
    { s with
      io := s.io.recordInsert e.rq (r.view e.nowNs e.raw)
      requests := Function.update s.requests e.rq (some r) }
  | .issue bytes ioOp =>
    let r := (s.requests e.rq).getD (.start false bytes e.nowNs ioOp)
    { s with
      io := s.io.recordIssue e.rq (r.view e.nowNs e.raw)
      requests := Function.update s.requests e.rq (some { r with queued := false }) }
  | .requeue =>
    match s.requests e.rq with
    | none => s
    | some r => { s with io := s.io.recordRequeue e.rq (r.view e.nowNs e.raw) }
  | .complete nrBytes =>
    match s.requests e.rq with
    | none => s
    | some r =>
      if r.dataLen < nrBytes then s
      else
        let io := s.io.recordComplete e.rq nrBytes (r.view e.nowNs e.raw)
        if nrBytes = r.dataLen then
          { io := io
            requests := Function.update s.requests e.rq none
            due := if e.raw then s.due else r.due e.nowNs :: s.due }
        else
          { s with
            io := io
            requests := Function.update s.requests e.rq
              (some { r with dataLen := r.dataLen - nrBytes }) }

/-- **The last completion** of a request. -/
theorem event_last {s : BlkTrace} {rq : Rq} {r : BlkRequest} (hr : s.requests rq = some r)
    (nowNs : ℕ) (raw : Bool) :
    s.event ⟨rq, nowNs, raw, .complete r.dataLen⟩
      = ⟨s.io.recordComplete rq r.dataLen (r.view nowNs raw), Function.update s.requests rq none,
          if raw then s.due else r.due nowNs :: s.due⟩ := by
  unfold event
  dsimp only
  rw [hr]
  dsimp only
  rw [if_neg (Nat.lt_irrefl _), if_pos rfl]

/-- **A completion before the last.** -/
theorem event_part {s : BlkTrace} {rq : Rq} {r : BlkRequest} (hr : s.requests rq = some r)
    {nrBytes : ℕ} (hpart : nrBytes < r.dataLen) (nowNs : ℕ) (raw : Bool) :
    s.event ⟨rq, nowNs, raw, .complete nrBytes⟩
      = ⟨s.io.recordComplete rq nrBytes (r.view nowNs raw),
          Function.update s.requests rq (some { r with dataLen := r.dataLen - nrBytes }),
          s.due⟩ := by
  unfold event
  dsimp only
  rw [hr]
  dsimp only
  rw [if_neg (Nat.lt_asymm hpart), if_neg (Nat.ne_of_lt hpart)]

/-- A completion that is none: of a request that does not live, or of more bytes
than it has left. -/
theorem event_none {s : BlkTrace} {rq : Rq} {nrBytes : ℕ}
    (h : ∀ r, s.requests rq = some r → r.dataLen < nrBytes) (nowNs : ℕ) (raw : Bool) :
    s.event ⟨rq, nowNs, raw, .complete nrBytes⟩ = s := by
  unfold event
  dsimp only
  cases hr : s.requests rq with
  | none => rfl
  | some r => exact if_pos (h r hr)

/-- **The completions there are**: none, one before the last, or the last. -/
theorem complete_cases (s : BlkTrace) (rq : Rq) (nrBytes : ℕ) :
    (∀ r, s.requests rq = some r → r.dataLen < nrBytes)
      ∨ ∃ r, s.requests rq = some r ∧ (nrBytes < r.dataLen ∨ nrBytes = r.dataLen) := by
  cases hr : s.requests rq with
  | none => exact Or.inl fun _ h => by cases h
  | some r =>
    rcases Nat.lt_or_ge r.dataLen nrBytes with hlt | hge
    · refine Or.inl fun r' h => ?_
      obtain rfl := Option.some.inj h
      exact hlt
    · exact Or.inr ⟨r, rfl, Nat.lt_or_eq_of_le hge⟩

end BlkTrace
