import SmartIo.Chronicle
import SmartIo.IoRecords
import SmartIo.LatHist

/-!
# The statistics of a window

Every completion is told to the bucket of the processor it is on
(`cur_bucket_add`), and so are the pages the file cache is asked for. The polling
thread rolls the buckets up once in a window (`roll_completed_bucket`): it empties
them one after another, each under its own lock, and then publishes what it has
summed up as `last_bucket`. Completions go on in the meantime, on processors it has
been to as well as on others.

What the kernel knows – the time, and the pages it has reclaimed – is an argument.
A roll ends with the utilization of the device, whose window it begins anew; what
else changes that are issues and completions (`DeviceUtil`).
-/

/-- The `filemap_` counters. -/
structure FilemapCounts where
  readPages : U64
  missPages : U64
  cacheAddPages : U64
  cacheDeletePages : U64
  refaultPages : U64
  faultCount : U64
  faultWaitUs : U64
deriving DecidableEq, Repr

/-- The counters of two buckets together. -/
def FilemapCounts.add (x y : FilemapCounts) : FilemapCounts where
  readPages := x.readPages + y.readPages
  missPages := x.missPages + y.missPages
  cacheAddPages := x.cacheAddPages + y.cacheAddPages
  cacheDeletePages := x.cacheDeletePages + y.cacheDeletePages
  refaultPages := x.refaultPages + y.refaultPages
  faultCount := x.faultCount + y.faultCount
  faultWaitUs := x.faultWaitUs + y.faultWaitUs

def FilemapCounts.zero : FilemapCounts := ⟨0, 0, 0, 0, 0, 0, 0⟩

/-- `struct percpu_bucket`. -/
structure PercpuBucket where
  readHist : LatHist
  writeHist : LatHist
  ioCount : U64
  byteKb : U64
  readKb : U64
  writeKb : U64
  filemap : FilemapCounts

/-- The arguments of `cur_bucket_add`. -/
structure LatencyAdd where
  op : SmartIoOp
  kb : U32
  latencyUs : U64
deriving DecidableEq, Repr

/-- What is published of the latencies of a direction. -/
structure LatSummary where
  p50 : U32
  p99 : U32
  avg : U32
  ratio : U32
deriving DecidableEq, Repr

/-- `struct completed_bucket`. -/
structure CompletedBucket where
  rlat : LatSummary
  wlat : LatSummary
  reclaimDiff : U64
  burstTotalKbps : U32
  blkBwUtil : U32
  pageCacheHitPct : U32
  filemap : FilemapCounts
deriving DecidableEq, Repr

/-- A run of `roll_completed_bucket` that has still to empty some processors, with
what it has summed up. -/
structure Roll (n : ℕ) where
  cpus : List (Fin n)
  readHist : LatHist
  writeHist : LatHist
  readKb : U64
  writeKb : U64
  totalKb : U64
  filemap : FilemapCounts

/-- The state, with `n` processors. -/
structure WindowStats (n : ℕ) where
  curBucket : Fin n → PercpuBucket
  roll : Option (Roll n)
  lastBucket : CompletedBucket
  prevReclaimPages : U64
  blkMaxBwKbps : U32
  windowSzMs : U32
  util : DeviceUtil
  utilWindowStart : ℕ

/-- What can happen. -/
inductive WindowOp (n : ℕ) where
  /-- `cur_bucket_add` on a processor. -/
  | add (cpu : Fin n) (a : LatencyAdd)
  /-- `cur_bucket_filemap_add` on a processor. -/
  | filemapAdd (cpu : Fin n) (x : FilemapCounts)
  | rollBegin
  /-- A roll empties the next processor. -/
  | rollNext
  /-- A roll that has been to all of them publishes. -/
  | rollEnd (reclaimNow : U64) (nowNs : ℕ)
  | setWindowSzMs (szMs : U32)
  | deviceIssue (nowNs : ℕ)
  | deviceComplete (nowNs : ℕ)
deriving DecidableEq, Repr

/-- What has happened. -/
inductive WindowEvent (n : ℕ) where
  | added (cpu : Fin n) (a : LatencyAdd)
  | began
  | drained (cpu : Fin n)
  /-- A roll is over, and this is what can be read from now on. -/
  | rolled (b : CompletedBucket)
deriving DecidableEq, Repr

/-! ## The functions -/

/-- `kb_window_to_kbps`. -/
def kbWindowToKbps (kb : U64) (windowMs : U32) : U32 :=
  if windowMs = 0 then 0
  else Fin.ofNat (2 ^ 32) (min ((kb * 1000).val / windowMs.val) u32Max)

/-- `calc_util_pct`. -/
def calcUtilPct (curValue maxValue : U32) : U32 :=
  if maxValue = 0 then 0
  else Fin.ofNat (2 ^ 32) (min (curValue.val * 100 / maxValue.val) 100)

/-- `calc_blk_bw_util`, and the `blk_max_bw_kbps` it leaves behind. -/
def calcBlkBwUtil (blkMaxBwKbps bandwidthKbps : U32) : U32 × U32 :=
  if blkMaxBwKbps ≤ bandwidthKbps then (9999, bandwidthKbps)
  else (calcUtilPct bandwidthKbps blkMaxBwKbps, blkMaxBwKbps)

namespace PercpuBucket

/-- An empty bucket. -/
def zero : PercpuBucket := ⟨.zero, .zero, 0, 0, 0, 0, .zero⟩

/-- `cur_bucket_add`. -/
def curBucketAdd (b : PercpuBucket) (a : LatencyAdd) : PercpuBucket :=
  let kb := Fin.ofNat (2 ^ 64) a.kb.val
  let b :=
    if a.op.isWrite then
      { b with writeHist := b.writeHist.add a.latencyUs, writeKb := b.writeKb + kb }
    else { b with readHist := b.readHist.add a.latencyUs, readKb := b.readKb + kb }
  { b with ioCount := b.ioCount + 1, byteKb := b.byteKb + kb }

/-- `cur_bucket_filemap_add`. -/
def filemapAdd (b : PercpuBucket) (x : FilemapCounts) : PercpuBucket :=
  { b with filemap := b.filemap.add x }

end PercpuBucket

/-- What a roll computes of the latencies of a direction. -/
def LatHist.summary (h : LatHist) : LatSummary :=
  if h.total = 0 then ⟨0, 0, 0, 0⟩
  else
    { p50 := h.percentile 50
      p99 := h.percentile 99
      avg := Fin.ofNat (2 ^ 32) (h.sumUs.val / h.total.val)
      ratio := if h.percentile 99 ≠ 0 then h.percentile 50 * 100 / h.percentile 99 else 0 }

namespace Roll

variable {n : ℕ}

/-- `roll_completed_bucket`, up to its loop. -/
def begin : Roll n where
  cpus := List.finRange n
  readHist := .zero
  writeHist := .zero
  readKb := 0
  writeKb := 0
  totalKb := 0
  filemap := .zero

/-- One round of its loop. -/
def drain (r : Roll n) (b : PercpuBucket) (cpus : List (Fin n)) : Roll n where
  cpus := cpus
  readHist := r.readHist.merge b.readHist
  writeHist := r.writeHist.merge b.writeHist
  readKb := r.readKb + b.readKb
  writeKb := r.writeKb + b.writeKb
  totalKb := r.totalKb + b.byteKb
  filemap := r.filemap.add b.filemap

/-- The share of pages found in the cache. -/
def pageCacheHitPct (r : Roll n) : U32 :=
  if r.filemap.readPages = 0 then 0
  else
    let hitPages := r.filemap.readPages - min r.filemap.missPages r.filemap.readPages
    Fin.ofNat (2 ^ 32) (min 100 ((hitPages * 100).val / r.filemap.readPages.val))

/-- The `next` of `roll_completed_bucket`. -/
def next (r : Roll n) (s : WindowStats n) (reclaimNow : U64) : CompletedBucket where
  rlat := r.readHist.summary
  wlat := r.writeHist.summary
  reclaimDiff :=
    if s.prevReclaimPages ≤ reclaimNow then reclaimNow - s.prevReclaimPages else 0
  burstTotalKbps := kbWindowToKbps r.totalKb s.windowSzMs
  blkBwUtil := (calcBlkBwUtil s.blkMaxBwKbps (kbWindowToKbps r.totalKb s.windowSzMs)).1
  pageCacheHitPct := r.pageCacheHitPct
  filemap := r.filemap

/-- What `last_bucket` is after it: all of `next`, or without any latency only what
is not about the device. -/
def publish (r : Roll n) (s : WindowStats n) (reclaimNow : U64) : CompletedBucket :=
  if r.readHist.total ≠ 0 ∨ r.writeHist.total ≠ 0 then r.next s reclaimNow
  else
    { s.lastBucket with
      reclaimDiff := (r.next s reclaimNow).reclaimDiff
      blkBwUtil := (r.next s reclaimNow).blkBwUtil
      pageCacheHitPct := (r.next s reclaimNow).pageCacheHitPct
      filemap := (r.next s reclaimNow).filemap }

end Roll

namespace WindowStats

variable {n : ℕ}

/-- The end of a roll. -/
def rollEnd (s : WindowStats n) (r : Roll n) (reclaimNow : U64) (nowNs : ℕ) : WindowStats n :=
  { s with
    roll := none
    lastBucket := r.publish s reclaimNow
    prevReclaimPages := reclaimNow
    blkMaxBwKbps := (calcBlkBwUtil s.blkMaxBwKbps (kbWindowToKbps r.totalKb s.windowSzMs)).2
    util :=
      { s.util with
        busyNs := 0
        tsBusyStart := if 0 < s.util.inFlight then nowNs else s.util.tsBusyStart }
    utilWindowStart := nowNs }

/-- One step, and what has happened in it. -/
def step (s : WindowStats n) : WindowOp n → WindowStats n × List (WindowEvent n)
  | .add cpu a =>
    ({ s with curBucket := Function.update s.curBucket cpu ((s.curBucket cpu).curBucketAdd a) },
      [.added cpu a])
  | .filemapAdd cpu x =>
    ({ s with curBucket := Function.update s.curBucket cpu ((s.curBucket cpu).filemapAdd x) }, [])
  | .rollBegin =>
    match s.roll with
    | some _ => (s, [])
    | none => ({ s with roll := some .begin }, [.began])
  | .rollNext =>
    match s.roll with
    | none => (s, [])
    | some r =>
      match r.cpus with
      | [] => (s, [])
      | cpu :: cpus =>
        ({ s with
            curBucket := Function.update s.curBucket cpu .zero
            roll := some (r.drain (s.curBucket cpu) cpus) },
          [.drained cpu])
  | .rollEnd reclaimNow nowNs =>
    match s.roll with
    | none => (s, [])
    | some r =>
      match r.cpus with
      | _ :: _ => (s, [])
      | [] => (s.rollEnd r reclaimNow nowNs, [.rolled (r.publish s reclaimNow)])
  | .setWindowSzMs szMs => ({ s with windowSzMs := szMs }, [])
  | .deviceIssue nowNs => ({ s with util := s.util.issueAccount nowNs }, [])
  | .deviceComplete nowNs => ({ s with util := s.util.completeAccount nowNs }, [])

/-- The module just loaded: the buckets are empty, and no roll has begun. -/
def Initial (s : WindowStats n) : Prop := (∀ cpu, s.curBucket cpu = .zero) ∧ s.roll = none

/-- The module as it is set up, with nothing known yet. -/
def loaded (n : ℕ) : WindowStats n where
  curBucket _ := .zero
  roll := none
  lastBucket := ⟨⟨0, 0, 0, 0⟩, ⟨0, 0, 0, 0⟩, 0, 0, 0, 0, .zero⟩
  prevReclaimPages := 0
  blkMaxBwKbps := 800 * 1024
  windowSzMs := 100
  util := ⟨0, 0, 0⟩
  utilWindowStart := 0

/-- The machine. -/
def machine (n : ℕ) : StepMachine (WindowStats n) (WindowOp n) (List (WindowEvent n)) where
  init := Initial
  step := step

end WindowStats
