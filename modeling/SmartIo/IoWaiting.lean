import Mathlib.Data.Finset.Card
import SmartIo.IoRecords

/-!
# The waiting requests that are reported

The module reports as waiting how many more requests have been inserted than issued
(`smart_io_get_io_stats`). The counter of the issues goes up with every issue, though:
with that of a request that was never inserted, and each time that a request is issued
again after a requeue. And a request that completes before it is issued stays in the
difference for good. There is a counter of the direct issues, which nothing reads.

As long as every issue is the first one of a request that was inserted, and every
request is issued, the report is right. After any other issue it says less than there
is; it goes unnoticed while nothing waits, and shows at the next insertion of a new
request. `StatsTrace.reported_iff_plain` says that there is no other way.
-/

/-- What `smart_io_get_io_stats` reports, as `u32`s. -/
structure IoStats where
  insert : ℕ
  issue : ℕ
  complete : ℕ
  waiting : ℕ
  flight : ℕ
  lostComplete : ℕ
deriving DecidableEq, Repr

/-- `smart_io_get_io_stats`. All CPUs are online. -/
def IoSemantics.getIoStats (s : IoSemantics) : IoStats where
  insert := s.cnts.insertCnt % 2 ^ 32
  issue := s.cnts.issueCnt % 2 ^ 32
  complete := s.cnts.completeCnt % 2 ^ 32
  waiting :=
    if s.cnts.issueCnt < s.cnts.insertCnt then
      (s.cnts.insertCnt - s.cnts.issueCnt) % 2 ^ 32
    else 0
  flight := s.util.inFlight % 2 ^ 32
  lostComplete := s.cnts.lostCompleteCnt % 2 ^ 32

/-- The module, the block layer, and the requests that have been inserted and not been
issued yet. -/
structure StatsTrace where
  blk : BlkTrace
  waiting : Finset Rq

/-- What happens to a request. -/
inductive StatsOp where
  /-- A new request, or one that lives and comes back after a requeue. -/
  | insert (rq : Rq) (nowNs : ℕ) (raw : Bool) (bytes : Fin (2 ^ 32)) (ioOp : SmartIoOp)
  /-- A direct issue, if the request is new, the first issue, or one more. -/
  | issue (rq : Rq) (nowNs : ℕ) (raw : Bool) (bytes : Fin (2 ^ 32)) (ioOp : SmartIoOp)
  | requeue (rq : Rq) (nowNs : ℕ) (raw : Bool)
  /-- The completion of all that is left. -/
  | complete (rq : Rq) (nowNs : ℕ) (raw : Bool)
deriving DecidableEq, Repr

namespace StatsTrace

/-- An empty block layer, and the module just loaded. -/
def start : StatsTrace := ⟨.start, ∅⟩

/-- One step. -/
def step (s : StatsTrace) : StatsOp → StatsTrace
  | .insert rq nowNs raw bytes ioOp =>
    { blk := s.blk.event ⟨rq, nowNs, raw, .insert bytes ioOp⟩
      waiting :=
        match s.blk.requests rq with
        | none => Insert.insert rq s.waiting
        | some _ => s.waiting }
  | .issue rq nowNs raw bytes ioOp =>
    { blk := s.blk.event ⟨rq, nowNs, raw, .issue bytes ioOp⟩
      waiting := s.waiting.erase rq }
  | .requeue rq nowNs raw => { s with blk := s.blk.event ⟨rq, nowNs, raw, .requeue⟩ }
  | .complete rq nowNs raw =>
    match s.blk.requests rq with
    | none => s
    | some r =>
      { blk := s.blk.event ⟨rq, nowNs, raw, .complete r.dataLen⟩
        waiting := s.waiting.erase rq }

/-- The machine. -/
def machine : StepMachine StatsTrace StatsOp Unit where
  init s := s = start
  step s op := (s.step op, ())

/-- **The report is right.** -/
def Reported (s : StatsTrace) : Prop := s.blk.io.getIoStats.waiting = s.waiting.card

instance (s : StatsTrace) : Decidable (Reported s) := inferInstanceAs (Decidable (_ = _))

/-- **A step that the report follows.** A new request is inserted while no more issues
than insertions have been counted, and fewer requests wait than a `u32` holds; one that
lives is inserted again only while more issues than insertions have been counted. An
issue is the first of an inserted request, or none waits. No request that waits
completes. -/
def Plain (s : StatsTrace) : StatsOp → Prop
  | .insert rq _ _ _ _ =>
    if (s.blk.requests rq).isNone then
      s.blk.io.cnts.issueCnt ≤ s.blk.io.cnts.insertCnt ∧ s.waiting.card + 1 < 2 ^ 32
    else s.blk.io.cnts.insertCnt < s.blk.io.cnts.issueCnt
  | .issue rq _ _ _ _ => rq ∈ s.waiting ∨ s.waiting = ∅
  | .requeue _ _ _ => True
  | .complete rq _ _ => rq ∉ s.waiting

end StatsTrace

/-! ## What the events count -/

namespace IoSemantics

/-- An issue counts as one, whatever it is of. -/
theorem cnts_recordIssue (s : IoSemantics) (rq : Rq) (v : RqView) :
    (s.recordIssue rq v).cnts.insertCnt = s.cnts.insertCnt
      ∧ (s.recordIssue rq v).cnts.issueCnt = s.cnts.issueCnt + 1 := by
  unfold recordIssue
  split
  · exact ⟨rfl, rfl⟩
  · exact ⟨rfl, rfl⟩

/-- A requeue counts as neither. -/
theorem cnts_recordRequeue (s : IoSemantics) (rq : Rq) (v : RqView) :
    (s.recordRequeue rq v).cnts = s.cnts := by
  unfold recordRequeue
  split
  · rfl
  · split
    · rfl
    · rfl

/-- Nor does a completion. -/
theorem cnts_recordComplete (s : IoSemantics) (rq : Rq) (nrBytes : ℕ) (v : RqView) :
    (s.recordComplete rq nrBytes v).cnts.insertCnt = s.cnts.insertCnt
      ∧ (s.recordComplete rq nrBytes v).cnts.issueCnt = s.cnts.issueCnt := by
  cases hrec : s.rqShards.lookup rq with
  | none =>
    unfold recordComplete
    rw [hrec]
    exact ⟨rfl, rfl⟩
  | some rec =>
    rw [recordComplete_of_some nrBytes v hrec]
    exact ⟨rfl, rfl⟩

/-- The waiting requests of the report, if the difference is of a size. -/
theorem getIoStats_waiting {s : IoSemantics} {n : ℕ}
    (h : s.cnts.insertCnt = s.cnts.issueCnt + n) (hn : n < 2 ^ 32) :
    s.getIoStats.waiting = n := by
  unfold getIoStats
  dsimp only
  rw [h, Nat.add_sub_cancel_left, Nat.mod_eq_of_lt hn]
  split
  · rfl
  · omega

/-- With no more insertions than issues none is reported. -/
theorem getIoStats_waiting_zero {s : IoSemantics} (h : s.cnts.insertCnt ≤ s.cnts.issueCnt) :
    s.getIoStats.waiting = 0 := if_neg (Nat.not_lt.mpr h)

end IoSemantics

namespace StatsTrace

/-! ## Steps -/

/-- **The counters** give what waits – or nothing waits, and more issues than
insertions have been counted. -/
structure Even (s : StatsTrace) : Prop where
  lives : ∀ rq ∈ s.waiting, (s.blk.requests rq).isSome
  counts : s.blk.io.cnts.insertCnt = s.blk.io.cnts.issueCnt + s.waiting.card
      ∧ s.waiting.card < 2 ^ 32
    ∨ s.waiting.card = 0 ∧ s.blk.io.cnts.insertCnt < s.blk.io.cnts.issueCnt

variable {s t : StatsTrace} {rq : Rq} {r : Option BlkRequest}

theorem even_start : Even start :=
  ⟨fun _ h => absurd h (Finset.notMem_empty _), Or.inl ⟨rfl, Nat.two_pow_pos 32⟩⟩

/-- The report is right then. -/
theorem Even.reported (h : Even s) : Reported s := by
  unfold Reported
  rcases h.counts with ⟨heq, hlt⟩ | ⟨hnone, hlt⟩
  · exact IoSemantics.getIoStats_waiting heq hlt
  · rw [IoSemantics.getIoStats_waiting_zero hlt.le, hnone]

/-- The requests that wait live, after a step about one of them. -/
theorem Even.lives_update (h : Even s) (hreq : t.blk.requests = Function.update s.blk.requests rq r)
    (hwaiting : ∀ k ∈ t.waiting, k ≠ rq → k ∈ s.waiting) (hrq : rq ∈ t.waiting → r.isSome) :
    ∀ k ∈ t.waiting, (t.blk.requests k).isSome := by
  intro k hk
  rw [hreq]
  by_cases hkrq : k = rq
  · rw [hkrq, Function.update_self]
    exact hrq (hkrq ▸ hk)
  · rw [Function.update_of_ne hkrq]
    exact h.lives k (hwaiting k hk hkrq)

/-- **A right report** is of counters that are even, if they are not off by more than
the report can tell. -/
theorem even_of_reported (hlives : ∀ k ∈ s.waiting, (s.blk.requests k).isSome)
    (hdiff : s.blk.io.cnts.insertCnt < s.blk.io.cnts.issueCnt + s.waiting.card + 2 ^ 32)
    (hrep : Reported s) : Even s := by
  refine ⟨hlives, ?_⟩
  unfold Reported IoSemantics.getIoStats at hrep
  dsimp only at hrep
  split at hrep
  · omega
  · omega

/-- What is to be shown of a step. -/
structure Follows (s : StatsTrace) (op : StatsOp) : Prop where
  plain : Plain s op → Even (s.step op)
  reported : Reported (s.step op) → Plain s op

/-- **A step that is counted**: both sides come down to the counters. -/
theorem follows_of_counts {op : StatsOp}
    (hlives : ∀ k ∈ (s.step op).waiting, ((s.step op).blk.requests k).isSome)
    (hdiff : (s.step op).blk.io.cnts.insertCnt
      < (s.step op).blk.io.cnts.issueCnt + (s.step op).waiting.card + 2 ^ 32)
    (hplain : Plain s op ↔
      (s.step op).blk.io.cnts.insertCnt
          = (s.step op).blk.io.cnts.issueCnt + (s.step op).waiting.card
        ∧ (s.step op).waiting.card < 2 ^ 32
      ∨ (s.step op).waiting.card = 0
        ∧ (s.step op).blk.io.cnts.insertCnt < (s.step op).blk.io.cnts.issueCnt) :
    Follows s op :=
  ⟨fun h => ⟨hlives, hplain.mp h⟩, fun h => hplain.mpr (even_of_reported hlives hdiff h).counts⟩

/-- **An insertion** is one more request that waits, if it is of a new one. -/
theorem Even.insert (h : Even s) (nowNs : ℕ) (raw : Bool) (bytes : Fin (2 ^ 32))
    (ioOp : SmartIoOp) : Follows s (.insert rq nowNs raw bytes ioOp) := by
  have hcounts := h.counts
  cases hr : s.blk.requests rq with
  | none =>
    have hnew : rq ∉ s.waiting := by
      intro hmem
      have hlives := h.lives rq hmem
      rw [hr] at hlives
      exact Bool.false_ne_true hlives
    have hstep : (s.step (.insert rq nowNs raw bytes ioOp)).waiting
        = Insert.insert rq s.waiting := by
      unfold step
      dsimp only
      rw [hr]
    have hcard := Finset.card_insert_of_notMem hnew
    refine follows_of_counts (h.lives_update rfl (fun k hk hne => ?_) fun _ => rfl) ?_ ?_
    · rw [hstep] at hk
      exact (Finset.mem_insert.mp hk).resolve_left hne
    · rw [hstep, hcard]
      show s.blk.io.cnts.insertCnt + 1 < s.blk.io.cnts.issueCnt + _ + _
      omega
    · unfold Plain
      dsimp only
      rw [hstep, hcard, hr, if_pos Option.isNone_none]
      show _ ↔ s.blk.io.cnts.insertCnt + 1 = s.blk.io.cnts.issueCnt + _ ∧ _
        ∨ _ ∧ s.blk.io.cnts.insertCnt + 1 < s.blk.io.cnts.issueCnt
      omega
  | some r =>
    have hstep : (s.step (.insert rq nowNs raw bytes ioOp)).waiting = s.waiting := by
      unfold step
      dsimp only
      rw [hr]
    refine follows_of_counts (h.lives_update rfl (fun k hk _ => ?_) fun _ => rfl) ?_ ?_
    · rwa [hstep] at hk
    · rw [hstep]
      show s.blk.io.cnts.insertCnt + 1 < s.blk.io.cnts.issueCnt + _ + _
      omega
    · unfold Plain
      dsimp only
      rw [hstep, hr, Option.isNone_some, if_neg Bool.false_ne_true]
      show _ ↔ s.blk.io.cnts.insertCnt + 1 = s.blk.io.cnts.issueCnt + _ ∧ _
        ∨ _ ∧ s.blk.io.cnts.insertCnt + 1 < s.blk.io.cnts.issueCnt
      omega

/-- **An issue** is one request less that waits, if it is the first. -/
theorem Even.issue (h : Even s) (nowNs : ℕ) (raw : Bool) (bytes : Fin (2 ^ 32))
    (ioOp : SmartIoOp) : Follows s (.issue rq nowNs raw bytes ioOp) := by
  have hcounts := h.counts
  obtain ⟨hinsert, hissue⟩ := s.blk.io.cnts_recordIssue rq
    (((s.blk.requests rq).getD (.start false bytes nowNs ioOp)).view nowNs raw)
  replace hinsert : (s.step (.issue rq nowNs raw bytes ioOp)).blk.io.cnts.insertCnt = _ := hinsert
  replace hissue : (s.step (.issue rq nowNs raw bytes ioOp)).blk.io.cnts.issueCnt = _ := hissue
  have hstep : (s.step (.issue rq nowNs raw bytes ioOp)).waiting = s.waiting.erase rq := rfl
  refine follows_of_counts (h.lives_update rfl (fun k hk _ => Finset.mem_of_mem_erase hk)
    fun _ => rfl) ?_ ?_
  · rw [hinsert, hissue]
    omega
  · unfold Plain
    dsimp only
    rw [hinsert, hissue, hstep, ← Finset.card_eq_zero]
    by_cases hmem : rq ∈ s.waiting
    · have hcard := Finset.card_erase_add_one hmem
      refine ⟨fun _ => ?_, fun _ => Or.inl hmem⟩
      omega
    · rw [Finset.erase_eq_of_notMem hmem, or_iff_right hmem]
      omega

/-- **A requeue** changes nothing. -/
theorem Even.requeue (h : Even s) (nowNs : ℕ) (raw : Bool) :
    Follows s (.requeue rq nowNs raw) := by
  have heven : Even (s.step (.requeue rq nowNs raw)) := by
    unfold step
    dsimp only
    cases hr : s.blk.requests rq with
    | none =>
      have hevent : s.blk.event ⟨rq, nowNs, raw, .requeue⟩ = s.blk := by
        unfold BlkTrace.event
        dsimp only
        rw [hr]
      rw [hevent]
      exact h
    | some r =>
      have hevent : s.blk.event ⟨rq, nowNs, raw, .requeue⟩
          = { s.blk with io := s.blk.io.recordRequeue rq (r.view nowNs raw) } := by
        unfold BlkTrace.event
        dsimp only
        rw [hr]
      rw [hevent]
      refine ⟨h.lives, ?_⟩
      dsimp only
      rw [IoSemantics.cnts_recordRequeue]
      exact h.counts
  exact ⟨fun _ => heven, fun _ => trivial⟩

/-- **A completion** of a request that waits leaves it in the difference. -/
theorem Even.complete (h : Even s) (nowNs : ℕ) (raw : Bool) :
    Follows s (.complete rq nowNs raw) := by
  have hcounts := h.counts
  cases hr : s.blk.requests rq with
  | none =>
    have hstep : s.step (.complete rq nowNs raw) = s := by
      unfold step
      dsimp only
      rw [hr]
    refine ⟨fun _ => hstep.symm ▸ h, fun _ hmem => ?_⟩
    have hlives := h.lives rq hmem
    rw [hr] at hlives
    exact Bool.false_ne_true hlives
  | some r =>
    have hstep : s.step (.complete rq nowNs raw)
        = ⟨s.blk.event ⟨rq, nowNs, raw, .complete r.dataLen⟩, s.waiting.erase rq⟩ := by
      unfold step
      dsimp only
      rw [hr]
    obtain ⟨hinsert, hissue⟩ :=
      s.blk.io.cnts_recordComplete rq r.dataLen (r.view nowNs raw)
    rw [BlkTrace.event_last hr] at hstep
    have hreq : (s.step (.complete rq nowNs raw)).blk.requests
        = Function.update s.blk.requests rq none := by rw [hstep]
    refine follows_of_counts (h.lives_update hreq (fun k hk _ => ?_) fun hmem => ?_) ?_ ?_
    · rw [hstep] at hk
      exact Finset.mem_of_mem_erase hk
    · rw [hstep] at hmem
      exact absurd hmem (Finset.notMem_erase rq s.waiting)
    · rw [hstep]
      dsimp only
      rw [hinsert, hissue]
      have hle := Finset.pred_card_le_card_erase (s := s.waiting) (a := rq)
      omega
    · unfold Plain
      rw [hstep]
      dsimp only
      rw [hinsert, hissue]
      by_cases hmem : rq ∈ s.waiting
      · have hcard := Finset.card_erase_add_one hmem
        refine ⟨fun hno => absurd hmem hno, fun hyes => ?_⟩
        omega
      · rw [Finset.erase_eq_of_notMem hmem]
        exact ⟨fun _ => hcounts, fun _ => hmem⟩

/-- **A step.** -/
theorem Even.step (h : Even s) (op : StatsOp) : Follows s op := by
  cases op with
  | insert rq nowNs raw bytes ioOp => exact h.insert nowNs raw bytes ioOp
  | issue rq nowNs raw bytes ioOp => exact h.issue nowNs raw bytes ioOp
  | requeue rq nowNs raw => exact h.requeue nowNs raw
  | complete rq nowNs raw => exact h.complete nowNs raw

/-! ## Runs -/

/-- **The report is right** in all states of exactly the runs whose steps it follows. -/
theorem reported_iff_plain (ops : List StatsOp) :
    machine.StatesMeet Reported start ops ↔ machine.StepsMeet Plain start ops :=
  machine.statesMeet_iff_stepsMeet (I := Even) (fun _ h => h.reported)
    (fun _ op h hplain => (h.step op).plain hplain)
    (fun _ op h hno hrep => hno ((h.step op).reported hrep)) even_start ops

/-- One request waits, and another is issued directly: none is reported. -/
theorem direct_issue_hides : ¬ machine.StatesMeet Reported start
    [.insert 1 10 false 4096 .read, .issue 2 20 false 4096 .read] := by
  rintro ⟨-, -, hrep⟩
  exact absurd (show Reported _ from hrep) (by decide)

end StatsTrace
