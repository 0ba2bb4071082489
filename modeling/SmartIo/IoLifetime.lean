import SmartIo.IoTracking

/-!
# The lifetime of a request record

A record is to be in the table as long as its request lives, and a completed
request is to be told to the window statistics once. What the record has of its
request (`Follows`) does not include the bytes merged into it after the
insertion.

So the last bytes of a request leave a record with bytes to spare if bios were
merged into it, and the record stays in the table; a request that is merged
away leaves its record for good; and outside raw mode every completion event of
a request is told to the statistics, not just the last. These are all the ways
in which it goes wrong (`Accurate`).
-/

/-- What happens in the block layer: an event, a bio merged into a queued
request, or a queued request merged away. -/
inductive BlkOp where
  | event (e : RqEvent)
  | bioMerge (rq : Rq) (bytes : ℕ)
  | requestMerge (rq : Rq)
deriving DecidableEq, Repr

namespace BlkTrace

/-- One step. The bytes of a request fit a `u32`. -/
def step (s : BlkTrace) : BlkOp → BlkTrace
  | .event e => s.event e
  | .bioMerge rq bytes =>
    match s.requests rq with
    | none => s
    | some r =>
      if r.queued ∧ r.size + bytes < 2 ^ 32 then
        { s with
          requests := Function.update s.requests rq (some { r with
            dataLen := r.dataLen + bytes, size := r.size + bytes, merged := r.merged + bytes }) }
      else s
  | .requestMerge rq =>
    match s.requests rq with
    | none => s
    | some r =>
      if r.queued then { s with requests := Function.update s.requests rq none } else s

/-- **The block layer and the module as a machine.** -/
def machine : StepMachine BlkTrace BlkOp Unit where
  init s := s = start
  step s op := (s.step op, ())

/-- **Lifetimes**: the table has a record for exactly the requests that live, and
the statistics were told of exactly the requests that were completed. -/
def Lifetimes (s : BlkTrace) : Prop :=
  (∀ rq, (s.io.rqShards.lookup rq).isSome = (s.requests rq).isSome) ∧ s.io.curBucket = s.due

/-- **A step that keeps the lifetimes.** No queued request is merged away. The
last completion of a request finds no bytes merged since its insertion; a
completion before that is one in raw mode, that does not bring the bytes
completed to those of the insertion. -/
def Accurate (s : BlkTrace) : BlkOp → Prop
  | .bioMerge _ _ => True
  | .requestMerge rq => ∀ r, s.requests rq = some r → r.queued = false
  | .event e =>
    match e.kind with
    | .complete nrBytes => ∀ r, s.requests e.rq = some r → nrBytes ≤ r.dataLen →
        if nrBytes = r.dataLen then r.merged = 0
        else e.raw = true ∧ nrBytes + r.merged ≠ r.dataLen
    | _ => True

/-- **The module follows the block layer**, and told the statistics what it
should. -/
structure Mirrors (s : BlkTrace) : Prop where
  table : Tracks s
  told : s.io.curBucket = s.due

theorem Mirrors.lifetimes {s : BlkTrace} (h : Mirrors s) : Lifetimes s :=
  ⟨fun rq => isSome_of_rel (h.table rq), h.told⟩

theorem mirrors_start : Mirrors start := ⟨tracks_start, rfl⟩

/-! ## Events that tell the statistics nothing -/

theorem Mirrors.insert {s : BlkTrace} (h : Mirrors s) (rq : Rq) (nowNs : ℕ) (raw : Bool)
    (bytes : Fin (2 ^ 32)) (ioOp : SmartIoOp) :
    Mirrors (s.event ⟨rq, nowNs, raw, .insert bytes ioOp⟩) :=
  ⟨h.table.insert rq nowNs raw bytes ioOp, h.told⟩

theorem Mirrors.issue {s : BlkTrace} (h : Mirrors s) (rq : Rq) (nowNs : ℕ) (raw : Bool)
    (bytes : Fin (2 ^ 32)) (ioOp : SmartIoOp) :
    Mirrors (s.event ⟨rq, nowNs, raw, .issue bytes ioOp⟩) :=
  ⟨h.table.issue rq nowNs raw bytes ioOp,
    (IoSemantics.curBucket_recordIssue _ _ _).trans h.told⟩

theorem Mirrors.requeue {s : BlkTrace} (h : Mirrors s) (rq : Rq) (nowNs : ℕ) (raw : Bool) :
    Mirrors (s.event ⟨rq, nowNs, raw, .requeue⟩) := by
  refine ⟨h.table.requeue rq nowNs raw, ?_⟩
  unfold event
  dsimp only
  cases s.requests rq with
  | none => exact h.told
  | some r => exact (IoSemantics.curBucket_recordRequeue _ _ _).trans h.told

/-! ## Merges -/

/-- **A bio merge** moves the request away from its record by its bytes. -/
theorem Follows.bioMerge {rec : RqRecord} {r : BlkRequest} (h : Follows rec r) {bytes : ℕ}
    (hsize : r.size + bytes < 2 ^ 32) :
    Follows rec { r with
      dataLen := r.dataLen + bytes, size := r.size + bytes, merged := r.merged + bytes } where
  left := by
    have hlen := h.len
    show (rec.dataBytes + (r.merged + bytes)) % 2 ^ 32 = r.dataLen + bytes
    rw [← Nat.add_assoc, ← Nat.mod_add_mod, h.left, Nat.mod_eq_of_lt (by omega)]
  bytes := h.bytes
  len := Nat.add_le_add_right h.len _
  merged := Nat.add_le_add_right h.merged _
  size := hsize
  kb := by
    rw [Nat.add_sub_add_right]
    exact h.kb
  time := h.time
  op := h.op

theorem Mirrors.bioMerge {s : BlkTrace} (h : Mirrors s) (rq : Rq) (bytes : ℕ) :
    Mirrors (s.step (.bioMerge rq bytes)) := by
  unfold step
  dsimp only
  cases hr : s.requests rq with
  | none => exact h
  | some r =>
    dsimp only
    split
    · next hfits =>
      obtain ⟨rec, hrec, hfollows⟩ := h.table.record hr
      refine ⟨h.table.update ?_ fun _ _ => rfl, h.told⟩
      rw [hrec]
      exact .some (hfollows.bioMerge hfits.2)
    · exact h

/-- **A request merged away** leaves its record. -/
theorem Mirrors.not_requestMerge {s : BlkTrace} (h : Mirrors s) {rq : Rq} {r : BlkRequest}
    (hr : s.requests rq = some r) (hqueued : r.queued = true) :
    ¬ Lifetimes (s.step (.requestMerge rq)) := by
  obtain ⟨rec, hrec, -⟩ := h.table.record hr
  unfold step
  dsimp only
  rw [hr]
  dsimp only
  rw [if_pos hqueued]
  rintro ⟨hlife, -⟩
  have hgone := hlife rq
  dsimp only at hgone
  rw [hrec, Function.update_self] at hgone
  cases hgone

/-! ## Completions -/

/-- **The last completion** of a request that no bio was merged into drops the
record, and tells the statistics. -/
theorem Mirrors.last {s : BlkTrace} (h : Mirrors s) {rq : Rq} {r : BlkRequest}
    (hr : s.requests rq = some r) (hmerged : r.merged = 0) (nowNs : ℕ) (raw : Bool) :
    Mirrors (s.event ⟨rq, nowNs, raw, .complete r.dataLen⟩) := by
  obtain ⟨rec, hrec, hfollows⟩ := h.table.record hr
  refine ⟨h.table.last hr hmerged nowNs raw, ?_⟩
  rw [event_last hr, IoSemantics.recordComplete_of_some _ _ hrec]
  have hkb := hfollows.kb
  rw [hmerged, Nat.sub_zero] at hkb
  cases raw with
  | false =>
    show BucketAdd.mk rec.ioOp rec.ioSizeKb (latencyUs rec.tsInsert nowNs) :: _ = _ :: s.due
    rw [h.told, hkb, hfollows.time, hfollows.op]
    rfl
  | true => exact h.told

/-- **A completion before the last**, in raw mode, keeps the record. -/
theorem Mirrors.part {s : BlkTrace} (h : Mirrors s) {rq : Rq} {r : BlkRequest}
    (hr : s.requests rq = some r) {nrBytes : ℕ} (hpart : nrBytes < r.dataLen)
    (hkeep : nrBytes + r.merged ≠ r.dataLen) (nowNs : ℕ) :
    Mirrors (s.event ⟨rq, nowNs, true, .complete nrBytes⟩) := by
  obtain ⟨rec, hrec, -⟩ := h.table.record hr
  refine ⟨h.table.part hr hpart hkeep nowNs true, ?_⟩
  rw [event_part hr hpart, IoSemantics.recordComplete_of_some _ _ hrec]
  exact h.told

/-- **The last completion** of a request that a bio was merged into leaves its
record. -/
theorem Mirrors.not_last {s : BlkTrace} (h : Mirrors s) {rq : Rq} {r : BlkRequest}
    (hr : s.requests rq = some r) (hmerged : r.merged ≠ 0) (nowNs : ℕ) (raw : Bool) :
    ¬ Lifetimes (s.event ⟨rq, nowNs, raw, .complete r.dataLen⟩) := by
  obtain ⟨rec, hrec, hfollows⟩ := h.table.record hr
  have hstays : ¬ subU32 rec.dataBytes r.dataLen = 0 :=
    fun hzero => hmerged (Nat.add_eq_left.mp ((hfollows.gone_iff (Nat.le_refl _)).mp hzero))
  rw [event_last hr, IoSemantics.recordComplete_of_some _ _ hrec, if_neg hstays]
  rintro ⟨hlife, -⟩
  have hgone := hlife rq
  dsimp only at hgone
  rw [AList.lookup_insert, Function.update_self] at hgone
  cases hgone

/-- **A completion before the last** that is told to the statistics, or that
brings the bytes completed to those of the insertion, is one too many. -/
theorem Mirrors.not_part {s : BlkTrace} (h : Mirrors s) {rq : Rq} {r : BlkRequest}
    (hr : s.requests rq = some r) {nrBytes : ℕ} (hpart : nrBytes < r.dataLen) (nowNs : ℕ)
    {raw : Bool} (hbad : ¬ (raw = true ∧ nrBytes + r.merged ≠ r.dataLen)) :
    ¬ Lifetimes (s.event ⟨rq, nowNs, raw, .complete nrBytes⟩) := by
  obtain ⟨rec, hrec, hfollows⟩ := h.table.record hr
  rw [event_part hr hpart, IoSemantics.recordComplete_of_some _ _ hrec]
  rintro ⟨hlife, htold⟩
  cases raw with
  | false =>
    have hlength := congrArg List.length htold
    rw [← h.told] at hlength
    exact absurd hlength (Nat.succ_ne_self _)
  | true =>
    have hgone : nrBytes + r.merged = r.dataLen := by
      by_contra hne
      exact hbad ⟨rfl, hne⟩
    have hrq := hlife rq
    dsimp only at hrq
    rw [if_pos ((hfollows.gone_iff hpart.le).mpr hgone), AList.lookup_erase,
      Function.update_self] at hrq
    cases hrq

/-! ## Steps and runs -/

/-- **An accurate step** keeps the module behind the block layer. -/
theorem Mirrors.step {s : BlkTrace} (h : Mirrors s) {op : BlkOp} (hop : Accurate s op) :
    Mirrors (machine.next s op) := by
  cases op with
  | bioMerge rq bytes => exact h.bioMerge rq bytes
  | requestMerge rq =>
    show Mirrors (s.step (.requestMerge rq))
    unfold BlkTrace.step
    dsimp only
    cases hr : s.requests rq with
    | none => exact h
    | some r =>
      dsimp only
      rw [if_neg (by rw [hop r hr]; decide)]
      exact h
  | event e =>
    obtain ⟨rq, nowNs, raw, kind⟩ := e
    cases kind with
    | insert bytes ioOp => exact h.insert rq nowNs raw bytes ioOp
    | issue bytes ioOp => exact h.issue rq nowNs raw bytes ioOp
    | requeue => exact h.requeue rq nowNs raw
    | complete nrBytes =>
      show Mirrors (s.event ⟨rq, nowNs, raw, .complete nrBytes⟩)
      rcases s.complete_cases rq nrBytes with hnone | ⟨r, hr, hpart | rfl⟩
      · rw [event_none hnone]
        exact h
      · have hacc := hop r hr hpart.le
        rw [if_neg hpart.ne] at hacc
        obtain ⟨rfl, hkeep⟩ := hacc
        exact h.part hr hpart hkeep nowNs
      · have hacc := hop r hr (Nat.le_refl _)
        rw [if_pos rfl] at hacc
        exact h.last hr hacc nowNs raw

/-- **Any other step** breaks a lifetime. -/
theorem Mirrors.not_step {s : BlkTrace} (h : Mirrors s) {op : BlkOp} (hop : ¬ Accurate s op) :
    ¬ Lifetimes (machine.next s op) := by
  cases op with
  | bioMerge rq bytes => exact absurd trivial hop
  | requestMerge rq =>
    obtain ⟨r, hr⟩ := not_forall.mp hop
    obtain ⟨hr, hqueued⟩ := Classical.not_imp.mp hr
    exact h.not_requestMerge hr (Bool.eq_true_of_not_eq_false hqueued)
  | event e =>
    obtain ⟨rq, nowNs, raw, kind⟩ := e
    cases kind with
    | insert bytes ioOp => exact absurd trivial hop
    | issue bytes ioOp => exact absurd trivial hop
    | requeue => exact absurd trivial hop
    | complete nrBytes =>
      obtain ⟨r, hbad⟩ := not_forall.mp hop
      obtain ⟨hr, hbad⟩ := Classical.not_imp.mp hbad
      obtain ⟨hle, hbad⟩ := Classical.not_imp.mp hbad
      rcases Nat.lt_or_eq_of_le hle with hpart | rfl
      · rw [if_neg hpart.ne] at hbad
        exact h.not_part hr hpart nowNs hbad
      · rw [if_pos rfl] at hbad
        exact h.not_last hr hbad nowNs raw

/-- **The lifetimes, of the runs whose steps are accurate** – and of no other. -/
theorem lifetimes_iff_accurate (ops : List BlkOp) :
    machine.StatesMeet Lifetimes start ops ↔ machine.StepsMeet Accurate start ops :=
  StepMachine.statesMeet_iff_stepsMeet (fun _ h => h.lifetimes) (fun _ _ h hop => h.step hop)
    (fun _ _ h hop => h.not_step hop) mirrors_start ops

/-- **A bio merged after the insertion**: the record outlives its request. -/
theorem lifetime_exceeded :
    ¬ machine.StatesMeet Lifetimes start
      [.event ⟨1, 1000, false, .insert 4096 .write⟩, .bioMerge 1 4096,
        .event ⟨1, 2000, false, .issue 0 .write⟩, .event ⟨1, 5000, false, .complete 8192⟩] := by
  rintro ⟨-, -, -, -, hlife, -⟩
  exact absurd (hlife 1) (by decide)

end BlkTrace
