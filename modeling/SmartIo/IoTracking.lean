import SmartIo.IoRecords

/-!
# Records that follow their requests

What a record has of its request at any time (`Follows`) is its size, as far as
it was known at the insertion, and what is left of its bytes – less the bytes
merged into it since, which no event tells the module of. As long as every
request that lives has such a record, and no other address has one (`Tracks`),
an event finds the record it needs.

Insertions, issues and requeues keep it so, and so does the last completion of
a request that nothing was merged into. A completion before the last keeps it
so unless it takes the last bytes the record knows of.
-/

namespace BlkTrace

/-- **What a record has of its request.** -/
structure Follows (rec : RqRecord) (r : BlkRequest) : Prop where
  left : (rec.dataBytes + r.merged) % 2 ^ 32 = r.dataLen
  bytes : rec.dataBytes < 2 ^ 32
  len : r.dataLen ≤ r.size
  merged : r.merged ≤ r.size
  size : r.size < 2 ^ 32
  kb : rec.ioSizeKb = (r.size - r.merged) / 1024
  time : rec.tsInsert = r.insertNs
  op : rec.ioOp = r.ioOp

/-- **Every request that lives has a record that follows it**, and no other
address has a record. -/
def Tracks (s : BlkTrace) : Prop :=
  ∀ rq, Option.Rel Follows (s.io.rqShards.lookup rq) (s.requests rq)

/-- Related options are both there, or both not. -/
theorem isSome_of_rel {α β : Type*} {R : α → β → Prop} {a : Option α} {b : Option β}
    (h : Option.Rel R a b) : a.isSome = b.isSome := by
  cases h with
  | none => rfl
  | some _ => rfl

theorem tracks_start : Tracks start := fun _ => .none

/-- **A step about one request** leaves the others alone. -/
theorem Tracks.update {s : BlkTrace} (h : Tracks s) {rq : Rq} {io : IoSemantics}
    {r : Option BlkRequest} {due : List BucketAdd}
    (hrq : Option.Rel Follows (io.rqShards.lookup rq) r)
    (hother : ∀ k, k ≠ rq → io.rqShards.lookup k = s.io.rqShards.lookup k) :
    Tracks ⟨io, Function.update s.requests rq r, due⟩ := by
  intro k
  show Option.Rel Follows _ (Function.update s.requests rq r k)
  by_cases hk : k = rq
  · rw [hk, Function.update_self]
    exact hrq
  · rw [Function.update_of_ne hk, hother k hk]
    exact h k

/-- A record that is stored follows its request. -/
theorem Tracks.store {s : BlkTrace} (h : Tracks s) {rq : Rq} {io : IoSemantics}
    {rec : RqRecord} {r : BlkRequest} {due : List BucketAdd}
    (hio : io.rqShards = s.io.rqShards.insert rq rec) (hfollows : Follows rec r) :
    Tracks ⟨io, Function.update s.requests rq (some r), due⟩ := by
  refine h.update ?_ fun k hk => ?_
  · rw [hio, AList.lookup_insert]
    exact .some hfollows
  · rw [hio, AList.lookup_insert_ne hk]

/-- A record that is dropped leaves with its request. -/
theorem Tracks.drop {s : BlkTrace} (h : Tracks s) {rq : Rq} {io : IoSemantics}
    {rec : RqRecord} {due : List BucketAdd}
    (hio : io.rqShards = (s.io.rqShards.insert rq rec).erase rq) :
    Tracks ⟨io, Function.update s.requests rq none, due⟩ := by
  refine h.update ?_ fun k hk => ?_
  · rw [hio, AList.lookup_erase]
    exact .none
  · rw [hio, AList.lookup_erase_ne hk, AList.lookup_insert_ne hk]

/-- The record of a request that lives. -/
theorem Tracks.record {s : BlkTrace} (h : Tracks s) {rq : Rq} {r : BlkRequest}
    (hr : s.requests rq = some r) :
    ∃ rec, s.io.rqShards.lookup rq = some rec ∧ Follows rec r := by
  have hrel := h rq
  rw [hr] at hrel
  cases hrec : s.io.rqShards.lookup rq with
  | none =>
    rw [hrec] at hrel
    cases hrel
  | some rec =>
    rw [hrec] at hrel
    cases hrel with
    | some hfollows => exact ⟨rec, rfl, hfollows⟩

/-- A request that does not live has no record. -/
theorem Tracks.no_record {s : BlkTrace} (h : Tracks s) {rq : Rq}
    (hr : s.requests rq = none) : s.io.rqShards.lookup rq = none := by
  have hsome := isSome_of_rel (h rq)
  rw [hr] at hsome
  exact Option.isSome_eq_false_iff.mp hsome |> Option.isNone_iff_eq_none.mp

/-! ## Insertion, issue, requeue -/

/-- A record just filled has all of its request. -/
theorem follows_start (queued : Bool) (bytes : Fin (2 ^ 32)) (nowNs : ℕ) (raw : Bool)
    (ioOp : SmartIoOp) :
    Follows (fillRecordFromCurrent ((BlkRequest.start queued bytes nowNs ioOp).view nowNs raw))
      (.start queued bytes nowNs ioOp) where
  left := Nat.mod_eq_of_lt bytes.isLt
  bytes := bytes.isLt
  len := Nat.le_refl _
  merged := Nat.zero_le _
  size := bytes.isLt
  kb := rfl
  time := rfl
  op := rfl

/-- **Issuing** does not touch what a record has of its request. -/
theorem Follows.issued {rec : RqRecord} {r : BlkRequest} (h : Follows rec r) (tsIssue : ℕ) :
    Follows { rec with tsIssue := tsIssue, issued := true } { r with queued := false } where
  left := h.left
  bytes := h.bytes
  len := h.len
  merged := h.merged
  size := h.size
  kb := h.kb
  time := h.time
  op := h.op

theorem Tracks.insert {s : BlkTrace} (h : Tracks s) (rq : Rq) (nowNs : ℕ) (raw : Bool)
    (bytes : Fin (2 ^ 32)) (ioOp : SmartIoOp) :
    Tracks (s.event ⟨rq, nowNs, raw, .insert bytes ioOp⟩) :=
  h.store rfl (follows_start true bytes nowNs raw ioOp)

theorem Tracks.issue {s : BlkTrace} (h : Tracks s) (rq : Rq) (nowNs : ℕ) (raw : Bool)
    (bytes : Fin (2 ^ 32)) (ioOp : SmartIoOp) :
    Tracks (s.event ⟨rq, nowNs, raw, .issue bytes ioOp⟩) := by
  unfold event
  dsimp only
  cases hr : s.requests rq with
  | none =>
    rw [IoSemantics.recordIssue_of_none _ (h.no_record hr)]
    exact h.store rfl ((follows_start false bytes nowNs raw ioOp).issued nowNs)
  | some r =>
    obtain ⟨rec, hrec, hfollows⟩ := h.record hr
    rw [IoSemantics.recordIssue_of_some _ hrec]
    exact h.store rfl (hfollows.issued nowNs)

/-- A requeue stamps a record, at most. -/
theorem Tracks.requeue {s : BlkTrace} (h : Tracks s) (rq : Rq) (nowNs : ℕ) (raw : Bool) :
    Tracks (s.event ⟨rq, nowNs, raw, .requeue⟩) := by
  unfold event
  dsimp only
  cases hr : s.requests rq with
  | none => exact h
  | some r =>
    obtain ⟨rec, hrec, hfollows⟩ := h.record hr
    show Tracks ⟨s.io.recordRequeue rq (r.view nowNs raw), s.requests, s.due⟩
    cases raw with
    | false =>
      rw [IoSemantics.recordRequeue_of_not_raw _ _ rfl]
      exact h
    | true =>
      rw [IoSemantics.recordRequeue_of_some rfl hrec,
        ← (Function.update_eq_self_iff.mpr hr.symm : Function.update s.requests rq (some r) = _)]
      exact h.store rfl ⟨hfollows.left, hfollows.bytes, hfollows.len, hfollows.merged,
        hfollows.size, hfollows.kb, hfollows.time, hfollows.op⟩

/-! ## Completions -/

/-- **A completion** takes the same bytes off the record and the request. -/
theorem Follows.complete {rec : RqRecord} {r : BlkRequest} (h : Follows rec r) {nrBytes : ℕ}
    (hle : nrBytes ≤ r.dataLen) :
    Follows { rec with dataBytes := subU32 rec.dataBytes nrBytes }
      { r with dataLen := r.dataLen - nrBytes } where
  left := by
    have hleft := h.left
    have hbytes := h.bytes
    have hsize := h.size
    have hlen := h.len
    show (subU32 rec.dataBytes nrBytes + r.merged) % 2 ^ 32 = r.dataLen - nrBytes
    unfold subU32
    omega
  bytes := subU32_lt _ _
  len := (Nat.sub_le _ _).trans h.len
  merged := h.merged
  size := h.size
  kb := h.kb
  time := h.time
  op := h.op

/-- **The record goes** with the completion that brings the bytes completed to
those of the insertion. -/
theorem Follows.gone_iff {rec : RqRecord} {r : BlkRequest} (h : Follows rec r) {nrBytes : ℕ}
    (hle : nrBytes ≤ r.dataLen) :
    subU32 rec.dataBytes nrBytes = 0 ↔ nrBytes + r.merged = r.dataLen := by
  have hleft := h.left
  have hbytes := h.bytes
  have hsize := h.size
  have hlen := h.len
  have hmerged := h.merged
  rw [subU32_eq_zero_iff hbytes (by omega)]
  omega

/-- **The last completion** of a request that no bio was merged into drops the
record. -/
theorem Tracks.last {s : BlkTrace} (h : Tracks s) {rq : Rq} {r : BlkRequest}
    (hr : s.requests rq = some r) (hmerged : r.merged = 0) (nowNs : ℕ) (raw : Bool) :
    Tracks (s.event ⟨rq, nowNs, raw, .complete r.dataLen⟩) := by
  obtain ⟨rec, hrec, hfollows⟩ := h.record hr
  have hgone := (hfollows.gone_iff (Nat.le_refl _)).mpr (by rw [hmerged, Nat.add_zero])
  rw [event_last hr, IoSemantics.recordComplete_of_some _ _ hrec, if_pos hgone]
  exact h.drop rfl

/-- **A completion before the last** keeps the record, unless it takes the last
bytes the record knows of. -/
theorem Tracks.part {s : BlkTrace} (h : Tracks s) {rq : Rq} {r : BlkRequest}
    (hr : s.requests rq = some r) {nrBytes : ℕ} (hpart : nrBytes < r.dataLen)
    (hkeep : nrBytes + r.merged ≠ r.dataLen) (nowNs : ℕ) (raw : Bool) :
    Tracks (s.event ⟨rq, nowNs, raw, .complete nrBytes⟩) := by
  obtain ⟨rec, hrec, hfollows⟩ := h.record hr
  have hstays := mt (hfollows.gone_iff hpart.le).mp hkeep
  rw [event_part hr hpart, IoSemantics.recordComplete_of_some _ _ hrec, if_neg hstays]
  exact h.store rfl (hfollows.complete hpart.le)

end BlkTrace
