import SmartIo.IoTracking

/-!
# Requests in flight

The counter of the requests in flight goes up with the first issue of a record
and down with every completion event of an issued one. So it counts the issued
records of requests that live (`Exact`) as long as a record goes by the event
that takes it off the counter, and no other: a completion of an issued request
is its last, and no issued record makes way for the insertion of its address
(`Counted`). Either exception puts the counter off at once, and for good.
-/

namespace BlkTrace

/-- The requests whose issue has been counted, and which have not ended. -/
def accounted (s : BlkTrace) : ℕ :=
  s.io.rqShards.countWhere fun rq rec => rec.issued && (s.requests rq).isSome

/-- **The counter is exact.** -/
def Exact (s : BlkTrace) : Prop := s.io.util.inFlight = s.accounted

/-- **Events of requests, as a machine.** -/
def events : StepMachine BlkTrace RqEvent Unit where
  init s := s = start
  step s e := (s.event e, ())

/-- **An event that counts.** An insertion finds no issued record of its address;
a completion of an issued request is its last. -/
def Counted (s : BlkTrace) (e : RqEvent) : Prop :=
  match e.kind with
  | .insert _ _ => ∀ rec, s.io.rqShards.lookup e.rq = some rec → rec.issued = false
  | .complete nrBytes => ∀ rec r, s.io.rqShards.lookup e.rq = some rec →
      s.requests e.rq = some r → rec.issued = true → ¬ nrBytes < r.dataLen
  | _ => True

/-- **What the counter rests on**: the records follow their requests, and
nothing was merged. -/
structure Flying (s : BlkTrace) : Prop where
  table : Tracks s
  unmerged : ∀ rq r, s.requests rq = some r → r.merged = 0
  exact : Exact s

theorem flying_start : Flying start where
  table := tracks_start
  unmerged := fun _ _ h => by cases h
  exact := rfl

/-! ## Counting -/

/-- What the record of an address adds to the count. -/
def accountedAt (s : BlkTrace) (rq : Rq) : ℕ :=
  s.io.rqShards.countAtKey (fun rq rec => rec.issued && (s.requests rq).isSome) rq

/-- An address without a record adds nothing. -/
theorem accountedAt_none {s : BlkTrace} {rq : Rq} (hrec : s.io.rqShards.lookup rq = none) :
    s.accountedAt rq = 0 := by
  unfold accountedAt AList.countAtKey
  rw [hrec]
  rfl

/-- The record of a request that lives adds one if it is issued. -/
theorem accountedAt_some {s : BlkTrace} {rq : Rq} {rec : RqRecord} {r : BlkRequest}
    (hrec : s.io.rqShards.lookup rq = some rec) (hr : s.requests rq = some r) :
    s.accountedAt rq = rec.issued.toNat := by
  unfold accountedAt AList.countAtKey
  rw [hrec, Option.elim_some]
  dsimp only
  rw [hr, Option.isSome_some, Bool.and_true]

/-- Only the record of one address counts otherwise. -/
theorem accounted_rest (s : BlkTrace) (rq : Rq) (r : Option BlkRequest) :
    s.accounted = s.accountedAt rq + (s.io.rqShards.erase rq).countWhere fun k rec =>
      rec.issued && (Function.update s.requests rq r k).isSome := by
  unfold accounted
  rw [AList.countWhere_erase _ rq]
  refine congrArg (s.accountedAt rq + ·) (AList.countWhere_erase_congr ?_ _)
  intro k rec hk
  rw [Function.update_of_ne hk]

/-- **A record is stored**: it is counted in place of the one before. -/
theorem accounted_store {s : BlkTrace} {rq : Rq} {io : IoSemantics} {rec : RqRecord}
    {r : BlkRequest} {due : List BucketAdd} (hio : io.rqShards = s.io.rqShards.insert rq rec) :
    accounted ⟨io, Function.update s.requests rq (some r), due⟩ + s.accountedAt rq
      = s.accounted + rec.issued.toNat := by
  rw [s.accounted_rest rq (some r)]
  unfold accounted
  dsimp only
  rw [hio, AList.countWhere_insert, Function.update_self, Option.isSome_some, Bool.and_true]
  omega

/-- **A record is dropped** with its request. -/
theorem accounted_drop {s : BlkTrace} {rq : Rq} {io : IoSemantics} {rec : RqRecord}
    {due : List BucketAdd} (hio : io.rqShards = (s.io.rqShards.insert rq rec).erase rq) :
    accounted ⟨io, Function.update s.requests rq none, due⟩ + s.accountedAt rq = s.accounted := by
  rw [s.accounted_rest rq none]
  unfold accounted
  dsimp only
  rw [hio, AList.erase_insert_self]
  omega

/-- An issued record of a request that lives is one of those counted. -/
theorem accountedAt_le (s : BlkTrace) (rq : Rq) : s.accountedAt rq ≤ s.accounted := by
  rw [s.accounted_rest rq none]
  exact Nat.le_add_right _ _

/-- **A stored record** leaves the counter exact if the counter moves as its flag
does. -/
theorem exact_store_iff {s : BlkTrace} (h : Exact s) {rq : Rq} {io : IoSemantics}
    {rec : RqRecord} {r : BlkRequest} {due : List BucketAdd}
    (hio : io.rqShards = s.io.rqShards.insert rq rec) :
    Exact ⟨io, Function.update s.requests rq (some r), due⟩
      ↔ io.util.inFlight + s.accountedAt rq = s.io.util.inFlight + rec.issued.toNat := by
  unfold Exact at h ⊢
  rw [h, ← accounted_store (r := r) hio]
  exact (Nat.add_right_cancel_iff).symm

/-- **A dropped record** leaves the counter exact if it is taken off. -/
theorem exact_drop_iff {s : BlkTrace} (h : Exact s) {rq : Rq} {io : IoSemantics}
    {rec : RqRecord} {due : List BucketAdd}
    (hio : io.rqShards = (s.io.rqShards.insert rq rec).erase rq) :
    Exact ⟨io, Function.update s.requests rq none, due⟩
      ↔ io.util.inFlight + s.accountedAt rq = s.io.util.inFlight := by
  unfold Exact at h ⊢
  rw [h, ← accounted_drop hio]
  exact (Nat.add_right_cancel_iff).symm

/-! ## Events -/

/-- A step about one request merges nothing. -/
theorem Flying.unmerged_update {s : BlkTrace} (h : Flying s) {rq : Rq} {o : Option BlkRequest}
    (ho : ∀ r, o = some r → r.merged = 0) :
    ∀ k r, Function.update s.requests rq o k = some r → r.merged = 0 := by
  intro k r hr
  by_cases hk : k = rq
  · rw [hk, Function.update_self] at hr
    exact ho r hr
  · rw [Function.update_of_ne hk] at hr
    exact h.unmerged k r hr

/-- **An insertion** is exact if it drops no issued record. -/
theorem Flying.insert_iff {s : BlkTrace} (h : Flying s) (rq : Rq) (nowNs : ℕ) (raw : Bool)
    (bytes : Fin (2 ^ 32)) (ioOp : SmartIoOp) :
    Exact (s.event ⟨rq, nowNs, raw, .insert bytes ioOp⟩)
      ↔ ∀ rec, s.io.rqShards.lookup rq = some rec → rec.issued = false := by
  refine (exact_store_iff h.exact rfl).trans ?_
  show s.io.util.inFlight + s.accountedAt rq = s.io.util.inFlight + 0 ↔ _
  rw [Nat.add_left_cancel_iff]
  cases hr : s.requests rq with
  | none =>
    have hrec := h.table.no_record hr
    rw [accountedAt_none hrec, hrec]
    exact iff_of_true rfl fun _ h => by cases h
  | some r =>
    obtain ⟨rec, hrec, -⟩ := h.table.record hr
    rw [accountedAt_some hrec hr, hrec, Bool.toNat_eq_zero]
    constructor
    · rintro hflag rec' hrec'
      obtain rfl := Option.some.inj hrec'
      exact hflag
    · exact fun hall => hall rec rfl

/-- **An issue** puts the counter and the count up together, or neither. -/
theorem Flying.exact_issue {s : BlkTrace} (h : Flying s) (rq : Rq) (nowNs : ℕ) (raw : Bool)
    (bytes : Fin (2 ^ 32)) (ioOp : SmartIoOp) :
    Exact (s.event ⟨rq, nowNs, raw, .issue bytes ioOp⟩) := by
  unfold event
  dsimp only
  cases hr : s.requests rq with
  | none =>
    have hrec := h.table.no_record hr
    rw [IoSemantics.recordIssue_of_none _ hrec]
    refine (exact_store_iff h.exact rfl).mpr ?_
    rw [accountedAt_none hrec]
    rfl
  | some r =>
    obtain ⟨rec, hrec, -⟩ := h.table.record hr
    rw [IoSemantics.recordIssue_of_some _ hrec]
    refine (exact_store_iff h.exact rfl).mpr ?_
    rw [accountedAt_some hrec hr]
    show (if rec.issued then s.io.util else s.io.util.issueAccount _).inFlight + _ = _ + 1
    cases rec.issued with
    | false => rfl
    | true => rfl

/-- A requeue moves neither. -/
theorem Flying.exact_requeue {s : BlkTrace} (h : Flying s) (rq : Rq) (nowNs : ℕ) (raw : Bool) :
    Exact (s.event ⟨rq, nowNs, raw, .requeue⟩) := by
  unfold event
  dsimp only
  cases hr : s.requests rq with
  | none => exact h.exact
  | some r =>
    obtain ⟨rec, hrec, -⟩ := h.table.record hr
    show Exact ⟨s.io.recordRequeue rq (r.view nowNs raw), s.requests, s.due⟩
    cases raw with
    | false =>
      rw [IoSemantics.recordRequeue_of_not_raw _ _ rfl]
      exact h.exact
    | true =>
      rw [IoSemantics.recordRequeue_of_some rfl hrec,
        ← (Function.update_eq_self_iff.mpr hr.symm : Function.update s.requests rq (some r) = _)]
      refine (exact_store_iff h.exact rfl).mpr ?_
      rw [accountedAt_some hrec hr]

/-- The counter after a completion, with the record's flag. -/
theorem inFlight_complete (issued : Bool) (d : DeviceUtil) (nowNs : ℕ) :
    (if issued then d.completeAccount nowNs else d).inFlight = d.inFlight - issued.toNat := by
  cases issued with
  | false => rfl
  | true => exact d.inFlight_completeAccount nowNs

/-- **The last completion** takes an issued record off the count and the counter. -/
theorem Flying.exact_last {s : BlkTrace} (h : Flying s) {rq : Rq} {r : BlkRequest}
    (hr : s.requests rq = some r) (nowNs : ℕ) (raw : Bool) :
    Exact (s.event ⟨rq, nowNs, raw, .complete r.dataLen⟩) := by
  obtain ⟨rec, hrec, hfollows⟩ := h.table.record hr
  have hgone := (hfollows.gone_iff (Nat.le_refl _)).mpr (by rw [h.unmerged rq r hr, Nat.add_zero])
  have hle := s.accountedAt_le rq
  rw [event_last hr, IoSemantics.recordComplete_of_some _ _ hrec, if_pos hgone]
  refine (exact_drop_iff h.exact rfl).mpr ?_
  rw [← h.exact, accountedAt_some hrec hr] at hle
  rw [accountedAt_some hrec hr, inFlight_complete]
  exact Nat.sub_add_cancel hle

/-- **A completion before the last** takes an issued record off the counter, and
not off the count. -/
theorem Flying.part_iff {s : BlkTrace} (h : Flying s) {rq : Rq} {rec : RqRecord}
    {r : BlkRequest} (hrec : s.io.rqShards.lookup rq = some rec) (hr : s.requests rq = some r)
    {nrBytes : ℕ} (hpart : nrBytes < r.dataLen) (nowNs : ℕ) (raw : Bool) :
    Exact (s.event ⟨rq, nowNs, raw, .complete nrBytes⟩) ↔ rec.issued = false := by
  obtain ⟨rec', hrec', hfollows⟩ := h.table.record hr
  obtain rfl := Option.some.inj (hrec.symm.trans hrec')
  have hstays := mt (hfollows.gone_iff hpart.le).mp (by rw [h.unmerged rq r hr]; exact hpart.ne)
  have hle := s.accountedAt_le rq
  rw [← h.exact, accountedAt_some hrec hr] at hle
  rw [event_part hr hpart, IoSemantics.recordComplete_of_some _ _ hrec, if_neg hstays]
  refine (exact_store_iff h.exact rfl).trans ?_
  rw [accountedAt_some hrec hr, inFlight_complete, Nat.sub_add_cancel hle]
  exact Nat.left_eq_add.trans Bool.toNat_eq_zero

/-! ## Runs -/

/-- **The records follow their requests** through every event, counted or not. -/
theorem Flying.follows_event {s : BlkTrace} (h : Flying s) (e : RqEvent) :
    Tracks (s.event e) ∧ ∀ rq r, (s.event e).requests rq = some r → r.merged = 0 := by
  obtain ⟨rq, nowNs, raw, kind⟩ := e
  cases kind with
  | insert bytes ioOp =>
    refine ⟨h.table.insert rq nowNs raw bytes ioOp, h.unmerged_update ?_⟩
    intro r hr
    obtain rfl := Option.some.inj hr
    rfl
  | issue bytes ioOp =>
    refine ⟨h.table.issue rq nowNs raw bytes ioOp, h.unmerged_update ?_⟩
    intro r hr
    obtain rfl := Option.some.inj hr
    show ((s.requests rq).getD _).merged = 0
    cases hr : s.requests rq with
    | none => rfl
    | some r => exact h.unmerged rq r hr
  | requeue =>
    refine ⟨h.table.requeue rq nowNs raw, ?_⟩
    unfold event
    dsimp only
    cases hr : s.requests rq with
    | none => exact h.unmerged
    | some r => exact h.unmerged
  | complete nrBytes =>
    rcases s.complete_cases rq nrBytes with hnone | ⟨r, hr, hpart | rfl⟩
    · rw [event_none hnone]
      exact ⟨h.table, h.unmerged⟩
    · have hmerged := h.unmerged rq r hr
      refine ⟨h.table.part hr hpart (by rw [hmerged]; exact hpart.ne) nowNs raw, ?_⟩
      rw [event_part hr hpart]
      refine h.unmerged_update fun r' hr' => ?_
      obtain rfl := Option.some.inj hr'
      exact hmerged
    · refine ⟨h.table.last hr (h.unmerged rq r hr) nowNs raw, ?_⟩
      rw [event_last hr]
      exact h.unmerged_update fun r' hr' => by cases hr'

/-- **One event** keeps the counter exact if and only if it counts. -/
theorem Flying.exact_iff {s : BlkTrace} (h : Flying s) (e : RqEvent) :
    Exact (s.event e) ↔ Counted s e := by
  obtain ⟨rq, nowNs, raw, kind⟩ := e
  cases kind with
  | insert bytes ioOp => exact h.insert_iff rq nowNs raw bytes ioOp
  | issue bytes ioOp => exact iff_of_true (h.exact_issue rq nowNs raw bytes ioOp) trivial
  | requeue => exact iff_of_true (h.exact_requeue rq nowNs raw) trivial
  | complete nrBytes =>
    rcases s.complete_cases rq nrBytes with hnone | ⟨r, hr, hpart | rfl⟩
    · rw [event_none hnone]
      exact iff_of_true h.exact fun rec r _ hr _ => Nat.lt_asymm (hnone r hr)
    · obtain ⟨rec, hrec, -⟩ := h.table.record hr
      rw [h.part_iff hrec hr hpart]
      constructor
      · intro hflag rec' r' hrec' _ hissued
        obtain rfl := Option.some.inj (hrec.symm.trans hrec')
        rw [hflag] at hissued
        cases hissued
      · exact fun hcount => Bool.eq_false_iff.mpr fun hissued => hcount rec r hrec hr hissued hpart
    · refine iff_of_true (h.exact_last hr nowNs raw) fun rec r' _ hr' _ => ?_
      obtain rfl := Option.some.inj (hr.symm.trans hr')
      exact Nat.lt_irrefl _

/-- **The counter is exact in the runs whose events count** – and in no other. -/
theorem exact_iff_counted (es : List RqEvent) :
    events.StatesMeet Exact start es ↔ events.StepsMeet Counted start es :=
  StepMachine.statesMeet_iff_stepsMeet (fun _ h => h.exact)
    (fun _ e h he => ⟨(h.follows_event e).1, (h.follows_event e).2, (h.exact_iff e).mpr he⟩)
    (fun _ e h he => mt (h.exact_iff e).mp he) flying_start es

/-- **A completion in two parts**: after the first the counter is down to zero,
and the request is still at the device. -/
theorem inFlight_drops_early :
    ¬ events.StatesMeet Exact start
      [⟨1, 1000, false, .insert 8192 .write⟩, ⟨1, 2000, false, .issue 0 .write⟩,
        ⟨1, 5000, false, .complete 4096⟩] := by
  rintro ⟨-, -, -, hexact⟩
  change Exact _ at hexact
  unfold Exact at hexact
  exact absurd hexact (by decide)

end BlkTrace
