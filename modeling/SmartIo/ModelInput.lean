import SmartIo.RatioBits
import SmartIo.ThrottleGate

/-!
# What the predictor accepts

`smart_io_model_fp32_predict_timed` checks a state snapshot before it computes
anything: thirteen relations between its fields, and eleven ratios that must be
binary32 numbers. A snapshot that fails costs the decision – the throttling
falls back.

`smart_io_throttle_snapshot_state_locked` keeps all of these relations but two.
It counts what is issued and what is waiting with the same scan that the counts
are compared with, and takes the window only when it is full and short. But it
does not compare the issued depth with the depth of the queue, which can have
been lowered since, and it does not compare the mean latency with the threshold,
which can be a few microseconds. These two are exactly what the predictor can
refuse (`snapshot_accepted_iff`).
-/

open ThrottleCtx

/-! ## The predictor's input -/

/-- The error of `smart_io_model_fp32_predict_timed` for its input. -/
inductive PredictError where
  | einval
  | erange
deriving DecidableEq, Repr

/-- The input validation of `smart_io_model_fp32_predict_timed`. -/
def inputValid (s : StateSnapshot) : Bool :=
  !(decide (s.queueMax = 0) || decide (s.devLatThresholdUs = 0)
    || decide (s.windowCompleteCount ≠ devLatWindowSize)
    || decide (devLatWindowMaxUs < s.windowSpanUs)
    || decide (s.queueMax < s.deviceQCount)
    || decide (s.deviceQCount < s.deviceQFgCount)
    || decide (s.deviceQCount < s.deviceQSlowCount)
    || decide (s.windowCompleteCount < s.windowSlowCount)
    || decide (s.windowCompleteCount < s.windowFgCompleteCount)
    || decide (s.waitingTotalCount < s.waitingCount)
    || decide (s.waitingTotalCount < s.waitingFg)
    || decide (s.waitingTotalCount < s.waitingHighIoprioCount)
    || decide (s.waitingTotalCount < s.waitingToIssuedContiguousCount))

/-- The eleven ratios that `smart_io_model_fp32_predict_timed` converts, in their
order. -/
def inputRatios (s : StateSnapshot) : List (ℕ × ℕ) :=
  [(s.deviceQCount, s.queueMax),
    (s.deviceQFgCount, max 1 s.deviceQCount),
    (s.deviceQSlowCount, max 1 s.deviceQCount),
    (s.windowMeanDevUs, s.devLatThresholdUs),
    (s.windowSpanUs, devLatWindowMaxUs),
    (s.windowSlowCount, s.windowCompleteCount),
    (s.windowFgCompleteCount, s.windowCompleteCount),
    (min s.waitingCount s.queueMax, s.queueMax),
    (min s.waitingFg s.queueMax, s.queueMax),
    (s.waitingHighIoprioCount, max 1 s.waitingTotalCount),
    (s.waitingToIssuedContiguousCount, max 1 s.waitingTotalCount)]

/-- The input of `smart_io_model_fp32_predict_timed`: the `input_bits`, or the
error it returns before it computes anything. -/
def predictInput (s : StateSnapshot) : Except PredictError (List ℕ) :=
  if !inputValid s then .error .einval
  else match (inputRatios s).mapM (fun p => ratioBits p.1 p.2) with
    | none => .error .erange
    | some bits => .ok bits

/-- **A ratio that is at most one** is converted. -/
theorem ratioBits_of_le {n d : ℕ} (hd : d ≠ 0) (hle : n ≤ d) (hmax : d ≤ u32Max) :
    (ratioBits n d).isSome = true := by
  refine (ratioBits_isSome hd (hle.trans hmax) hmax).mpr ?_
  omega

/-- All conversions succeed when each does. -/
theorem mapM_isSome {α β : Type} (f : α → Option β) (l : List α) :
    (l.mapM f).isSome = true ↔ ∀ a ∈ l, (f a).isSome = true := by
  induction l with
  | nil => exact iff_of_true rfl (fun a ha => absurd ha List.not_mem_nil)
  | cons a l ih =>
    rw [List.mapM_cons, List.forall_mem_cons, ← ih]
    cases f a with
    | none => exact iff_of_false Bool.false_ne_true (fun h => Bool.false_ne_true h.1)
    | some b => cases l.mapM f <;> simp

/-! ## What a snapshot keeps -/

/-- The part of a snapshot that the scan of the active table does not write. -/
def StateSnapshot.unscanned (s : StateSnapshot) : StateSnapshot :=
  { s with
    deviceQFgCount := 0
    deviceQSlowCount := 0
    waitingCount := 0
    waitingFg := 0
    waitingHighIoprioCount := 0
    waitingToIssuedContiguousCount := 0 }

/-- **What the scan keeps**: each of its counts is at most the number of records
it was taken over, and the rest of the snapshot is left alone. -/
structure ScanBounded (s : StateSnapshot) (a : SnapshotScan) : Prop where
  fg : a.state.deviceQFgCount ≤ a.issuedSeen
  slow : a.state.deviceQSlowCount ≤ a.issuedSeen
  waiting : a.state.waitingCount ≤ a.waitingSeen
  waitingFg : a.state.waitingFg ≤ a.waitingSeen
  high : a.state.waitingHighIoprioCount ≤ a.waitingSeen
  contiguous : a.state.waitingToIssuedContiguousCount ≤ a.waitingSeen
  rest : a.state.unscanned = s.unscanned

theorem scanBounded_step {c : ThrottleCtx} {nowNs thr : ℕ} {s : StateSnapshot}
    {a : SnapshotScan} (h : ScanBounded s a) (m : MetaId) :
    ScanBounded s (c.snapshotScanStep nowNs thr a m) := by
  have hone (p : Prop) [Decidable p] : (if p then 1 else 0) ≤ 1 := by
    split <;> omega
  unfold snapshotScanStep
  dsimp only
  have hissued : ScanBounded s (if (!(c.metaPool m).issuedAccounted) = true then a
      else { a with
        issuedSeen := a.issuedSeen + 1
        state := { a.state with
          deviceQFgCount := a.state.deviceQFgCount
            + if (c.metaPool m).rqClass = .foreground then 1 else 0
          deviceQSlowCount := a.state.deviceQSlowCount
            + if (!(c.metaPool m).deviceTimeExcluded && decide ((c.metaPool m).issueTsNs ≠ 0)
                && decide ((c.metaPool m).issueTsNs ≤ nowNs)
                && decide (thr * nsecPerUsec ≤ nowNs - (c.metaPool m).issueTsNs)) = true
              then 1 else 0 } }) := by
    split
    · exact h
    · exact ⟨Nat.add_le_add h.fg (hone _), Nat.add_le_add h.slow (hone _), h.waiting,
        h.waitingFg, h.high, h.contiguous, h.rest⟩
  generalize (if (!(c.metaPool m).issuedAccounted) = true then a
      else _) = b at hissued
  split
  · exact hissued
  · exact ⟨hissued.fg, hissued.slow, Nat.add_le_add hissued.waiting (hone _),
      Nat.add_le_add hissued.waitingFg (hone _), Nat.add_le_add hissued.high (hone _),
      Nat.add_le_add hissued.contiguous (hone _), hissued.rest⟩

/-- The scan of the whole table. -/
theorem scanBounded_snapshotScan {c : ThrottleCtx} {nowNs thr : ℕ} {s : StateSnapshot}
    (hs : s.unscanned = s) : ScanBounded s (c.snapshotScan nowNs thr s) := by
  have hfold : ∀ (l : List MetaId) (a : SnapshotScan), ScanBounded s a →
      ScanBounded s (l.foldl (c.snapshotScanStep nowNs thr) a) := by
    intro l
    induction l with
    | nil => exact fun a ha => ha
    | cons m l ih => exact fun a ha => ih _ (scanBounded_step ha m)
  refine hfold _ _ ?_
  rw [← hs]
  exact ⟨le_rfl, le_rfl, le_rfl, le_rfl, le_rfl, le_rfl, rfl⟩

/-- A window whose latencies fit into 32 bits. -/
def DevLatWindow.Fits (win : DevLatWindow) : Prop := ∀ i, (win.devLat i).devLatUs ≤ u32Max

/-- **What the window gives a snapshot.** -/
structure WindowTaken (c : ThrottleCtx) (s s' : StateSnapshot) : Prop where
  complete : s'.windowCompleteCount = devLatWindowSize
  span : s'.windowSpanUs ≤ devLatWindowMaxUs
  slow : s'.windowSlowCount ≤ s.windowSlowCount + devLatWindowSize
  fg : s'.windowFgCompleteCount ≤ s.windowFgCompleteCount + devLatWindowSize
  mean : c.window.Fits → s'.windowMeanDevUs ≤ u32Max
  rest : s' = { s with
    windowCompleteCount := s'.windowCompleteCount
    windowSpanUs := s'.windowSpanUs
    windowSlowCount := s'.windowSlowCount
    windowFgCompleteCount := s'.windowFgCompleteCount
    windowMeanDevUs := s'.windowMeanDevUs }

theorem windowTaken {c : ThrottleCtx} {s s' : StateSnapshot} {thr : ℕ}
    (h : c.windowSnapshotLocked s thr = some s') : WindowTaken c s s' := by
  unfold windowSnapshotLocked at h
  dsimp only at h
  split at h
  · exact absurd h (by simp)
  split at h
  · exact absurd h (by simp)
  split at h
  · exact absurd h (by simp)
  rename_i hspan
  obtain rfl := Option.some.inj h
  refine ⟨rfl, ?_, Nat.add_le_add_left List.countP_le_length _,
    Nat.add_le_add_left List.countP_le_length _, fun hfits => ?_, rfl⟩
  · rw [not_lt] at hspan
    exact (Nat.div_le_div_right hspan).trans_eq (Nat.mul_div_cancel _ (by decide))
  · have h0 := hfits 0
    have h1 := hfits 1
    have h2 := hfits 2
    have h3 := hfits 3
    have h4 := hfits 4
    simp only [List.map_cons, List.map_nil, List.sum_cons, List.sum_nil]
    refine Nat.div_le_of_le_mul ?_
    unfold devLatWindowSize
    omega

/-- The latencies of a reachable window fit into 32 bits. -/
theorem Throttle.fits_of_reachable {w : Throttle} (h : Throttle.machine.Reachable w) :
    w.ctx.window.Fits := by
  refine h.invariant (I := fun w => w.ctx.window.Fits) ?_ ?_
  · intro w hw i
    obtain ⟨q, n, -, hctx⟩ := hw.ctx
    rw [hctx]
    exact Nat.zero_le _
  · intro w op hw
    refine (turns_step w op).keeps_state (I := fun V => V.window.Fits) ?_ hw
    intro V es V' ht hV
    cases ht with
    | release n hn =>
      unfold DecisionView.reopen
      split <;> exact hV
    | fallback => exact fun i => Nat.zero_le _
    | sample x hx =>
      intro i
      show (Function.update V.window.devLat V.window.devLatHead x i).devLatUs ≤ u32Max
      by_cases hi : i = V.window.devLatHead
      · rw [hi, Function.update_self]
        exact hx
      · rw [Function.update_of_ne hi]
        exact hV i
    | _ => exact hV

/-! ## What a snapshot and the predictor agree on -/

/-- **A snapshot that was taken** has every relation the predictor asks for but
two, and fits into 32 bits. -/
structure SnapshotTaken (c : ThrottleCtx) (queueMax thr : ℕ) (s : StateSnapshot) : Prop where
  queueMax_ne : queueMax ≠ 0
  queueMax : s.queueMax = queueMax
  threshold : s.devLatThresholdUs = thr
  complete : s.windowCompleteCount = devLatWindowSize
  span : s.windowSpanUs ≤ devLatWindowMaxUs
  windowSlow : s.windowSlowCount ≤ devLatWindowSize
  windowFg : s.windowFgCompleteCount ≤ devLatWindowSize
  mean : s.windowMeanDevUs ≤ u32Max
  issued : s.deviceQCount = c.issuedDepth
  issued_le : s.deviceQCount ≤ u32Max
  fg : s.deviceQFgCount ≤ s.deviceQCount
  slow : s.deviceQSlowCount ≤ s.deviceQCount
  total_le : s.waitingTotalCount ≤ u32Max
  waiting : s.waitingCount ≤ s.waitingTotalCount
  waitingFg : s.waitingFg ≤ s.waitingTotalCount
  high : s.waitingHighIoprioCount ≤ s.waitingTotalCount
  contiguous : s.waitingToIssuedContiguousCount ≤ s.waitingTotalCount

theorem snapshotTaken {c : ThrottleCtx} {nowNs queueMax thr : ℕ} {s : StateSnapshot}
    (hbooks : c.books.Sound) (hfits : c.window.Fits)
    (h : (c.snapshotStateLocked nowNs queueMax thr).2 = some s) :
    SnapshotTaken c queueMax thr s := by
  unfold snapshotStateLocked at h
  dsimp only at h
  split at h
  · exact absurd h (by simp)
  rename_i hqueue
  split at h
  · exact absurd h (by simp)
  rename_i s₁ hwindow
  have hw := windowTaken hwindow
  have hun : s₁.unscanned = s₁ := by
    rw [hw.rest]
    rfl
  have hscan : ScanBounded s₁ (c.snapshotScan nowNs thr s₁) := scanBounded_snapshotScan hun
  obtain ⟨hissued, hwaiting⟩ := Throttle.snapshotScan_agrees hbooks nowNs thr s₁
  generalize c.snapshotScan nowNs thr s₁ = a at h hscan hissued hwaiting
  split at h
  · exact absurd h (by simp)
  obtain rfl := Option.some.inj h
  have hrest := hscan.rest
  have hwindow₁ := hw.rest
  refine ⟨hqueue, ?_, ?_, ?_, ?_, ?_, ?_, ?_, rfl, hbooks.balance_le .issuedDepth, ?_, ?_, ?_,
    hscan.waiting, hscan.waitingFg, hscan.high, hscan.contiguous⟩
  · exact (congrArg StateSnapshot.queueMax hrest).trans
      (congrArg StateSnapshot.queueMax hwindow₁)
  · exact (congrArg StateSnapshot.devLatThresholdUs hrest).trans
      (congrArg StateSnapshot.devLatThresholdUs hwindow₁)
  · exact (congrArg StateSnapshot.windowCompleteCount hrest).trans hw.complete
  · exact (congrArg StateSnapshot.windowSpanUs hrest).trans_le hw.span
  · exact (congrArg StateSnapshot.windowSlowCount hrest).trans_le
      (hw.slow.trans_eq (Nat.zero_add _))
  · exact (congrArg StateSnapshot.windowFgCompleteCount hrest).trans_le
      (hw.fg.trans_eq (Nat.zero_add _))
  · exact (congrArg StateSnapshot.windowMeanDevUs hrest).trans_le (hw.mean hfits)
  · exact hissued ▸ hscan.fg
  · exact hissued ▸ hscan.slow
  · show a.waitingSeen ≤ u32Max
    rw [hwaiting]
    exact Nat.le_of_lt_succ (Nat.mod_lt _ (by decide))

/-- **The validation leaves the depth of the queue to be compared.** -/
theorem inputValid_iff {c : ThrottleCtx} {queueMax thr : ℕ} {s : StateSnapshot}
    (h : SnapshotTaken c queueMax thr s) (hthr : thr ≠ 0) :
    inputValid s = true ↔ c.issuedDepth ≤ queueMax := by
  unfold inputValid
  simp only [Bool.not_eq_true', Bool.or_eq_false_iff, decide_eq_false_iff_not, not_lt,
    not_not]
  rw [h.queueMax, h.threshold, h.issued]
  constructor
  · rintro ⟨⟨⟨⟨⟨⟨⟨⟨⟨⟨⟨⟨-, -⟩, -⟩, -⟩, hle⟩, -⟩, -⟩, -⟩, -⟩, -⟩, -⟩, -⟩, -⟩
    exact hle
  · intro hle
    refine ⟨⟨⟨⟨⟨⟨⟨⟨⟨⟨⟨⟨h.queueMax_ne, hthr⟩, h.complete⟩, h.span⟩, hle⟩, ?_⟩, ?_⟩, ?_⟩,
      ?_⟩, h.waiting⟩, h.waitingFg⟩, h.high⟩, h.contiguous⟩
    · exact h.issued ▸ h.fg
    · exact h.issued ▸ h.slow
    · exact h.complete ▸ h.windowSlow
    · exact h.complete ▸ h.windowFg

/-- **The conversions leave the mean latency to be compared.** -/
theorem inputRatios_iff {c : ThrottleCtx} {queueMax thr : ℕ} {s : StateSnapshot}
    (h : SnapshotTaken c queueMax thr s) (hmax : queueMax ≤ u32Max) (hthr : thr ≠ 0)
    (hthrmax : thr ≤ u32Max) (hle : c.issuedDepth ≤ queueMax) :
    (∀ p ∈ inputRatios s, (ratioBits p.1 p.2).isSome = true)
      ↔ s.windowMeanDevUs < 2 ^ 24 * thr := by
  have hone {n d : ℕ} (hnd : n ≤ d) (hd : d ≤ u32Max) :
      (ratioBits n (max 1 d)).isSome = true := by
    refine ratioBits_of_le ?_ (hnd.trans (le_max_right 1 d)) (max_le (by decide) hd)
    exact Nat.one_le_iff_ne_zero.mp (le_max_left 1 d)
  have hqueue {n : ℕ} (hn : n ≤ queueMax) : (ratioBits n queueMax).isSome = true :=
    ratioBits_of_le h.queueMax_ne hn hmax
  have hmean := ratioBits_isSome (n := s.windowMeanDevUs) hthr h.mean hthrmax
  have hfive {n : ℕ} (hn : n ≤ devLatWindowSize) :
      (ratioBits n s.windowCompleteCount).isSome = true := by
    rw [h.complete]
    exact ratioBits_of_le (by decide) hn (by decide)
  unfold inputRatios
  simp only [List.forall_mem_cons]
  rw [h.queueMax, h.threshold, hmean]
  constructor
  · rintro ⟨-, -, -, hlt, -⟩
    exact hlt
  · intro hlt
    refine ⟨hqueue (h.issued ▸ hle), hone h.fg h.issued_le, hone h.slow h.issued_le, hlt,
      ratioBits_of_le (by decide) h.span (by decide), hfive h.windowSlow, hfive h.windowFg,
      hqueue (min_le_right _ _), hqueue (min_le_right _ _), hone h.high h.total_le,
      hone h.contiguous h.total_le, ?_⟩
    exact fun p hp => absurd hp List.not_mem_nil

/-- **What the predictor makes of a snapshot**, in the words of the source. -/
structure SnapshotAccepted (c : ThrottleCtx) (queueMax thr : ℕ) (s : StateSnapshot) :
    Prop where
  valid : inputValid s = true ↔ c.issuedDepth ≤ queueMax
  converted : inputValid s = true →
    ((∀ p ∈ inputRatios s, (ratioBits p.1 p.2).isSome = true)
      ↔ s.windowMeanDevUs < 2 ^ 24 * thr)
  accepted : (∃ bits, predictInput s = .ok bits)
    ↔ c.issuedDepth ≤ queueMax ∧ s.windowMeanDevUs < 2 ^ 24 * thr
  slowThreshold : 256 ≤ thr → s.windowMeanDevUs < 2 ^ 24 * thr

/-- **Snapshot and predictor agree but for two comparisons.** In every reachable
state a snapshot that is taken passes the predictor's validation exactly when
no more requests are issued than the queue is deep, and then all eleven ratios
are converted exactly when the mean latency is below `2 ^ 24` thresholds – which
it is for every threshold of 256 microseconds or more. -/
theorem snapshot_accepted_iff {w : Throttle} (h : Throttle.machine.Reachable w)
    {nowNs queueMax thr : ℕ} (hmax : queueMax ≤ u32Max)
    (hthr : ∃ g g' : Globals, g.setDevLatThreshold thr = .ok g') {s : StateSnapshot}
    (hs : (w.ctx.snapshotStateLocked nowNs queueMax thr).2 = some s) :
    SnapshotAccepted w.ctx queueMax thr s := by
  obtain ⟨hne, hle⟩ : thr ≠ 0 ∧ thr ≤ intMax := by
    obtain ⟨g, g', hg⟩ := hthr
    unfold Globals.setDevLatThreshold at hg
    split at hg
    · exact absurd hg (by simp)
    · rename_i hc
      rw [not_or, not_lt] at hc
      exact hc
  have htaken := snapshotTaken (Throttle.accounted_of_reachable h).books
    (Throttle.fits_of_reachable h) hs
  have hvalid := inputValid_iff htaken hne
  have hratios := inputRatios_iff htaken hmax hne (hle.trans (by decide))
  refine ⟨hvalid, fun hv => hratios (hvalid.mp hv), ?_, fun h256 => ?_⟩
  · unfold predictInput
    by_cases hv : inputValid s = true
    · rw [hv, if_neg (by decide), ← hratios (hvalid.mp hv), ← mapM_isSome]
      cases hbits : (inputRatios s).mapM (fun p => ratioBits p.1 p.2) with
      | none => exact iff_of_false (fun ⟨b, hb⟩ => by simp at hb) (fun hc => by simp at hc)
      | some bits => exact iff_of_true ⟨bits, rfl⟩ ⟨hvalid.mp hv, rfl⟩
    · rw [Bool.not_eq_true] at hv
      rw [hv, if_pos (show (!false) = true from rfl)]
      refine iff_of_false (fun ⟨b, hb⟩ => by simp at hb) (fun hc => ?_)
      exact Bool.false_ne_true (hv.symm.trans (hvalid.mpr hc.1))
  · have hmean := htaken.mean
    unfold u32Max at hmean
    omega

namespace Throttle

/-- A queue that has seen five requests of a millisecond, and has issued two more
than one at a time. -/
def overissuedQueue : Throttle :=
  machine.run (attach 2 [.setThrottleEnabled true, .setQueueDepth 1])
    (slowRequests ++ [.recordIssue 1 idleTask 2000000, .recordIssue 2 idleTask 2000000])

/-- A queue with a threshold of one microsecond that has seen five requests of
`2 ^ 24`. -/
def stalledQueue : Throttle :=
  machine.run (attach 2 [.setDevLatThreshold 1, .setThrottleEnabled true, .setQueueDepth 1])
    ([1, 2, 3, 4, 5].flatMap (fun k =>
      [.recordIssue 0 idleTask k, .recordComplete 0 0 (2 ^ 24 * 1000 + k)]))

/-- **Two snapshots that the predictor refuses**: one with more requests issued
than the queue is deep, and one with a latency far above the threshold. -/
theorem snapshot_refused :
    machine.Reachable overissuedQueue
      ∧ (overissuedQueue.ctx.snapshotStateLocked 3000000 1 600).2.map inputValid
        = some false
      ∧ machine.Reachable stalledQueue
      ∧ (stalledQueue.ctx.snapshotStateLocked (2 ^ 35) 1 1).2.map
          (fun s => (inputValid s, (ratioBits s.windowMeanDevUs s.devLatThresholdUs).isSome))
        = some (true, false) := by
  refine ⟨reachable_attach _ _, ?_, reachable_attach _ _, ?_⟩
  · decide +kernel
  · decide +kernel

/-- The same queue, taken as deep as two requests, gives a snapshot that is
accepted. -/
theorem snapshot_accepted_overissued :
    ∃ s, (overissuedQueue.ctx.snapshotStateLocked 3000000 2 600).2 = some s
      ∧ SnapshotAccepted overissuedQueue.ctx 2 600 s := by
  have hsome : (overissuedQueue.ctx.snapshotStateLocked 3000000 2 600).2.isSome = true := by
    decide +kernel
  obtain ⟨s, hs⟩ := Option.isSome_iff_exists.mp hsome
  exact ⟨s, hs, snapshot_accepted_iff (reachable_attach _ _) (by decide)
    ⟨.initial, _, rfl⟩ hs⟩

end Throttle
