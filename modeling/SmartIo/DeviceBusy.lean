import SmartIo.IoRecords
import SmartIo.Timeline

/-!
# How busy the device is

The module adds up for how long requests were in flight, from the start of the present
window of the statistics on. It does so at the completions that leave none in flight;
the time since the first of those that are in flight is not in the sum yet, and is what
`ts_busy_start` is for. A window that ends while requests are in flight cuts that time
in two. Completions may come of requests whose issue the module has not counted, and
are passed over when nothing is in flight.

What the sum and the open interval come to is the time of the window in which the
counter was positive (`UtilWindow.busy_exact`). So the utilization is what it should
be – except that there is none in raw mode, which asks for no statistics.
-/

/-- The device in the present window: `in_flight`, `busy_ns` and `ts_busy_start`, and
`util_window_start`. -/
structure UtilWindow where
  util : DeviceUtil
  utilWindowStart : ℕ
deriving DecidableEq, Repr

/-- The functions that use it. -/
inductive UtilOp where
  | deviceIssueAccount
  | deviceCompleteAccount
  | rollCompletedBucket
  | snapshotDeviceUtil (raw : Bool)
deriving DecidableEq, Repr

/-- A call of one of them, at a time. -/
structure UtilCall where
  nowNs : ℕ
  op : UtilOp
deriving DecidableEq, Repr

namespace UtilWindow

/-- `smart_io_semantics_init`. -/
def start (nowNs : ℕ) : UtilWindow := ⟨⟨0, 0, 0⟩, nowNs⟩

/-- The end of `roll_completed_bucket`. -/
def rollCompletedBucket (w : UtilWindow) (nowNs : ℕ) : UtilWindow where
  util :=
    { w.util with
      busyNs := 0
      tsBusyStart := if 0 < w.util.inFlight then nowNs else w.util.tsBusyStart }
  utilWindowStart := nowNs

/-- `snapshot_device_util`. The product is a `u64`. -/
def snapshotDeviceUtil (w : UtilWindow) (nowNs : ℕ) (raw : Bool) : ℕ :=
  if raw then 0
  else
    let elapsed := nowNs - w.utilWindowStart
    let busy :=
      if 0 < w.util.inFlight ∧ w.util.tsBusyStart ≠ 0 then
        w.util.busyNs + (nowNs - w.util.tsBusyStart)
      else w.util.busyNs
    if elapsed ≠ 0 then min 100 (busy * 100 % 2 ^ 64 / elapsed) else 0

/-- A call, and what it returns. -/
def call (w : UtilWindow) (c : UtilCall) : UtilWindow × Option ℕ :=
  match c.op with
  | .deviceIssueAccount => ({ w with util := w.util.issueAccount c.nowNs }, none)
  | .deviceCompleteAccount => ({ w with util := w.util.completeAccount c.nowNs }, none)
  | .rollCompletedBucket => (w.rollCompletedBucket c.nowNs, none)
  | .snapshotDeviceUtil raw => (w, some (w.snapshotDeviceUtil c.nowNs raw))

/-- The machine. -/
def machine : StepMachine UtilWindow UtilCall (Option ℕ) where
  init w := ∃ nowNs, w = start nowNs
  step := call

/-! ## What is claimed of the sum -/

/-- **The busy time** at an instant: the sum, and the interval that is open. -/
def busyAt (w : UtilWindow) (nowNs : ℕ) : ℕ :=
  w.util.busyNs + if 0 < w.util.inFlight then nowNs - w.util.tsBusyStart else 0

/-- Whether requests are in flight at an instant of a run. -/
def BusyAt (startNs : ℕ) (calls : List UtilCall) (nowNs : ℕ) : Prop :=
  0 < (machine.stateAt UtilCall.nowNs (start startNs) calls nowNs).util.inFlight

instance (startNs : ℕ) (calls : List UtilCall) : DecidablePred (BusyAt startNs calls) :=
  fun _ => inferInstanceAs (Decidable (0 < _))

/-- The calls of a run come in order, from its start to the present. -/
def InOrder (startNs : ℕ) (calls : List UtilCall) (nowNs : ℕ) : Prop :=
  (startNs :: (calls.map UtilCall.nowNs ++ [nowNs])).Pairwise (· ≤ ·)

instance (startNs : ℕ) (calls : List UtilCall) (nowNs : ℕ) :
    Decidable (InOrder startNs calls nowNs) :=
  inferInstanceAs (Decidable (List.Pairwise _ _))

/-! ## Calls -/

variable {w : UtilWindow} {c : UtilCall} {lastNs nowNs startNs : ℕ} {calls : List UtilCall}

/-- **Times are in order**: the window has started, and so has an interval that is
open. -/
structure Timed (w : UtilWindow) (lastNs : ℕ) : Prop where
  window : w.utilWindowStart ≤ lastNs
  busy : 0 < w.util.inFlight → 0 < w.util.tsBusyStart ∧ w.util.tsBusyStart ≤ lastNs

theorem timed_start (startNs : ℕ) : Timed (start startNs) startNs :=
  ⟨Nat.le_refl startNs, fun h => absurd h (Nat.lt_irrefl 0)⟩

/-- Time goes by. -/
theorem Timed.mono (h : Timed w lastNs) (hle : lastNs ≤ nowNs) : Timed w nowNs :=
  ⟨h.window.trans hle, fun hpos => ⟨(h.busy hpos).1, (h.busy hpos).2.trans hle⟩⟩

/-- What is open grows with the time. -/
theorem Timed.busyAt_later (h : Timed w lastNs) (hle : lastNs ≤ nowNs) :
    w.busyAt nowNs = w.busyAt lastNs + if 0 < w.util.inFlight then nowNs - lastNs else 0 := by
  unfold busyAt
  split
  · next hpos =>
    have hstart := (h.busy hpos).2
    omega
  · rfl

/-- **An issue** opens an interval if there is none. -/
theorem Timed.issue (h : Timed w lastNs) (hlast : 0 < lastNs) :
    Timed { w with util := w.util.issueAccount lastNs } lastNs
      ∧ busyAt { w with util := w.util.issueAccount lastNs } lastNs = w.busyAt lastNs := by
  unfold DeviceUtil.issueAccount busyAt
  dsimp only
  by_cases hfirst : w.util.inFlight + 1 = 1
  · have hnone : ¬ 0 < w.util.inFlight := by omega
    rw [if_pos hfirst, if_pos (Nat.succ_pos _), if_neg hnone, Nat.sub_self]
    exact ⟨⟨h.window, fun _ => ⟨hlast, Nat.le_refl lastNs⟩⟩, rfl⟩
  · have hsome : 0 < w.util.inFlight := by omega
    rw [if_neg hfirst, if_pos (Nat.succ_pos _), if_pos hsome]
    exact ⟨⟨h.window, fun _ => h.busy hsome⟩, rfl⟩

/-- **A completion** puts the open interval in the sum if it is the last. -/
theorem Timed.complete (h : Timed w lastNs) :
    Timed { w with util := w.util.completeAccount lastNs } lastNs
      ∧ busyAt { w with util := w.util.completeAccount lastNs } lastNs = w.busyAt lastNs := by
  unfold DeviceUtil.completeAccount
  by_cases hpos : 0 < w.util.inFlight
  · obtain ⟨hopen, hstart⟩ := h.busy hpos
    rw [if_pos hpos]
    by_cases hlast : w.util.inFlight - 1 = 0
    · rw [if_pos hlast]
      refine ⟨⟨h.window, fun hno => absurd hno (Nat.lt_irrefl 0)⟩, ?_⟩
      unfold busyAt
      dsimp only
      rw [if_pos hpos, if_neg (Nat.lt_irrefl 0), Nat.add_zero]
      split
      · rfl
      · next hsame =>
        -- the interval opened just now
        have heq : w.util.tsBusyStart = lastNs := by
          by_contra hne
          exact hsame ⟨Nat.ne_of_gt hopen, Nat.lt_of_le_of_ne hstart hne⟩
        rw [heq, Nat.sub_self, Nat.add_zero]
    · rw [if_neg hlast]
      refine ⟨⟨h.window, fun _ => h.busy hpos⟩, ?_⟩
      unfold busyAt
      dsimp only
      rw [if_pos hpos, if_pos (Nat.pos_of_ne_zero hlast)]
  · rw [if_neg hpos]
    exact ⟨h, rfl⟩

/-- **A window that ends** leaves no busy time to the next, whose open interval starts
with it. -/
theorem Timed.roll (w : UtilWindow) (hlast : 0 < lastNs) :
    Timed (w.rollCompletedBucket lastNs) lastNs
      ∧ (w.rollCompletedBucket lastNs).busyAt lastNs = 0 := by
  unfold rollCompletedBucket busyAt
  by_cases hpos : 0 < w.util.inFlight
  · rw [if_pos hpos]
    refine ⟨⟨Nat.le_refl lastNs, fun _ => ⟨hlast, Nat.le_refl lastNs⟩⟩, ?_⟩
    dsimp only
    rw [if_pos hpos, Nat.sub_self]
  · rw [if_neg hpos]
    refine ⟨⟨Nat.le_refl lastNs, fun hno => absurd hno hpos⟩, ?_⟩
    dsimp only
    rw [if_neg hpos]

/-- **A call** leaves the busy time as it is, unless it starts a window. -/
theorem Timed.call (h : Timed w c.nowNs) (hnow : 0 < c.nowNs) :
    Timed (w.call c).1 c.nowNs
      ∧ ((w.call c).1.utilWindowStart = w.utilWindowStart
          ∧ (w.call c).1.busyAt c.nowNs = w.busyAt c.nowNs
        ∨ (w.call c).1.utilWindowStart = c.nowNs ∧ (w.call c).1.busyAt c.nowNs = 0) := by
  unfold UtilWindow.call
  cases c.op with
  | deviceIssueAccount =>
    obtain ⟨htimed, hbusy⟩ := h.issue hnow
    exact ⟨htimed, Or.inl ⟨rfl, hbusy⟩⟩
  | deviceCompleteAccount =>
    obtain ⟨htimed, hbusy⟩ := h.complete
    exact ⟨htimed, Or.inl ⟨rfl, hbusy⟩⟩
  | rollCompletedBucket =>
    obtain ⟨htimed, hbusy⟩ := Timed.roll w hnow
    exact ⟨htimed, Or.inr ⟨rfl, hbusy⟩⟩
  | snapshotDeviceUtil raw => exact ⟨h, Or.inl ⟨rfl, rfl⟩⟩

/-! ## Runs -/

/-- A run up to its last call is in order. -/
theorem InOrder.init (h : InOrder startNs (calls ++ [c]) nowNs) :
    InOrder startNs calls c.nowNs ∧ c.nowNs ≤ nowNs := by
  unfold InOrder at h ⊢
  rw [List.map_append, List.map_singleton, ← List.cons_append, List.pairwise_append] at h
  exact ⟨h.1, h.2.2 c.nowNs (List.mem_cons_of_mem _ (List.mem_append_right _
    (List.mem_singleton_self _))) nowNs (List.mem_singleton_self _)⟩

/-- The start and the calls of a run come before the present. -/
theorem InOrder.le (h : InOrder startNs calls nowNs) :
    startNs ≤ nowNs ∧ ∀ c ∈ calls, c.nowNs ≤ nowNs := by
  unfold InOrder at h
  rw [← List.cons_append, List.pairwise_append] at h
  refine ⟨h.2.2 startNs List.mem_cons_self nowNs (List.mem_singleton_self _), fun c hc => ?_⟩
  exact h.2.2 c.nowNs (List.mem_cons_of_mem _ (List.mem_map_of_mem hc)) nowNs
    (List.mem_singleton_self _)

/-- **A run** has the busy time of its window. -/
theorem run_timed (hstart : 0 < startNs) (h : InOrder startNs calls nowNs) :
    Timed (machine.run (start startNs) calls) nowNs
      ∧ (machine.run (start startNs) calls).busyAt nowNs
        = timeOn (BusyAt startNs calls) (machine.run (start startNs) calls).utilWindowStart
            nowNs := by
  induction calls using List.reverseRecOn generalizing nowNs with
  | nil =>
    refine ⟨(timed_start startNs).mono h.le.1, ?_⟩
    have hidle : ∀ t, startNs ≤ t → (BusyAt startNs [] t ↔ False) :=
      fun _ _ => ⟨fun hpos => absurd hpos (Nat.lt_irrefl 0), False.elim⟩
    exact (timeOn_const hidle).symm
  | append_singleton calls c ih =>
    obtain ⟨hinit, hnow⟩ := h.init
    obtain ⟨htimed, hbusy⟩ := ih hinit
    have hpos : 0 < c.nowNs := Nat.lt_of_lt_of_le hstart hinit.le.1
    obtain ⟨hcall, hwindow⟩ := htimed.call hpos
    have hrun : machine.run (start startNs) (calls ++ [c])
        = ((machine.run (start startNs) calls).call c).1 := machine.run_append _ _ _
    have htime := StepMachine.timeOn_snoc (M := machine) (s := start startNs) UtilCall.nowNs
      (fun w => 0 < w.util.inFlight) hcall.window hnow hinit.le.2
    rw [hrun] at htime ⊢
    refine ⟨hcall.mono hnow, ?_⟩
    rw [hcall.busyAt_later hnow]
    refine Eq.trans ?_ htime.symm
    refine congrArg (· + _) ?_
    rcases hwindow with ⟨hsame, hsum⟩ | ⟨hnew, hsum⟩
    · rw [hsum, hsame]
      exact hbusy
    · rw [hsum, hnew, timeOn_self]

/-- What `snapshot_device_util` divides is the busy time. -/
theorem Timed.snapshot (h : Timed w nowNs) :
    w.snapshotDeviceUtil nowNs false
      = if nowNs - w.utilWindowStart ≠ 0 then
          min 100 (w.busyAt nowNs * 100 % 2 ^ 64 / (nowNs - w.utilWindowStart)) else 0 := by
  have hbusy : (if 0 < w.util.inFlight ∧ w.util.tsBusyStart ≠ 0 then
      w.util.busyNs + (nowNs - w.util.tsBusyStart) else w.util.busyNs) = w.busyAt nowNs := by
    unfold busyAt
    by_cases hpos : 0 < w.util.inFlight
    · rw [if_pos hpos, if_pos ⟨hpos, Nat.ne_of_gt (h.busy hpos).1⟩]
    · rw [if_neg hpos, if_neg fun hand => hpos hand.1, Nat.add_zero]
  unfold snapshotDeviceUtil
  rw [if_neg Bool.false_ne_true]
  dsimp only
  rw [hbusy]

/-- **The busy time is exact** in every state of every run, and so is the utilization,
outside raw mode. -/
theorem busy_exact (hstart : 0 < startNs) (h : InOrder startNs calls nowNs) :
    let w := machine.run (start startNs) calls
    w.busyAt nowNs = timeOn (BusyAt startNs calls) w.utilWindowStart nowNs
      ∧ w.busyAt nowNs ≤ nowNs - w.utilWindowStart
      ∧ w.snapshotDeviceUtil nowNs true = 0
      ∧ (0 < nowNs - w.utilWindowStart → nowNs - w.utilWindowStart < 2 ^ 57 →
          w.snapshotDeviceUtil nowNs false
            = 100 * w.busyAt nowNs / (nowNs - w.utilWindowStart)) := by
  intro w
  obtain ⟨htimed, hbusy⟩ := run_timed hstart h
  have hle : w.busyAt nowNs ≤ nowNs - w.utilWindowStart := by
    rw [show w.busyAt nowNs = timeOn (BusyAt startNs calls) w.utilWindowStart nowNs from hbusy]
    exact timeOn_le _ _ _
  refine ⟨hbusy, hle, rfl, fun hpos hwindow => ?_⟩
  have hsmall : w.busyAt nowNs * 100 < 2 ^ 64 := by omega
  have hpct : 100 * w.busyAt nowNs / (nowNs - w.utilWindowStart) ≤ 100 :=
    Nat.div_le_of_le_mul (by rw [Nat.mul_comm]; exact Nat.mul_le_mul_right 100 hle)
  rw [htimed.snapshot, if_pos (Nat.ne_of_gt hpos), Nat.mod_eq_of_lt hsmall, Nat.mul_comm,
    Nat.min_eq_right hpct]

/-- Two requests overlap, and a window ends between their completions. -/
theorem busy_exact_overlap :
    (machine.run (start 1) [⟨2, .deviceIssueAccount⟩, ⟨3, .deviceIssueAccount⟩,
      ⟨5, .deviceCompleteAccount⟩, ⟨6, .rollCompletedBucket⟩,
      ⟨9, .deviceCompleteAccount⟩]).snapshotDeviceUtil 10 false = 75 := by
  refine ((busy_exact (by decide) ?_).2.2.2 ?_ ?_).trans ?_
  · decide
  · decide
  · decide
  · decide

/-- In raw mode there is no utilization, however busy the device is. -/
theorem snapshot_raw :
    ¬ ∀ startNs calls nowNs raw, 0 < startNs → InOrder startNs calls nowNs →
      let w := machine.run (start startNs) calls
      0 < nowNs - w.utilWindowStart → nowNs - w.utilWindowStart < 2 ^ 57 →
        w.snapshotDeviceUtil nowNs raw = 100 * w.busyAt nowNs / (nowNs - w.utilWindowStart) := by
  intro h
  have hraw := h 1 [⟨1, .deviceIssueAccount⟩] 5 true (by decide) (by decide) (by decide)
    (by decide)
  exact absurd hraw (by decide)

end UtilWindow
