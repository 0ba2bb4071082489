import SmartIo.ThrottleWakeup
import SmartIo.ThrottleDecisions

/-!
# The inference timer

A decision has three milliseconds. The timer that counts them is armed and
cancelled outside the lock of the context, and its callback asks for no number: it
marks whatever decision is pending as late, and the work item it queues abandons
whatever is pending and late. Meanwhile other processors may end that decision and
start the next one.

Here every call to the timer is a step of its own. A caller whose lock section has
ended stands in `calls` until it is done with the timer, and any other step may
overtake it. For which decision the timer was armed is noted beside it; the code
keeps no such note.

A timer hits its own decision as long as no decision is started while the timer of
an earlier one is about (`InTime`), and no longer: the decision that is started then
can be the one that is timed out. The callers that put an action in force, find no
state, or fail to queue the work item do cancel the timer. The ones that fall back
otherwise – a model that fails, a pool that runs out – leave it armed.
-/

/-! ## The timer and its callers -/

/-- How far a caller is that arms or cancels the timer. -/
inductive TimerCall where
  /-- `smart_io_throttle_schedule_inference` for a decision, before `hrtimer_start`. -/
  | scheduleStart (decisionId : ℕ)
  /-- The same before `queue_work`. -/
  | scheduleQueue
  /-- The same before `hrtimer_cancel`, as `queue_work` refused. -/
  | scheduleCancel
  /-- The same before its lock section. -/
  | scheduleFallback
  /-- `smart_io_throttle_dispatch_model_if_needed` with a decision it submitted, before
  `hrtimer_start`. -/
  | dispatchStart (decisionId : ℕ)
  /-- `smart_io_throttle_inference_work` with an action in force, or
  `smart_io_throttle_model_thread_run` without a state, before `hrtimer_cancel`. -/
  | cancel
  /-- `smart_io_throttle_reset_context` or `smart_io_throttle_queue_exit`, before
  `hrtimer_cancel`. -/
  | resetCancel
  /-- The same before `cancel_work_sync`. -/
  | resetCancelWork
deriving DecidableEq, Repr

/-- The decision a caller is about to arm the timer for. -/
def TimerCall.decision : TimerCall → Option ℕ
  | .scheduleStart d | .dispatchStart d => some d
  | _ => none

/-- How far the callback is: it expired and waits for the lock, or is past its section
and queues the work item, or not. -/
inductive TimerCallback where
  | entered (decisionId : ℕ)
  | leaving (queueTimeout : Bool)
deriving DecidableEq, Repr

/-- The decision for which the callback's timer was armed, until its section. -/
def TimerCallback.decision : TimerCallback → Option ℕ
  | .entered d => some d
  | .leaving _ => none

/-- The throttle of a queue with its timer. -/
structure TimedThrottle where
  throttle : Throttle
  /-- The timer runs, and was last armed for this decision. -/
  armed : Option ℕ
  callback : Option TimerCallback
  calls : List TimerCall
  /-- `timeout_work` is queued. -/
  timeoutQueued : Bool
  /-- The decision whose timer set `inference_timed_out` last. -/
  timedOutBy : Option ℕ

/-- The steps of a throttle with its timer. `call` is the next step of a caller that is
under way; `queued` is what `queue_work` returns if that is it. -/
inductive TimedOp where
  | lockSection (op : ThrottleOp)
  | call (i : ℕ) (queued : Bool)
  | expire
  | inferenceTimer
  | inferenceTimerReturn
  | timeoutWork
deriving DecidableEq, Repr

/-- An event that starts a decision. -/
def DecisionEvent.starts : DecisionEvent → Bool
  | .started _ _ => true
  | _ => false

/-- The sections that belong to a step of the timer or of a caller. -/
def ThrottleOp.onTimer : ThrottleOp → Bool
  | .scheduleFallback | .inferenceTimer | .timeoutWork => true
  | _ => false

/-- The steps of the timer, of its callback and of the callers. -/
def TimedOp.ofTimer : TimedOp → Bool
  | .lockSection _ => false
  | _ => true

namespace Throttle

/-- Whether the model thread finds no state for a decision. -/
def stateInvalid (w : Throttle) (nowNs : ℕ) : Bool :=
  let c := w.ctx
  c.control.inferencePending && !c.control.inferenceTimedOut && !c.dying
    && decide (c.pending.source = .model)
    && (c.snapshotStateLocked nowNs w.globals.queueDepth
      w.globals.devLatThresholdUs).2.isNone

/-- What a section goes on to do with the timer. -/
def timerCalls (w : Throttle) : ThrottleOp → List TimerCall
  | .recordComplete rq nrBytes nowNs =>
    let p := w.recordComplete rq nrBytes nowNs
    if p.2.scheduleInference then [.scheduleStart p.1.ctx.pending.decisionId] else []
  | .dispatchModelIfNeeded slotFree =>
    if w.globals.throttleEnabled && w.ctx.modelDispatchNeededLocked && slotFree then
      [.dispatchStart w.ctx.pending.decisionId]
    else []
  | .modelThreadRun nowNs => if w.stateInvalid nowNs then [.cancel] else []
  | .inferenceWorkFinish i predicted =>
    if (w.inferenceWorkFinish i predicted).2.installed.isSome then [.cancel] else []
  | .resetContext .. | .setDying => [.resetCancel]
  | _ => []

/-- Whether a section starts a decision. -/
def startsDecision (w : Throttle) (op : ThrottleOp) : Bool :=
  (w.decisionEvents op).any DecisionEvent.starts

/-- The decision that `smart_io_throttle_timeout_work` abandons. -/
def abandoned (w : Throttle) : Option ℕ :=
  if w.ctx.control.inferencePending && w.ctx.control.inferenceTimedOut then
    some w.ctx.pending.decisionId
  else none

end Throttle

namespace TimedThrottle

/-- A queue that has just been attached. -/
def attach (w : Throttle) : TimedThrottle := ⟨w, none, none, [], false, none⟩

/-- A caller's next step. `hrtimer_start` arms a timer that runs once more, and
`hrtimer_cancel` waits for the callback. -/
def call (s : TimedThrottle) (i : ℕ) (queued : Bool) : TimedThrottle :=
  match s.calls[i]? with
  | none => s
  | some (.scheduleStart d) =>
    { s with armed := some d, calls := s.calls.set i .scheduleQueue }
  | some .scheduleQueue =>
    if queued then { s with calls := s.calls.eraseIdx i }
    else { s with calls := s.calls.set i .scheduleCancel }
  | some .scheduleCancel =>
    if s.callback = none then { s with armed := none, calls := s.calls.set i .scheduleFallback }
    else s
  | some .scheduleFallback =>
    { s with throttle := s.throttle.scheduleFallback.1, calls := s.calls.eraseIdx i }
  | some (.dispatchStart d) => { s with armed := some d, calls := s.calls.eraseIdx i }
  | some .cancel =>
    if s.callback = none then { s with armed := none, calls := s.calls.eraseIdx i } else s
  | some .resetCancel =>
    if s.callback = none then { s with armed := none, calls := s.calls.set i .resetCancelWork }
    else s
  | some .resetCancelWork => { s with timeoutQueued := false, calls := s.calls.eraseIdx i }

/-- The section of `smart_io_throttle_inference_timer`, when the timer was armed for a
decision. -/
def inferenceTimer (s : TimedThrottle) (d : ℕ) : TimedThrottle :=
  let hit := s.throttle.ctx.control.inferencePending && !s.throttle.ctx.dying
  { s with
    throttle := s.throttle.inferenceTimer.1
    callback := some (.leaving hit)
    timedOutBy := if hit then some d else s.timedOutBy }

/-- One step. It answers the decision that a timeout abandons. -/
def step (s : TimedThrottle) : TimedOp → TimedThrottle × Option ℕ
  | .lockSection op =>
    if op.onTimer then (s, none)
    else ({ s with
      throttle := (s.throttle.step op).1
      calls := s.calls ++ s.throttle.timerCalls op }, none)
  | .call i queued => (s.call i queued, none)
  | .expire =>
    match s.armed, s.callback with
    | some d, none => ({ s with armed := none, callback := some (.entered d) }, none)
    | _, _ => (s, none)
  | .inferenceTimer =>
    match s.callback with
    | some (.entered d) => (s.inferenceTimer d, none)
    | _ => (s, none)
  | .inferenceTimerReturn =>
    match s.callback with
    | some (.leaving queueTimeout) =>
      ({ s with callback := none, timeoutQueued := s.timeoutQueued || queueTimeout }, none)
    | _ => (s, none)
  | .timeoutWork =>
    if s.timeoutQueued then
      ({ s with throttle := s.throttle.timeoutWork.1, timeoutQueued := false },
        s.throttle.abandoned)
    else (s, none)

/-- **The throttle of a queue with its timer**, from the moment the queue is attached. -/
def machine : StepMachine TimedThrottle TimedOp (Option ℕ) where
  init s := ∃ w, Throttle.Attached w ∧ s = attach w
  step := step

/-! ## What is asked of a run -/

/-- **A timeout hits its own decision**: the timer that expired was armed by the
submission of the decision that is abandoned. -/
def OwnTimeout (s : TimedThrottle) (op : TimedOp) : Prop :=
  ∀ d ∈ machine.out s op, s.timedOutBy = some d

instance (s : TimedThrottle) (op : TimedOp) : Decidable (OwnTimeout s op) :=
  inferInstanceAs (Decidable (∀ d ∈ machine.out s op, s.timedOutBy = some d))

/-- **Only own timeouts can follow**, whatever the timer and the callers do next. -/
def TimesOutOwn (s : TimedThrottle) : Prop :=
  ∀ ops : List TimedOp, (∀ op ∈ ops, op.ofTimer = true) → machine.StepsMeet OwnTimeout s ops

/-- The decisions whose timer may still expire: it runs, or the callback has not had
its section, or a caller is about to arm it. -/
def outstanding (s : TimedThrottle) : List ℕ :=
  s.armed.toList ++ (s.callback.bind TimerCallback.decision).toList
    ++ s.calls.filterMap TimerCall.decision

/-- **A decision is started in time**: no timer of an earlier one is about. -/
def InTime (s : TimedThrottle) : TimedOp → Prop
  | .lockSection op => s.throttle.startsDecision op = true → s.outstanding = []
  | _ => True

instance : ∀ (s : TimedThrottle) (op : TimedOp), Decidable (InTime s op)
  | s, .lockSection op =>
    inferInstanceAs (Decidable (s.throttle.startsDecision op = true → s.outstanding = []))
  | _, .call _ _ | _, .expire | _, .inferenceTimer | _, .inferenceTimerReturn
  | _, .timeoutWork => isTrue trivial

theorem mem_outstanding {s : TimedThrottle} {d : ℕ} :
    d ∈ s.outstanding ↔ s.armed = some d ∨ s.callback = some (.entered d)
      ∨ ∃ call ∈ s.calls, call.decision = some d := by
  have hcallback : s.callback.bind TimerCallback.decision = some d
      ↔ s.callback = some (.entered d) := by
    rcases s.callback with _ | ⟨e⟩ | ⟨q⟩
    · simp
    · simp [TimerCallback.decision]
    · simp [TimerCallback.decision]
  unfold outstanding
  rw [List.mem_append, List.mem_append, Option.mem_toList, Option.mem_toList,
    List.mem_filterMap, hcallback, or_assoc]

end TimedThrottle

/-! ## Decisions and their numbers -/

namespace DecisionView

/-- A pending decision is the one that was numbered last. -/
def Current (V : DecisionView) : Prop :=
  V.inferencePending = true → V.pending.decisionId = V.decisionId

theorem Current.turn {g : Globals} {V V' : DecisionView} {es : List DecisionEvent}
    (h : V.Current) (ht : Turn g V es V') : V'.Current := by
  cases ht with
  | release n hn =>
    unfold reopen
    split <;> exact h
  | fallback => exact fun hp => absurd hp Bool.false_ne_true
  | configure hp => exact fun hp' => absurd (hp.symm.trans hp') Bool.false_ne_true
  | start newControl henabled hdying hp hsource => exact fun _ => rfl
  | startWith newControl s henabled hdying hp hsource => exact fun _ => rfl
  | install f predicted computed a hcomputed hawaits hdying hqueue htarget =>
    exact fun hp => absurd hp Bool.false_ne_true
  | _ => exact h

end DecisionView

theorem ThrottleCtx.current_turns {g : Globals} {c c' : ThrottleCtx} {es : List DecisionEvent}
    (h : c.decisions.Current) (ht : Turns g c es c') : c'.decisions.Current :=
  ht.keeps_state (I := DecisionView.Current) (fun _ _ _ hmove hV => hV.turn hmove) h

/-- **The numbers only grow**, and a decision that is pending was so before, unless one
is started. -/
structure Numbered (V : DecisionView) (es : List DecisionEvent) (V' : DecisionView) : Prop where
  grows : V.decisionId ≤ V'.decisionId
  started : es.any DecisionEvent.starts = true → V.decisionId < V'.decisionId
  quiet : es.any DecisionEvent.starts = false →
    V'.decisionId = V.decisionId ∧ (V'.inferencePending = true → V.inferencePending = true)

namespace Numbered

variable {V V' V'' : DecisionView} {es fs : List DecisionEvent}

/-- A move that starts nothing. -/
theorem of_quiet (hes : es.any DecisionEvent.starts = false)
    (hid : V'.decisionId = V.decisionId)
    (hp : V'.inferencePending = true → V.inferencePending = true) : Numbered V es V' where
  grows := hid.ge
  started := fun h => absurd (hes.symm.trans h) Bool.false_ne_true
  quiet := fun _ => ⟨hid, hp⟩

/-- A move that starts a decision. -/
theorem of_start (hes : es.any DecisionEvent.starts = true)
    (hid : V'.decisionId = V.decisionId + 1) : Numbered V es V' where
  grows := hid ▸ Nat.le_succ _
  started := fun _ => hid ▸ Nat.lt_succ_self _
  quiet := fun h => Bool.noConfusion (hes.symm.trans h)

theorem trans (h₁ : Numbered V es V') (h₂ : Numbered V' fs V'') : Numbered V (es ++ fs) V'' where
  grows := h₁.grows.trans h₂.grows
  started h := by
    rw [List.any_append, Bool.or_eq_true] at h
    rcases h with h | h
    · exact (h₁.started h).trans_le h₂.grows
    · exact h₁.grows.trans_lt (h₂.started h)
  quiet h := by
    rw [List.any_append, Bool.or_eq_false_iff] at h
    obtain ⟨hid₁, hp₁⟩ := h₁.quiet h.1
    obtain ⟨hid₂, hp₂⟩ := h₂.quiet h.2
    exact ⟨hid₂.trans hid₁, hp₁ ∘ hp₂⟩

theorem turn {g : Globals} (ht : Turn g V es V') : Numbered V es V' := by
  cases ht with
  | release n hn =>
    refine of_quiet rfl ?_ ?_
    · unfold DecisionView.reopen
      split <;> rfl
    · unfold DecisionView.reopen
      split <;> exact id
  | fallback => exact of_quiet rfl rfl (fun hp => absurd hp Bool.false_ne_true)
  | start newControl henabled hdying hp hsource => exact of_start rfl rfl
  | startWith newControl s henabled hdying hp hsource => exact of_start rfl rfl
  | install f predicted computed a hcomputed hawaits hdying hqueue htarget =>
    exact of_quiet rfl rfl (fun hp => absurd hp Bool.false_ne_true)
  | _ => exact of_quiet rfl rfl id

theorem turns {g : Globals} {c c' : ThrottleCtx} (ht : Turns g c es c') :
    Numbered c.decisions es c'.decisions := by
  have hchain : Chain (Turn g) c.decisions es c'.decisions := ht
  exact hchain.keeps (I := Numbered c.decisions) (fun _ _ _ _ hmove h => h.trans (turn hmove))
    (h := []) (of_quiet rfl rfl id)

end Numbered

/-! ## Where decisions are started -/

namespace ThrottleCtx

/-- A decision has just been started: it is pending, and not late. -/
structure Started (c : ThrottleCtx) : Prop where
  pending : c.control.inferencePending = true
  notLate : c.control.inferenceTimedOut = false
  alive : c.dying = false

theorem started_startInferenceLocked {c : ThrottleCtx} {g : Globals} {newControl : Bool}
    {nowNs : ℕ} (h : (c.startInferenceLocked g newControl nowNs).2 = true) :
    (c.startInferenceLocked g newControl nowNs).1.Started := by
  have hsnap := (c.snapshotConfigLocked g).decisions_snapshotStateLocked nowNs
    g.queueDepth g.devLatThresholdUs
  unfold startInferenceLocked at h ⊢
  dsimp only at h ⊢
  by_cases hrefuse : (!g.throttleEnabled || c.dying || c.control.inferencePending) = true
  · rw [if_pos hrefuse] at h
    exact absurd h Bool.false_ne_true
  rw [if_neg hrefuse] at h ⊢
  simp only [Bool.or_eq_true, not_or, Bool.not_eq_true] at hrefuse
  by_cases hmodel : (c.snapshotConfigLocked g).pending.source = .model
  · rw [if_pos hmodel]
    exact ⟨rfl, rfl, hrefuse.1.2⟩
  · rw [if_neg hmodel] at h ⊢
    generalize (c.snapshotConfigLocked g).snapshotStateLocked nowNs g.queueDepth
      g.devLatThresholdUs = p at h hsnap
    rcases p with ⟨c₂, _ | s⟩
    · exact absurd h Bool.false_ne_true
    · have hdying : c₂.decisions.dying = c.dying := congrArg DecisionView.dying hsnap
      exact ⟨rfl, rfl, hdying.trans hrefuse.1.2⟩

end ThrottleCtx

namespace Throttle

/-- The last part of a completion starts a decision just when it says so. -/
theorem started_restartInference {c : ThrottleCtx} {g : Globals} {reinfer slow : Bool}
    {nowNs : ℕ}
    (h : (restartInference c g reinfer slow nowNs).2.scheduleInference = true
      ∨ (reinfer || slow) = true ∧ (c.startInferenceLocked g slow nowNs).2 = true) :
    (restartInference c g reinfer slow nowNs).1.Started := by
  unfold restartInference at h ⊢
  dsimp only at h ⊢
  by_cases hask : (reinfer || slow) = true
  · rw [if_pos hask] at h ⊢
    by_cases hstart : (c.startInferenceLocked g slow nowNs).2 = true
    · rw [if_pos hstart]
      exact ThrottleCtx.started_startInferenceLocked hstart
    · rw [if_neg hstart] at h
      refine absurd h (not_or.mpr ⟨?_, fun h => hstart h.2⟩)
      split
      · exact Bool.false_ne_true
      · exact Bool.false_ne_true
  · rw [if_neg hask] at h
    exact absurd h (not_or.mpr ⟨Bool.false_ne_true, fun h => hask h.1⟩)

/-- A call that starts no decision leaves no event. -/
theorem starts_startEvents {c : ThrottleCtx} {g : Globals} {newControl : Bool} {nowNs : ℕ}
    (h : (startEvents c g newControl nowNs).any DecisionEvent.starts = true) :
    (c.startInferenceLocked g newControl nowNs).2 = true := by
  by_contra hno
  unfold startEvents at h
  rw [if_neg hno] at h
  exact absurd h Bool.false_ne_true

/-- **A completion that starts a decision**, or goes on to schedule one. -/
theorem started_recordComplete {w : Throttle} {rq : RqAddr} {nrBytes nowNs : ℕ}
    (h : (w.recordComplete rq nrBytes nowNs).2.scheduleInference = true
      ∨ w.startsDecision (.recordComplete rq nrBytes nowNs) = true) :
    (w.recordComplete rq nrBytes nowNs).1.ctx.Started := by
  unfold startsDecision at h
  simp only [decisionEvents, recordComplete] at h ⊢
  cases hfind : w.ctx.findMetaLocked rq with
  | none =>
    rw [hfind] at h
    exact absurd h (not_or.mpr ⟨Bool.false_ne_true, Bool.false_ne_true⟩)
  | some m =>
    rw [hfind] at h
    dsimp only at h ⊢
    generalize recordLatency w.ctx w.globals m nowNs = v at h
    by_cases hfinal : (!w.finalCompletion rq nrBytes) = true
    · have hraw : (!(!(w.rqs rq).hasBio || decide ((w.rqs rq).bytes ≤ nrBytes))) = true :=
        hfinal
      rw [if_pos hfinal, if_pos hraw] at h
      exact absurd h (not_or.mpr ⟨Bool.false_ne_true, Bool.false_ne_true⟩)
    · have hraw : ¬(!(!(w.rqs rq).hasBio || decide ((w.rqs rq).bytes ≤ nrBytes))) = true :=
        hfinal
      rw [if_neg hfinal, if_neg hraw] at h
      rw [if_neg hraw]
      refine started_restartInference (h.imp id (fun hstarts => ?_))
      by_cases hask : (v.reinfer || v.slow) = true
      · rw [if_pos hask] at hstarts
        exact ⟨hask, starts_startEvents hstarts⟩
      · rw [if_neg hask] at hstarts
        exact absurd hstarts Bool.false_ne_true

/-- **No other section starts a decision.** -/
theorem started_step {w : Throttle} {op : ThrottleOp}
    (h : w.startsDecision op = true) :
    op.onTimer = false ∧ (w.step op).1.ctx.Started := by
  cases op with
  | recordComplete rq nrBytes nowNs => exact ⟨rfl, started_recordComplete (Or.inr h)⟩
  | modelThreadRun nowNs =>
    refine absurd h ?_
    unfold startsDecision
    simp only [decisionEvents, modelThreadEvents]
    split
    · exact Bool.false_ne_true
    · generalize (w.ctx.snapshotStateLocked nowNs w.globals.queueDepth
        w.globals.devLatThresholdUs).2 = s
      cases s <;> exact Bool.false_ne_true
  | inferenceWorkFinish i predicted =>
    refine absurd h ?_
    unfold startsDecision
    simp only [decisionEvents]
    split <;> exact Bool.false_ne_true
  | _ => exact absurd h Bool.false_ne_true

end Throttle

/-! ## Timers and their decisions -/

namespace Throttle

/-- **A caller arms the timer for the pending decision.** -/
theorem pending_timerCalls {w : Throttle} {op : ThrottleOp} {call : TimerCall} {d : ℕ}
    (hcall : call ∈ w.timerCalls op) (hd : call.decision = some d) :
    (w.step op).1.ctx.control.inferencePending = true
      ∧ (w.step op).1.ctx.pending.decisionId = d := by
  cases op with
  | recordComplete rq nrBytes nowNs =>
    simp only [timerCalls] at hcall
    split at hcall
    · -- only a decision that was started is scheduled
      rename_i hschedule
      rw [List.mem_singleton.mp hcall] at hd
      exact ⟨(started_recordComplete (Or.inl hschedule)).pending, Option.some.inj hd⟩
    · exact absurd hcall List.not_mem_nil
  | dispatchModelIfNeeded slotFree =>
    simp only [timerCalls] at hcall
    split at hcall
    · rename_i hc
      simp only [Bool.and_eq_true] at hc
      obtain ⟨⟨henabled, hneeded⟩, hslot⟩ := hc
      rw [List.mem_singleton.mp hcall] at hd
      have hpending : w.ctx.control.inferencePending = true := by
        unfold ThrottleCtx.modelDispatchNeededLocked at hneeded
        simp only [Bool.and_eq_true] at hneeded
        exact hneeded.1.1.1
      simp only [step, dispatchModelIfNeeded, henabled, hneeded, hslot]
      exact ⟨hpending, Option.some.inj hd⟩
    · exact absurd hcall List.not_mem_nil
  | modelThreadRun nowNs =>
    simp only [timerCalls] at hcall
    split at hcall
    · rw [List.mem_singleton.mp hcall] at hd
      exact absurd hd.symm (Option.some_ne_none d)
    · exact absurd hcall List.not_mem_nil
  | inferenceWorkFinish i predicted =>
    simp only [timerCalls] at hcall
    split at hcall
    · rw [List.mem_singleton.mp hcall] at hd
      exact absurd hd.symm (Option.some_ne_none d)
    · exact absurd hcall List.not_mem_nil
  | resetContext newSession nowNs =>
    rw [List.mem_singleton.mp hcall] at hd
    exact absurd hd.symm (Option.some_ne_none d)
  | setDying =>
    rw [List.mem_singleton.mp hcall] at hd
    exact absurd hd.symm (Option.some_ne_none d)
  | _ => exact absurd hcall List.not_mem_nil

/-- The step of the timer marks the pending decision. -/
theorem decisions_inferenceTimer (w : Throttle) :
    w.inferenceTimer.1.ctx.decisions
      = if w.ctx.control.inferencePending && !w.ctx.dying then
          { w.ctx.decisions with inferenceTimedOut := true }
        else w.ctx.decisions := by
  unfold inferenceTimer
  dsimp only
  split <;> rfl

end Throttle

namespace TimedThrottle

variable {s t : TimedThrottle}

/-- **Every timer is the pending decision's.** Old timers are of old decisions; while a
decision is pending, no timer of another one is about; and a decision that is late was
marked by its own. -/
structure Labelled (s : TimedThrottle) : Prop where
  current : s.throttle.ctx.decisions.Current
  old : ∀ d ∈ s.outstanding, d ≤ s.throttle.ctx.decisionId
  own : s.throttle.ctx.control.inferencePending = true →
    ∀ d ∈ s.outstanding, d = s.throttle.ctx.decisionId
  late : s.throttle.ctx.control.inferencePending = true →
    s.throttle.ctx.control.inferenceTimedOut = true →
      s.timedOutBy = some s.throttle.ctx.decisionId

/-- Fewer timers, and the same decision or none. -/
theorem Labelled.of_quiet (h : Labelled s) {t : TimedThrottle}
    (hcurrent : t.throttle.ctx.decisions.Current)
    (hid : t.throttle.ctx.decisionId = s.throttle.ctx.decisionId)
    (hpending : t.throttle.ctx.control.inferencePending = true →
      s.throttle.ctx.control.inferencePending = true)
    (hlate : t.throttle.ctx.control.inferenceTimedOut = true →
      s.throttle.ctx.control.inferenceTimedOut = true)
    (hby : t.timedOutBy = s.timedOutBy) (hout : t.outstanding ⊆ s.outstanding) :
    Labelled t where
  current := hcurrent
  old d hd := hid ▸ h.old d (hout hd)
  own hp d hd := (h.own (hpending hp) d (hout hd)).trans hid.symm
  late hp hl := by
    rw [hby, hid]
    exact h.late (hpending hp) (hlate hl)

/-- The timer of an attached queue is at rest. -/
theorem labelled_attach {w : Throttle} (h : Throttle.Attached w) : Labelled (attach w) := by
  obtain ⟨q, n, -, hctx⟩ := h.ctx
  have hidle : (attach w).throttle.ctx.control.inferencePending = false := by
    show w.ctx.control.inferencePending = false
    rw [hctx]
    rfl
  exact
    { current := fun hp => absurd (hidle.symm.trans hp) Bool.false_ne_true
      old := fun d hd => absurd hd List.not_mem_nil
      own := fun hp => absurd (hidle.symm.trans hp) Bool.false_ne_true
      late := fun hp => absurd (hidle.symm.trans hp) Bool.false_ne_true }

/-- The timers after a section: those of before, and the one its caller will arm. -/
theorem mem_outstanding_lockSection {op : ThrottleOp} {d : ℕ}
    (h : d ∈ outstanding { s with
      throttle := (s.throttle.step op).1
      calls := s.calls ++ s.throttle.timerCalls op }) :
    d ∈ s.outstanding ∨ ∃ call ∈ s.throttle.timerCalls op, call.decision = some d := by
  rw [mem_outstanding] at h ⊢
  rcases h with h | h | ⟨call, hcall, hd⟩
  · exact Or.inl (Or.inl h)
  · exact Or.inl (Or.inr (Or.inl h))
  · rcases List.mem_append.mp hcall with hcall | hcall
    · exact Or.inl (Or.inr (Or.inr ⟨call, hcall, hd⟩))
    · exact Or.inr ⟨call, hcall, hd⟩

/-- **A section** leaves every timer with its decision, unless it starts another one
too soon. -/
theorem Labelled.lockSection (h : Labelled s) {op : ThrottleOp} (hop : op.onTimer = false)
    (hin : InTime s (.lockSection op)) :
    Labelled { s with
      throttle := (s.throttle.step op).1
      calls := s.calls ++ s.throttle.timerCalls op } := by
  have hne : op ≠ .inferenceTimer := by
    intro heq
    rw [heq] at hop
    exact Bool.noConfusion hop
  have huntimed := Throttle.untimed_step s.throttle hne
  have hnumbered := Numbered.turns huntimed.turns
  have hcurrent := ThrottleCtx.current_turns h.current huntimed.turns
  have hnew : ∀ call ∈ s.throttle.timerCalls op, ∀ d, call.decision = some d →
      d = (s.throttle.step op).1.ctx.decisionId := by
    intro call hcall d hd
    obtain ⟨hpending, rfl⟩ := Throttle.pending_timerCalls hcall hd
    exact hcurrent hpending
  cases hstart : s.throttle.startsDecision op with
  | true =>
    -- no timer is about, and the decision is not late
    have hnone : s.outstanding = [] := hin hstart
    have hfresh := (Throttle.started_step hstart).2
    have hall : ∀ d ∈ outstanding { s with
        throttle := (s.throttle.step op).1
        calls := s.calls ++ s.throttle.timerCalls op },
        d = (s.throttle.step op).1.ctx.decisionId := by
      intro d hd
      rcases mem_outstanding_lockSection hd with hd | ⟨call, hcall, hd⟩
      · rw [hnone] at hd
        exact absurd hd List.not_mem_nil
      · exact hnew call hcall d hd
    exact
      { current := hcurrent
        old := fun d hd => (hall d hd).le
        own := fun _ => hall
        late := fun _ hl => absurd (hfresh.notLate.symm.trans hl) Bool.false_ne_true }
  | false =>
    -- the numbers stay, and what is pending was pending before
    obtain ⟨hid, hpending⟩ := hnumbered.quiet hstart
    have hidle : (s.throttle.step op).1.ctx.decisionId = s.throttle.ctx.decisionId := hid
    refine
      { current := hcurrent
        old := fun d hd => ?_
        own := fun hp d hd => ?_
        late := fun hp hl => ?_ }
    · rcases mem_outstanding_lockSection hd with hd | ⟨call, hcall, hd⟩
      · exact (h.old d hd).trans hidle.ge
      · exact (hnew call hcall d hd).le
    · rcases mem_outstanding_lockSection hd with hd | ⟨call, hcall, hd⟩
      · exact (h.own (hpending hp) d hd).trans hidle.symm
      · exact hnew call hcall d hd
    · show s.timedOutBy = some (s.throttle.step op).1.ctx.decisionId
      rw [hidle]
      exact h.late (hpending hp) (huntimed.inferenceTimedOut hl)

/-- No timer is about that was not before. -/
theorem outstanding_subset (harmed : ∀ d, t.armed = some d → d ∈ s.outstanding)
    (hcallback : ∀ d, t.callback = some (.entered d) → d ∈ s.outstanding)
    (hcalls : ∀ call ∈ t.calls, call ∈ s.calls ∨ call.decision = none) :
    t.outstanding ⊆ s.outstanding := by
  intro d hd
  rcases mem_outstanding.mp hd with hd | hd | ⟨call, hcall, hd⟩
  · exact harmed d hd
  · exact hcallback d hd
  · rcases hcalls call hcall with hcall | hnone
    · exact mem_outstanding.mpr (Or.inr (Or.inr ⟨call, hcall, hd⟩))
    · exact absurd (hnone.symm.trans hd).symm (Option.some_ne_none d)

/-- The timer that runs is about. -/
theorem mem_outstanding_of_armed {d : ℕ} (h : s.armed = some d) : d ∈ s.outstanding :=
  mem_outstanding.mpr (Or.inl h)

theorem mem_outstanding_of_entered {d : ℕ} (h : s.callback = some (.entered d)) :
    d ∈ s.outstanding :=
  mem_outstanding.mpr (Or.inr (Or.inl h))

theorem mem_outstanding_of_call {i d : ℕ} {call : TimerCall} (hcall : s.calls[i]? = some call)
    (hd : call.decision = some d) : d ∈ s.outstanding :=
  mem_outstanding.mpr (Or.inr (Or.inr ⟨call, List.mem_of_getElem? hcall, hd⟩))

/-- A caller that moves on, or is done, arms nothing more. -/
theorem mem_calls_set {i : ℕ} {next : TimerCall} (hnext : next.decision = none) :
    ∀ call ∈ s.calls.set i next, call ∈ s.calls ∨ call.decision = none := by
  intro call hcall
  rcases List.mem_or_eq_of_mem_set hcall with hmem | rfl
  · exact Or.inl hmem
  · exact Or.inr hnext

theorem mem_calls_eraseIdx {i : ℕ} :
    ∀ call ∈ s.calls.eraseIdx i, call ∈ s.calls ∨ call.decision = none :=
  fun _ hcall => Or.inl (List.mem_of_mem_eraseIdx hcall)

/-- A caller that only touches the timer and the list of callers. -/
theorem Labelled.of_timer (h : Labelled s) (hthrottle : t.throttle = s.throttle)
    (hby : t.timedOutBy = s.timedOutBy) (hout : t.outstanding ⊆ s.outstanding) :
    Labelled t := by
  refine h.of_quiet ?_ ?_ ?_ ?_ hby hout
  · rw [hthrottle]
    exact h.current
  · rw [hthrottle]
  · rw [hthrottle]
    exact id
  · rw [hthrottle]
    exact id

/-- A section that starts nothing, with no new timer. -/
theorem Labelled.of_section (h : Labelled s) (op : ThrottleOp) (hop : op ≠ .inferenceTimer)
    (hstart : s.throttle.startsDecision op = false)
    (hthrottle : t.throttle = (s.throttle.step op).1)
    (hby : t.timedOutBy = s.timedOutBy) (hout : t.outstanding ⊆ s.outstanding) :
    Labelled t := by
  have huntimed := Throttle.untimed_step s.throttle hop
  obtain ⟨hid, hpending⟩ := (Numbered.turns huntimed.turns).quiet hstart
  refine h.of_quiet ?_ ?_ ?_ ?_ hby hout
  · rw [hthrottle]
    exact ThrottleCtx.current_turns h.current huntimed.turns
  · rw [hthrottle]
    exact hid
  · rw [hthrottle]
    exact hpending
  · rw [hthrottle]
    exact huntimed.inferenceTimedOut

/-- **A caller's step** arms the timer for its own decision, or stops it. -/
theorem Labelled.call (h : Labelled s) (i : ℕ) (queued : Bool) : Labelled (s.call i queued) := by
  have hkept : ∀ d, s.armed = some d → d ∈ s.outstanding := fun _ => mem_outstanding_of_armed
  have hentered : ∀ d, s.callback = some (.entered d) → d ∈ s.outstanding :=
    fun _ => mem_outstanding_of_entered
  have hstopped : ∀ d, (none : Option ℕ) = some d → d ∈ s.outstanding :=
    fun d hd => absurd hd.symm (Option.some_ne_none d)
  unfold TimedThrottle.call
  cases hcall : s.calls[i]? with
  | none => exact h
  | some call =>
    have hstarted : ∀ e, call.decision = some e →
        ∀ d, (some e : Option ℕ) = some d → d ∈ s.outstanding := by
      rintro e he d hd
      obtain rfl := Option.some.inj hd
      exact mem_outstanding_of_call hcall he
    -- the two that arm it do so for a decision whose timer was about to come
    cases call with
    | scheduleStart e =>
      exact h.of_timer rfl rfl
        (outstanding_subset (hstarted e rfl) hentered (mem_calls_set rfl))
    | scheduleQueue =>
      dsimp only
      split
      · exact h.of_timer rfl rfl (outstanding_subset hkept hentered mem_calls_eraseIdx)
      · exact h.of_timer rfl rfl (outstanding_subset hkept hentered (mem_calls_set rfl))
    | scheduleCancel =>
      dsimp only
      split
      · exact h.of_timer rfl rfl (outstanding_subset hstopped hentered (mem_calls_set rfl))
      · exact h
    | scheduleFallback =>
      exact h.of_section .scheduleFallback ThrottleOp.noConfusion rfl rfl rfl
        (outstanding_subset hkept hentered mem_calls_eraseIdx)
    | dispatchStart e =>
      exact h.of_timer rfl rfl
        (outstanding_subset (hstarted e rfl) hentered mem_calls_eraseIdx)
    | cancel =>
      dsimp only
      split
      · exact h.of_timer rfl rfl (outstanding_subset hstopped hentered mem_calls_eraseIdx)
      · exact h
    | resetCancel =>
      dsimp only
      split
      · exact h.of_timer rfl rfl (outstanding_subset hstopped hentered (mem_calls_set rfl))
      · exact h
    | resetCancelWork =>
      exact h.of_timer rfl rfl (outstanding_subset hkept hentered mem_calls_eraseIdx)

/-- **The callback** marks the pending decision, and the timer was its own. -/
theorem Labelled.inferenceTimer (h : Labelled s) {d : ℕ}
    (hcallback : s.callback = some (.entered d)) : Labelled (s.inferenceTimer d) := by
  have hview := Throttle.decisions_inferenceTimer s.throttle
  have hout : (s.inferenceTimer d).outstanding ⊆ s.outstanding :=
    outstanding_subset (fun _ => mem_outstanding_of_armed (s := s))
      (fun e he => TimerCallback.noConfusion (Option.some.inj he)) (fun _ => Or.inl)
  by_cases hhit : (s.throttle.ctx.control.inferencePending && !s.throttle.ctx.dying) = true
  · rw [if_pos hhit] at hview
    have hid : (s.inferenceTimer d).throttle.ctx.decisionId = s.throttle.ctx.decisionId :=
      congrArg DecisionView.decisionId hview
    have hp : (s.inferenceTimer d).throttle.ctx.control.inferencePending
        = s.throttle.ctx.control.inferencePending :=
      congrArg DecisionView.inferencePending hview
    refine
      { current := ?_
        old := fun e he => hid ▸ h.old e (hout he)
        own := fun hpending e he => (h.own (hp ▸ hpending) e (hout he)).trans hid.symm
        late := fun hpending _ => ?_ }
    · show DecisionView.Current s.throttle.inferenceTimer.1.ctx.decisions
      rw [hview]
      exact h.current
    · show (if _ then some d else s.timedOutBy) = some (s.inferenceTimer d).throttle.ctx.decisionId
      rw [if_pos hhit, hid, h.own (hp ▸ hpending) d (mem_outstanding_of_entered hcallback)]
  · -- nothing is pending, or the queue is going away: nothing changes
    rw [if_neg hhit] at hview
    refine h.of_quiet ?_ (congrArg DecisionView.decisionId hview) ?_ ?_ (if_neg hhit) hout
    · show DecisionView.Current s.throttle.inferenceTimer.1.ctx.decisions
      rw [hview]
      exact h.current
    · exact (congrArg DecisionView.inferencePending hview).symm.trans
    · exact (congrArg DecisionView.inferenceTimedOut hview).symm.trans

/-- **Every step in time** leaves every timer with its decision. -/
theorem Labelled.step (h : Labelled s) {op : TimedOp} (hin : InTime s op) :
    Labelled (machine.next s op) := by
  cases op with
  | lockSection op =>
    show Labelled (if op.onTimer = true then (s, none) else _).1
    split
    · exact h
    · rename_i hop
      exact h.lockSection (Bool.not_eq_true _ ▸ hop) hin
  | call i queued => exact h.call i queued
  | expire =>
    show Labelled (TimedThrottle.step s .expire).1
    simp only [TimedThrottle.step]
    split
    · rename_i d harmed hcallback
      refine h.of_timer rfl rfl (outstanding_subset ?_ ?_ (fun _ => Or.inl))
      · exact fun e he => absurd he.symm (Option.some_ne_none e)
      · intro e he
        obtain rfl := TimerCallback.entered.inj (Option.some.inj he)
        exact mem_outstanding_of_armed harmed
    · exact h
  | inferenceTimer =>
    show Labelled (TimedThrottle.step s .inferenceTimer).1
    simp only [TimedThrottle.step]
    split
    · rename_i d hcallback
      exact h.inferenceTimer hcallback
    · exact h
  | inferenceTimerReturn =>
    show Labelled (TimedThrottle.step s .inferenceTimerReturn).1
    simp only [TimedThrottle.step]
    split
    · refine h.of_timer rfl rfl (outstanding_subset
        (fun _ => mem_outstanding_of_armed (s := s)) ?_ (fun _ => Or.inl))
      exact fun e he => absurd he.symm (Option.some_ne_none _)
    · exact h
  | timeoutWork =>
    show Labelled (TimedThrottle.step s .timeoutWork).1
    simp only [TimedThrottle.step]
    split
    · exact h.of_section .timeoutWork ThrottleOp.noConfusion rfl rfl rfl
        (outstanding_subset (fun _ => mem_outstanding_of_armed)
          (fun _ => mem_outstanding_of_entered) (fun _ => Or.inl))
    · exact h

/-- Only the timeout work abandons a decision. -/
theorem out_eq (s : TimedThrottle) (op : TimedOp) :
    machine.out s op
      = match op with
        | .timeoutWork => if s.timeoutQueued then s.throttle.abandoned else none
        | _ => none := by
  show (TimedThrottle.step s op).2 = _
  cases op with
  | call i queued => rfl
  | _ =>
    simp only [TimedThrottle.step]
    split <;> rfl

/-- The decision a timeout abandons is the pending one, and late. -/
theorem pending_of_out {op : TimedOp} {d : ℕ} (h : machine.out s op = some d) :
    s.throttle.ctx.control.inferencePending = true
      ∧ s.throttle.ctx.control.inferenceTimedOut = true
      ∧ s.throttle.ctx.pending.decisionId = d := by
  rw [out_eq] at h
  cases op with
  | timeoutWork =>
    dsimp only at h
    split at h
    · unfold Throttle.abandoned at h
      split at h
      · rename_i hc
        rw [Bool.and_eq_true] at hc
        exact ⟨hc.1, hc.2, Option.some.inj h⟩
      · exact absurd h.symm (Option.some_ne_none d)
    · exact absurd h.symm (Option.some_ne_none d)
  | _ => exact absurd h.symm (Option.some_ne_none d)

/-- **With its own timers a queue times out its own decision.** -/
theorem Labelled.ownTimeout (h : Labelled s) (op : TimedOp) : OwnTimeout s op := by
  intro d hd
  obtain ⟨hpending, hlate, rfl⟩ := pending_of_out hd
  rw [h.late hpending hlate]
  exact congrArg some (h.current hpending).symm

/-- The timer and the callers start no decision. -/
theorem inTime_of_ofTimer {op : TimedOp} (h : op.ofTimer = true) : InTime s op := by
  cases op with
  | lockSection op => exact absurd h Bool.false_ne_true
  | _ => trivial

theorem Labelled.timesOutOwn (h : Labelled s) : TimesOutOwn s := by
  intro ops
  induction ops generalizing s with
  | nil => exact fun _ => trivial
  | cons op ops ih =>
    intro hops
    refine ⟨h.ownTimeout op, ih (h.step (inTime_of_ofTimer (hops op List.mem_cons_self))) ?_⟩
    exact fun op' hop' => hops op' (List.mem_cons_of_mem op hop')

end TimedThrottle

/-! ## A timer that is left over -/

namespace Throttle

variable {w : Throttle} {d : ℕ}

/-- A decision is pending that is not the one a timer was armed for. -/
structure Misses (w : Throttle) (d : ℕ) : Prop where
  pending : w.ctx.control.inferencePending = true
  alive : w.ctx.dying = false
  other : w.ctx.pending.decisionId ≠ d

theorem Misses.hits (h : w.Misses d) :
    (w.ctx.control.inferencePending && !w.ctx.dying) = true := by
  rw [h.pending, h.alive]
  rfl

/-- The callback leaves the decision pending. -/
theorem Misses.inferenceTimer (h : w.Misses d) : w.inferenceTimer.1.Misses d := by
  have hview := decisions_inferenceTimer w
  rw [if_pos h.hits] at hview
  exact
    { pending := (congrArg DecisionView.inferencePending hview).trans h.pending
      alive := (congrArg DecisionView.dying hview).trans h.alive
      other := fun heq => h.other
        ((congrArg (fun V => V.pending.decisionId) hview).symm.trans heq) }

/-- The decision the callback marks is the one the timeout work abandons. -/
theorem Misses.abandoned (h : w.Misses d) :
    w.inferenceTimer.1.abandoned = some w.inferenceTimer.1.ctx.pending.decisionId := by
  have hview := decisions_inferenceTimer w
  rw [if_pos h.hits] at hview
  have hlate : w.inferenceTimer.1.ctx.control.inferenceTimedOut = true :=
    congrArg DecisionView.inferenceTimedOut hview
  unfold Throttle.abandoned
  rw [h.inferenceTimer.pending, hlate]
  rfl

end Throttle

namespace TimedThrottle

variable {s t : TimedThrottle} {d : ℕ}

theorem TimesOutOwn.next (h : TimesOutOwn s) (op : TimedOp) (hop : op.ofTimer = true) :
    TimesOutOwn (machine.next s op) := by
  intro ops hops
  refine (h (op :: ops) ?_).2
  exact List.forall_mem_cons.mpr ⟨hop, hops⟩

theorem TimesOutOwn.own (h : TimesOutOwn s) (op : TimedOp) (hop : op.ofTimer = true) :
    OwnTimeout s op :=
  (h [op] (List.forall_mem_singleton.mpr hop)).1

/-- **A callback of another decision** times the pending one out. -/
theorem not_timesOutOwn_of_entered (h : s.throttle.Misses d)
    (hcallback : s.callback = some (.entered d)) : ¬ TimesOutOwn s := by
  intro hown
  have htimer : machine.next s .inferenceTimer = s.inferenceTimer d := by
    show (TimedThrottle.step s .inferenceTimer).1 = _
    simp only [TimedThrottle.step, hcallback]
  have hleaving : (s.inferenceTimer d).callback = some (.leaving true) :=
    congrArg (fun b => some (TimerCallback.leaving b)) h.hits
  have hreturn : machine.next (s.inferenceTimer d) .inferenceTimerReturn
      = { s.inferenceTimer d with
          callback := none
          timeoutQueued := (s.inferenceTimer d).timeoutQueued || true } := by
    show (TimedThrottle.step (s.inferenceTimer d) .inferenceTimerReturn).1 = _
    simp only [TimedThrottle.step, hleaving]
  have hafter := hown.next .inferenceTimer rfl
  rw [htimer] at hafter
  have hqueued := hafter.next .inferenceTimerReturn rfl
  rw [hreturn] at hqueued
  have hby : (s.inferenceTimer d).timedOutBy
      = some s.throttle.inferenceTimer.1.ctx.pending.decisionId := by
    refine hqueued.own .timeoutWork rfl _ ?_
    rw [out_eq]
    show (if ((s.inferenceTimer d).timeoutQueued || true) = true then _ else _) = some _
    rw [Bool.or_true, if_pos rfl]
    exact h.abandoned
  have hset : (s.inferenceTimer d).timedOutBy = some d := if_pos h.hits
  exact h.inferenceTimer.other (Option.some.inj (hby.symm.trans hset))

/-- **A timer of another decision that runs** will expire, once the callback of an
earlier expiry is done. -/
theorem not_timesOutOwn_of_armed (h : s.throttle.Misses d) (harmed : s.armed = some d) :
    ¬ TimesOutOwn s := by
  have hidle : ∀ {t : TimedThrottle}, t.throttle.Misses d → t.armed = some d → t.callback = none →
      ¬ TimesOutOwn t := by
    intro t ht harmed hcallback hown
    have hexpire : machine.next t .expire
        = { t with armed := none, callback := some (.entered d) } := by
      show (TimedThrottle.step t .expire).1 = _
      simp only [TimedThrottle.step, harmed, hcallback]
    have hafter := hown.next .expire rfl
    rw [hexpire] at hafter
    refine not_timesOutOwn_of_entered (d := d) ?_ ?_ hafter
    · exact ht
    · rfl
  have hleaving : ∀ {t : TimedThrottle} (q : Bool), t.throttle.Misses d → t.armed = some d →
      t.callback = some (.leaving q) → ¬ TimesOutOwn t := by
    intro t q ht harmed hcallback hown
    have hreturn : machine.next t .inferenceTimerReturn
        = { t with callback := none, timeoutQueued := t.timeoutQueued || q } := by
      show (TimedThrottle.step t .inferenceTimerReturn).1 = _
      simp only [TimedThrottle.step, hcallback]
    have hafter := hown.next .inferenceTimerReturn rfl
    rw [hreturn] at hafter
    refine hidle ?_ ?_ ?_ hafter
    · exact ht
    · exact harmed
    · rfl
  intro hown
  -- the callback is one at a time: an earlier expiry is done first
  match hcallback : s.callback with
  | none => exact hidle h harmed hcallback hown
  | some (.leaving q) => exact hleaving q h harmed hcallback hown
  | some (.entered e) =>
    have htimer : machine.next s .inferenceTimer = s.inferenceTimer e := by
      show (TimedThrottle.step s .inferenceTimer).1 = _
      simp only [TimedThrottle.step, hcallback]
    have hafter := hown.next .inferenceTimer rfl
    rw [htimer] at hafter
    refine hleaving true ?_ ?_ ?_ hafter
    · exact h.inferenceTimer
    · exact harmed
    · exact congrArg (fun b => some (TimerCallback.leaving b)) h.hits

/-- **Every timer that is about** can expire while another decision is pending. -/
theorem not_timesOutOwn_of_outstanding (h : s.throttle.Misses d) (hd : d ∈ s.outstanding) :
    ¬ TimesOutOwn s := by
  rcases mem_outstanding.mp hd with harmed | hcallback | ⟨call, hmem, hcall⟩
  · exact not_timesOutOwn_of_armed h harmed
  · exact not_timesOutOwn_of_entered h hcallback
  · intro hown
    obtain ⟨i, hi⟩ := List.mem_iff_getElem?.mp hmem
    have hafter := hown.next (.call i true) rfl
    have hnext : machine.next s (.call i true) = s.call i true := rfl
    rw [hnext] at hafter
    unfold TimedThrottle.call at hafter
    rw [hi] at hafter
    cases call with
    | scheduleStart e =>
      refine not_timesOutOwn_of_armed (d := d) ?_ ?_ hafter
      · exact h
      · exact hcall
    | dispatchStart e =>
      refine not_timesOutOwn_of_armed (d := d) ?_ ?_ hafter
      · exact h
      · exact hcall
    | _ => exact absurd hcall.symm (Option.some_ne_none d)

/-- **A decision that is started too soon** can be timed out by an earlier one's timer. -/
theorem Labelled.not_timesOutOwn (h : Labelled s) {op : TimedOp} (hin : ¬ InTime s op) :
    ¬ TimesOutOwn (machine.next s op) := by
  cases op with
  | lockSection op =>
    obtain ⟨hstart, hsome⟩ := Classical.not_imp.mp hin
    obtain ⟨hop, hfresh⟩ := Throttle.started_step hstart
    obtain ⟨d, hd⟩ := List.exists_mem_of_ne_nil _ hsome
    have hnumbered := Numbered.turns (Throttle.turns_step s.throttle op)
    have hcurrent := ThrottleCtx.current_turns h.current (Throttle.turns_step s.throttle op)
    have hnext : machine.next s (.lockSection op) = { s with
        throttle := (s.throttle.step op).1
        calls := s.calls ++ s.throttle.timerCalls op } := by
      show (TimedThrottle.step s (.lockSection op)).1 = _
      simp only [TimedThrottle.step, hop, Bool.false_eq_true, if_false]
    rw [hnext]
    have hlt : d < (s.throttle.step op).1.ctx.pending.decisionId := by
      have hid : (s.throttle.step op).1.ctx.pending.decisionId
          = (s.throttle.step op).1.ctx.decisionId := hcurrent hfresh.pending
      rw [hid]
      exact (h.old d hd).trans_lt (hnumbered.started hstart)
    refine not_timesOutOwn_of_outstanding (d := d) ⟨hfresh.pending, hfresh.alive, hlt.ne'⟩ ?_
    rw [mem_outstanding] at hd ⊢
    refine hd.imp id (Or.imp id ?_)
    rintro ⟨call, hcall, hdecision⟩
    exact ⟨call, List.mem_append_left _ hcall, hdecision⟩
  | _ => exact absurd trivial hin

/-- **A timeout hits its own decision as long as decisions are started in time.** In a run
that starts no decision while the timer of an earlier one is about, every decision that
is timed out was submitted, and its own timer expired. And only such a run is safe from
its timers: after each of its steps, whatever the timer and the callers do next. -/
theorem own_timeout {w : Throttle} (h : Throttle.Attached w) (ops : List TimedOp) :
    (machine.StepsMeet InTime (attach w) ops → machine.StepsMeet OwnTimeout (attach w) ops)
      ∧ (machine.StatesMeet TimesOutOwn (attach w) ops
        ↔ machine.StepsMeet InTime (attach w) ops) := by
  refine ⟨fun hin => ?_, StepMachine.statesMeet_iff_stepsMeet (I := Labelled)
    (fun _ hs => hs.timesOutOwn) (fun _ _ hs hC => hs.step hC)
    (fun _ _ hs hC => hs.not_timesOutOwn hC) (labelled_attach h) ops⟩
  -- the invariant is carried along the run, and implies the property at each step
  have hlabelled := labelled_attach h
  generalize attach w = s at hin hlabelled
  induction ops generalizing s with
  | nil => trivial
  | cons op ops ih =>
    exact ⟨hlabelled.ownTimeout op, ih _ hin.2 (hlabelled.step hin.1)⟩

/-- A queue whose decisions the model computes, attached while throttling is enabled. -/
def modelQueue : Throttle :=
  Throttle.attach 3 [.setThrottleEnabled true, .setQueueDepth 1, .setActionSource 1 true]

theorem attached_modelQueue : Throttle.Attached modelQueue := by
  show Throttle.Attached (Throttle.attach (2 + 1) _)
  exact Throttle.attached_attach (by decide) Nat.one_ne_zero (by decide) _

/-- A background request waits, slow requests start a decision, a dispatch submits it,
and its timer is armed. -/
def submitted : List TimedOp :=
  (.classifyRequest 1 Throttle.idleTask 0 :: Throttle.slowRequests).map .lockSection
    ++ [.lockSection (.dispatchModelIfNeeded true), .call 0 true]

/-- The timer expires, its callback runs, and the timeout work. -/
def expired : List TimedOp := [.expire, .inferenceTimer, .inferenceTimerReturn, .timeoutWork]

/-- The model fails, and more slow requests start a second decision, which no dispatch
submits. -/
def restarted : List TimedOp :=
  [.lockSection (.modelThreadRun 5), .lockSection .inferenceWorkBegin,
    .lockSection (.inferenceWorkFinish 0 none)]
    ++ Throttle.slowRequests.map .lockSection

/-- **The timer that a failed model leaves over** hits the second decision. -/
theorem not_own_timeout_restarted :
    Throttle.Attached modelQueue
      ∧ ¬ machine.StepsMeet OwnTimeout (attach modelQueue)
        (submitted ++ restarted ++ expired) :=
  ⟨attached_modelQueue, by decide +kernel⟩

/-- The timer of a decision that the model does not answer hits that decision. -/
theorem own_timeout_expired :
    some 1 ∈ machine.outs (attach modelQueue) (submitted ++ expired)
      ∧ machine.StepsMeet OwnTimeout (attach modelQueue) (submitted ++ expired) :=
  ⟨by decide +kernel, (own_timeout attached_modelQueue _).1 (by decide +kernel)⟩

end TimedThrottle
