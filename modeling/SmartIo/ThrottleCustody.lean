import SmartIo.ThrottleRunning
import SmartIo.ThrottleSwitch

/-!
# Who carries a decision

A decision that is pending holds back every background request, so somebody must be on
the way to end it. Which somebody changes from one lock section to the next: the caller
that started the decision queues the work item `inference_work`; the work item takes a
copy of the decision and computes; or, where the model decides, a dispatch gives the
context to the model thread, which stores a state and then does the same. A decision
that is late is left to `timeout_work`, which the callback of the timer queues. And all
the while a reset may cancel the timer and both work items.

Here the queue of the work item and the way of a context through the model thread stand
beside the throttle and its timer. At every moment of a run a decision that is pending
is carried by one of these, or it waits to be submitted. Then, once nothing is under way,
the next dispatch with a background request in the queue submits it, or abandons it if
the model thread is busy (`CarriedThrottle.decision_carried`). The one thing that may
break this is a reset that is still cancelling when a decision is started: it may cancel
the timeout of the new one (`Undisturbed`). The code starts none as long as one
`smart_io_throttle_set_enabled` runs at a time, for it resets the queues while throttling
is disabled (`Orderly`).
-/

/-- How far a context is with the model thread. -/
inductive CarriedThread where
  | idle
  /-- It is in `model_thread_ctx`. -/
  | submitted
  /-- The thread has taken it, and is before `smart_io_throttle_model_thread_run`. -/
  | taken
  /-- The thread is before `smart_io_throttle_inference_work`. -/
  | supplied
  /-- The thread is past the first section of `smart_io_throttle_inference_work`, or has
  left before it, and has not cleared `model_thread_running_ctx`. -/
  | running
deriving DecidableEq, Repr

/-- The throttle of a queue with its timer, its work item and the model thread. -/
structure CarriedThrottle where
  timed : TimedThrottle
  /-- `inference_work` is queued. -/
  workQueued : Bool
  /-- The workqueue has taken it, and is before `smart_io_throttle_inference_work`. -/
  workTaken : Bool
  thread : CarriedThread

/-- The steps. -/
inductive CarriedOp where
  /-- A lock section that is neither the timer's nor one of those below. -/
  | lockSection (op : ThrottleOp)
  /-- The next step of a caller of the timer. -/
  | call (i : ℕ)
  /-- `cancel_work_sync(&ctx->inference_work)` of a reset. -/
  | cancelWork (i : ℕ)
  | expire
  | inferenceTimer
  | inferenceTimerReturn
  | timeoutWork
  /-- The workqueue takes the work item. -/
  | workTake
  /-- The first section of `smart_io_throttle_inference_work` in the workqueue. -/
  | inferenceWork
  /-- The model thread takes the context. -/
  | threadTake
  /-- The section of `smart_io_throttle_model_thread_run`. -/
  | threadRun (nowNs : ℕ)
  /-- The first section of `smart_io_throttle_inference_work` in the model thread. -/
  | threadWork
  /-- The model thread clears its note of the context. -/
  | threadClear
  /-- `smart_io_throttle_model_thread_cancel_ctx`. -/
  | cancelCtx
deriving DecidableEq, Repr

namespace Throttle

/-- Whether the model thread stores a state for the decision. -/
def takesState (w : Throttle) (nowNs : ℕ) : Bool :=
  let c := w.ctx
  c.control.inferencePending && !c.control.inferenceTimedOut && !c.dying
    && decide (c.pending.source = .model)
    && (c.snapshotStateLocked nowNs w.globals.queueDepth
      w.globals.devLatThresholdUs).2.isSome

end Throttle

/-- The sections that the steps of the work item and of the model thread are. -/
def ThrottleOp.ofWork : ThrottleOp → Bool
  | .inferenceWorkBegin | .modelThreadRun _ => true
  | _ => false

/-- A caller that resets the context. -/
def TimerCall.resets : TimerCall → Bool
  | .resetCancel | .resetCancelWork => true
  | _ => false

/-- A caller that goes on to queue the work item. One that `queue_work` has refused is not
on its way there any more. -/
def TimerCall.schedules : TimerCall → Bool
  | .scheduleStart _ | .scheduleQueue => true
  | _ => false

namespace CarriedThrottle

/-- A queue that has just been attached. -/
def attach (w : Throttle) : CarriedThrottle := ⟨.attach w, false, false, .idle⟩

/-- A lock section, with what its caller goes on to do with the timer. -/
def lockSection (s : CarriedThrottle) (op : ThrottleOp) : TimedThrottle :=
  (s.timed.step (.lockSection op)).1

/-- `smart_io_throttle_dispatch_model_if_needed`. The slot is not free while the context is
with the model thread itself. -/
def dispatch (s : CarriedThrottle) (slotFree : Bool) : CarriedThrottle :=
  let w := s.timed.throttle
  let free := slotFree && decide (s.thread = .idle)
  { s with
    timed := s.lockSection (.dispatchModelIfNeeded free)
    thread :=
      if w.globals.throttleEnabled && w.ctx.modelDispatchNeededLocked && free then .submitted
      else s.thread }

/-- One step. -/
def step (s : CarriedThrottle) : CarriedOp → CarriedThrottle
  | .lockSection op =>
    match op with
    | .dispatchModelIfNeeded slotFree => s.dispatch slotFree
    | op => if op.ofWork then s else { s with timed := s.lockSection op }
  | .call i =>
    -- `queue_work` refuses a work item that is queued
    { s with
      timed := s.timed.call i (!s.workQueued)
      workQueued := if s.timed.calls[i]? = some .scheduleQueue then true else s.workQueued }
  | .cancelWork i =>
    if s.timed.calls[i]? = some .resetCancelWork then { s with workQueued := false } else s
  | .expire => { s with timed := (s.timed.step .expire).1 }
  | .inferenceTimer => { s with timed := (s.timed.step .inferenceTimer).1 }
  | .inferenceTimerReturn => { s with timed := (s.timed.step .inferenceTimerReturn).1 }
  | .timeoutWork => { s with timed := (s.timed.step .timeoutWork).1 }
  | .workTake =>
    if s.workQueued && !s.workTaken then { s with workQueued := false, workTaken := true } else s
  | .inferenceWork =>
    if s.workTaken then { s with timed := s.lockSection .inferenceWorkBegin, workTaken := false }
    else s
  | .threadTake => if s.thread = .submitted then { s with thread := .taken } else s
  | .threadRun nowNs =>
    if s.thread = .taken then
      { s with
        timed := s.lockSection (.modelThreadRun nowNs)
        thread := if s.timed.throttle.takesState nowNs then .supplied else .running }
    else s
  | .threadWork =>
    if s.thread = .supplied then
      { s with timed := s.lockSection .inferenceWorkBegin, thread := .running }
    else s
  | .threadClear => if s.thread = .running then { s with thread := .idle } else s
  | .cancelCtx =>
    if s.thread = .submitted && s.timed.throttle.ctx.dying then { s with thread := .idle } else s

/-- **The throttle of a queue with all who carry its decisions**, from the moment the
queue is attached. -/
def machine : StepMachine CarriedThrottle CarriedOp Unit where
  init s := ∃ w, Throttle.Attached w ∧ s = attach w
  step s op := (s.step op, ())

/-! ## What is asked of a run, and what is said of its states -/

/-- **A step is undisturbed**: it starts no decision while a reset is cancelling. -/
def Undisturbed (s : CarriedThrottle) : CarriedOp → Prop
  | .lockSection op =>
    s.timed.throttle.startsDecision op = true → ∀ call ∈ s.timed.calls, call.resets = false
  | _ => True

instance : ∀ (s : CarriedThrottle) (op : CarriedOp), Decidable (Undisturbed s op)
  | s, .lockSection op =>
    inferInstanceAs (Decidable (s.timed.throttle.startsDecision op = true → _))
  | _, .call _ | _, .cancelWork _ | _, .expire | _, .inferenceTimer | _, .inferenceTimerReturn
  | _, .timeoutWork | _, .workTake | _, .inferenceWork | _, .threadTake | _, .threadRun _
  | _, .threadWork | _, .threadClear | _, .cancelCtx => isTrue trivial

/-- The context of the queue. -/
abbrev ctx (s : CarriedThrottle) : ThrottleCtx := s.timed.throttle.ctx

/-- A decision is pending, of a context that is in use. -/
def Pending (s : CarriedThrottle) : Prop :=
  s.ctx.control.inferencePending = true ∧ s.ctx.dying = false

/-- **Somebody carries the decision** that is pending and not late: a caller on the way to
the work item, the work item, an inference call that took the decision, or the model
thread with the context. -/
inductive Carried (s : CarriedThrottle) : Prop
  | call (t : TimerCall) (h : t ∈ s.timed.calls) (hschedules : t.schedules = true)
  | work (h : s.workQueued = true ∨ s.workTaken = true)
  | frame (f : InferenceFrame) (h : f ∈ s.timed.throttle.frames)
      (hnumber : f.number = s.ctx.pending.number)
  | thread (hsource : s.ctx.pending.source = .model)
      (h : s.thread = .submitted ∨ s.thread = .taken ∨ s.thread = .supplied)

/-- **The decision waits to be submitted** to the model thread. -/
def Waits (s : CarriedThrottle) : Prop :=
  s.ctx.pending.source = .model ∧ s.ctx.control.inferenceRunning = false

/-- **Somebody ends the decision** that is pending and late: the callback on its way to
queue the timeout work, or that work. -/
def Ended (s : CarriedThrottle) : Prop :=
  s.timed.callback = some (.leaving true) ∨ s.timed.timeoutQueued = true

/-- **Every pending decision is in somebody's hands.** -/
structure InHands (s : CarriedThrottle) : Prop where
  early : s.Pending → s.ctx.control.inferenceTimedOut = false → s.Carried ∨ s.Waits
  late : s.Pending → s.ctx.control.inferenceTimedOut = true → s.Ended

/-- The invariant: besides, a decision that does not wait for the model thread has its
state, and no decision is pending while a reset is cancelling. -/
structure Sound (s : CarriedThrottle) : Prop where
  inHands : s.InHands
  supplied : s.ctx.decisions.Supplied
  reset : (∃ t ∈ s.timed.calls, t.resets = true) → ¬ s.Pending

/-! ## Sections -/

variable {s s' : CarriedThrottle}

/-- A carrier is there afterwards if the places it may be in are not emptied. -/
theorem Carried.mono (h : s.Carried)
    (hcalls : ∀ t ∈ s.timed.calls, t.schedules = true → t ∈ s'.timed.calls)
    (hwork : s.workQueued = true ∨ s.workTaken = true →
      s'.workQueued = true ∨ s'.workTaken = true)
    (hframes : ∀ f ∈ s.timed.throttle.frames, f ∈ s'.timed.throttle.frames)
    (hnumber : s'.ctx.pending.number = s.ctx.pending.number)
    (hsource : s'.ctx.pending.source = s.ctx.pending.source) (hthread : s'.thread = s.thread) :
    s'.Carried := by
  cases h with
  | call t ht hschedules => exact .call t (hcalls t ht hschedules) hschedules
  | work h => exact .work (hwork h)
  | frame f hf hf' => exact .frame f (hframes f hf) (hf'.trans hnumber.symm)
  | thread hmodel h => exact .thread (hsource.trans hmodel) (hthread ▸ h)

/-- **A step that holds the decision** keeps it in somebody's hands, if it keeps those who
carry or end it. -/
theorem InHands.of_holds (h : s.InHands) (hholds : s.ctx.decisions.Holds s'.ctx.decisions)
    (hdying : s.ctx.dying = true → s'.ctx.dying = true) (hrun : s.ctx.Unset s'.ctx)
    (hcarried : s'.Pending → s.Pending → s.ctx.control.inferenceTimedOut = false →
      s'.ctx.pending.number = s.ctx.pending.number →
      s'.ctx.pending.source = s.ctx.pending.source → s.Carried → s'.Carried ∨ s'.Waits)
    (hended : s'.Pending → s.Pending → s.ctx.control.inferenceTimedOut = true → s.Ended →
      s'.Ended) : s'.InHands := by
  have hback : s'.Pending → s.Pending := by
    rintro ⟨hp, halive⟩
    refine ⟨(hholds hp).1, Bool.eq_false_iff.mpr fun hd => ?_⟩
    exact absurd (halive.symm.trans (hdying hd)) Bool.false_ne_true
  constructor
  · intro hp hlate
    obtain ⟨-, hnumber, hsource, hlate'⟩ := hholds hp.1
    have hearly : s.ctx.control.inferenceTimedOut = false := hlate'.symm.trans hlate
    rcases h.early (hback hp) hearly with hcarry | ⟨hmodel, hidle⟩
    · exact hcarried hp (hback hp) hearly hnumber hsource hcarry
    · refine Or.inr ⟨hsource.trans hmodel, Bool.eq_false_iff.mpr fun hset => ?_⟩
      exact absurd (hidle.symm.trans (hrun hset)) Bool.false_ne_true
  · intro hp hlate
    obtain ⟨-, -, -, hlate'⟩ := hholds hp.1
    have hpast : s.ctx.control.inferenceTimedOut = true := hlate'.symm.trans hlate
    exact hended hp (hback hp) hpast (h.late (hback hp) hpast)

/-- What is pending after a step that holds the decision was pending before. -/
theorem Pending.of_holds (h : s'.Pending) (hholds : s.ctx.decisions.Holds s'.ctx.decisions)
    (hdying : s.ctx.dying = true → s'.ctx.dying = true) : s.Pending := by
  refine ⟨(hholds h.1).1, Bool.eq_false_iff.mpr fun hd => ?_⟩
  exact absurd (h.2.symm.trans (hdying hd)) Bool.false_ne_true

/-- A section that is not the timer's. -/
theorem lockSection_eq {op : ThrottleOp} (hop : op.onTimer = false) :
    s.lockSection op = { s.timed with
      throttle := (s.timed.throttle.step op).1
      calls := s.timed.calls ++ s.timed.throttle.timerCalls op } := by
  unfold lockSection
  simp only [TimedThrottle.step, hop, Bool.false_eq_true, if_false]

/-- The timer and its callers have steps of their own. -/
theorem lockSection_onTimer {op : ThrottleOp} (hop : op.onTimer = true) :
    s.lockSection op = s.timed := by
  unfold lockSection
  simp only [TimedThrottle.step, hop, if_true]

theorem step_lockSection {op : ThrottleOp}
    (hop : ∀ slotFree, op ≠ .dispatchModelIfNeeded slotFree) :
    s.step (.lockSection op)
      = if op.ofWork then s else { s with timed := s.lockSection op } := by
  cases op with
  | dispatchModelIfNeeded slotFree => exact absurd rfl (hop slotFree)
  | _ => rfl

/-- The callers that a section leaves. -/
theorem resets_timerCalls {w : Throttle} {op : ThrottleOp} {t : TimerCall}
    (ht : t ∈ w.timerCalls op) (hresets : t.resets = true) :
    (∃ newSession nowNs, op = .resetContext newSession nowNs) ∨ op = .setDying := by
  cases op with
  | resetContext newSession nowNs => exact Or.inl ⟨newSession, nowNs, rfl⟩
  | setDying => exact Or.inr rfl
  | recordComplete rq nrBytes nowNs =>
    simp only [Throttle.timerCalls] at ht
    split at ht
    · rw [List.mem_singleton.mp ht] at hresets
      exact absurd hresets Bool.false_ne_true
    · exact absurd ht List.not_mem_nil
  | dispatchModelIfNeeded slotFree =>
    simp only [Throttle.timerCalls] at ht
    split at ht
    · rw [List.mem_singleton.mp ht] at hresets
      exact absurd hresets Bool.false_ne_true
    · exact absurd ht List.not_mem_nil
  | modelThreadRun nowNs =>
    simp only [Throttle.timerCalls] at ht
    split at ht
    · rw [List.mem_singleton.mp ht] at hresets
      exact absurd hresets Bool.false_ne_true
    · exact absurd ht List.not_mem_nil
  | inferenceWorkFinish i predicted =>
    simp only [Throttle.timerCalls] at ht
    split at ht
    · rw [List.mem_singleton.mp ht] at hresets
      exact absurd hresets Bool.false_ne_true
    · exact absurd ht List.not_mem_nil
  | _ => exact absurd ht List.not_mem_nil

/-- **The end of an inference call** whose decision is pending ends the decision. -/
theorem pending_inferenceWorkFinish {w : Throttle} {i : ℕ} {f : InferenceFrame}
    (hf : w.frames[i]? = some f) (hnumber : f.number = w.ctx.pending.number)
    (hpending : w.ctx.control.inferencePending = true)
    (hearly : w.ctx.control.inferenceTimedOut = false) (halive : w.ctx.dying = false)
    (predicted : Option (Fin 12)) :
    (w.inferenceWorkFinish i predicted).1.ctx.control.inferencePending = false := by
  have hmine : Throttle.framePending w.ctx f = true := by
    obtain ⟨hsession, hcontrol, hdecision⟩ : f.sessionId = w.ctx.pending.sessionId ∧
        f.controlId = w.ctx.pending.controlId ∧ f.decisionId = w.ctx.pending.decisionId := by
      unfold InferenceFrame.number PendingDecision.number at hnumber
      rw [Prod.mk.injEq, Prod.mk.injEq] at hnumber
      exact hnumber
    unfold Throttle.framePending
    rw [hpending, hearly, hsession, hcontrol, hdecision]
    simp
  have hfail : ∀ w₁ : Throttle, w₁.ctx = w.ctx →
      (w₁.inferenceWorkFail f).1.ctx.control.inferencePending = false := by
    intro w₁ hctx
    unfold Throttle.inferenceWorkFail
    rw [hctx, if_pos hmine]
    rfl
  unfold Throttle.inferenceWorkFinish
  rw [hf]
  dsimp only
  split
  · exact hfail _ rfl
  split
  · exact hfail _ rfl
  · unfold Throttle.inferenceWorkApply
    dsimp only
    rw [hmine, halive, if_neg (show ¬ (!true || false) = true by decide)]
    split <;> rfl

/-- Nothing is asked of a state in which no decision is pending. -/
theorem Sound.of_idle (hidle : s.ctx.control.inferencePending = false) : s.Sound where
  inHands :=
    { early := fun hp => absurd (hidle.symm.trans hp.1) Bool.false_ne_true
      late := fun hp => absurd (hidle.symm.trans hp.1) Bool.false_ne_true }
  supplied := fun hp => absurd (hidle.symm.trans hp) Bool.false_ne_true
  reset := fun _ hp => absurd (hidle.symm.trans hp.1) Bool.false_ne_true

/-- **A section that starts a decision** puts it into somebody's hands. -/
theorem Sound.start (h : s.Sound) {op : ThrottleOp}
    (hstart : s.timed.throttle.startsDecision op = true)
    (hundisturbed : ∀ t ∈ s.timed.calls, t.resets = false) :
    Sound { s with timed := s.lockSection op } := by
  obtain ⟨honTimer, hfresh⟩ := Throttle.started_step hstart
  obtain ⟨⟨rq, nrBytes, nowNs, rfl⟩, hlaunched⟩ := Throttle.launched_step hstart
  rw [lockSection_eq honTimer]
  refine ⟨⟨fun _ _ => ?_, fun _ hlate => ?_⟩, Throttle.supplied_step h.supplied, ?_⟩
  · by_cases hmodel : (s.timed.throttle.step
        (.recordComplete rq nrBytes nowNs)).1.ctx.pending.source = .model
    · exact Or.inr ⟨hmodel, hlaunched.idle⟩
    · have hschedule : (s.timed.throttle.recordComplete rq nrBytes nowNs).2.scheduleInference
          = true := hlaunched.schedule hmodel
      have hmem : TimerCall.scheduleStart
          (s.timed.throttle.recordComplete rq nrBytes nowNs).1.ctx.pending.decisionId
            ∈ s.timed.throttle.timerCalls (.recordComplete rq nrBytes nowNs) := by
        simp only [Throttle.timerCalls]
        rw [if_pos hschedule]
        exact List.mem_singleton_self _
      exact Or.inl (.call _ (List.mem_append_right _ hmem) rfl)
  · exact absurd (hfresh.notLate.symm.trans hlate) Bool.false_ne_true
  · rintro ⟨t, ht, hresets⟩
    rcases List.mem_append.mp ht with ht | ht
    · exact absurd ((hundisturbed t ht).symm.trans hresets) Bool.false_ne_true
    · rcases resets_timerCalls ht hresets with ⟨_, _, hop⟩ | hop
      · exact ThrottleOp.noConfusion hop
      · exact ThrottleOp.noConfusion hop

/-- **A section that starts no decision** and leaves the timer alone. What it has to show is
that the decision is carried on. -/
theorem Sound.of_section (h : s.Sound) {op : ThrottleOp} (htimer : op ≠ .inferenceTimer)
    (hdispatch : ∀ slotFree, op ≠ .dispatchModelIfNeeded slotFree)
    (hstart : s.timed.throttle.startsDecision op = false)
    (htimed : s'.timed = { s.timed with
      throttle := (s.timed.throttle.step op).1
      calls := s.timed.calls ++ s.timed.throttle.timerCalls op })
    (hcarried : s'.Pending → s.Pending → s.ctx.control.inferenceTimedOut = false →
      s'.ctx.pending.number = s.ctx.pending.number →
      s'.ctx.pending.source = s.ctx.pending.source → s.Carried → s'.Carried ∨ s'.Waits) :
    s'.Sound := by
  have hholds := Throttle.holds_step htimer hstart
  have hdying : s.timed.throttle.ctx.dying = true →
      (s.timed.throttle.step op).1.ctx.dying = true := Throttle.dying_step
  have hctx : s'.ctx = (s.timed.throttle.step op).1.ctx := by
    show s'.timed.throttle.ctx = _
    rw [htimed]
  rw [← hctx] at hholds hdying
  refine ⟨h.inHands.of_holds hholds hdying ?_ hcarried ?_, ?_, ?_⟩
  · rw [hctx]
    exact Throttle.unset_step _ hdispatch
  · intro _ _ _ hended
    unfold Ended
    rw [htimed]
    exact hended
  · rw [hctx]
    exact Throttle.supplied_step h.supplied
  · rintro ⟨t, ht, hresets⟩ hp
    rw [htimed] at ht
    rcases List.mem_append.mp ht with ht | ht
    · exact h.reset ⟨t, ht, hresets⟩ (hp.of_holds hholds hdying)
    · -- a reset begins with a fallback, and the end of a queue with `dying`
      unfold Pending at hp
      rw [hctx] at hp
      rcases resets_timerCalls ht hresets with ⟨newSession, nowNs, rfl⟩ | rfl
      · exact absurd hp.1 Bool.false_ne_true
      · exact absurd hp.2 (Ne.symm Bool.false_ne_true)

/-- **A section** that neither gives the decision to the model thread nor takes a copy of
it. -/
theorem Sound.lockSection (h : s.Sound) {op : ThrottleOp} (honTimer : op.onTimer = false)
    (hwork : op.ofWork = false) (hdispatch : ∀ slotFree, op ≠ .dispatchModelIfNeeded slotFree)
    (hundisturbed : s.Undisturbed (.lockSection op)) :
    Sound { s with timed := s.lockSection op } := by
  cases hstart : s.timed.throttle.startsDecision op with
  | true => exact h.start hstart (hundisturbed hstart)
  | false =>
    have htimer : op ≠ .inferenceTimer := by
      rintro rfl
      exact Bool.noConfusion honTimer
    have hsurround := Throttle.surround_step s.timed.throttle op
    rw [lockSection_eq honTimer]
    refine h.of_section htimer hdispatch hstart rfl ?_
    intro hp hp' hearly hnumber hsource hcarried
    -- only the end of an inference call takes a frame away, and it ends the decision
    by_cases hfinish : ∃ i predicted, op = .inferenceWorkFinish i predicted
    · obtain ⟨i, predicted, rfl⟩ := hfinish
      have hframes : (s.timed.throttle.step (.inferenceWorkFinish i predicted)).1.frames
          = s.timed.throttle.frames.eraseIdx i := congrArg Prod.snd hsurround
      refine Or.inl ?_
      cases hcarried with
      | call t ht hschedules => exact .call t (List.mem_append_left _ ht) hschedules
      | work h => exact .work h
      | frame f hf hmine =>
        refine .frame f ?_ (hmine.trans hnumber.symm)
        show f ∈ (s.timed.throttle.step (.inferenceWorkFinish i predicted)).1.frames
        rw [hframes, List.mem_eraseIdx_iff_getElem?]
        obtain ⟨j, hj⟩ := List.mem_iff_getElem?.mp hf
        refine ⟨j, ?_, hj⟩
        rintro rfl
        have hends := pending_inferenceWorkFinish hj hmine hp'.1 hearly hp'.2 predicted
        exact absurd (hends.symm.trans hp.1) Bool.false_ne_true
      | thread hmodel h => exact .thread (hsource.trans hmodel) h
    · refine Or.inl (hcarried.mono (fun t ht _ => List.mem_append_left _ ht) id
        (fun f hf => ?_) hnumber hsource rfl)
      have hframes : (s.timed.throttle.step op).1.frames = s.timed.throttle.frames := by
        cases op with
        | inferenceWorkBegin => exact absurd hwork Bool.noConfusion
        | inferenceWorkFinish i predicted => exact absurd ⟨i, predicted, rfl⟩ hfinish
        | _ => exact congrArg Prod.snd hsurround
      show f ∈ (s.timed.throttle.step op).1.frames
      rw [hframes]
      exact hf

/-- A decision with nothing to compute is one whose state the model thread has to store. -/
theorem waits_inferenceWorkBegin {w : Throttle} (h : Throttle.nothingToCompute w.ctx = true)
    (hsupplied : w.ctx.decisions.Supplied) (hpending : w.ctx.control.inferencePending = true)
    (hearly : w.ctx.control.inferenceTimedOut = false) (halive : w.ctx.dying = false) :
    w.ctx.pending.source = .model
      ∧ w.inferenceWorkBegin.1.ctx.control.inferenceRunning = false := by
  constructor
  · by_contra hfixed
    have hvalid : w.ctx.control.pendingStateValid = true := hsupplied hpending hfixed
    unfold Throttle.nothingToCompute at h
    rw [hpending, hearly, halive, hvalid] at h
    exact absurd h Bool.false_ne_true
  · unfold Throttle.nothingToCompute at h
    unfold Throttle.inferenceWorkBegin
    dsimp only
    rw [if_pos h]
    rfl

/-- **The first section of `smart_io_throttle_inference_work`** takes a copy of the decision,
or the decision waits for the model thread. -/
theorem Sound.inferenceWorkBegin (h : s.Sound) (workTaken : Bool) (thread : CarriedThread) :
    Sound { s with
      timed := s.lockSection .inferenceWorkBegin
      workTaken := workTaken
      thread := thread } := by
  have hsurround := congrArg Prod.snd
    (Throttle.surround_step s.timed.throttle .inferenceWorkBegin)
  dsimp only at hsurround
  rw [lockSection_eq rfl]
  refine h.of_section ThrottleOp.noConfusion (fun _ => ThrottleOp.noConfusion) rfl rfl ?_
  intro hp hp' hearly hnumber hsource _
  by_cases hnothing : Throttle.nothingToCompute s.ctx = true
  · obtain ⟨hmodel, hidle⟩ := waits_inferenceWorkBegin hnothing h.supplied hp'.1 hearly hp'.2
    exact Or.inr ⟨hsource.trans hmodel, hidle⟩
  · rw [if_neg hnothing] at hsurround
    have hframes : (s.timed.throttle.step .inferenceWorkBegin).1.frames
        = s.timed.throttle.frames ++ [s.ctx.pending.frame] := hsurround
    refine Or.inl (.frame s.ctx.pending.frame ?_ hnumber.symm)
    show s.ctx.pending.frame ∈ (s.timed.throttle.step .inferenceWorkBegin).1.frames
    rw [hframes]
    exact List.mem_append_right _ (List.mem_singleton_self _)

/-- Without a state the model thread abandons the decision. -/
theorem pending_modelThreadRun {w : Throttle} {nowNs : ℕ}
    (hpending : w.ctx.control.inferencePending = true)
    (hearly : w.ctx.control.inferenceTimedOut = false) (halive : w.ctx.dying = false)
    (hmodel : w.ctx.pending.source = .model) (htakes : w.takesState nowNs = false) :
    (w.modelThreadRun nowNs).1.ctx.control.inferencePending = false := by
  unfold Throttle.takesState at htakes
  unfold Throttle.modelThreadRun
  simp only [hpending, hearly, halive, hmodel, Bool.not_true, Bool.not_false, Bool.or_false,
    Bool.and_true, decide_true, Bool.true_and, ne_eq, not_true_eq_false, decide_false,
    Bool.false_eq_true, if_false] at htakes ⊢
  generalize w.ctx.snapshotStateLocked nowNs w.globals.queueDepth
    w.globals.devLatThresholdUs = p at htakes
  rcases p with ⟨c₁, _ | state⟩
  · rfl
  · exact absurd htakes.symm Bool.false_ne_true

/-- **The section of the model thread** stores a state for the decision, or ends it. -/
theorem Sound.modelThreadRun (h : s.Sound) (nowNs : ℕ) :
    Sound { s with
      timed := s.lockSection (.modelThreadRun nowNs)
      thread := if s.timed.throttle.takesState nowNs then .supplied else .running } := by
  have hstart : s.timed.throttle.startsDecision (.modelThreadRun nowNs) = false := by
    refine Bool.eq_false_iff.mpr fun hstart => ?_
    obtain ⟨⟨rq, nrBytes, now, hop⟩, -⟩ := Throttle.launched_step hstart
    exact ThrottleOp.noConfusion hop
  have hframes : (s.timed.throttle.step (.modelThreadRun nowNs)).1.frames
      = s.timed.throttle.frames :=
    congrArg Prod.snd (Throttle.surround_step s.timed.throttle (.modelThreadRun nowNs))
  rw [lockSection_eq rfl]
  refine h.of_section ThrottleOp.noConfusion (fun _ => ThrottleOp.noConfusion) hstart rfl ?_
  intro hp hp' hearly hnumber hsource hcarried
  refine Or.inl ?_
  cases hcarried with
  | call t ht hschedules => exact .call t (List.mem_append_left _ ht) hschedules
  | work h => exact .work h
  | frame f hf hmine => exact .frame f (hframes ▸ hf) (hmine.trans hnumber.symm)
  | thread hmodel _ =>
    refine .thread (hsource.trans hmodel) (Or.inr (Or.inr ?_))
    refine if_pos (Bool.eq_true_of_not_eq_false fun htakes => ?_)
    have hends := pending_modelThreadRun hp'.1 hearly hp'.2 hmodel htakes
    exact absurd (hends.symm.trans hp.1) Bool.false_ne_true

/-- **A dispatch** gives the decision to the model thread, or abandons it. -/
theorem Sound.dispatch (h : s.Sound) (slotFree : Bool) : (s.dispatch slotFree).Sound := by
  have hsupplied : ((s.dispatch slotFree).ctx.decisions).Supplied :=
    Throttle.supplied_step h.supplied
  unfold CarriedThrottle.dispatch at hsupplied ⊢
  dsimp only at hsupplied ⊢
  generalize (slotFree && decide (s.thread = .idle)) = free at hsupplied ⊢
  rw [lockSection_eq rfl] at hsupplied ⊢
  simp only [Throttle.step, Throttle.dispatchModelIfNeeded, Throttle.timerCalls] at hsupplied ⊢
  by_cases hneeded : (s.timed.throttle.globals.throttleEnabled
      && s.timed.throttle.ctx.modelDispatchNeededLocked) = true
  · have hnot : ¬ (!s.timed.throttle.globals.throttleEnabled
        || !s.timed.throttle.ctx.modelDispatchNeededLocked) = true := by
      rw [← Bool.not_and, hneeded]
      exact Bool.false_ne_true
    rw [if_neg hnot] at hsupplied ⊢
    rw [hneeded] at hsupplied ⊢
    cases free with
    | true =>
      have hmodel : s.ctx.pending.source = .model := by
        rw [Bool.and_eq_true] at hneeded
        unfold ThrottleCtx.modelDispatchNeededLocked at hneeded
        simp only [Bool.and_eq_true] at hneeded
        exact of_decide_eq_true hneeded.2.1.2
      refine ⟨⟨fun _ _ => Or.inl (.thread hmodel (Or.inl rfl)), h.inHands.late⟩, hsupplied, ?_⟩
      rintro ⟨t, ht, hresets⟩
      rcases List.mem_append.mp ht with ht | ht
      · exact h.reset ⟨t, ht, hresets⟩
      · rw [List.mem_singleton.mp ht] at hresets
        exact absurd hresets Bool.false_ne_true
    | false => exact Sound.of_idle rfl
  · have hnot : (!s.timed.throttle.globals.throttleEnabled
        || !s.timed.throttle.ctx.modelDispatchNeededLocked) = true := by
      rw [← Bool.not_and, Bool.eq_false_iff.mpr hneeded]
      rfl
    rw [if_pos hnot]
    rw [Bool.eq_false_iff.mpr hneeded]
    simpa using h

/-! ## The timer and its callers -/

/-- A step that leaves the throttle alone. -/
theorem Sound.of_around (h : s.Sound) (hthrottle : s'.timed.throttle = s.timed.throttle)
    (hcarried : s.Pending → s.Carried → s'.Carried) (hended : s.Pending → s.Ended → s'.Ended)
    (hreset : ∀ t ∈ s'.timed.calls, t.resets = true → ∃ t' ∈ s.timed.calls, t'.resets = true) :
    s'.Sound := by
  have hctx : s'.ctx = s.ctx := congrArg Throttle.ctx hthrottle
  have hpending : s'.Pending → s.Pending := by
    unfold Pending
    rw [hctx]
    exact id
  constructor
  · constructor
    · intro hp hearly
      rw [hctx] at hearly
      refine (h.inHands.early (hpending hp) hearly).imp (hcarried (hpending hp)) fun hwaits => ?_
      unfold Waits
      rw [hctx]
      exact hwaits
    · intro hp hlate
      rw [hctx] at hlate
      exact hended (hpending hp) (h.inHands.late (hpending hp) hlate)
  · rw [hctx]
    exact h.supplied
  · rintro ⟨t, ht, hresets⟩ hp
    exact h.reset (hreset t ht hresets) (hpending hp)

/-- A caller that moves on is the only one that does. -/
theorem mem_set_or_eq {calls : List TimerCall} {i : ℕ} {t call : TimerCall} (ht : t ∈ calls)
    (hcall : calls[i]? = some call) (next : TimerCall) : t ∈ calls.set i next ∨ t = call := by
  obtain ⟨j, hj⟩ := List.mem_iff_getElem?.mp ht
  by_cases hij : i = j
  · rw [hij, hj] at hcall
    exact Or.inr (Option.some.inj hcall)
  · exact Or.inl (List.mem_iff_getElem?.mpr ⟨j, (List.getElem?_set_ne hij).trans hj⟩)

/-- A caller that is done is the only one that leaves. -/
theorem mem_eraseIdx_or_eq {calls : List TimerCall} {i : ℕ} {t call : TimerCall}
    (ht : t ∈ calls) (hcall : calls[i]? = some call) : t ∈ calls.eraseIdx i ∨ t = call := by
  obtain ⟨j, hj⟩ := List.mem_iff_getElem?.mp ht
  by_cases hij : j = i
  · rw [← hij, hj] at hcall
    exact Or.inr (Option.some.inj hcall)
  · exact Or.inl (List.mem_eraseIdx_iff_getElem?.mpr ⟨j, hij, hj⟩)

/-- **A caller moves on**, or is done. If it was on the way to the work item it still is, or
the work item is queued. -/
theorem Sound.of_caller (h : s.Sound) {i : ℕ} {call : TimerCall}
    (hcall : s.timed.calls[i]? = some call) (hthrottle : s'.timed.throttle = s.timed.throttle)
    (hcalls : (∃ next, s'.timed.calls = s.timed.calls.set i next
        ∧ (next.resets = true → call.resets = true)
        ∧ (call.schedules = true → next.schedules = true ∨ s'.workQueued = true))
      ∨ s'.timed.calls = s.timed.calls.eraseIdx i
        ∧ (call.schedules = true → s'.workQueued = true))
    (hwork : s.workQueued = true → s'.workQueued = true) (htaken : s'.workTaken = s.workTaken)
    (hthread : s'.thread = s.thread)
    (hended : s.Pending → s.Ended → s'.Ended) : s'.Sound := by
  have hctx : s'.ctx = s.ctx := congrArg Throttle.ctx hthrottle
  refine h.of_around hthrottle (fun _ hcarried => ?_) hended ?_
  · cases hcarried with
    | call t ht hschedules =>
      rcases hcalls with ⟨next, hset, -, hnext⟩ | ⟨herase, hqueued⟩
      · rcases mem_set_or_eq ht hcall next with hmem | rfl
        · exact .call t (hset ▸ hmem) hschedules
        · rcases hnext hschedules with hschedules' | hqueued
          · refine .call next ?_ hschedules'
            rw [hset]
            exact List.mem_set (List.getElem?_eq_some_iff.mp hcall).1 next
          · exact .work (Or.inl hqueued)
      · rcases mem_eraseIdx_or_eq ht hcall with hmem | rfl
        · exact .call t (herase ▸ hmem) hschedules
        · exact .work (Or.inl (hqueued hschedules))
    | work h => exact .work (h.imp hwork (htaken.trans ·))
    | frame f hf hmine =>
      refine .frame f ?_ ?_
      · rw [hthrottle]
        exact hf
      · rw [hctx]
        exact hmine
    | thread hmodel h =>
      refine .thread ?_ ?_
      · rw [hctx]
        exact hmodel
      · rw [hthread]
        exact h
  · intro t ht hresets
    rcases hcalls with ⟨next, hset, hnext, -⟩ | ⟨herase, -⟩
    · rw [hset] at ht
      rcases List.mem_or_eq_of_mem_set ht with hmem | rfl
      · exact ⟨t, hmem, hresets⟩
      · exact ⟨call, List.mem_of_getElem? hcall, hnext hresets⟩
    · rw [herase] at ht
      exact ⟨t, List.mem_of_mem_eraseIdx ht, hresets⟩

/-- **A caller's next step.** -/
theorem Sound.call (h : s.Sound) (i : ℕ) : (s.step (.call i)).Sound := by
  simp only [step, TimedThrottle.call]
  cases hcall : s.timed.calls[i]? with
  | none =>
    rw [if_neg (Option.some_ne_none _).symm]
    exact h
  | some call =>
    cases call with
    | scheduleStart d =>
      exact h.of_caller hcall rfl (Or.inl ⟨_, rfl, id, Or.inl⟩) id rfl rfl (fun _ => id)
    | scheduleQueue =>
      rw [if_pos rfl]
      dsimp only
      split
      · exact h.of_caller hcall rfl (Or.inr ⟨rfl, fun _ => rfl⟩) (fun _ => rfl) rfl rfl
          (fun _ => id)
      -- a work item that refuses to be queued is queued
      · exact h.of_caller hcall rfl (Or.inl ⟨_, rfl, id, fun _ => Or.inr rfl⟩) (fun _ => rfl) rfl
          rfl (fun _ => id)
    | scheduleCancel =>
      dsimp only
      split
      · exact h.of_caller hcall rfl (Or.inl ⟨_, rfl, id, fun hno => Bool.noConfusion hno⟩) id
          rfl rfl (fun _ => id)
      · exact h
    | scheduleFallback =>
      refine Sound.of_idle ?_
      show s.timed.throttle.scheduleFallback.1.ctx.control.inferencePending = false
      unfold Throttle.scheduleFallback
      split
      · rfl
      · rename_i hidle
        exact Bool.eq_false_iff.mpr hidle
    | dispatchStart d =>
      exact h.of_caller hcall rfl (Or.inr ⟨rfl, fun hno => Bool.noConfusion hno⟩) id rfl rfl
        (fun _ => id)
    | cancel =>
      dsimp only
      split
      · exact h.of_caller hcall rfl (Or.inr ⟨rfl, fun hno => Bool.noConfusion hno⟩) id rfl rfl
          (fun _ => id)
      · exact h
    | resetCancel =>
      dsimp only
      split
      · exact h.of_caller hcall rfl (Or.inl ⟨_, rfl, fun _ => rfl, fun hno => Bool.noConfusion hno⟩)
          id rfl rfl (fun _ => id)
      · exact h
    | resetCancelWork =>
      -- it may cancel the timeout, as no decision is pending
      refine h.of_caller hcall rfl (Or.inr ⟨rfl, fun hno => Bool.noConfusion hno⟩) id rfl rfl ?_
      exact fun hp => absurd hp (h.reset ⟨_, List.mem_of_getElem? hcall, rfl⟩)

/-- **A reset cancels the work item** while no decision is pending. -/
theorem Sound.cancelWork (h : s.Sound) (i : ℕ) : (s.step (.cancelWork i)).Sound := by
  simp only [step]
  split
  · rename_i hcall
    have hidle : ¬ s.Pending := h.reset ⟨_, List.mem_of_getElem? hcall, rfl⟩
    exact h.of_around rfl (fun hp => absurd hp hidle) (fun hp => absurd hp hidle)
      (fun t ht hresets => ⟨t, ht, hresets⟩)
  · exact h

/-- **The callback marks the decision** and is on its way to queue the timeout work. -/
theorem Sound.inferenceTimer (h : s.Sound) : (s.step .inferenceTimer).Sound := by
  simp only [step, TimedThrottle.step]
  split
  · rename_i d hcallback
    unfold TimedThrottle.inferenceTimer Throttle.inferenceTimer
    dsimp only
    by_cases hhit : (s.timed.throttle.ctx.control.inferencePending
        && !s.timed.throttle.ctx.dying) = true
    · rw [if_pos hhit, hhit]
      refine ⟨⟨fun _ hearly => ?_, fun _ _ => Or.inl rfl⟩, h.supplied, h.reset⟩
      exact absurd hearly.symm Bool.false_ne_true
    · rw [if_neg hhit, Bool.eq_false_iff.mpr hhit]
      have hidle : ¬ s.Pending := by
        rintro ⟨hpending, halive⟩
        rw [Bool.and_eq_true, Bool.not_eq_true'] at hhit
        exact hhit ⟨hpending, halive⟩
      exact h.of_around rfl (fun hp => absurd hp hidle) (fun hp => absurd hp hidle)
        (fun t ht hresets => ⟨t, ht, hresets⟩)
  · exact h

/-- **The timeout work** ends a decision that is late, and leaves one that is not. -/
theorem Sound.timeoutWork (h : s.Sound) : (s.step .timeoutWork).Sound := by
  simp only [step, TimedThrottle.step]
  split
  · unfold Throttle.timeoutWork
    dsimp only
    split
    · exact Sound.of_idle rfl
    · rename_i hnot
      rw [Bool.and_eq_true, not_and] at hnot
      refine ⟨⟨fun hp hearly => ?_, fun hp hlate => absurd hlate (hnot hp.1)⟩, h.supplied, h.reset⟩
      refine (h.inHands.early hp hearly).imp_left fun hcarried => ?_
      exact hcarried.mono (fun _ ht _ => ht) id (fun _ hf => hf) rfl rfl rfl
  · exact h

/-- A step that only touches the timer's callback, the work item or the model thread. -/
theorem Sound.of_aside (h : s.Sound) (hthrottle : s'.timed.throttle = s.timed.throttle)
    (hcalls : s'.timed.calls = s.timed.calls)
    (hwork : s.workQueued = true ∨ s.workTaken = true →
      s'.workQueued = true ∨ s'.workTaken = true)
    (hthread : s.thread = .submitted ∨ s.thread = .taken ∨ s.thread = .supplied →
      s'.thread = .submitted ∨ s'.thread = .taken ∨ s'.thread = .supplied)
    (hended : s.Ended → s'.Ended) : s'.Sound := by
  have hctx : s'.ctx = s.ctx := congrArg Throttle.ctx hthrottle
  refine h.of_around hthrottle (fun _ hcarried => ?_) (fun _ => hended)
    (fun t ht hresets => ⟨t, hcalls ▸ ht, hresets⟩)
  cases hcarried with
  | call t ht hschedules => exact .call t (hcalls ▸ ht) hschedules
  | work h => exact .work (hwork h)
  | frame f hf hmine =>
    refine .frame f ?_ ?_
    · rw [hthrottle]
      exact hf
    · rw [hctx]
      exact hmine
  | thread hmodel h =>
    refine .thread ?_ (hthread h)
    rw [hctx]
    exact hmodel

/-- **Every undisturbed step** leaves every pending decision in somebody's hands. -/
theorem Sound.step (h : s.Sound) {op : CarriedOp} (hundisturbed : s.Undisturbed op) :
    (s.step op).Sound := by
  cases op with
  | lockSection op =>
    by_cases hdispatch : ∃ slotFree, op = .dispatchModelIfNeeded slotFree
    · obtain ⟨slotFree, rfl⟩ := hdispatch
      exact h.dispatch slotFree
    · rw [step_lockSection fun slotFree hop => hdispatch ⟨slotFree, hop⟩]
      split
      · exact h
      · rename_i hwork
        cases honTimer : op.onTimer with
        | true =>
          rw [lockSection_onTimer honTimer]
          exact h
        | false =>
          exact h.lockSection honTimer (Bool.eq_false_iff.mpr hwork)
            (fun slotFree hop => hdispatch ⟨slotFree, hop⟩) hundisturbed
  | call i => exact h.call i
  | cancelWork i => exact h.cancelWork i
  | expire =>
    simp only [CarriedThrottle.step, TimedThrottle.step]
    split
    · rename_i d harmed hcallback
      refine h.of_aside rfl rfl id id fun hended => Or.inr ?_
      rcases hended with hleaving | hqueued
      · exact absurd (hcallback.symm.trans hleaving) (Option.some_ne_none _).symm
      · exact hqueued
    · exact h
  | inferenceTimer => exact h.inferenceTimer
  | inferenceTimerReturn =>
    simp only [CarriedThrottle.step, TimedThrottle.step]
    split
    · rename_i queueTimeout hcallback
      refine h.of_aside rfl rfl id id fun hended => Or.inr ?_
      show (s.timed.timeoutQueued || queueTimeout) = true
      rcases hended with hleaving | hqueued
      · obtain rfl := TimerCallback.leaving.inj (Option.some.inj (hcallback.symm.trans hleaving))
        exact Bool.or_true _
      · rw [hqueued]
        exact Bool.true_or _
    · exact h
  | timeoutWork => exact h.timeoutWork
  | workTake =>
    simp only [CarriedThrottle.step]
    split
    · exact h.of_aside rfl rfl (fun _ => Or.inr rfl) id id
    · exact h
  | inferenceWork =>
    simp only [CarriedThrottle.step]
    split
    · exact h.inferenceWorkBegin false s.thread
    · exact h
  | threadTake =>
    simp only [CarriedThrottle.step]
    split
    · exact h.of_aside rfl rfl id (fun _ => Or.inr (Or.inl rfl)) id
    · exact h
  | threadRun nowNs =>
    simp only [CarriedThrottle.step]
    split
    · exact h.modelThreadRun nowNs
    · exact h
  | threadWork =>
    simp only [CarriedThrottle.step]
    split
    · exact h.inferenceWorkBegin s.workTaken .running
    · exact h
  | threadClear =>
    simp only [CarriedThrottle.step]
    split
    · rename_i hthread
      refine h.of_aside rfl rfl id (fun hcarried => ?_) id
      rw [hthread] at hcarried
      exact absurd hcarried (by decide)
    · exact h
  | cancelCtx =>
    simp only [CarriedThrottle.step]
    split
    · rename_i hcancel
      rw [Bool.and_eq_true] at hcancel
      have hidle : ¬ s.Pending := fun hp =>
        absurd (hp.2.symm.trans hcancel.2) Bool.false_ne_true
      exact h.of_around rfl (fun hp => absurd hp hidle) (fun hp => absurd hp hidle)
        (fun t ht hresets => ⟨t, ht, hresets⟩)
    · exact h

theorem sound_attach {w : Throttle} (h : Throttle.Attached w) : (attach w).Sound := by
  obtain ⟨q, n, -, hctx⟩ := h.ctx
  refine Sound.of_idle ?_
  show w.ctx.control.inferencePending = false
  rw [hctx]
  rfl

/-! ## Resets while throttling is off -/

/-- **A step keeps the order of `smart_io_throttle_set_enabled`**: a reset begins while
throttling is disabled, and throttling is enabled when none is cancelling, except on a
queue that is going away. -/
structure Orderly (s : CarriedThrottle) (op : CarriedOp) : Prop where
  disabled : ∀ newSession nowNs, op = .lockSection (.resetContext newSession nowNs) →
    s.timed.throttle.globals.throttleEnabled = false
  settled : op = .lockSection (.configure (.setThrottleEnabled true)) → s.ctx.dying = false →
    ∀ call ∈ s.timed.calls, call.resets = false

/-- While a reset is cancelling, throttling is disabled or the queue is going away. -/
def Quiesced (s : CarriedThrottle) : Prop :=
  (∃ t ∈ s.timed.calls, t.resets = true) →
    s.timed.throttle.globals.throttleEnabled = false ∨ s.ctx.dying = true

/-- A step around the throttle, that begins no reset. -/
theorem Quiesced.of_around (h : s.Quiesced) (hthrottle : s'.timed.throttle = s.timed.throttle)
    (hcalls : ∀ t ∈ s'.timed.calls, t.resets = true → ∃ t' ∈ s.timed.calls, t'.resets = true) :
    s'.Quiesced := by
  rintro ⟨t, ht, hresets⟩
  have hctx : s'.ctx = s.ctx := congrArg Throttle.ctx hthrottle
  rw [hthrottle, hctx]
  exact h (hcalls t ht hresets)

/-- Only a call to enable throttling does so. -/
theorem throttleEnabled_step {w : Throttle} {op : ThrottleOp}
    (hop : op ≠ .configure (.setThrottleEnabled true))
    (h : w.globals.throttleEnabled = false) :
    (w.step op).1.globals.throttleEnabled = false := by
  have hsurround := congrArg Prod.fst (Throttle.surround_step w op)
  cases op with
  | configure k =>
    have hglobals : (w.step (.configure k)).1.globals = w.globals.configure k := hsurround
    rw [hglobals]
    by_cases hk : ∃ b, k = .setThrottleEnabled b
    · obtain ⟨_ | _, rfl⟩ := hk
      · rfl
      · exact absurd rfl hop
    · rw [ThrottleSystem.throttleEnabled_configure w.globals fun b hb => hk ⟨b, hb⟩]
      exact h
  | _ => exact (congrArg Globals.throttleEnabled hsurround).trans h

/-- **A section** that begins a reset does so while throttling is disabled, and one that
enables throttling finds none. -/
theorem Quiesced.of_section (h : s.Quiesced) (op : ThrottleOp)
    (hthrottle : s'.timed.throttle = (s.timed.throttle.step op).1)
    (hcalls : ∀ t ∈ s'.timed.calls, t.resets = true →
      (∃ t' ∈ s.timed.calls, t'.resets = true) ∨ t ∈ s.timed.throttle.timerCalls op)
    (hdisabled : ∀ newSession nowNs, op = .resetContext newSession nowNs →
      s.timed.throttle.globals.throttleEnabled = false)
    (hsettled : op = .configure (.setThrottleEnabled true) → s.ctx.dying = false →
      ∀ call ∈ s.timed.calls, call.resets = false) : s'.Quiesced := by
  have hdying : s.timed.throttle.ctx.dying = true →
      (s.timed.throttle.step op).1.ctx.dying = true := Throttle.dying_step
  rintro ⟨t, ht, hresets⟩
  show s'.timed.throttle.globals.throttleEnabled = false ∨ s'.timed.throttle.ctx.dying = true
  rw [hthrottle]
  rcases hcalls t ht hresets with ⟨t', ht', hresets'⟩ | hnew
  · by_cases henable : op = .configure (.setThrottleEnabled true)
    · refine Or.inr (hdying (Bool.eq_true_of_not_eq_false fun halive => ?_))
      exact absurd ((hsettled henable halive t' ht').symm.trans hresets') Bool.false_ne_true
    · exact (h ⟨t', ht', hresets'⟩).imp (throttleEnabled_step henable) hdying
  · rcases resets_timerCalls hnew hresets with ⟨newSession, nowNs, rfl⟩ | rfl
    · exact Or.inl (hdisabled newSession nowNs rfl)
    · exact Or.inr rfl

/-- A section of the timer, of the work item or of the model thread. -/
theorem Quiesced.of_work (h : s.Quiesced) (op : ThrottleOp)
    (hthrottle : s'.timed.throttle = (s.timed.throttle.step op).1)
    (hcalls : ∀ t ∈ s'.timed.calls, t.resets = true →
      (∃ t' ∈ s.timed.calls, t'.resets = true) ∨ t ∈ s.timed.throttle.timerCalls op)
    (hop : op.ofWork = true ∨ op.onTimer = true
      ∨ ∃ slotFree, op = .dispatchModelIfNeeded slotFree) :
    s'.Quiesced := by
  refine h.of_section op hthrottle hcalls ?_ ?_
  · rintro newSession nowNs rfl
    exact absurd hop (by simp [ThrottleOp.ofWork, ThrottleOp.onTimer])
  · rintro rfl
    exact absurd hop (by simp [ThrottleOp.ofWork, ThrottleOp.onTimer])

/-- The callers after a section. -/
theorem resets_lockSection {op : ThrottleOp} (t : TimerCall) (ht : t ∈ (s.lockSection op).calls)
    (hresets : t.resets = true) :
    (∃ t' ∈ s.timed.calls, t'.resets = true) ∨ t ∈ s.timed.throttle.timerCalls op := by
  unfold CarriedThrottle.lockSection at ht
  simp only [TimedThrottle.step] at ht
  split at ht
  · exact Or.inl ⟨t, ht, hresets⟩
  · exact (List.mem_append.mp ht).imp_left fun ht => ⟨t, ht, hresets⟩

/-- The callers after a step of one of them. -/
theorem resets_call {i : ℕ} {queued : Bool} (t : TimerCall)
    (ht : t ∈ (s.timed.call i queued).calls) (hresets : t.resets = true) :
    ∃ t' ∈ s.timed.calls, t'.resets = true := by
  unfold TimedThrottle.call at ht
  cases hcall : s.timed.calls[i]? with
  | none =>
    rw [hcall] at ht
    exact ⟨t, ht, hresets⟩
  | some call =>
    rw [hcall] at ht
    have herase (h : t ∈ s.timed.calls.eraseIdx i) : ∃ t' ∈ s.timed.calls, t'.resets = true :=
      ⟨t, List.mem_of_mem_eraseIdx h, hresets⟩
    have hset (next : TimerCall) (h : t ∈ s.timed.calls.set i next)
        (hnext : next.resets = true → call.resets = true) :
        ∃ t' ∈ s.timed.calls, t'.resets = true := by
      rcases List.mem_or_eq_of_mem_set h with hmem | rfl
      · exact ⟨t, hmem, hresets⟩
      · exact ⟨call, List.mem_of_getElem? hcall, hnext hresets⟩
    cases call with
    | scheduleStart d => exact hset _ ht id
    | scheduleQueue =>
      dsimp only at ht
      split at ht
      · exact herase ht
      · exact hset _ ht id
    | scheduleCancel =>
      dsimp only at ht
      split at ht
      · exact hset _ ht id
      · exact ⟨t, ht, hresets⟩
    | scheduleFallback => exact herase ht
    | dispatchStart d => exact herase ht
    | cancel =>
      dsimp only at ht
      split at ht
      · exact herase ht
      · exact ⟨t, ht, hresets⟩
    | resetCancel =>
      dsimp only at ht
      split at ht
      · exact hset _ ht (fun _ => rfl)
      · exact ⟨t, ht, hresets⟩
    | resetCancelWork => exact herase ht

theorem throttle_call (t : TimedThrottle) (i : ℕ) (queued : Bool) :
    (t.call i queued).throttle = t.throttle
      ∨ (t.call i queued).throttle = (t.throttle.step .scheduleFallback).1 := by
  unfold TimedThrottle.call
  split
  · exact Or.inl rfl
  · exact Or.inl rfl
  · split <;> exact Or.inl rfl
  · split <;> exact Or.inl rfl
  · exact Or.inr rfl
  · exact Or.inl rfl
  · split <;> exact Or.inl rfl
  · split <;> exact Or.inl rfl
  · exact Or.inl rfl

theorem Quiesced.step (h : s.Quiesced) {op : CarriedOp} (horderly : s.Orderly op) :
    (s.step op).Quiesced := by
  have hsame : ∀ t ∈ s.timed.calls, t.resets = true → ∃ t' ∈ s.timed.calls, t'.resets = true :=
    fun t ht hresets => ⟨t, ht, hresets⟩
  cases op with
  | lockSection op =>
    by_cases hdispatch : ∃ slotFree, op = .dispatchModelIfNeeded slotFree
    · obtain ⟨slotFree, rfl⟩ := hdispatch
      exact h.of_work (.dispatchModelIfNeeded (slotFree && decide (s.thread = .idle)))
        (congrArg TimedThrottle.throttle (lockSection_eq rfl)) resets_lockSection
        (Or.inr (Or.inr ⟨_, rfl⟩))
    · rw [step_lockSection fun slotFree hop => hdispatch ⟨slotFree, hop⟩]
      split
      · exact h
      · cases honTimer : op.onTimer with
        | true =>
          rw [lockSection_onTimer honTimer]
          exact h
        | false =>
          exact h.of_section op (congrArg TimedThrottle.throttle (lockSection_eq honTimer))
            resets_lockSection
            (fun newSession nowNs hop => horderly.disabled newSession nowNs (hop ▸ rfl))
            (fun hop => horderly.settled (hop ▸ rfl))
  | call i =>
    rcases throttle_call s.timed i (!s.workQueued) with hthrottle | hthrottle
    · exact h.of_around hthrottle resets_call
    · exact h.of_work .scheduleFallback hthrottle
        (fun t ht hresets => Or.inl (resets_call t ht hresets)) (Or.inr (Or.inl rfl))
  | inferenceTimer =>
    simp only [CarriedThrottle.step, TimedThrottle.step]
    split
    · exact h.of_work .inferenceTimer rfl (fun t ht hresets => Or.inl (hsame t ht hresets))
        (Or.inr (Or.inl rfl))
    · exact h
  | timeoutWork =>
    simp only [CarriedThrottle.step, TimedThrottle.step]
    split
    · exact h.of_work .timeoutWork rfl (fun t ht hresets => Or.inl (hsame t ht hresets))
        (Or.inr (Or.inl rfl))
    · exact h
  | inferenceWork =>
    simp only [CarriedThrottle.step]
    split
    · exact h.of_work .inferenceWorkBegin (congrArg TimedThrottle.throttle (lockSection_eq rfl))
        resets_lockSection (Or.inl rfl)
    · exact h
  | threadRun nowNs =>
    simp only [CarriedThrottle.step]
    split
    · exact h.of_work (.modelThreadRun nowNs)
        (congrArg TimedThrottle.throttle (lockSection_eq rfl)) resets_lockSection (Or.inl rfl)
    · exact h
  | threadWork =>
    simp only [CarriedThrottle.step]
    split
    · exact h.of_work .inferenceWorkBegin (congrArg TimedThrottle.throttle (lockSection_eq rfl))
        resets_lockSection (Or.inl rfl)
    · exact h
  | _ =>
    simp only [CarriedThrottle.step, TimedThrottle.step]
    split <;> exact h.of_around rfl hsame

/-- **An orderly step is undisturbed**: a decision is started while throttling is enabled and
the queue stays, so no reset is cancelling. -/
theorem Quiesced.undisturbed (h : s.Quiesced) (op : CarriedOp) : s.Undisturbed op := by
  cases op with
  | lockSection op =>
    intro hstart t ht
    refine Bool.eq_false_iff.mpr fun hresets => ?_
    rcases h ⟨t, ht, hresets⟩ with hdisabled | hdying
    · have henabled := Throttle.enabled_of_startsDecision hstart
      exact absurd (hdisabled.symm.trans henabled) Bool.false_ne_true
    · have halive := (Throttle.started_step hstart).2.alive
      exact absurd (halive.symm.trans (Throttle.dying_step hdying)) Bool.false_ne_true
  | _ => trivial

/-- An orderly run is undisturbed. -/
theorem undisturbed_of_orderly (h : s.Quiesced) {ops : List CarriedOp}
    (hC : machine.StepsMeet Orderly s ops) : machine.StepsMeet Undisturbed s ops := by
  induction ops generalizing s with
  | nil => trivial
  | cons op ops ih => exact ⟨h.undisturbed op, ih (h.step hC.1) hC.2⟩

/-! ## The result -/

/-- **Nothing is under way**: no caller, work item, inference call or callback, and the
model thread is done with the context. -/
structure AtRest (s : CarriedThrottle) : Prop where
  calls : s.timed.calls = []
  work : s.workQueued = false ∧ s.workTaken = false
  frames : s.timed.throttle.frames = []
  thread : s.thread = .idle ∨ s.thread = .running
  callback : s.timed.callback = none
  timeout : s.timed.timeoutQueued = false

/-- At rest a pending decision waits for the dispatch of a background request. -/
theorem InHands.waits (h : s.InHands) (hrest : s.AtRest) (hpending : s.Pending) : s.Waits := by
  cases hlate : s.ctx.control.inferenceTimedOut with
  | true =>
    rcases h.late hpending hlate with hleaving | hqueued
    · exact absurd (hrest.callback.symm.trans hleaving) (Option.some_ne_none _).symm
    · exact absurd (hrest.timeout.symm.trans hqueued) Bool.false_ne_true
  | false =>
    refine (h.early hpending hlate).resolve_left fun hcarried => ?_
    cases hcarried with
    | call t ht _ => exact absurd (hrest.calls ▸ ht) List.not_mem_nil
    | work hwork =>
      rcases hwork with hqueued | htaken
      · exact absurd (hrest.work.1.symm.trans hqueued) Bool.false_ne_true
      · exact absurd (hrest.work.2.symm.trans htaken) Bool.false_ne_true
    | frame f hf _ => exact absurd (hrest.frames ▸ hf) List.not_mem_nil
    | thread _ hthread =>
      rcases hrest.thread with hidle | hrunning
      · rw [hidle] at hthread
        exact absurd hthread (by decide)
      · rw [hrunning] at hthread
        exact absurd hthread (by decide)

/-- A decision that waits needs a dispatch once there is a background request. -/
theorem Waits.modelDispatchNeeded (h : s.Waits) (hpending : s.Pending) :
    s.ctx.modelDispatchNeededLocked = decide (s.ctx.pendingBg ≠ 0) := by
  unfold ThrottleCtx.modelDispatchNeededLocked
  rw [hpending.1, h.2, decide_eq_true h.1]
  rfl

/-- **What a dispatch does** with the decision. It submits it to the model thread, as it is,
if neither this context nor another (`slotFree`) is in the slots of the thread; and if one is,
it abandons it. -/
structure DispatchEnds (s : CarriedThrottle) : Prop where
  submits : s.thread = .idle →
    (s.step (.lockSection (.dispatchModelIfNeeded true))).thread = .submitted
      ∧ (s.step (.lockSection (.dispatchModelIfNeeded true))).Pending
      ∧ (s.step (.lockSection (.dispatchModelIfNeeded true))).ctx.pending = s.ctx.pending
  abandons : ∀ slotFree, slotFree = false ∨ s.thread ≠ .idle →
    (s.step (.lockSection (.dispatchModelIfNeeded slotFree))).ctx.control.inferencePending = false

/-- The section of a dispatch that is needed. -/
theorem ctx_dispatch (henabled : s.timed.throttle.globals.throttleEnabled = true)
    (hneeded : s.ctx.modelDispatchNeededLocked = true) (slotFree : Bool) :
    (s.dispatch slotFree).ctx =
      if slotFree && decide (s.thread = .idle) then
        { s.ctx with control := { s.ctx.control with inferenceRunning := true } }
      else
        ({ s.ctx with control :=
          { s.ctx.control with inferenceRunning := true } } : ThrottleCtx).fallbackLocked.1 := by
  have hnot : ¬ (!s.timed.throttle.globals.throttleEnabled
      || !s.timed.throttle.ctx.modelDispatchNeededLocked) = true := by
    rw [henabled, show s.timed.throttle.ctx.modelDispatchNeededLocked = true from hneeded]
    exact Bool.false_ne_true
  show (s.lockSection (.dispatchModelIfNeeded (slotFree && decide (s.thread = .idle)))).throttle.ctx
    = _
  rw [lockSection_eq rfl]
  simp only [Throttle.step, Throttle.dispatchModelIfNeeded]
  rw [if_neg hnot]
  split <;> rfl

/-- **A dispatch that is needed** ends the waiting. -/
theorem dispatchEnds (henabled : s.timed.throttle.globals.throttleEnabled = true)
    (hneeded : s.ctx.modelDispatchNeededLocked = true) (hpending : s.Pending) :
    s.DispatchEnds where
  submits hidle := by
    have hfree : (true && decide (s.thread = .idle)) = true := by
      rw [hidle]
      rfl
    have hctx : (s.dispatch true).ctx = _ := ctx_dispatch henabled hneeded true
    rw [if_pos hfree] at hctx
    have hthread : (s.dispatch true).thread = .submitted := by
      unfold CarriedThrottle.dispatch
      dsimp only
      rw [hfree, henabled, show s.timed.throttle.ctx.modelDispatchNeededLocked = true from hneeded]
      rfl
    refine ⟨hthread, ?_, ?_⟩
    · show (s.dispatch true).Pending
      unfold Pending
      rw [hctx]
      exact hpending
    · show (s.dispatch true).ctx.pending = s.ctx.pending
      rw [hctx]
  abandons slotFree hbusy := by
    have hnot : ¬ (slotFree && decide (s.thread = .idle)) = true := by
      rw [Bool.and_eq_true, decide_eq_true_eq]
      rintro ⟨rfl, hidle⟩
      exact hbusy.elim Bool.noConfusion fun hthread => hthread hidle
    show (s.dispatch slotFree).ctx.control.inferencePending = false
    rw [ctx_dispatch henabled hneeded slotFree, if_neg hnot]
    rfl

/-- **Every decision is carried to its end.** In a run that starts no decision while a reset
is cancelling, every decision that is pending is in somebody's hands in every state; and
where nothing is under way, the dispatch of a background request submits it, or abandons it
if the model thread is busy. A run that resets contexts only as
`smart_io_throttle_set_enabled` does is such a run. -/
theorem decision_carried {w : Throttle} (h : Throttle.Attached w) (ops : List CarriedOp) :
    (machine.StepsMeet Undisturbed (attach w) ops →
      machine.StatesMeet (fun s => s.InHands ∧ (s.AtRest → s.Pending →
        s.timed.throttle.globals.throttleEnabled = true → s.ctx.pendingBg ≠ 0 →
          s.DispatchEnds)) (attach w) ops)
      ∧ (machine.StepsMeet Orderly (attach w) ops →
        machine.StepsMeet Undisturbed (attach w) ops) := by
  refine ⟨fun hC => ?_, undisturbed_of_orderly ?_⟩
  · have hsound : machine.StatesMeet Sound (attach w) ops :=
      StepMachine.statesMeet_of_stepsMeet (M := machine) (I := Sound) (C := Undisturbed)
        (fun _ _ hs hC => hs.step hC) (sound_attach h) hC
    refine hsound.mono fun s hs => ⟨hs.inHands, fun hrest hpending henabled hbg => ?_⟩
    have hneeded := (hs.inHands.waits hrest hpending).modelDispatchNeeded hpending
    rw [decide_eq_true hbg] at hneeded
    exact dispatchEnds henabled hneeded hpending
  · rintro ⟨t, ht, -⟩
    exact absurd ht List.not_mem_nil

/-- **A decision of the model, up to its submission.** A background request waits, and slow
requests start a decision. -/
def waiting : List CarriedOp :=
  (.classifyRequest 1 Throttle.idleTask 0 :: Throttle.slowRequests).map .lockSection

/-- **And from there to its end.** A dispatch submits it, the thread stores a state and
takes a copy, and the action is put in force. -/
def answered : List CarriedOp :=
  [.lockSection (.dispatchModelIfNeeded true), .call 0, .threadTake, .threadRun 5, .threadWork,
    .lockSection (.inferenceWorkFinish 0 (some 7)), .call 0, .threadClear]

/-- The decision is pending when all is at rest, so the dispatch submits it; and at the end
its action is in force, with nothing under way. -/
theorem decision_carried_answered :
    (machine.run (attach TimedThrottle.modelQueue) waiting).DispatchEnds
      ∧ (machine.run (attach TimedThrottle.modelQueue)
          (waiting ++ answered.take 1)).thread = .submitted
      ∧ (machine.run (attach TimedThrottle.modelQueue) (waiting ++ answered)).AtRest
      ∧ (machine.run (attach TimedThrottle.modelQueue)
          (waiting ++ answered)).ctx.control.actionValid = true
      ∧ (machine.run (attach TimedThrottle.modelQueue)
          (waiting ++ answered)).ctx.control.action = ⟨.medium, .seq, 50, 1, 1, 1⟩ := by
  have hundisturbed : machine.StepsMeet Undisturbed (attach TimedThrottle.modelQueue) waiting := by
    decide +kernel
  have hrest : (machine.run (attach TimedThrottle.modelQueue) waiting).AtRest :=
    ⟨by decide +kernel, by decide +kernel, by decide +kernel, by decide +kernel,
      by decide +kernel, by decide +kernel⟩
  have hpending : (machine.run (attach TimedThrottle.modelQueue) waiting).Pending :=
    ⟨by decide +kernel, by decide +kernel⟩
  obtain ⟨-, hends⟩ := ((decision_carried TimedThrottle.attached_modelQueue waiting).1
    hundisturbed).last
  refine ⟨hends hrest hpending (by decide +kernel) (by decide +kernel), by decide +kernel,
    ⟨by decide +kernel, by decide +kernel, by decide +kernel, by decide +kernel,
      by decide +kernel, by decide +kernel⟩, by decide +kernel, by decide +kernel⟩

end CarriedThrottle
