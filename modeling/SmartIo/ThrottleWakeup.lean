import SmartIo.ThrottleDecisions

/-!
# Wake-ups and the gate

Background requests that the gate holds back stay in their queues until
somebody runs the hardware queues again. The section that opens the gate is
the one that must: nobody else knows that there is something to run.

The gate is opened in few places – by a fallback, by a release that leaves
depth to spare, and by an action taking force – and each of them reports it.
What has to hold is that the report survives the way up. `Carries` says so of
a helper, and composes (`Carries.trans`): two helpers in a row, their reports
joined, carry again. Every section carries but two. A classification that finds
no free record lets `smart_io_throttle_alloc_meta_locked` stop the throttling
and reports nothing, and `smart_io_throttle_timeout_work` takes session number
zero – the session of a queue attached while throttling is on – for the sign
that nothing was abandoned.
-/

open ThrottleCtx

namespace ThrottleCtx

/-- **A report is carried**: if the gate was closed in `c` and is open in `c'`,
then `wake` says so. -/
def Carries (c c' : ThrottleCtx) (wake : Bool) : Prop :=
  c.gateBlocked = true → c'.gateBlocked = false → wake = true

namespace Carries

variable {c c' c'' : ThrottleCtx} {a b : Bool}

/-- A helper that leaves the gate alone has nothing to report. -/
theorem of_eq (h : c'.gateBlocked = c.gateBlocked) : Carries c c' a := by
  intro hclosed hopen
  rw [h, hclosed] at hopen
  exact absurd hopen (by simp)

/-- **Two reports joined.** -/
theorem trans (h₁ : Carries c c' a) (h₂ : Carries c' c'' b) : Carries c c'' (a || b) := by
  intro hclosed hopen
  cases hmid : c'.gateBlocked with
  | false => rw [h₁ hclosed hmid, Bool.true_or]
  | true => rw [h₂ hmid hopen, Bool.or_true]

/-- A helper that leaves the gate closed has nothing to report. -/
theorem of_closed (h : c'.gateBlocked = true) : Carries c c' a :=
  fun _ hopen => absurd (h.symm.trans hopen) (by simp)

/-- Whoever reports in any case carries. -/
theorem always : Carries c c' true := fun _ _ => rfl

/-- A step that leaves the gate alone may come first. -/
theorem after_eq (h₂ : Carries c' c'' b) (h : c'.gateBlocked = c.gateBlocked) :
    Carries c c'' b := by
  intro hclosed hopen
  exact h₂ (h.trans hclosed) hopen

/-- A step that leaves the gate alone may come last. -/
theorem then_eq (h₁ : Carries c c' a) (h : c''.gateBlocked = c'.gateBlocked) :
    Carries c c'' a := by
  intro hclosed hopen
  exact h₁ hclosed (h.symm.trans hopen)

end Carries

/-! ## Helpers that leave the gate alone -/

/-- The gate is part of the decisions. -/
theorem gate_eq {c c' : ThrottleCtx} (h : c'.decisions = c.decisions) :
    c'.gateBlocked = c.gateBlocked :=
  congrArg DecisionView.gateBlocked h

theorem gate_startInferenceLocked (c : ThrottleCtx) (g : Globals) (newControl : Bool)
    (nowNs : ℕ) :
    (c.startInferenceLocked g newControl nowNs).1.gateBlocked = c.gateBlocked := by
  have hsnap := gate_eq ((c.snapshotConfigLocked g).decisions_snapshotStateLocked nowNs
    g.queueDepth g.devLatThresholdUs)
  unfold startInferenceLocked
  dsimp only
  split
  · rfl
  · split
    · rfl
    · split
      · rename_i heq
        rw [heq] at hsnap
        exact hsnap
      · rename_i heq
        rw [heq] at hsnap
        exact hsnap

/-! ## Helpers that report -/

section Report

variable (c : ThrottleCtx) (m : MetaId)

/-- **A fallback reports** that the gate was closed. -/
theorem carries_fallbackLocked : Carries c c.fallbackLocked.1 c.fallbackLocked.2 := by
  intro hclosed _
  exact hclosed

theorem carries_reopenGateLocked :
    Carries c c.reopenGateLocked.1 c.reopenGateLocked.2 := by
  unfold reopenGateLocked
  split
  · exact Carries.always
  · exact Carries.of_eq rfl

theorem carries_releaseDepthLocked :
    Carries c (c.releaseDepthLocked m).1 (c.releaseDepthLocked m).2 := by
  unfold releaseDepthLocked
  dsimp only
  split
  · exact Carries.of_eq rfl
  · split
    · exact Carries.always
    · split
      · exact (carries_reopenGateLocked _).after_eq rfl
      · split
        · exact Carries.always
        · exact (carries_reopenGateLocked _).after_eq rfl

theorem carries_releaseDeadlineLocked :
    Carries c (c.releaseDeadlineLocked m).1 (c.releaseDeadlineLocked m).2 := by
  unfold releaseDeadlineLocked
  dsimp only
  split
  · exact Carries.of_eq rfl
  · split <;> exact Carries.of_eq rfl

theorem carries_releaseIssuedDepthLocked :
    Carries c (c.releaseIssuedDepthLocked m).1 (c.releaseIssuedDepthLocked m).2 := by
  unfold releaseIssuedDepthLocked
  dsimp only
  split
  · exact Carries.of_eq rfl
  · split
    · split
      · exact (carries_fallbackLocked _).after_eq rfl
      · exact Carries.of_eq rfl
    · exact Carries.of_eq rfl

/-- **A release reports** what any of its helpers reports. -/
theorem carries_releaseLocked :
    Carries c (c.releaseLocked m).1 (c.releaseLocked m).2 :=
  (((carries_releaseDeadlineLocked _ m).after_eq
    (gate_eq (c.decisions_inflightRemoveLocked m))).trans
    (carries_releaseIssuedDepthLocked _ m)).trans (carries_releaseDepthLocked _ m)

theorem carries_accountDepthLocked :
    Carries c (c.accountDepthLocked m).1 (c.accountDepthLocked m).2 := by
  unfold accountDepthLocked
  dsimp only
  split
  · exact Carries.always
  · split
    · exact Carries.always
    · split <;> exact Carries.of_eq rfl

theorem carries_accountIssuedDepthLocked :
    Carries c (c.accountIssuedDepthLocked m).1 (c.accountIssuedDepthLocked m).2 := by
  unfold accountIssuedDepthLocked
  split
  · exact Carries.always
  · split
    · exact Carries.always
    · exact Carries.of_eq rfl

end Report

end ThrottleCtx

/-! ## Sections -/

namespace Throttle

/-- Giving a record back leaves the gate alone. -/
theorem gate_freeMetaLocked {w : Throttle} {m : MetaId} (h : w.ctx.books.Sound)
    (hm : m ∈ w.ctx.activeMetas) (rq : RqAddr) :
    (w.freeMetaLocked rq m).ctx.gateBlocked = w.ctx.gateBlocked := by
  rw [freeMetaLocked_ctx h hm]
  exact gate_eq (decisions_returnMeta w.ctx m)

theorem carries_reserveIssue (c : ThrottleCtx) (m : MetaId) :
    Carries c (reserveIssue c m).1 (reserveIssue c m).2 := by
  have hdepth : Carries c
      (if (c.metaPool m).depthAccounted = true then (c, false)
        else c.accountDepthLocked m).1
      (if (c.metaPool m).depthAccounted = true then (c, false)
        else c.accountDepthLocked m).2 := by
    split
    · exact Carries.of_eq rfl
    · exact c.carries_accountDepthLocked m
  unfold reserveIssue
  dsimp only
  generalize (if (c.metaPool m).depthAccounted = true then (c, false)
    else c.accountDepthLocked m) = p at hdepth
  refine hdepth.trans ?_
  split
  · exact Carries.of_eq rfl
  · exact carries_accountIssuedDepthLocked _ m

/-- **An issue reports** what its reservations report. -/
theorem carries_issueMeta (c : ThrottleCtx) (g : Globals) (r : Request) (m : MetaId)
    (nowNs : ℕ) : Carries c (issueMeta c g r m nowNs).1 (issueMeta c g r m nowNs).2 := by
  have hreserve := (carries_reserveIssue (c.modifyMeta m (fun x =>
    { x with deviceTimeExcluded := deviceTimeExcludedOf r })) m).after_eq (c := c) rfl
  refine hreserve.then_eq (gate_eq ?_)
  unfold issueMeta
  dsimp only
  rw [decisions_issueFeedback, decisions_stampIssue, decisions_inflightAddLocked,
    decisions_modifyMeta]

theorem gate_recordSample (c : ThrottleCtx) (g : Globals) (m : MetaId)
    (nowNs latencyUs : ℕ) :
    (recordSample c g m nowNs latencyUs).1.gateBlocked = c.gateBlocked := by
  unfold recordSample
  dsimp only
  split
  · rfl
  · split <;> rfl

/-- **The last vote reports** the fallback that ends the control. -/
theorem carries_recordVote (c : ThrottleCtx) (g : Globals) (m : MetaId)
    (latencyUs : ℕ) :
    Carries c (recordVote c g m latencyUs).ctx (recordVote c g m latencyUs).wake := by
  unfold recordVote
  dsimp only
  split
  · split
    · split
      · exact (carries_fallbackLocked _).after_eq rfl
      · exact Carries.of_eq rfl
    · exact Carries.of_eq rfl
  · exact Carries.of_eq rfl

theorem carries_recordLatency (c : ThrottleCtx) (g : Globals) (m : MetaId)
    (nowNs : ℕ) :
    Carries c (recordLatency c g m nowNs).ctx (recordLatency c g m nowNs).wake := by
  unfold recordLatency
  split
  · exact Carries.of_eq (gate_eq (c.decisions_invalidateFeedbackLocked m))
  · rename_i latencyUs _
    have hvote := (carries_recordVote (recordSample c g m nowNs latencyUs).1 g m
      latencyUs).after_eq (gate_recordSample c g m nowNs latencyUs)
    dsimp only
    split
    · exact hvote
    · exact hvote.then_eq (gate_eq (decisions_invalidateFeedbackLocked _ m))

theorem carries_restartInference (c : ThrottleCtx) (g : Globals) (reinfer slow : Bool)
    (nowNs : ℕ) :
    Carries c (restartInference c g reinfer slow nowNs).1
      (restartInference c g reinfer slow nowNs).2.runHwQueues := by
  have hstart := gate_startInferenceLocked c g slow nowNs
  unfold restartInference
  dsimp only
  split
  · split
    · exact Carries.of_eq hstart
    · split
      · exact (carries_fallbackLocked _).after_eq hstart
      · exact Carries.of_eq hstart
  · exact Carries.of_eq rfl

theorem carries_modelThreadRun (w : Throttle) (nowNs : ℕ) :
    Carries w.ctx (w.modelThreadRun nowNs).1.ctx (w.modelThreadRun nowNs).2.runHwQueues := by
  have hsnap := gate_eq (w.ctx.decisions_snapshotStateLocked nowNs w.globals.queueDepth
    w.globals.devLatThresholdUs)
  unfold modelThreadRun
  dsimp only
  split
  · exact Carries.of_eq rfl
  · split
    · rename_i heq
      rw [heq] at hsnap
      exact (carries_fallbackLocked _).after_eq hsnap
    · rename_i heq
      rw [heq] at hsnap
      exact Carries.of_eq hsnap

theorem carries_inferenceWorkFinish (w : Throttle) (i : ℕ) (predicted : Option (Fin 12)) :
    Carries w.ctx (w.inferenceWorkFinish i predicted).1.ctx
      (w.inferenceWorkFinish i predicted).2.runHwQueues := by
  have hfail (w₁ : Throttle) (f : InferenceFrame) :
      Carries w₁.ctx (w₁.inferenceWorkFail f).1.ctx
        (w₁.inferenceWorkFail f).2.runHwQueues := by
    unfold inferenceWorkFail
    split
    · exact (carries_fallbackLocked _).after_eq rfl
    · exact Carries.of_eq rfl
  have happly (w₁ : Throttle) (f : InferenceFrame) (a : ThrottleAction) (n : ℕ) :
      Carries w₁.ctx (w₁.inferenceWorkApply f a n).1.ctx
        (w₁.inferenceWorkApply f a n).2.runHwQueues := by
    unfold inferenceWorkApply
    dsimp only
    split
    · exact Carries.of_eq rfl
    · split
      · exact (carries_fallbackLocked _).after_eq rfl
      · exact Carries.always
  unfold inferenceWorkFinish
  split
  · exact Carries.of_eq rfl
  · dsimp only
    split
    · exact (hfail _ _).after_eq rfl
    · split
      · exact (hfail _ _).after_eq rfl
      · exact (happly _ _ _ _).after_eq rfl

/-! ## Sections that drop their report -/

/-- **The sections that open the gate without running the queues**: a
classification without a free record, and a timeout that abandons a decision of
session number zero. -/
def DropsWake (w : Throttle) : ThrottleOp → Prop
  | .classifyRequest rq _ _ => (w.rqs rq).priv1 = none ∧ w.ctx.freeMeta = []
  | .timeoutWork =>
    w.ctx.control.inferencePending = true ∧ w.ctx.control.inferenceTimedOut = true
      ∧ w.ctx.pending.sessionId = 0
  | _ => False

instance : ∀ (w : Throttle) (op : ThrottleOp), Decidable (DropsWake w op)
  | w, .classifyRequest rq _ _ =>
    inferInstanceAs (Decidable ((w.rqs rq).priv1 = none ∧ w.ctx.freeMeta = []))
  | w, .timeoutWork =>
    inferInstanceAs (Decidable (w.ctx.control.inferencePending = true
      ∧ w.ctx.control.inferenceTimedOut = true ∧ w.ctx.pending.sessionId = 0))
  | _, .prepareRequest .. | _, .changeRequest .. | _, .updateRequest _ | _, .unqueueRequest _
  | _, .accountDispatch .. | _, .finishRequest _ | _, .recordIssue .. | _, .recordRequeue _
  | _, .recordComplete .. | _, .scheduleFallback | _, .nonHpAllowed | _, .dispatchModelIfNeeded _
  | _, .modelThreadRun _ | _, .inferenceWorkBegin | _, .inferenceWorkFinish .. | _, .inferenceTimer
  | _, .resetContext .. | _, .configure _ | _, .setDying => isFalse id

/-- **Every other section carries its report.** -/
theorem carries_step {w : Throttle} (h : Accounted w) {op : ThrottleOp}
    (hop : ¬ DropsWake w op) :
    Carries w.ctx (w.step op).1.ctx (w.step op).2.runHwQueues := by
  cases op with
  | prepareRequest rq r =>
    simp only [step, prepareRequest]
    split <;> exact Carries.of_eq rfl
  | changeRequest rq r => exact Carries.of_eq rfl
  | classifyRequest rq t nowNs =>
    simp only [step, classifyRequest]
    cases hpriv : (w.rqs rq).priv1 with
    | some m => exact Carries.of_eq (gate_eq (decisions_pendingIncLocked _ m _ nowNs))
    | none =>
      simp only [allocMetaLocked]
      cases hfree : w.ctx.freeMeta with
      | nil => exact absurd ⟨hpriv, hfree⟩ hop
      | cons m rest =>
        exact Carries.of_eq (gate_eq ((decisions_pendingIncLocked _ m _ nowNs).trans
          (decisions_allocTaken m w rq _ rest)))
  | updateRequest rq =>
    simp only [step, updateRequest]
    split
    · exact Carries.of_eq rfl
    · split <;> exact Carries.of_eq rfl
  | unqueueRequest rq =>
    simp only [step, unqueueRequest]
    split
    · exact Carries.of_eq rfl
    · exact Carries.of_eq (gate_eq (decisions_pendingDecLocked _ _))
  | accountDispatch rq selection nowNs =>
    simp only [step, accountDispatch]
    split
    · exact (carries_fallbackLocked _).after_eq rfl
    · rename_i m _
      refine ((carries_accountDepthLocked _ m).after_eq
        (gate_eq (decisions_markDispatch w.ctx m w.globals (w.rqs rq)))).then_eq (gate_eq ?_)
      exact (decisions_bindFeedback _ m _ nowNs).trans
        ((decisions_countSelection _ m selection).trans (decisions_countClass _ m))
  | finishRequest rq =>
    simp only [step, finishRequest]
    cases hpriv : (w.rqs rq).priv1 with
    | none => exact Carries.of_eq rfl
    | some m =>
      have hp := ((Posted.refl h.books (h.priv rq m hpriv).1).quiet
        (w.ctx.books_invalidateFeedbackLocked m)).release
      refine ((carries_releaseLocked _ m).after_eq
        (gate_eq (w.ctx.decisions_invalidateFeedbackLocked m))).then_eq ?_
      exact gate_freeMetaLocked (w := w.withCtx _) hp.sound hp.mem rq
  | recordIssue rq t nowNs =>
    simp only [step, recordIssue]
    cases hfind : w.ctx.findMetaLocked rq with
    | some m => exact carries_issueMeta _ _ _ m nowNs
    | none =>
      simp only [allocMetaLocked]
      cases hfree : w.ctx.freeMeta with
      | nil => exact Carries.always
      | cons m rest =>
        exact (carries_issueMeta _ _ _ m nowNs).after_eq
          (gate_eq (decisions_allocTaken m w rq _ rest))
  | recordRequeue rq =>
    simp only [step, recordRequeue]
    cases hfind : w.ctx.findMetaLocked rq with
    | none => exact Carries.of_eq rfl
    | some m =>
      exact ((carries_releaseLocked _ m).after_eq
        (gate_eq (w.ctx.decisions_invalidateFeedbackLocked m))).then_eq rfl
  | recordComplete rq nrBytes nowNs =>
    simp only [step, recordComplete]
    cases hfind : w.ctx.findMetaLocked rq with
    | none => exact Carries.of_eq rfl
    | some m =>
      have hp := ((Posted.refl h.books (findMetaLocked_some hfind).1).quiet
        (books_recordLatency w.ctx w.globals m nowNs)).release
      dsimp only
      split
      · exact Carries.of_eq rfl
      · refine (((carries_recordLatency w.ctx w.globals m nowNs).trans
          (carries_releaseLocked _ m)).then_eq ?_).trans (carries_restartInference _ _ _ _ _)
        exact gate_freeMetaLocked (w := w.withCtx _) hp.sound hp.mem rq
  | scheduleFallback =>
    simp only [step, scheduleFallback]
    split
    · exact carries_fallbackLocked _
    · exact Carries.of_eq rfl
  | nonHpAllowed =>
    simp only [step, nonHpAllowed]
    split
    · exact Carries.of_eq rfl
    · exact Carries.of_closed
        (congrArg DecisionView.gateBlocked (decisions_closeGate _ _))
  | dispatchModelIfNeeded slotFree =>
    simp only [step, dispatchModelIfNeeded]
    split
    · exact Carries.of_eq rfl
    · split
      · exact Carries.of_eq rfl
      · exact (carries_fallbackLocked _).after_eq rfl
  | modelThreadRun nowNs => exact carries_modelThreadRun w nowNs
  | inferenceWorkBegin =>
    simp only [step, inferenceWorkBegin]
    split <;> exact Carries.of_eq rfl
  | inferenceWorkFinish i predicted => exact carries_inferenceWorkFinish w i predicted
  | inferenceTimer =>
    simp only [step, inferenceTimer]
    split <;> exact Carries.of_eq rfl
  | timeoutWork =>
    simp only [step, timeoutWork]
    split
    · rename_i hc
      rw [Bool.and_eq_true] at hc
      -- the session number is not zero, so the report is looked at
      have hsession : w.ctx.pending.sessionId ≠ 0 := fun h0 => hop ⟨hc.1, hc.2, h0⟩
      rw [if_neg hsession]
      exact (carries_fallbackLocked _).after_eq rfl
    · exact Carries.of_eq rfl
  | resetContext newSession nowNs => exact Carries.always
  | configure k => exact Carries.of_eq rfl
  | setDying => exact Carries.of_eq rfl

/-- The sections that drop their report do open the gate. -/
theorem not_carries_of_dropsWake {w : Throttle} {op : ThrottleOp}
    (hclosed : w.ctx.gateBlocked = true) (hop : DropsWake w op) :
    ¬ Carries w.ctx (w.step op).1.ctx (w.step op).2.runHwQueues := by
  intro hcar
  cases op with
  | classifyRequest rq t nowNs =>
    obtain ⟨hpriv, hfree⟩ := hop
    have hstep : w.step (.classifyRequest rq t nowNs) = (w.allocFailed, {}) := by
      simp only [step, classifyRequest, allocMetaLocked, hpriv, hfree]
    rw [hstep] at hcar
    exact absurd (hcar hclosed rfl) (by simp)
  | timeoutWork =>
    obtain ⟨hpend, hout, h0⟩ := hop
    have hstep : (w.step .timeoutWork).1.ctx.gateBlocked = false
        ∧ (w.step .timeoutWork).2.runHwQueues = false := by
      simp [step, timeoutWork, hpend, hout, h0, withCtx, fallbackLocked,
        setBaselineActionLocked, resetWindowLocked, resetFeedbackLocked,
        clearFeedbackBindingLocked]
    exact absurd ((hcar hclosed hstep.1).symm.trans hstep.2) (by simp)
  | _ => exact hop

/-- **No wake-up is lost** in a section: if it opens the gate, it runs the
hardware queues. -/
def Wakes (w : Throttle) (op : ThrottleOp) : Prop :=
  w.ctx.gateBlocked = true → (w.step op).1.ctx.gateBlocked = false →
    (w.step op).2.runHwQueues = true

/-- A section wakes unless it is one of the two, met with the gate closed. -/
theorem wakes_iff {w : Throttle} (h : Accounted w) (op : ThrottleOp) :
    Wakes w op ↔ ¬(w.ctx.gateBlocked = true ∧ DropsWake w op) := by
  constructor
  · rintro hcar ⟨hclosed, hop⟩
    exact not_carries_of_dropsWake hclosed hop hcar
  · intro hnot hclosed
    exact carries_step h (fun hop => hnot ⟨hclosed, hop⟩) hclosed

/-- **No lost wake-up, but for two sections.** Every section of a run that opens
the gate runs the hardware queues just when none of them is a classification
that finds no free record, or a timeout of a decision of session number zero,
met with the gate closed. -/
theorem wakeup_iff {w : Throttle} (h : Attached w) (ops : List ThrottleOp) :
    machine.StepsMeet Wakes w ops
      ↔ machine.StepsMeet (fun w op => ¬(w.ctx.gateBlocked = true ∧ DropsWake w op)) w ops :=
  StepMachine.stepsMeet_congr (I := Accounted) (fun _ op hw => wakes_iff hw op)
    (fun _ op hw => hw.makes (step_makes hw op)) (accounted_of_attached h) ops

/-- A task without a name. -/
def idleTask : TaskCtx where
  uid := 0
  pid := 0
  comm := []

/-- Five requests one after another, each a millisecond at the device. -/
def slowRequests : List ThrottleOp :=
  [1, 2, 3, 4, 5].flatMap (fun k =>
    [.recordIssue 0 idleTask k, .recordComplete 0 0 (1000000 + k)])

/-- A queue attached while throttling is enabled: it sees five slow requests,
decides to throttle, closes the gate, and runs out of time. -/
def lateQueue : Throttle :=
  machine.run (attach 2 [.setThrottleEnabled true, .setQueueDepth 1])
    (slowRequests ++ [.nonHpAllowed, .inferenceTimer])

/-- The session of a queue attached late is number zero, so the timeout that
abandons its decision opens the gate and does not run the queues. -/
theorem wakeup_lost_on_timeout :
    machine.Reachable lateQueue ∧ lateQueue.ctx.gateBlocked = true
      ∧ (lateQueue.step .timeoutWork).1.ctx.gateBlocked = false
      ∧ (lateQueue.step .timeoutWork).2.runHwQueues = false := by
  refine ⟨reachable_attach _ _, ?_, ?_, ?_⟩
  · decide +kernel
  · decide +kernel
  · decide +kernel

/-- A queue attached before throttling is enabled starts a session with it. Its gate is
closed for a decision, and opened again by the timeout, which runs the queues. -/
theorem wakeup_iff_session :
    let w := attach 2 [.setQueueDepth 1]
    let throttled := [.resetContext true 0, .configure (.setThrottleEnabled true)]
      ++ slowRequests ++ [.nonHpAllowed, .inferenceTimer]
    machine.StepsMeet Wakes w (throttled ++ [.timeoutWork])
      ∧ (machine.run w throttled).ctx.gateBlocked = true
      ∧ ((machine.run w throttled).step .timeoutWork).1.ctx.gateBlocked = false
      ∧ ((machine.run w throttled).step .timeoutWork).2.runHwQueues = true := by
  intro w throttled
  refine ⟨?_, by decide +kernel, by decide +kernel, by decide +kernel⟩
  refine (wakeup_iff (attached_attach Nat.one_ne_zero Nat.one_ne_zero (by decide) _) _).mpr ?_
  decide +kernel

end Throttle
