import SmartIo.ThrottleTimer

/-!
# A decision that is started and a decision that is held

Two things about the lock sections that the way of a decision to its action depends on.
The flag `inference_running` says that a decision has been given to the model thread;
one place sets it, the submission, and everything else leaves it alone or clears it
(`ThrottleCtx.Unset`). And a section that starts no decision leaves the one that is
pending as it is, or ends it (`DecisionView.Holds`).
-/

/-! ## The flag of a submission -/

namespace ThrottleCtx

/-- **The flag is not set**, only left alone or cleared. -/
def Unset (c c' : ThrottleCtx) : Prop :=
  c'.control.inferenceRunning = true → c.control.inferenceRunning = true

namespace Unset

variable {c c' c'' : ThrottleCtx}

theorem of_eq (h : c'.control.inferenceRunning = c.control.inferenceRunning) : c.Unset c' :=
  fun hset => h.symm.trans hset

/-- A helper that clears the flag. -/
theorem of_cleared (h : c'.control.inferenceRunning = false) : c.Unset c' :=
  fun hset => absurd (h.symm.trans hset) Bool.false_ne_true

/-- A fallback, of any context. -/
theorem fallback (c d : ThrottleCtx) : c.Unset d.fallbackLocked.1 := of_cleared rfl

theorem trans (h₁ : c.Unset c') (h₂ : c'.Unset c'') : c.Unset c'' := fun hset => h₁ (h₂ hset)

end Unset

section Helpers

variable (c : ThrottleCtx) (m : MetaId)

theorem unset_pendingIncLocked (g : Globals) (nowNs : ℕ) :
    c.Unset (c.pendingIncLocked g m nowNs) := by
  unfold pendingIncLocked
  dsimp only
  split
  · exact .of_eq rfl
  split
  · exact .of_eq rfl
  · cases (c.metaPool m).rqClass <;> exact .of_eq rfl

theorem unset_pendingDecLocked : c.Unset (c.pendingDecLocked m) := by
  unfold pendingDecLocked
  dsimp only
  split
  · exact .of_eq rfl
  split
  · exact .of_eq rfl
  · cases (c.metaPool m).rqClass <;> exact .of_eq rfl

theorem unset_inflightRemoveLocked : c.Unset (c.inflightRemoveLocked m) := by
  unfold inflightRemoveLocked
  split <;> exact .of_eq rfl

theorem unset_inflightAddLocked (r : Request) : c.Unset (c.inflightAddLocked m r) := by
  unfold inflightAddLocked
  dsimp only
  split <;> exact .of_eq rfl

theorem unset_invalidateFeedbackLocked : c.Unset (c.invalidateFeedbackLocked m) := by
  unfold invalidateFeedbackLocked
  dsimp only
  split
  · exact .of_eq rfl
  · split <;> exact .of_eq rfl

theorem unset_releaseDeadlineLocked : c.Unset (c.releaseDeadlineLocked m).1 := by
  unfold releaseDeadlineLocked
  dsimp only
  split
  · exact .of_eq rfl
  · split <;> exact .of_eq rfl

theorem running_snapshotStateLocked (nowNs queueMax thr : ℕ) :
    (c.snapshotStateLocked nowNs queueMax thr).1.control.inferenceRunning
      = c.control.inferenceRunning := by
  unfold snapshotStateLocked
  dsimp only
  split
  · rfl
  · split
    · rfl
    · split <;> rfl

theorem unset_reopenGateLocked : c.Unset c.reopenGateLocked.1 := by
  unfold reopenGateLocked
  split <;> exact .of_eq rfl

theorem unset_releaseIssuedDepthLocked : c.Unset (c.releaseIssuedDepthLocked m).1 := by
  unfold releaseIssuedDepthLocked
  dsimp only
  split
  · exact .of_eq rfl
  split
  · split
    · exact .fallback _ _
    · exact .of_eq rfl
  · exact .of_eq rfl

theorem unset_releaseAnomalyLocked : c.Unset c.releaseAnomalyLocked := by
  unfold releaseAnomalyLocked
  split
  · exact .fallback _ _
  · exact .of_eq rfl

theorem unset_releaseDepthLocked : c.Unset (c.releaseDepthLocked m).1 := by
  unfold releaseDepthLocked
  dsimp only
  split
  · exact .of_eq rfl
  split
  · exact .trans (.of_eq rfl) (unset_releaseAnomalyLocked _)
  split
  · exact .trans (.of_eq rfl) (unset_reopenGateLocked _)
  split
  · exact .trans (.of_eq rfl) (unset_releaseAnomalyLocked _)
  · exact .trans (.of_eq rfl) (unset_reopenGateLocked _)

theorem unset_releaseLocked : c.Unset (c.releaseLocked m).1 := by
  unfold releaseLocked
  exact (((unset_inflightRemoveLocked c m).trans (unset_releaseDeadlineLocked _ m)).trans
    (unset_releaseIssuedDepthLocked _ m)).trans (unset_releaseDepthLocked _ m)

theorem unset_accountDepthLocked : c.Unset (c.accountDepthLocked m).1 := by
  unfold accountDepthLocked
  dsimp only
  split
  · exact .fallback _ _
  split
  · exact .fallback _ _
  split <;> exact .of_eq rfl

theorem unset_accountIssuedDepthLocked : c.Unset (c.accountIssuedDepthLocked m).1 := by
  unfold accountIssuedDepthLocked
  split
  · exact .fallback _ _
  split
  · exact .fallback _ _
  · exact .of_eq rfl

theorem unset_startInferenceLocked (g : Globals) (newControl : Bool) (nowNs : ℕ) :
    c.Unset (c.startInferenceLocked g newControl nowNs).1 := by
  have hsnap := (c.snapshotConfigLocked g).running_snapshotStateLocked nowNs g.queueDepth
    g.devLatThresholdUs
  unfold startInferenceLocked
  dsimp only
  split
  · exact .of_eq rfl
  split
  · exact .of_cleared rfl
  · generalize (c.snapshotConfigLocked g).snapshotStateLocked nowNs g.queueDepth
      g.devLatThresholdUs = p at hsnap
    rcases p with ⟨c₂, _ | s⟩
    · exact .of_eq hsnap
    · exact .of_cleared rfl

end Helpers

end ThrottleCtx

namespace Throttle

open ThrottleCtx

section Helpers

variable (c : ThrottleCtx) (m : MetaId)

theorem unset_countClass : c.Unset (countClass c m) := by
  unfold countClass
  split <;> exact .of_eq rfl

theorem unset_countSelection (selection : DispatchSelection) :
    c.Unset (countSelection c m selection) := by
  cases selection with
  | backgroundDeadline =>
    show c.Unset (forceDeadline c m)
    unfold forceDeadline
    split <;> exact .of_eq rfl
  | foregroundFifo => exact .of_eq rfl
  | seqHit => exact .of_eq rfl
  | seqFallback => exact .of_eq rfl
  | small => exact .of_eq rfl
  | backgroundBaseline => exact .of_eq rfl

theorem unset_bindFeedback (g : Globals) (nowNs : ℕ) : c.Unset (bindFeedback c g m nowNs) := by
  unfold bindFeedback
  split <;> exact .of_eq rfl

theorem unset_markDispatch (g : Globals) (r : Request) : c.Unset (markDispatch c g m r) := by
  have hdec := unset_pendingDecLocked (c.modifyMeta m (fun x =>
    { x with deviceTimeExcluded := deviceTimeExcludedOf r })) m
  unfold markDispatch
  dsimp only
  split
  · exact hdec
  · exact hdec

theorem unset_issueFeedback : c.Unset (issueFeedback c m) := by
  unfold issueFeedback
  split <;> exact .of_eq rfl

theorem unset_stampIssue (g : Globals) (nowNs : ℕ) : c.Unset (stampIssue c g m nowNs) := by
  unfold stampIssue
  split <;> exact .of_eq rfl

theorem unset_returnMeta : c.Unset (returnMeta c m) := by
  have hdec := (unset_pendingDecLocked c m).trans (unset_inflightRemoveLocked _ m)
  unfold returnMeta
  dsimp only
  split
  · exact hdec
  · exact hdec

theorem unset_reserveIssue : c.Unset (reserveIssue c m).1 := by
  have hdepth : c.Unset (if (c.metaPool m).depthAccounted = true then (c, false)
      else c.accountDepthLocked m).1 := by
    split
    · exact .of_eq rfl
    · exact unset_accountDepthLocked c m
  unfold reserveIssue
  dsimp only
  generalize (if (c.metaPool m).depthAccounted = true then (c, false)
    else c.accountDepthLocked m) = p at hdepth
  refine hdepth.trans ?_
  split
  · exact .of_eq rfl
  · exact unset_accountIssuedDepthLocked p.1 m

theorem unset_issueMeta (g : Globals) (r : Request) (nowNs : ℕ) :
    c.Unset (issueMeta c g r m nowNs).1 := by
  have hreserve := unset_reserveIssue (c.modifyMeta m (fun x =>
    { x with deviceTimeExcluded := deviceTimeExcludedOf r })) m
  unfold issueMeta
  dsimp only
  generalize reserveIssue (c.modifyMeta m (fun x =>
    { x with deviceTimeExcluded := deviceTimeExcludedOf r })) m = p at hreserve
  have hadd := unset_inflightAddLocked (p.1.modifyMeta m (fun x => { x with op := r.op })) m r
  have hissue := (unset_stampIssue ((p.1.modifyMeta m (fun x =>
    { x with op := r.op })).inflightAddLocked m r) m g nowNs).trans (unset_issueFeedback _ m)
  exact fun hset => hreserve (hadd (hissue hset))

theorem unset_recordVote (g : Globals) (latencyUs : ℕ) :
    c.Unset (recordVote c g m latencyUs).ctx := by
  unfold recordVote
  dsimp only
  split
  · split
    · split
      · exact .fallback _ _
      · exact .of_eq rfl
    · exact .of_eq rfl
  · exact .of_eq rfl

theorem unset_recordSample (g : Globals) (nowNs latencyUs : ℕ) :
    c.Unset (recordSample c g m nowNs latencyUs).1 := by
  unfold recordSample
  dsimp only
  split
  · exact .of_eq rfl
  · split <;> exact .of_eq rfl

theorem unset_recordLatency (g : Globals) (nowNs : ℕ) :
    c.Unset (recordLatency c g m nowNs).ctx := by
  unfold recordLatency
  split
  · exact unset_invalidateFeedbackLocked c m
  · rename_i latencyUs _
    have hvote := (unset_recordSample c m g nowNs latencyUs).trans
      (unset_recordVote _ m g latencyUs)
    dsimp only
    split
    · exact hvote
    · exact hvote.trans (unset_invalidateFeedbackLocked _ m)

theorem unset_restartInference (g : Globals) (reinfer slow : Bool) (nowNs : ℕ) :
    c.Unset (restartInference c g reinfer slow nowNs).1 := by
  have hstart := unset_startInferenceLocked c g slow nowNs
  unfold restartInference
  dsimp only
  split
  · split
    · exact hstart
    · split
      · exact .fallback _ _
      · exact hstart
  · exact .of_eq rfl

end Helpers

section Sections

variable (w : Throttle)

theorem unset_allocMetaLocked (rq : RqAddr) (cls : RqClass) :
    w.ctx.Unset (w.allocMetaLocked rq cls).1.ctx := by
  unfold allocMetaLocked
  split
  · exact .fallback _ _
  · unfold allocTaken
    dsimp only
    split <;> exact .of_eq rfl

theorem unset_freeMetaLocked (rq : RqAddr) (m : MetaId) :
    w.ctx.Unset (w.freeMetaLocked rq m).ctx := by
  have hreturn := unset_returnMeta w.ctx m
  unfold freeMetaLocked
  dsimp only
  split
  · exact .fallback _ _
  · split
    · exact hreturn
    · exact hreturn

theorem unset_classifyRequest (rq : RqAddr) (t : TaskCtx) (nowNs : ℕ) :
    w.ctx.Unset (w.classifyRequest rq t nowNs).1.ctx := by
  simp only [classifyRequest]
  generalize selectQueue w.ctx.metaPool w.globals t (w.rqs rq) = q
  have hset (w₁ : Throttle) (m : MetaId) : w₁.ctx.Unset
      ((w₁.ctx.modifyMeta m (fun x => { x with queueClass := q })).pendingIncLocked
        w₁.globals m nowNs) :=
    .trans (.of_eq rfl) (unset_pendingIncLocked _ m w₁.globals nowNs)
  cases (w.rqs rq).priv1 with
  | some m => exact hset w m
  | none =>
    have halloc := unset_allocMetaLocked w rq (classForQueue q)
    dsimp only
    generalize w.allocMetaLocked rq (classForQueue q) = p at halloc
    rcases p with ⟨w₁, _ | m⟩
    · exact halloc
    · exact halloc.trans (hset w₁ m)

theorem unset_accountDispatch (rq : RqAddr) (selection : DispatchSelection) (nowNs : ℕ) :
    w.ctx.Unset (w.accountDispatch rq selection nowNs).1.ctx := by
  simp only [accountDispatch]
  cases (w.rqs rq).priv1 with
  | none => exact .fallback _ _
  | some m =>
    exact ((unset_markDispatch w.ctx m w.globals (w.rqs rq)).trans
      (unset_accountDepthLocked _ m)).trans ((unset_countClass _ m).trans
        ((unset_countSelection _ m selection).trans (unset_bindFeedback _ m w.globals nowNs)))

theorem unset_finishRequest (rq : RqAddr) : w.ctx.Unset (w.finishRequest rq).1.ctx := by
  simp only [finishRequest]
  cases (w.rqs rq).priv1 with
  | none => exact .of_eq rfl
  | some m =>
    exact ((unset_invalidateFeedbackLocked w.ctx m).trans (unset_releaseLocked _ m)).trans
      (unset_freeMetaLocked (w.withCtx _) rq m)

theorem unset_recordIssue (rq : RqAddr) (t : TaskCtx) (nowNs : ℕ) :
    w.ctx.Unset (w.recordIssue rq t nowNs).1.ctx := by
  simp only [recordIssue]
  cases w.ctx.findMetaLocked rq with
  | some m => exact unset_issueMeta w.ctx m w.globals (w.rqs rq) nowNs
  | none =>
    have halloc := unset_allocMetaLocked w rq
      (classForQueue (selectQueue w.ctx.metaPool w.globals t (w.rqs rq)))
    dsimp only
    generalize w.allocMetaLocked rq
      (classForQueue (selectQueue w.ctx.metaPool w.globals t (w.rqs rq))) = p at halloc
    rcases p with ⟨w₁, _ | m⟩
    · exact halloc
    · exact halloc.trans (unset_issueMeta _ m _ _ nowNs)

theorem unset_recordRequeue (rq : RqAddr) : w.ctx.Unset (w.recordRequeue rq).1.ctx := by
  simp only [recordRequeue]
  cases w.ctx.findMetaLocked rq with
  | none => exact .of_eq rfl
  | some m =>
    exact ((unset_invalidateFeedbackLocked w.ctx m).trans (unset_releaseLocked _ m)).trans
      (.of_eq rfl)

theorem unset_recordComplete (rq : RqAddr) (nrBytes nowNs : ℕ) :
    w.ctx.Unset (w.recordComplete rq nrBytes nowNs).1.ctx := by
  simp only [recordComplete]
  cases w.ctx.findMetaLocked rq with
  | none => exact .of_eq rfl
  | some m =>
    dsimp only
    split
    · exact .of_eq rfl
    · exact (((unset_recordLatency w.ctx m w.globals nowNs).trans (unset_releaseLocked _ m)).trans
        (unset_freeMetaLocked (w.withCtx _) rq m)).trans
          (unset_restartInference _ w.globals _ _ nowNs)

theorem unset_modelThreadRun (nowNs : ℕ) : w.ctx.Unset (w.modelThreadRun nowNs).1.ctx := by
  have hsnap := w.ctx.running_snapshotStateLocked nowNs w.globals.queueDepth
    w.globals.devLatThresholdUs
  unfold modelThreadRun
  dsimp only
  split
  · exact .of_cleared rfl
  · generalize w.ctx.snapshotStateLocked nowNs w.globals.queueDepth
      w.globals.devLatThresholdUs = p at hsnap
    rcases p with ⟨c₁, _ | s⟩
    · exact .fallback _ _
    · exact .of_eq hsnap

theorem unset_inferenceWorkFinish (i : ℕ) (predicted : Option (Fin 12)) :
    w.ctx.Unset (w.inferenceWorkFinish i predicted).1.ctx := by
  have hfail (w₁ : Throttle) (f : InferenceFrame) :
      w₁.ctx.Unset (w₁.inferenceWorkFail f).1.ctx := by
    unfold inferenceWorkFail
    split
    · exact .fallback _ _
    · exact .of_eq rfl
  unfold inferenceWorkFinish
  split
  · exact .of_eq rfl
  dsimp only
  split
  · exact hfail _ _
  split
  · exact hfail _ _
  · unfold inferenceWorkApply
    dsimp only
    split
    · exact .of_cleared rfl
    split
    · exact .fallback _ _
    · exact .of_cleared rfl

/-- **The flag of a submission is set by a submission** and by nothing else. -/
theorem unset_step {op : ThrottleOp} (hop : ∀ slotFree, op ≠ .dispatchModelIfNeeded slotFree) :
    w.ctx.Unset (w.step op).1.ctx := by
  cases op with
  | prepareRequest rq r =>
    simp only [step, prepareRequest]
    split <;> exact .of_eq rfl
  | changeRequest rq r => exact .of_eq rfl
  | classifyRequest rq t nowNs => exact unset_classifyRequest w rq t nowNs
  | updateRequest rq =>
    simp only [step, updateRequest]
    split
    · exact .of_eq rfl
    · split <;> exact .of_eq rfl
  | unqueueRequest rq =>
    simp only [step, unqueueRequest]
    split
    · exact .of_eq rfl
    · exact unset_pendingDecLocked _ _
  | accountDispatch rq selection nowNs => exact unset_accountDispatch w rq selection nowNs
  | finishRequest rq => exact unset_finishRequest w rq
  | recordIssue rq t nowNs => exact unset_recordIssue w rq t nowNs
  | recordRequeue rq => exact unset_recordRequeue w rq
  | recordComplete rq nrBytes nowNs => exact unset_recordComplete w rq nrBytes nowNs
  | scheduleFallback =>
    simp only [step, scheduleFallback]
    split
    · exact .fallback _ _
    · exact .of_eq rfl
  | nonHpAllowed =>
    simp only [step, nonHpAllowed]
    split
    · exact .of_eq rfl
    · show w.ctx.Unset (closeGate _ _)
      unfold closeGate
      split <;> exact .of_eq rfl
  | dispatchModelIfNeeded slotFree => exact absurd rfl (hop slotFree)
  | modelThreadRun nowNs => exact unset_modelThreadRun w nowNs
  | inferenceWorkBegin =>
    simp only [step, inferenceWorkBegin]
    split
    · exact .of_cleared rfl
    · exact .of_eq rfl
  | inferenceWorkFinish i predicted => exact unset_inferenceWorkFinish w i predicted
  | inferenceTimer =>
    simp only [step, inferenceTimer]
    split <;> exact .of_eq rfl
  | timeoutWork =>
    simp only [step, timeoutWork]
    split
    · exact .fallback _ _
    · exact .of_eq rfl
  | resetContext newSession nowNs => exact .of_cleared rfl
  | configure k => exact .of_eq rfl
  | setDying => exact .of_eq rfl

end Sections

end Throttle

/-! ## The decision that is pending -/

/-- The three numbers a decision is known by. -/
def PendingDecision.number (d : PendingDecision) : ℕ × ℕ × ℕ :=
  (d.sessionId, d.controlId, d.decisionId)

/-- The numbers an inference call took with its decision. -/
def InferenceFrame.number (f : InferenceFrame) : ℕ × ℕ × ℕ :=
  (f.sessionId, f.controlId, f.decisionId)

namespace DecisionView

/-- **The pending decision is held**: if one is pending afterwards it was before, with the
same numbers and of the same source, and as late. -/
def Holds (V V' : DecisionView) : Prop :=
  V'.inferencePending = true → V.inferencePending = true ∧ V'.pending.number = V.pending.number
    ∧ V'.pending.source = V.pending.source ∧ V'.inferenceTimedOut = V.inferenceTimedOut

/-- A decision that does not wait for the model thread has its state. -/
def Supplied (V : DecisionView) : Prop :=
  V.inferencePending = true → V.pending.source ≠ .model → V.pendingStateValid = true

variable {g : Globals} {V V' V'' : DecisionView} {es : List DecisionEvent}

theorem Holds.of_eq (h : V' = V) : V.Holds V' := by
  rw [h]
  exact fun hp => ⟨hp, rfl, rfl, rfl⟩

/-- A move after which nothing is pending. -/
theorem Holds.of_idle (h : V'.inferencePending = false) : V.Holds V' :=
  fun hp => absurd (h.symm.trans hp) Bool.false_ne_true

theorem Holds.trans (h₁ : V.Holds V') (h₂ : V'.Holds V'') : V.Holds V'' := by
  intro hp
  obtain ⟨hp', hnumber, hsource, hlate⟩ := h₂ hp
  obtain ⟨hp'', hnumber', hsource', hlate'⟩ := h₁ hp'
  exact ⟨hp'', hnumber.trans hnumber', hsource.trans hsource', hlate.trans hlate'⟩

theorem holds_reopen (V : DecisionView) : V.Holds V.reopen := by
  unfold reopen
  split <;> exact fun hp => ⟨hp, rfl, rfl, rfl⟩

/-- **A move that starts no decision** holds the pending one. -/
theorem UntimedTurn.holds (h : UntimedTurn g V es V')
    (hes : es.any DecisionEvent.starts = false) : V.Holds V' := by
  obtain ⟨hturn, huntimed⟩ := h
  cases hturn with
  | release n hn => exact fun hp => holds_reopen ({ V with bgCurrentDepth := n }) hp
  | fallback => exact .of_idle rfl
  | configure hp => exact .of_idle hp
  | start newControl henabled hdying hp hsource => exact absurd hes Bool.noConfusion
  | startWith newControl s henabled hdying hp hsource => exact absurd hes Bool.noConfusion
  | timeOut hp => exact fun _ => ⟨hp, rfl, rfl, (huntimed rfl).symm⟩
  | install f predicted computed a hcomputed hawaits hdying hqueue htarget => exact .of_idle rfl
  | _ => exact fun hp => ⟨hp, rfl, rfl, rfl⟩

/-- A context that dies stays so. -/
theorem dying_turn (h : Turn g V es V') (hdying : V.dying = true) : V'.dying = true := by
  cases h with
  | release n hn =>
    unfold reopen
    split <;> exact hdying
  | die => rfl
  | _ => exact hdying

theorem Supplied.turn (h : V.Supplied) (ht : Turn g V es V') : V'.Supplied := by
  cases ht with
  | release n hn =>
    unfold reopen
    split <;> exact h
  | fallback => exact fun hp => absurd hp Bool.false_ne_true
  | configure hp => exact fun hp' => absurd (hp.symm.trans hp') Bool.false_ne_true
  | start newControl henabled hdying hp hsource =>
    exact fun _ hmodel => absurd hsource hmodel
  | startWith newControl s henabled hdying hp hsource =>
    exact fun _ hmodel => decide_eq_true hmodel
  | takeState s hp hsource => exact fun _ _ => rfl
  | install f predicted computed a hcomputed hawaits hdying hqueue htarget =>
    exact fun hp => absurd hp Bool.false_ne_true
  | _ => exact h

end DecisionView

namespace Throttle

variable {w : Throttle} {op : ThrottleOp}

/-- **A section that starts no decision** holds the pending one, unless it is the timer's. -/
theorem holds_step (hop : op ≠ .inferenceTimer) (hstart : w.startsDecision op = false) :
    w.ctx.decisions.Holds (w.step op).1.ctx.decisions := by
  have huntimed : Chain (UntimedTurn w.globals) w.ctx.decisions (w.decisionEvents op)
      (w.step op).1.ctx.decisions := untimed_step w hop
  have hkeeps := huntimed.keeps (h := [])
    (I := fun es V => es.any DecisionEvent.starts = false → w.ctx.decisions.Holds V)
    (fun h V es V' hmove hI hes => ?_) (fun _ => .of_eq rfl)
  · exact hkeeps hstart
  · rw [List.any_append, Bool.or_eq_false_iff] at hes
    exact (hI hes.1).trans (DecisionView.UntimedTurn.holds hmove hes.2)

theorem dying_step (hdying : w.ctx.dying = true) : (w.step op).1.ctx.dying = true :=
  (turns_step w op).keeps_state (I := fun V => V.dying = true)
    (fun _ _ _ hmove hV => DecisionView.dying_turn hmove hV) hdying

theorem supplied_step (h : w.ctx.decisions.Supplied) :
    (w.step op).1.ctx.decisions.Supplied :=
  (turns_step w op).keeps_state (I := DecisionView.Supplied)
    (fun _ _ _ hmove hV => hV.turn hmove) h

/-! ## A decision that is started -/

/-- **A decision is started** only while throttling is enabled. -/
theorem enabled_of_startsDecision (h : w.startsDecision op = true) :
    w.globals.throttleEnabled = true := by
  have hchain : Chain (Turn w.globals) w.ctx.decisions (w.decisionEvents op)
      (w.step op).1.ctx.decisions := turns_step w op
  refine hchain.keeps (h := []) (I := fun es _ =>
    es.any DecisionEvent.starts = true → w.globals.throttleEnabled = true)
    (fun h V es V' hmove hI hes => ?_) (fun hno => absurd hno Bool.false_ne_true) h
  rw [List.any_append, Bool.or_eq_true] at hes
  rcases hes with hes | hes
  · exact hI hes
  · cases hmove with
    | start newControl henabled hdying hp hsource => exact henabled
    | startWith newControl state henabled hdying hp hsource => exact henabled
    | _ => exact absurd hes Bool.false_ne_true

/-- **A decision has been launched**: it is not given to the model thread yet, and its
work item is to be queued if it does not wait for that. -/
structure Launched (c : ThrottleCtx) (schedule : Bool) : Prop where
  idle : c.control.inferenceRunning = false
  schedule : c.pending.source ≠ .model → schedule = true

theorem running_startInferenceLocked {c : ThrottleCtx} {g : Globals} {newControl : Bool}
    {nowNs : ℕ} (h : (c.startInferenceLocked g newControl nowNs).2 = true) :
    (c.startInferenceLocked g newControl nowNs).1.control.inferenceRunning = false := by
  unfold ThrottleCtx.startInferenceLocked at h ⊢
  dsimp only at h ⊢
  split at h
  · exact absurd h Bool.false_ne_true
  · rename_i hrefuse
    rw [if_neg hrefuse]
    split
    · rfl
    · rename_i hmodel
      rw [if_neg hmodel] at h
      generalize (c.snapshotConfigLocked g).snapshotStateLocked nowNs g.queueDepth
        g.devLatThresholdUs = p at h
      rcases p with ⟨c₂, _ | s⟩
      · exact absurd h Bool.false_ne_true
      · rfl

theorem launched_restartInference {c : ThrottleCtx} {g : Globals} {reinfer slow : Bool}
    {nowNs : ℕ} (hask : (reinfer || slow) = true)
    (hstart : (c.startInferenceLocked g slow nowNs).2 = true) :
    Launched (restartInference c g reinfer slow nowNs).1
      (restartInference c g reinfer slow nowNs).2.scheduleInference := by
  unfold restartInference
  dsimp only
  rw [if_pos hask, if_pos hstart]
  exact ⟨running_startInferenceLocked hstart, fun hmodel => decide_eq_true hmodel⟩

/-- **A completion that starts a decision** launches it. -/
theorem launched_recordComplete {rq : RqAddr} {nrBytes nowNs : ℕ}
    (h : w.startsDecision (.recordComplete rq nrBytes nowNs) = true) :
    Launched (w.recordComplete rq nrBytes nowNs).1.ctx
      (w.recordComplete rq nrBytes nowNs).2.scheduleInference := by
  unfold startsDecision at h
  simp only [decisionEvents, recordComplete] at h ⊢
  cases hfind : w.ctx.findMetaLocked rq with
  | none =>
    rw [hfind] at h
    exact absurd h Bool.false_ne_true
  | some m =>
    rw [hfind] at h
    dsimp only at h ⊢
    generalize recordLatency w.ctx w.globals m nowNs = v at h
    by_cases hfinal : (!w.finalCompletion rq nrBytes) = true
    · rw [if_pos hfinal] at h
      exact absurd h Bool.false_ne_true
    · have hraw : ¬(!(!(w.rqs rq).hasBio || decide ((w.rqs rq).bytes ≤ nrBytes))) = true :=
        hfinal
      rw [if_neg hfinal] at h
      rw [if_neg hraw]
      by_cases hask : (v.reinfer || v.slow) = true
      · rw [if_pos hask] at h
        exact launched_restartInference hask (starts_startEvents h)
      · rw [if_neg hask] at h
        exact absurd h Bool.false_ne_true

/-- **Only a completion starts a decision**, and it launches it. -/
theorem launched_step (h : w.startsDecision op = true) :
    (∃ rq nrBytes nowNs, op = .recordComplete rq nrBytes nowNs) ∧
      Launched (w.step op).1.ctx (w.step op).2.scheduleInference := by
  cases op with
  | recordComplete rq nrBytes nowNs => exact ⟨⟨rq, nrBytes, nowNs, rfl⟩, launched_recordComplete h⟩
  | modelThreadRun nowNs =>
    refine absurd h ?_
    unfold startsDecision
    simp only [decisionEvents, modelThreadEvents]
    split
    · exact Bool.false_ne_true
    · generalize (w.ctx.snapshotStateLocked nowNs w.globals.queueDepth
        w.globals.devLatThresholdUs).2 = s
      cases s <;> exact Bool.false_ne_true
  | inferenceWorkFinish i predicted =>
    refine absurd h ?_
    unfold startsDecision
    simp only [decisionEvents]
    split <;> exact Bool.false_ne_true
  | _ => exact absurd h Bool.false_ne_true

end Throttle
