import SmartIo.Chronicle
import SmartIo.ThrottleAccounting

/-!
# The decisions of a throttle

A decision is started by a completion, computed by an inference call between
two lock sections, and put in force – or it is abandoned by any of a dozen
sections that fall back. Half of the context has a part in it. The other half –
the records, the in-flight index, the feedback – has not, and what a section
does to the first half is one of a few **moves** (`Turn`), whatever else the
section does.

Each section is a chain of such moves (`turns_step`), and no section but the
timer's own marks a decision as late (`untimed_step`). Whatever is to be shown
of the decisions – that none is applied late, that the gate is never closed for
no reason, that a depth can always be met – is shown of the moves.
-/

open ThrottleCtx

/-! ## The view -/

/-- **What a decision depends on**: the control flags, the action in force, the
gate, the depth it is compared with, the window of samples, and the numbering. -/
structure DecisionView where
  throttleActive : Bool
  inferencePending : Bool
  actionValid : Bool
  inferenceTimedOut : Bool
  pendingStateValid : Bool
  action : ThrottleAction
  gateBlocked : Bool
  gateReason : GateReason
  bgCurrentDepth : ℕ
  dying : Bool
  window : DevLatWindow
  sessionId : ℕ
  controlId : ℕ
  decisionId : ℕ
  pending : PendingDecision

/-- The view of a context. -/
def ThrottleCtx.decisions (c : ThrottleCtx) : DecisionView where
  throttleActive := c.control.throttleActive
  inferencePending := c.control.inferencePending
  actionValid := c.control.actionValid
  inferenceTimedOut := c.control.inferenceTimedOut
  pendingStateValid := c.control.pendingStateValid
  action := c.control.action
  gateBlocked := c.gateBlocked
  gateReason := c.gateReason
  bgCurrentDepth := c.bgCurrentDepth
  dying := c.dying
  window := c.window
  sessionId := c.sessionId
  controlId := c.controlId
  decisionId := c.decisionId
  pending := c.pending

/-- The frame of an inference call that takes a pending decision. -/
def PendingDecision.frame (d : PendingDecision) : InferenceFrame where
  sessionId := d.sessionId
  controlId := d.controlId
  decisionId := d.decisionId
  source := d.source
  action := d.fixedAction
  state := d.state

/-- What happens to a decision. -/
inductive DecisionEvent where
  /-- A decision is numbered, and the configuration copied for it. -/
  | started (decisionId : ℕ) (config : ThrottleConfig)
  /-- A state snapshot is stored for a decision. -/
  | snapshot (decisionId : ℕ) (state : StateSnapshot)
  /-- The action of an inference call is put in force. -/
  | installed (frame : InferenceFrame) (predicted : Option (Fin 12))
      (action : ThrottleAction)
deriving DecidableEq

/-- A sample enters the window, in the place of the oldest one. -/
def DevLatWindow.push (win : DevLatWindow) (x : CompletionSample) : DevLatWindow where
  devLat := Function.update win.devLat win.devLatHead x
  devLatHead := win.devLatHead + 1
  devLatCount :=
    if win.devLatCount < devLatWindowSize then win.devLatCount + 1 else win.devLatCount

namespace DecisionView

/-- Nothing is throttled any more, and nothing sampled yet. -/
def idle (V : DecisionView) : DecisionView :=
  { V with
    throttleActive := false
    inferencePending := false
    actionValid := false
    inferenceTimedOut := false
    pendingStateValid := false
    action := .baseline
    gateBlocked := false
    gateReason := .none
    window := .zero }

/-- Whether the depth lets a background request run. -/
def depthCanRun (V : DecisionView) : Bool :=
  if !V.throttleActive || !V.actionValid || V.action.level = .no then true
  else decide (V.bgCurrentDepth < V.action.targetDepth)

/-- The gate opens if the depth allows it. -/
def reopen (V : DecisionView) : DecisionView :=
  if V.gateBlocked && V.depthCanRun then
    { V with gateBlocked := false, gateReason := .none }
  else V

theorem reopen_inferenceTimedOut (V : DecisionView) :
    V.reopen.inferenceTimedOut = V.inferenceTimedOut := by
  unfold reopen
  split <;> rfl

/-- The configuration is copied for the next decision. -/
def configured (V : DecisionView) (k : ThrottleConfig) : DecisionView :=
  { V with
    pending := { V.pending with
      source := k.source
      fixedAction := k.fixedAction
      lightPct := k.lightPct
      mediumPct := k.mediumPct
      heavyPct := k.heavyPct } }

/-- A decision is numbered and awaited. -/
def arm (V : DecisionView) (newControl : Bool) (state : Option StateSnapshot) :
    DecisionView :=
  { V with
    throttleActive := true
    inferencePending := true
    actionValid := false
    inferenceTimedOut := false
    pendingStateValid := decide (V.pending.source ≠ .model)
    controlId := if newControl then V.controlId + 1 else V.controlId
    decisionId := V.decisionId + 1
    pending := { V.pending with
      sessionId := V.sessionId
      controlId := if newControl then V.controlId + 1 else V.controlId
      decisionId := V.decisionId + 1
      state := state.getD V.pending.state } }

/-- Whether the decision of a frame is the one awaited. -/
def awaits (V : DecisionView) (f : InferenceFrame) : Bool :=
  V.inferencePending && !V.inferenceTimedOut
    && decide (f.sessionId = V.pending.sessionId)
    && decide (f.controlId = V.pending.controlId)
    && decide (f.decisionId = V.pending.decisionId)

/-- The ratio of a level, from the copied configuration. -/
def ratio (V : DecisionView) : ThrottleLevel → ℕ
  | .light => V.pending.lightPct
  | .medium => V.pending.mediumPct
  | .heavy => V.pending.heavyPct
  | .no => 0

/-- An action is in force. -/
def install (V : DecisionView) (a : ThrottleAction) : DecisionView :=
  { V with
    action := a
    actionValid := true
    inferencePending := false
    inferenceTimedOut := false
    gateBlocked := false
    gateReason := .none }

end DecisionView

/-- **The target an action is put in force with**: none for the level that
throttles nothing, else what the ratio of its level leaves of the queue. -/
structure DecisionView.Targets (V : DecisionView) (f : InferenceFrame)
    (computed action : ThrottleAction) (depth : ℕ) : Prop where
  level : action.level = computed.level
  policy : action.policy = computed.policy
  ratioPct : action.ratioPct = V.ratio computed.level
  queueMax : action.queueMax = depth
  decisionId : action.decisionId = f.decisionId
  none : computed.level = .no → action.targetDepth = 0
  some : computed.level ≠ .no →
    action.targetDepth = Throttle.targetDepthOf depth (V.ratio computed.level)
      ∧ action.targetDepth ≠ 0

/-- **One move** of the decisions, under the static variables its section
reads. -/
inductive Turn (g : Globals) : DecisionView → List DecisionEvent → DecisionView → Prop
  | reserve (V : DecisionView) (n : ℕ) (h : V.bgCurrentDepth ≤ n) :
      Turn g V [] { V with bgCurrentDepth := n }
  | release (V : DecisionView) (n : ℕ) (h : n ≤ V.bgCurrentDepth) :
      Turn g V [] ({ V with bgCurrentDepth := n } : DecisionView).reopen
  | fallback (V : DecisionView) : Turn g V [] V.idle
  | sample (V : DecisionView) (x : CompletionSample) (hx : x.devLatUs ≤ u32Max) :
      Turn g V [] { V with window := V.window.push x }
  | newSession (V : DecisionView) : Turn g V [] { V with sessionId := V.sessionId + 1 }
  | close (V : DecisionView) (reason : GateReason)
      (h : reason = .inference ∧ V.inferencePending = true
        ∨ reason = .depth ∧ V.depthCanRun = false) :
      Turn g V [] { V with gateBlocked := true, gateReason := reason }
  | configure (V : DecisionView) (h : V.inferencePending = false) :
      Turn g V [] (V.configured g.config)
  | start (V : DecisionView) (newControl : Bool) (henabled : g.throttleEnabled = true)
      (hdying : V.dying = false) (hpending : V.inferencePending = false)
      (hsource : g.config.source = .model) :
      Turn g V [.started (V.decisionId + 1) g.config]
        ((V.configured g.config).arm newControl none)
  | startWith (V : DecisionView) (newControl : Bool) (s : StateSnapshot)
      (henabled : g.throttleEnabled = true) (hdying : V.dying = false)
      (hpending : V.inferencePending = false) (hsource : g.config.source ≠ .model) :
      Turn g V [.started (V.decisionId + 1) g.config, .snapshot (V.decisionId + 1) s]
        ((V.configured g.config).arm newControl (some s))
  | takeState (V : DecisionView) (s : StateSnapshot) (hpending : V.inferencePending = true)
      (hsource : V.pending.source = .model) :
      Turn g V [.snapshot V.pending.decisionId s]
        { V with pending := { V.pending with state := s }, pendingStateValid := true }
  | timeOut (V : DecisionView) (hpending : V.inferencePending = true) :
      Turn g V [] { V with inferenceTimedOut := true }
  | install (V : DecisionView) (f : InferenceFrame) (predicted : Option (Fin 12))
      (computed a : ThrottleAction) (hcomputed : Throttle.frameAction f predicted = some computed)
      (hawaits : V.awaits f = true) (hdying : V.dying = false)
      (hqueue : g.queueDepth ≠ 0) (htarget : V.Targets f computed a g.queueDepth) :
      Turn g V [.installed f predicted a] (V.install a)
  | die (V : DecisionView) : Turn g V [] { V with dying := true }

/-- The moves of a section, from one context to another. -/
def Turns (g : Globals) (c : ThrottleCtx) (es : List DecisionEvent) (c' : ThrottleCtx) :
    Prop :=
  Chain (Turn g) c.decisions es c'.decisions

/-- **What every move keeps, a section keeps.** -/
theorem Turns.keeps_state {g : Globals} {c c' : ThrottleCtx} {es : List DecisionEvent}
    {I : DecisionView → Prop} (h : Turns g c es c')
    (hmove : ∀ V es V', Turn g V es V' → I V → I V') (hI : I c.decisions) : I c'.decisions :=
  Chain.keeps_state hmove h hI

/-- A move that may clear the mark of a late decision, but does not set it. -/
structure UntimedTurn (g : Globals) (V : DecisionView) (es : List DecisionEvent)
    (V' : DecisionView) : Prop where
  turn : Turn g V es V'
  untimed : V'.inferenceTimedOut = true → V.inferenceTimedOut = true

namespace UntimedTurn

variable {g : Globals} {V V' : DecisionView} {es : List DecisionEvent}

/-- A move that clears the mark. -/
theorem cleared (h : Turn g V es V') (hmark : V'.inferenceTimedOut = false) :
    UntimedTurn g V es V' :=
  ⟨h, fun hlate => absurd (hmark.symm.trans hlate) Bool.false_ne_true⟩

/-- A move that leaves the mark alone. -/
theorem kept (h : Turn g V es V') (hmark : V'.inferenceTimedOut = V.inferenceTimedOut) :
    UntimedTurn g V es V' :=
  ⟨h, hmark.symm.trans⟩

end UntimedTurn

/-- The moves of a section that is not the timer's. -/
def Untimed (g : Globals) (c : ThrottleCtx) (es : List DecisionEvent) (c' : ThrottleCtx) :
    Prop :=
  Chain (UntimedTurn g) c.decisions es c'.decisions

/-! ## Helpers the decisions do not notice -/

namespace ThrottleCtx

section Frame

variable (c : ThrottleCtx) (m : MetaId)

@[simp] theorem decisions_anomaly : c.anomaly.decisions = c.decisions := rfl

@[simp] theorem decisions_modifyMeta (f : RqMeta → RqMeta) :
    (c.modifyMeta m f).decisions = c.decisions := rfl

@[simp] theorem decisions_pendingIncLocked (g : Globals) (nowNs : ℕ) :
    (c.pendingIncLocked g m nowNs).decisions = c.decisions := by
  unfold pendingIncLocked
  dsimp only
  split
  · rfl
  · split
    · rfl
    · cases (c.metaPool m).rqClass <;> rfl

@[simp] theorem decisions_pendingDecLocked :
    (c.pendingDecLocked m).decisions = c.decisions := by
  unfold pendingDecLocked
  dsimp only
  split
  · rfl
  · split
    · rfl
    · cases (c.metaPool m).rqClass <;> rfl

@[simp] theorem decisions_inflightRemoveLocked :
    (c.inflightRemoveLocked m).decisions = c.decisions := by
  unfold inflightRemoveLocked
  split <;> rfl

@[simp] theorem decisions_inflightAddLocked (r : Request) :
    (c.inflightAddLocked m r).decisions = c.decisions := by
  unfold inflightAddLocked
  dsimp only
  split <;> rfl

@[simp] theorem decisions_clearFeedbackBindingLocked :
    c.clearFeedbackBindingLocked.decisions = c.decisions := rfl

@[simp] theorem decisions_invalidateFeedbackLocked :
    (c.invalidateFeedbackLocked m).decisions = c.decisions := by
  unfold invalidateFeedbackLocked
  dsimp only
  split
  · rfl
  · split <;> rfl

@[simp] theorem decisions_fallbackLocked :
    c.fallbackLocked.1.decisions = c.decisions.idle := rfl

@[simp] theorem decisions_releaseDeadlineLocked :
    (c.releaseDeadlineLocked m).1.decisions = c.decisions := by
  unfold releaseDeadlineLocked
  dsimp only
  split
  · rfl
  · split <;> rfl

@[simp] theorem decisions_snapshotStateLocked (nowNs queueMax thr : ℕ) :
    (c.snapshotStateLocked nowNs queueMax thr).1.decisions = c.decisions := by
  unfold snapshotStateLocked
  dsimp only
  split
  · rfl
  · split
    · rfl
    · split <;> rfl

@[simp] theorem decisions_snapshotConfigLocked (g : Globals) :
    (c.snapshotConfigLocked g).decisions = c.decisions.configured g.config := rfl

@[simp] theorem decisions_armInferenceLocked (newControl : Bool)
    (state : Option StateSnapshot) :
    (c.armInferenceLocked newControl state).decisions = c.decisions.arm newControl state :=
  rfl

theorem decisions_reopenGateLocked :
    c.reopenGateLocked.1.decisions = c.decisions.reopen := by
  unfold reopenGateLocked DecisionView.reopen
  show _ = if (c.gateBlocked && c.depthCanRunLocked) = true then _ else _
  split <;> rfl

end Frame

end ThrottleCtx

namespace Throttle

section Frame

variable (c : ThrottleCtx) (m : MetaId)

@[simp] theorem decisions_countClass : (countClass c m).decisions = c.decisions := by
  unfold countClass
  split <;> rfl

@[simp] theorem decisions_countSelection (selection : DispatchSelection) :
    (countSelection c m selection).decisions = c.decisions := by
  cases selection with
  | backgroundDeadline =>
    show (forceDeadline c m).decisions = c.decisions
    unfold forceDeadline
    split <;> rfl
  | foregroundFifo => rfl
  | seqHit => rfl
  | seqFallback => rfl
  | small => rfl
  | backgroundBaseline => rfl

@[simp] theorem decisions_bindFeedback (g : Globals) (nowNs : ℕ) :
    (bindFeedback c g m nowNs).decisions = c.decisions := by
  unfold bindFeedback
  split <;> rfl

@[simp] theorem decisions_markDispatch (g : Globals) (r : Request) :
    (markDispatch c g m r).decisions = c.decisions := by
  unfold markDispatch
  dsimp only
  split <;> exact decisions_pendingDecLocked _ m

@[simp] theorem decisions_issueFeedback : (issueFeedback c m).decisions = c.decisions := by
  unfold issueFeedback
  split <;> rfl

@[simp] theorem decisions_stampIssue (g : Globals) (nowNs : ℕ) :
    (stampIssue c g m nowNs).decisions = c.decisions := by
  unfold stampIssue
  split <;> rfl

@[simp] theorem decisions_returnMeta : (returnMeta c m).decisions = c.decisions := by
  have hdec : ((c.pendingDecLocked m).inflightRemoveLocked m).decisions = c.decisions := by
    rw [decisions_inflightRemoveLocked, decisions_pendingDecLocked]
  unfold returnMeta
  dsimp only
  split
  · exact hdec
  · exact hdec

@[simp] theorem decisions_setRqMeta (w : Throttle) (rq : RqAddr) (k : Option MetaId) :
    (w.setRqMeta rq k).ctx.decisions = w.ctx.decisions := rfl

@[simp] theorem decisions_allocTaken (w : Throttle) (rq : RqAddr) (cls : RqClass)
    (rest : List MetaId) :
    (w.allocTaken rq cls m rest).ctx.decisions = w.ctx.decisions := by
  unfold allocTaken
  dsimp only
  split <;> rfl

end Frame

end Throttle

/-! ## Helpers that move the decisions -/

namespace Untimed

variable {g : Globals} {c c' c'' : ThrottleCtx} {es : List DecisionEvent}

/-- A helper that leaves the decisions alone. -/
theorem of_eq (h : c'.decisions = c.decisions) : Untimed g c [] c' := Chain.of_eq h

/-- A quiet helper after a section's moves. -/
theorem andThen (h₁ : Untimed g c es c') (h₂ : Untimed g c' [] c'') : Untimed g c es c'' :=
  Chain.andThen h₁ h₂

/-- A quiet helper before a section's moves. -/
theorem after (h₂ : Untimed g c' es c'') (h₁ : Untimed g c [] c') : Untimed g c es c'' :=
  Chain.after h₂ h₁

/-- The moves depend on the view alone. -/
theorem congr (h : Untimed g c es c') {d d' : ThrottleCtx} (hd : d.decisions = c.decisions)
    (hd' : d'.decisions = c'.decisions) : Untimed g d es d' := by
  unfold Untimed
  rw [hd, hd']
  exact h

/-- **A fallback**, of a context that looks like this one. -/
theorem fallback {d : ThrottleCtx} (hd : d.decisions = c.decisions) :
    Untimed g c [] d.fallbackLocked.1 := by
  unfold Untimed
  rw [decisions_fallbackLocked, hd]
  exact Chain.of_move (.cleared (.fallback _) rfl)

/-- Moves that leave the mark alone are moves. -/
theorem turns (h : Untimed g c es c') : Turns g c es c' :=
  Chain.mono (fun _ _ _ hmove => hmove.turn) h

/-- **No section but the timer's marks a decision as late.** -/
theorem inferenceTimedOut (h : Untimed g c es c')
    (hlate : c'.control.inferenceTimedOut = true) : c.control.inferenceTimedOut = true := by
  have hkeep : c'.decisions.inferenceTimedOut = true → c.decisions.inferenceTimedOut = true :=
    Chain.keeps_state
      (I := fun V => V.inferenceTimedOut = true → c.decisions.inferenceTimedOut = true)
      (fun _ _ _ hmove hkeep hlate => hkeep (hmove.untimed hlate)) h id
  exact hkeep hlate

end Untimed

namespace ThrottleCtx

variable (g : Globals) (c : ThrottleCtx) (m : MetaId)

theorem untimed_releaseIssuedDepthLocked :
    Untimed g c [] (c.releaseIssuedDepthLocked m).1 := by
  unfold releaseIssuedDepthLocked
  dsimp only
  split
  · exact Untimed.of_eq rfl
  · split
    · split
      · exact Untimed.fallback rfl
      · exact Untimed.of_eq rfl
    · exact Untimed.of_eq rfl

theorem untimed_releaseAnomalyLocked : Untimed g c [] c.releaseAnomalyLocked := by
  unfold releaseAnomalyLocked
  split
  · exact Untimed.fallback rfl
  · exact Untimed.of_eq rfl

/-- **A released depth** opens the gate if it can. -/
theorem untimed_reopenGateLocked {d : ThrottleCtx} {n : ℕ} (hn : n ≤ c.bgCurrentDepth)
    (hd : d.decisions = { c.decisions with bgCurrentDepth := n }) :
    Untimed g c [] d.reopenGateLocked.1 := by
  unfold Untimed
  rw [decisions_reopenGateLocked, hd]
  exact Chain.of_move (.kept (.release _ n hn) (DecisionView.reopen_inferenceTimedOut _))

theorem untimed_releaseDepthLocked : Untimed g c [] (c.releaseDepthLocked m).1 := by
  unfold releaseDepthLocked
  dsimp only
  split
  · exact Untimed.of_eq rfl
  · split
    · exact (untimed_releaseAnomalyLocked g _).after (Untimed.of_eq rfl)
    · split
      · exact untimed_reopenGateLocked g c (n := c.bgCurrentDepth) le_rfl rfl
      · split
        · exact (untimed_releaseAnomalyLocked g _).after (Untimed.of_eq rfl)
        · exact untimed_reopenGateLocked g c (Nat.sub_le _ _) rfl

/-- **A release** of everything a record holds. -/
theorem untimed_releaseLocked : Untimed g c [] (c.releaseLocked m).1 := by
  unfold releaseLocked
  dsimp only
  refine (untimed_releaseDepthLocked g _ m).after
    ((untimed_releaseIssuedDepthLocked g _ m).after (Untimed.of_eq ?_))
  rw [decisions_releaseDeadlineLocked, decisions_inflightRemoveLocked]

theorem untimed_accountDepthLocked : Untimed g c [] (c.accountDepthLocked m).1 := by
  unfold accountDepthLocked
  dsimp only
  split
  · exact Untimed.fallback rfl
  · split
    · exact Untimed.fallback rfl
    · split
      · exact Chain.of_move (.kept (.reserve _ (c.bgCurrentDepth + 1) (Nat.le_succ _)) rfl)
      · exact Untimed.of_eq rfl

theorem untimed_accountIssuedDepthLocked :
    Untimed g c [] (c.accountIssuedDepthLocked m).1 := by
  unfold accountIssuedDepthLocked
  split
  · exact Untimed.fallback rfl
  · split
    · exact Untimed.fallback rfl
    · exact Untimed.of_eq rfl

end ThrottleCtx

/-! ## Sections -/

namespace Throttle

/-- The events of a call of `smart_io_throttle_start_inference_locked`. -/
def startEvents (c : ThrottleCtx) (g : Globals) (newControl : Bool) (nowNs : ℕ) :
    List DecisionEvent :=
  if (c.startInferenceLocked g newControl nowNs).2 then
    .started (c.decisionId + 1) g.config ::
      (if g.config.source = .model then []
        else ((c.snapshotConfigLocked g).snapshotStateLocked nowNs g.queueDepth
          g.devLatThresholdUs).2.toList.map (.snapshot (c.decisionId + 1)))
  else []

/-- The events of the section of `smart_io_throttle_model_thread_run`. -/
def modelThreadEvents (w : Throttle) (nowNs : ℕ) : List DecisionEvent :=
  let c := w.ctx
  let g := w.globals
  if !c.control.inferencePending || c.control.inferenceTimedOut || c.dying
      || c.pending.source ≠ .model then []
  else (c.snapshotStateLocked nowNs g.queueDepth g.devLatThresholdUs).2.toList.map
    (.snapshot c.pending.decisionId)

/-- **What a section does to decisions.** -/
def decisionEvents (w : Throttle) : ThrottleOp → List DecisionEvent
  | .recordComplete rq nrBytes nowNs =>
    match w.ctx.findMetaLocked rq with
    | none => []
    | some m =>
      let v := recordLatency w.ctx w.globals m nowNs
      if !w.finalCompletion rq nrBytes then []
      else if v.reinfer || v.slow then
        startEvents ((w.withCtx (v.ctx.releaseLocked m).1).freeMetaLocked rq m).ctx
          w.globals v.slow nowNs
      else []
  | .modelThreadRun nowNs => w.modelThreadEvents nowNs
  | .inferenceWorkFinish i predicted =>
    match w.frames[i]?, (w.inferenceWorkFinish i predicted).2.installed with
    | some f, some a => [.installed f predicted a]
    | _, _ => []
  | _ => []

theorem untimed_freeMetaLocked (g : Globals) (w : Throttle) (rq : RqAddr) (m : MetaId) :
    Untimed g w.ctx [] (w.freeMetaLocked rq m).ctx := by
  unfold freeMetaLocked
  split
  · exact Untimed.fallback rfl
  · dsimp only
    split
    · exact Untimed.of_eq (decisions_returnMeta w.ctx m)
    · exact Untimed.of_eq (decisions_returnMeta w.ctx m)

theorem untimed_allocMetaLocked (g : Globals) (w : Throttle) (rq : RqAddr) (cls : RqClass) :
    Untimed g w.ctx [] (w.allocMetaLocked rq cls).1.ctx := by
  unfold allocMetaLocked
  split
  · exact Untimed.fallback rfl
  · exact Untimed.of_eq (decisions_allocTaken _ _ _ _ _)

/-- **Starting an inference** starts a decision, or copies the configuration at
most. -/
theorem untimed_startInferenceLocked (c : ThrottleCtx) (g : Globals) (newControl : Bool)
    (nowNs : ℕ) :
    Untimed g c (startEvents c g newControl nowNs)
      (c.startInferenceLocked g newControl nowNs).1 := by
  have hsnap := (c.snapshotConfigLocked g).decisions_snapshotStateLocked nowNs
    g.queueDepth g.devLatThresholdUs
  unfold startEvents startInferenceLocked
  dsimp only
  by_cases hrefuse : (!g.throttleEnabled || c.dying || c.control.inferencePending) = true
  · rw [if_pos hrefuse]
    exact Untimed.of_eq rfl
  rw [if_neg hrefuse]
  simp only [Bool.or_eq_true, not_or, Bool.not_eq_true, Bool.not_eq_false'] at hrefuse
  obtain ⟨⟨henabled, hdying⟩, hpending⟩ := hrefuse
  have hsource : (c.snapshotConfigLocked g).pending.source = g.config.source := rfl
  rw [hsource]
  by_cases hmodel : g.config.source = .model
  · rw [if_pos hmodel]
    dsimp only
    rw [if_pos rfl, if_pos hmodel]
    exact Chain.of_move (.cleared (.start _ newControl henabled hdying hpending hmodel) rfl)
  · rw [if_neg hmodel]
    generalize (c.snapshotConfigLocked g).snapshotStateLocked nowNs g.queueDepth
      g.devLatThresholdUs = p at hsnap
    rcases p with ⟨c₂, _ | s⟩
    · -- no snapshot: only the configuration was copied
      dsimp only at hsnap ⊢
      rw [if_neg Bool.false_ne_true]
      unfold Untimed
      rw [hsnap]
      exact Chain.of_move (.kept (.configure _ hpending) rfl)
    · dsimp only at hsnap ⊢
      rw [if_pos rfl, if_neg hmodel]
      unfold Untimed
      rw [decisions_armInferenceLocked, hsnap]
      exact Chain.of_move
        (.cleared (.startWith _ newControl s henabled hdying hpending hmodel) rfl)

theorem untimed_reserveIssue (g : Globals) (c : ThrottleCtx) (m : MetaId) :
    Untimed g c [] (reserveIssue c m).1 := by
  have hdepth : Untimed g c [] (if (c.metaPool m).depthAccounted = true then (c, false)
      else c.accountDepthLocked m).1 := by
    split
    · exact Untimed.of_eq rfl
    · exact untimed_accountDepthLocked g c m
  unfold reserveIssue
  dsimp only
  generalize (if (c.metaPool m).depthAccounted = true then (c, false)
    else c.accountDepthLocked m) = p at hdepth
  refine hdepth.andThen ?_
  split
  · exact Untimed.of_eq rfl
  · exact untimed_accountIssuedDepthLocked g p.1 m

theorem untimed_issueMeta (g : Globals) (c : ThrottleCtx) (k : Globals) (r : Request)
    (m : MetaId) (nowNs : ℕ) : Untimed g c [] (issueMeta c k r m nowNs).1 := by
  have hres := untimed_reserveIssue g (c.modifyMeta m (fun x =>
    { x with deviceTimeExcluded := deviceTimeExcludedOf r })) m
  unfold issueMeta
  dsimp only
  generalize reserveIssue (c.modifyMeta m (fun x =>
    { x with deviceTimeExcluded := deviceTimeExcludedOf r })) m = p at hres
  refine hres.congr rfl ?_
  rw [decisions_issueFeedback, decisions_stampIssue, decisions_inflightAddLocked,
    decisions_modifyMeta]

theorem untimed_recordIssue (w : Throttle) (rq : RqAddr) (t : TaskCtx) (nowNs : ℕ) :
    Untimed w.globals w.ctx [] (w.recordIssue rq t nowNs).1.ctx := by
  simp only [recordIssue]
  cases w.ctx.findMetaLocked rq with
  | some m => exact untimed_issueMeta _ _ _ _ _ _
  | none =>
    have halloc := untimed_allocMetaLocked w.globals w rq
      (classForQueue (selectQueue w.ctx.metaPool w.globals t (w.rqs rq)))
    dsimp only
    generalize w.allocMetaLocked rq
      (classForQueue (selectQueue w.ctx.metaPool w.globals t (w.rqs rq))) = p at halloc
    rcases p with ⟨w₁, _ | m⟩
    · exact halloc
    · exact halloc.andThen (untimed_issueMeta _ _ _ _ _ _)

theorem untimed_classifyRequest (w : Throttle) (rq : RqAddr) (t : TaskCtx) (nowNs : ℕ) :
    Untimed w.globals w.ctx [] (w.classifyRequest rq t nowNs).1.ctx := by
  simp only [classifyRequest]
  generalize selectQueue w.ctx.metaPool w.globals t (w.rqs rq) = q
  have hset (w₁ : Throttle) (m : MetaId) : Untimed w.globals w₁.ctx []
      ((w₁.ctx.modifyMeta m (fun x => { x with queueClass := q })).pendingIncLocked
        w₁.globals m nowNs) := by
    refine Untimed.of_eq ?_
    rw [decisions_pendingIncLocked, decisions_modifyMeta]
  cases (w.rqs rq).priv1 with
  | some m => exact hset w m
  | none =>
    have halloc := untimed_allocMetaLocked w.globals w rq (classForQueue q)
    dsimp only
    generalize w.allocMetaLocked rq (classForQueue q) = p at halloc
    rcases p with ⟨w₁, _ | m⟩
    · exact halloc
    · exact halloc.andThen (hset w₁ m)

theorem untimed_accountDispatch (w : Throttle) (rq : RqAddr) (selection : DispatchSelection)
    (nowNs : ℕ) : Untimed w.globals w.ctx [] (w.accountDispatch rq selection nowNs).1.ctx := by
  simp only [accountDispatch]
  cases (w.rqs rq).priv1 with
  | none => exact Untimed.fallback rfl
  | some m =>
    have hacc := untimed_accountDepthLocked w.globals
      (markDispatch w.ctx w.globals m (w.rqs rq)) m
    dsimp only
    generalize (markDispatch w.ctx w.globals m (w.rqs rq)).accountDepthLocked m = p at hacc
    refine hacc.congr (decisions_markDispatch _ _ _ _).symm ?_
    rw [withCtx_ctx, decisions_bindFeedback, decisions_countSelection, decisions_countClass]

theorem untimed_finishRequest (w : Throttle) (rq : RqAddr) :
    Untimed w.globals w.ctx [] (w.finishRequest rq).1.ctx := by
  simp only [finishRequest]
  cases (w.rqs rq).priv1 with
  | none => exact Untimed.of_eq rfl
  | some m =>
    have hfree := untimed_freeMetaLocked w.globals
      (w.withCtx ((w.ctx.invalidateFeedbackLocked m).releaseLocked m).1) rq m
    refine hfree.after ((untimed_releaseLocked w.globals _ m).congr ?_ rfl)
    exact (decisions_invalidateFeedbackLocked _ m).symm

theorem untimed_recordRequeue (w : Throttle) (rq : RqAddr) :
    Untimed w.globals w.ctx [] (w.recordRequeue rq).1.ctx := by
  simp only [recordRequeue]
  cases w.ctx.findMetaLocked rq with
  | none => exact Untimed.of_eq rfl
  | some m =>
    refine (untimed_releaseLocked w.globals (w.ctx.invalidateFeedbackLocked m) m).congr ?_ rfl
    exact (decisions_invalidateFeedbackLocked _ m).symm

/-- A latency counted as a vote may end the control. -/
theorem untimed_recordVote (g : Globals) (c : ThrottleCtx) (k : Globals) (m : MetaId)
    (latencyUs : ℕ) : Untimed g c [] (recordVote c k m latencyUs).ctx := by
  unfold recordVote
  dsimp only
  split
  · split
    · split
      · exact Untimed.fallback rfl
      · exact Untimed.of_eq rfl
    · exact Untimed.of_eq rfl
  · exact Untimed.of_eq rfl

/-- **A sample** enters the window, once for each issue. -/
theorem untimed_recordSample (g : Globals) (c : ThrottleCtx) (k : Globals) (m : MetaId)
    (nowNs : ℕ) {latencyUs : ℕ} (hlat : latencyUs ≤ u32Max) :
    Untimed g c [] (recordSample c k m nowNs latencyUs).1 := by
  unfold recordSample
  dsimp only
  split
  · exact Untimed.of_eq rfl
  · split
    · exact Chain.of_move (.kept (.sample _ _ hlat) rfl)
    · exact Untimed.of_eq rfl

/-- A latency is capped at what 32 bits hold. -/
theorem completionLatency_le {x : RqMeta} {nowNs latencyUs : ℕ}
    (h : completionLatency x nowNs = some latencyUs) : latencyUs ≤ u32Max := by
  unfold completionLatency at h
  split at h
  · rw [← Option.some.inj h]
    exact min_le_right _ _
  · exact absurd h (by simp)

theorem untimed_recordLatency (g : Globals) (c : ThrottleCtx) (k : Globals) (m : MetaId)
    (nowNs : ℕ) : Untimed g c [] (recordLatency c k m nowNs).ctx := by
  unfold recordLatency
  split
  · exact Untimed.of_eq (decisions_invalidateFeedbackLocked c m)
  · rename_i latencyUs hlat
    have hvote := (untimed_recordVote g (recordSample c k m nowNs latencyUs).1 k m
      latencyUs).after (untimed_recordSample g c k m nowNs (completionLatency_le hlat))
    dsimp only
    split
    · exact hvote
    · exact hvote.andThen (Untimed.of_eq (decisions_invalidateFeedbackLocked _ m))

theorem untimed_restartInference (c : ThrottleCtx) (g : Globals) (reinfer slow : Bool)
    (nowNs : ℕ) :
    Untimed g c (if reinfer || slow then startEvents c g slow nowNs else [])
      (restartInference c g reinfer slow nowNs).1 := by
  have hstart := untimed_startInferenceLocked c g slow nowNs
  have hquiet : (c.startInferenceLocked g slow nowNs).2 = false →
      startEvents c g slow nowNs = [] := by
    intro hno
    unfold startEvents
    rw [hno]
    rfl
  unfold restartInference
  dsimp only
  split
  · generalize c.startInferenceLocked g slow nowNs = p at hstart hquiet
    split
    · exact hstart
    · rename_i hno
      split
      · exact hstart.andThen (Untimed.fallback rfl)
      · exact hstart
  · exact Untimed.of_eq rfl

theorem untimed_recordComplete (w : Throttle) (rq : RqAddr) (nrBytes nowNs : ℕ) :
    Untimed w.globals w.ctx (w.decisionEvents (.recordComplete rq nrBytes nowNs))
      (w.recordComplete rq nrBytes nowNs).1.ctx := by
  simp only [decisionEvents, recordComplete]
  cases w.ctx.findMetaLocked rq with
  | none => exact Untimed.of_eq rfl
  | some m =>
    have hlat := untimed_recordLatency w.globals w.ctx w.globals m nowNs
    dsimp only
    generalize recordLatency w.ctx w.globals m nowNs = v at hlat
    by_cases hfinal : (!w.finalCompletion rq nrBytes) = true
    · have hraw : (!(!(w.rqs rq).hasBio || decide ((w.rqs rq).bytes ≤ nrBytes))) = true :=
        hfinal
      rw [if_pos hfinal, if_pos hraw]
      exact Untimed.of_eq rfl
    · have hraw : ¬(!(!(w.rqs rq).hasBio || decide ((w.rqs rq).bytes ≤ nrBytes))) = true :=
        hfinal
      rw [if_neg hfinal, if_neg hraw]
      have hfree := (untimed_freeMetaLocked w.globals
        (w.withCtx (v.ctx.releaseLocked m).1) rq m).after
          ((untimed_releaseLocked w.globals v.ctx m).after hlat)
      exact Untimed.after (untimed_restartInference _ w.globals v.reinfer v.slow nowNs) hfree

theorem untimed_modelThreadRun (w : Throttle) (nowNs : ℕ) :
    Untimed w.globals w.ctx (w.modelThreadEvents nowNs) (w.modelThreadRun nowNs).1.ctx := by
  have hsnap := w.ctx.decisions_snapshotStateLocked nowNs w.globals.queueDepth
    w.globals.devLatThresholdUs
  unfold modelThreadEvents modelThreadRun
  dsimp only
  split
  · exact Untimed.of_eq rfl
  · rename_i hc
    simp only [Bool.or_eq_true, not_or, Bool.not_eq_true, Bool.not_eq_false',
      decide_eq_true_eq, not_not] at hc
    obtain ⟨⟨⟨hpending, -⟩, -⟩, hsource⟩ := hc
    generalize w.ctx.snapshotStateLocked nowNs w.globals.queueDepth
      w.globals.devLatThresholdUs = p at hsnap
    rcases p with ⟨c₁, _ | s⟩
    · exact Untimed.fallback hsnap
    · have hview : ({ c₁ with
          pending := { c₁.pending with state := s }
          control := { c₁.control with pendingStateValid := true } } : ThrottleCtx).decisions
          = { c₁.decisions with
              pending := { c₁.decisions.pending with state := s }
              pendingStateValid := true } := rfl
      unfold Untimed
      dsimp only at hsnap ⊢
      rw [withCtx_ctx, hview, hsnap]
      exact Chain.of_move (.kept (.takeState _ s hpending hsource) rfl)

/-- The target of an action, where the section finds one. -/
theorem targets_appliedAction {c : ThrottleCtx} {f : InferenceFrame} {a : ThrottleAction}
    {depth target : ℕ} (h : actionTarget c a depth = some target) :
    c.decisions.Targets f a (appliedAction c f a depth target) depth where
  level := rfl
  policy := rfl
  ratioPct := by
    show c.actionRatio a.level = c.decisions.ratio a.level
    cases a.level <;> rfl
  queueMax := rfl
  decisionId := rfl
  none hno := by
    unfold actionTarget at h
    rw [if_pos hno] at h
    exact (Option.some.inj h).symm
  some hlevel := by
    have hratio : c.actionRatio a.level = c.decisions.ratio a.level := by
      cases a.level <;> rfl
    unfold actionTarget at h
    rw [if_neg hlevel] at h
    split at h
    · exact absurd h (by simp)
    · split at h
      · exact absurd h (by simp)
      · rename_i hne
        obtain rfl := Option.some.inj h
        exact ⟨by rw [← hratio]; rfl, hne⟩

/-- **The end of an inference call** puts its action in force, falls back, or
does nothing. -/
theorem untimed_inferenceWorkFinish (w : Throttle) (i : ℕ) (predicted : Option (Fin 12)) :
    Untimed w.globals w.ctx (w.decisionEvents (.inferenceWorkFinish i predicted))
      (w.inferenceWorkFinish i predicted).1.ctx := by
  simp only [decisionEvents, inferenceWorkFinish]
  cases hf : w.frames[i]? with
  | none => exact Untimed.of_eq rfl
  | some f =>
    have hfail : Untimed w.globals w.ctx [] (({ w with
        frames := w.frames.eraseIdx i } : Throttle).inferenceWorkFail f).1.ctx := by
      unfold inferenceWorkFail
      split
      · exact Untimed.fallback rfl
      · exact Untimed.of_eq rfl
    have hquiet : (({ w with
        frames := w.frames.eraseIdx i } : Throttle).inferenceWorkFail f).2.installed
        = none := by
      unfold inferenceWorkFail
      split <;> rfl
    dsimp only
    cases ha : frameAction f predicted with
    | none =>
      dsimp only
      rw [hquiet]
      exact hfail
    | some a =>
      dsimp only
      by_cases hqueue : w.globals.queueDepth = 0
      · rw [if_pos hqueue, hquiet]
        exact hfail
      · rw [if_neg hqueue]
        unfold inferenceWorkApply
        dsimp only
        by_cases hc : (!framePending w.ctx f || w.ctx.dying) = true
        · rw [if_pos hc]
          exact Untimed.of_eq rfl
        · rw [if_neg hc]
          cases htarget : actionTarget w.ctx a w.globals.queueDepth with
          | none => exact Untimed.fallback rfl
          | some target =>
            simp only [Bool.or_eq_true, not_or, Bool.not_eq_true, Bool.not_eq_false'] at hc
            exact Chain.of_move (.cleared (.install w.ctx.decisions f predicted a _ ha hc.1
              hc.2 hqueue (targets_appliedAction htarget)) rfl)

/-- A reason to hold requests back is a true one. -/
theorem gateReasonOf_cases {c : ThrottleCtx} {g : Globals} (h : gateReasonOf c g ≠ .none) :
    gateReasonOf c g = .inference ∧ c.decisions.inferencePending = true
      ∨ gateReasonOf c g = .depth ∧ c.decisions.depthCanRun = false := by
  unfold gateReasonOf at h ⊢
  split
  · rename_i hc
    rw [Bool.and_eq_true] at hc
    exact Or.inl ⟨rfl, hc.2⟩
  · split
    · rename_i hc
      rw [Bool.and_eq_true, Bool.not_eq_true', Bool.not_eq_true'] at hc
      exact Or.inr ⟨rfl, hc.2⟩
    · rename_i hinf hdepth
      rw [if_neg hinf, if_neg hdepth] at h
      exact absurd rfl h

theorem decisions_closeGate (c : ThrottleCtx) (reason : GateReason) :
    (closeGate c reason).decisions
      = { c.decisions with gateBlocked := true, gateReason := reason } := by
  unfold closeGate
  split
  · rfl
  · rename_i hc
    simp only [Bool.or_eq_true, Bool.not_eq_true', decide_eq_true_eq, not_or,
      Bool.not_eq_false, not_not] at hc
    show c.decisions = { c.decisions with gateBlocked := true, gateReason := reason }
    rw [← hc.2, ← hc.1]
    rfl

/-- **The gate closes** for a true reason only, whatever flags were read. -/
theorem untimed_nonHpAllowed (g : Globals) (w : Throttle) :
    Untimed g w.ctx [] w.nonHpAllowed.1.ctx := by
  unfold nonHpAllowed
  split
  · exact Untimed.of_eq rfl
  · rename_i hc
    rw [Bool.or_eq_true, not_or, decide_eq_true_eq] at hc
    unfold Untimed
    rw [withCtx_ctx, decisions_closeGate]
    exact Chain.of_move (.kept (.close _ _ (gateReasonOf_cases hc.2)) rfl)

/-- The dispatch of a decision to the model thread falls back at most. -/
theorem untimed_dispatchModelIfNeeded (g : Globals) (w : Throttle) (slotFree : Bool) :
    Untimed g w.ctx [] (w.dispatchModelIfNeeded slotFree).1.ctx := by
  unfold dispatchModelIfNeeded
  dsimp only
  split
  · exact Untimed.of_eq rfl
  · split
    · exact Untimed.of_eq rfl
    · exact Untimed.fallback rfl

theorem untimed_resetContext (g : Globals) (w : Throttle) (newSession : Bool) (nowNs : ℕ) :
    Untimed g w.ctx [] (w.resetContext newSession nowNs).1.ctx := by
  cases newSession with
  | false => exact Untimed.fallback rfl
  | true =>
    have hsession : Untimed g w.ctx [] { w.ctx with sessionId := w.ctx.sessionId + 1 } :=
      Chain.of_move (.kept (.newSession _) rfl)
    exact hsession.andThen (Chain.of_move (.cleared (.fallback _) rfl))

/-- **Every section but the timer's** is a chain of moves that mark no decision as
late. -/
theorem untimed_step (w : Throttle) {op : ThrottleOp} (hop : op ≠ .inferenceTimer) :
    Untimed w.globals w.ctx (w.decisionEvents op) (w.step op).1.ctx := by
  cases op with
  | prepareRequest rq r =>
    simp only [step, prepareRequest]
    split <;> exact Untimed.of_eq rfl
  | changeRequest rq r => exact Untimed.of_eq rfl
  | classifyRequest rq t nowNs => exact untimed_classifyRequest w rq t nowNs
  | updateRequest rq =>
    simp only [step, updateRequest]
    split
    · exact Untimed.of_eq rfl
    · split <;> exact Untimed.of_eq rfl
  | unqueueRequest rq =>
    simp only [step, unqueueRequest]
    split
    · exact Untimed.of_eq rfl
    · exact Untimed.of_eq (decisions_pendingDecLocked _ _)
  | accountDispatch rq selection nowNs => exact untimed_accountDispatch w rq selection nowNs
  | finishRequest rq => exact untimed_finishRequest w rq
  | recordIssue rq t nowNs => exact untimed_recordIssue w rq t nowNs
  | recordRequeue rq => exact untimed_recordRequeue w rq
  | recordComplete rq nrBytes nowNs => exact untimed_recordComplete w rq nrBytes nowNs
  | scheduleFallback =>
    simp only [step, scheduleFallback]
    split
    · exact Untimed.fallback rfl
    · exact Untimed.of_eq rfl
  | nonHpAllowed => exact untimed_nonHpAllowed w.globals w
  | dispatchModelIfNeeded slotFree => exact untimed_dispatchModelIfNeeded w.globals w slotFree
  | modelThreadRun nowNs => exact untimed_modelThreadRun w nowNs
  | inferenceWorkBegin =>
    simp only [step, inferenceWorkBegin]
    split <;> exact Untimed.of_eq rfl
  | inferenceWorkFinish i predicted => exact untimed_inferenceWorkFinish w i predicted
  | inferenceTimer => exact absurd rfl hop
  | timeoutWork =>
    simp only [step, timeoutWork]
    split
    · exact Untimed.fallback rfl
    · exact Untimed.of_eq rfl
  | resetContext newSession nowNs => exact untimed_resetContext w.globals w newSession nowNs
  | configure k => exact Untimed.of_eq rfl
  | setDying => exact Chain.of_move (.kept (.die _) rfl)

/-- **Every section is a chain of moves.** -/
theorem turns_step (w : Throttle) (op : ThrottleOp) :
    Turns w.globals w.ctx (w.decisionEvents op) (w.step op).1.ctx := by
  by_cases hop : op = .inferenceTimer
  · subst hop
    simp only [step, inferenceTimer]
    split
    · rename_i hc
      rw [Bool.and_eq_true] at hc
      exact Chain.of_move (.timeOut _ hc.1)
    · exact Chain.of_eq rfl
  · exact (untimed_step w hop).turns

/-! ## What else a section changes -/

/-- Whether an inference call finds nothing to compute. -/
def nothingToCompute (c : ThrottleCtx) : Bool :=
  !c.control.inferencePending || c.control.inferenceTimedOut || c.dying
    || !c.control.pendingStateValid

/-- **What surrounds the context**: the static variables, and the inference calls
between their sections. -/
def surround (w : Throttle) : Globals × List InferenceFrame := (w.globals, w.frames)

@[simp] theorem surround_allocMetaLocked (w : Throttle) (rq : RqAddr) (cls : RqClass) :
    (w.allocMetaLocked rq cls).1.surround = w.surround := by
  unfold allocMetaLocked
  split
  · rfl
  · unfold allocTaken
    dsimp only
    split <;> rfl

@[simp] theorem surround_freeMetaLocked (w : Throttle) (rq : RqAddr) (m : MetaId) :
    (w.freeMetaLocked rq m).surround = w.surround := by
  unfold freeMetaLocked
  dsimp only
  split
  · rfl
  · split <;> rfl

/-- **What a section does to its surroundings**: configuration calls change the
static variables, and an inference call is there between its two sections. -/
theorem surround_step (w : Throttle) (op : ThrottleOp) :
    (w.step op).1.surround
      = match op with
        | .configure k => (w.globals.configure k, w.frames)
        | .inferenceWorkBegin =>
          (w.globals, if nothingToCompute w.ctx then w.frames
            else w.frames ++ [w.ctx.pending.frame])
        | .inferenceWorkFinish i _ => (w.globals, w.frames.eraseIdx i)
        | _ => w.surround := by
  cases op with
  | prepareRequest rq r =>
    simp only [step, prepareRequest]
    split <;> rfl
  | changeRequest rq r => rfl
  | classifyRequest rq t nowNs =>
    simp only [step, classifyRequest]
    generalize selectQueue w.ctx.metaPool w.globals t (w.rqs rq) = q
    cases (w.rqs rq).priv1 with
    | some m => rfl
    | none =>
      have halloc := surround_allocMetaLocked w rq (classForQueue q)
      dsimp only
      generalize w.allocMetaLocked rq (classForQueue q) = p at halloc
      rcases p with ⟨w₁, _ | m⟩
      · exact halloc
      · exact halloc
  | updateRequest rq =>
    simp only [step, updateRequest]
    split
    · rfl
    · split <;> rfl
  | unqueueRequest rq =>
    simp only [step, unqueueRequest]
    split <;> rfl
  | accountDispatch rq selection nowNs =>
    simp only [step, accountDispatch]
    split <;> rfl
  | finishRequest rq =>
    simp only [step, finishRequest]
    split
    · rfl
    · exact surround_freeMetaLocked _ rq _
  | recordIssue rq t nowNs =>
    simp only [step, recordIssue]
    cases w.ctx.findMetaLocked rq with
    | some m => rfl
    | none =>
      have halloc := surround_allocMetaLocked w rq
        (classForQueue (selectQueue w.ctx.metaPool w.globals t (w.rqs rq)))
      dsimp only
      generalize w.allocMetaLocked rq
        (classForQueue (selectQueue w.ctx.metaPool w.globals t (w.rqs rq))) = p at halloc
      rcases p with ⟨w₁, _ | m⟩
      · exact halloc
      · exact halloc
  | recordRequeue rq =>
    simp only [step, recordRequeue]
    split <;> rfl
  | recordComplete rq nrBytes nowNs =>
    simp only [step, recordComplete]
    split
    · rfl
    · split
      · rfl
      · exact surround_freeMetaLocked _ rq _
  | scheduleFallback =>
    simp only [step, scheduleFallback]
    split <;> rfl
  | nonHpAllowed =>
    simp only [step, nonHpAllowed]
    split <;> rfl
  | dispatchModelIfNeeded slotFree =>
    simp only [step, dispatchModelIfNeeded]
    split
    · rfl
    · split <;> rfl
  | modelThreadRun nowNs =>
    simp only [step, modelThreadRun]
    split
    · rfl
    · split <;> rfl
  | inferenceWorkBegin =>
    show (w.inferenceWorkBegin).1.surround = (w.globals, _)
    unfold inferenceWorkBegin nothingToCompute
    dsimp only
    split <;> rfl
  | inferenceWorkFinish i predicted =>
    show (w.inferenceWorkFinish i predicted).1.surround = (w.globals, w.frames.eraseIdx i)
    unfold inferenceWorkFinish
    cases hf : w.frames[i]? with
    | none =>
      rw [List.eraseIdx_of_length_le (List.getElem?_eq_none_iff.mp hf)]
      rfl
    | some f =>
      simp only [inferenceWorkFail, inferenceWorkApply]
      repeat' split
      all_goals rfl
  | inferenceTimer =>
    simp only [step, inferenceTimer]
    split <;> rfl
  | timeoutWork =>
    simp only [step, timeoutWork]
    split <;> rfl
  | resetContext newSession nowNs => rfl
  | configure k => rfl
  | setDying => rfl

/-- The static variables change by configuration calls alone. -/
theorem globals_step (w : Throttle) (op : ThrottleOp) :
    (w.step op).1.globals
      = match op with
        | .configure k => w.globals.configure k
        | _ => w.globals := by
  refine (congrArg Prod.fst (surround_step w op)).trans ?_
  cases op <;> rfl

/-- The inference calls between their sections come and go by their own. -/
theorem frames_step (w : Throttle) (op : ThrottleOp) :
    (w.step op).1.frames
      = match op with
        | .inferenceWorkBegin =>
          if nothingToCompute w.ctx then w.frames else w.frames ++ [w.ctx.pending.frame]
        | .inferenceWorkFinish i _ => w.frames.eraseIdx i
        | _ => w.frames := by
  refine (congrArg Prod.snd (surround_step w op)).trans ?_
  cases op <;> rfl

/-! ## Putting an action in force -/

/-- **How an action is put in force**: by the end of an inference call whose
decision is the one awaited, with the target that the copied ratios give. -/
structure Installs (w : Throttle) (i : ℕ) (predicted : Option (Fin 12)) (f : InferenceFrame)
    (a : ThrottleAction) (w' : Throttle) : Prop where
  frame : w.frames[i]? = some f
  computed : ∃ b, frameAction f predicted = some b
    ∧ w.ctx.decisions.Targets f b a w.globals.queueDepth
  awaited : framePending w.ctx f = true
  alive : w.ctx.dying = false
  queue : w.globals.queueDepth ≠ 0
  ctx : w'.ctx = installAction w.ctx f a

theorem installs_inferenceWorkFinish {w : Throttle} {i : ℕ} {predicted : Option (Fin 12)}
    {a : ThrottleAction} (h : (w.inferenceWorkFinish i predicted).2.installed = some a) :
    ∃ f, Installs w i predicted f a (w.inferenceWorkFinish i predicted).1 := by
  have hfail (w₁ : Throttle) (f : InferenceFrame) :
      (w₁.inferenceWorkFail f).2.installed = none := by
    unfold inferenceWorkFail
    split <;> rfl
  unfold inferenceWorkFinish at h ⊢
  cases hf : w.frames[i]? with
  | none =>
    rw [hf] at h
    exact absurd h (by simp)
  | some f =>
    rw [hf] at h
    dsimp only at h ⊢
    cases hb : frameAction f predicted with
    | none =>
      rw [hb] at h
      dsimp only at h
      rw [hfail] at h
      exact absurd h (by simp)
    | some b =>
      rw [hb] at h
      dsimp only at h ⊢
      by_cases hqueue : w.globals.queueDepth = 0
      · rw [if_pos hqueue, hfail] at h
        exact absurd h (by simp)
      · rw [if_neg hqueue] at h ⊢
        unfold inferenceWorkApply at h ⊢
        dsimp only at h ⊢
        by_cases hc : (!framePending w.ctx f || w.ctx.dying) = true
        · rw [if_pos hc] at h
          exact absurd h (by simp)
        · rw [if_neg hc] at h ⊢
          cases htarget : actionTarget w.ctx b w.globals.queueDepth with
          | none =>
            rw [htarget] at h
            exact absurd h (by simp)
          | some target =>
            rw [htarget] at h
            simp only [Option.some.injEq] at h
            simp only [Bool.or_eq_true, not_or, Bool.not_eq_true, Bool.not_eq_false'] at hc
            refine ⟨f, hf, ⟨b, hb, ?_⟩, hc.1, hc.2, hqueue, ?_⟩
            · rw [← h]
              exact targets_appliedAction htarget
            · rw [← h]
              rfl

/-- **No other section puts an action in force.** -/
theorem installs_of_step {w : Throttle} {op : ThrottleOp} {a : ThrottleAction}
    (h : (w.step op).2.installed = some a) :
    ∃ i predicted f, op = .inferenceWorkFinish i predicted
      ∧ Installs w i predicted f a (w.step op).1 := by
  have hnone : ∀ {e : Effects}, e.installed = none → e.installed ≠ some a := by
    intro e he hsome
    exact absurd (he.symm.trans hsome) (by simp)
  cases op with
  | inferenceWorkFinish i predicted =>
    obtain ⟨f, hf⟩ := installs_inferenceWorkFinish h
    exact ⟨i, predicted, f, rfl, hf⟩
  | recordComplete rq nrBytes nowNs =>
    refine absurd h (hnone ?_)
    simp only [step, recordComplete, restartInference]
    repeat' split
    all_goals rfl
  | classifyRequest rq t nowNs =>
    refine absurd h (hnone ?_)
    simp only [step, classifyRequest]
    split <;> rfl
  | updateRequest rq =>
    refine absurd h (hnone ?_)
    simp only [step, updateRequest]
    repeat' split
    all_goals rfl
  | unqueueRequest rq =>
    refine absurd h (hnone ?_)
    simp only [step, unqueueRequest]
    split <;> rfl
  | accountDispatch rq selection nowNs =>
    refine absurd h (hnone ?_)
    simp only [step, accountDispatch]
    split <;> rfl
  | finishRequest rq =>
    refine absurd h (hnone ?_)
    simp only [step, finishRequest]
    split <;> rfl
  | recordIssue rq t nowNs =>
    refine absurd h (hnone ?_)
    simp only [step, recordIssue]
    split <;> rfl
  | recordRequeue rq =>
    refine absurd h (hnone ?_)
    simp only [step, recordRequeue]
    split <;> rfl
  | scheduleFallback =>
    refine absurd h (hnone ?_)
    simp only [step, scheduleFallback]
    split <;> rfl
  | dispatchModelIfNeeded slotFree =>
    refine absurd h (hnone ?_)
    simp only [step, dispatchModelIfNeeded]
    repeat' split
    all_goals rfl
  | modelThreadRun nowNs =>
    refine absurd h (hnone ?_)
    simp only [step, modelThreadRun]
    repeat' split
    all_goals rfl
  | inferenceWorkBegin =>
    refine absurd h (hnone ?_)
    simp only [step, inferenceWorkBegin]
    split <;> rfl
  | inferenceTimer =>
    refine absurd h (hnone ?_)
    simp only [step, inferenceTimer]
    split <;> rfl
  | timeoutWork =>
    refine absurd h (hnone ?_)
    simp only [step, timeoutWork]
    split <;> rfl
  | prepareRequest rq r => exact absurd h (hnone rfl)
  | changeRequest rq r => exact absurd h (hnone rfl)
  | nonHpAllowed => exact absurd h (hnone rfl)
  | resetContext newSession nowNs => exact absurd h (hnone rfl)
  | configure k => exact absurd h (hnone rfl)
  | setDying => exact absurd h (hnone rfl)

end Throttle
