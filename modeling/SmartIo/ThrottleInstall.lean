import Mathlib.Tactic.IntervalCases
import SmartIo.ThrottleWakeup

/-!
# Only the decision in hand is applied

An inference call reads a decision in one lock section and applies it in
another. In between the context may have abandoned the decision, started the
next one, been reset, or been given to another call that computes the same
decision: the workqueue item and the model thread both run
`smart_io_throttle_inference_work`, and share one set of `pending_*` fields.

What rules out a late or a mixed action is a relation between the record of all
decisions so far and the context (`Recorded`). Decisions are numbered upwards,
so the number in a frame names one entry of the record, with one configuration;
the pending fields hold the entry of the last number as long as it is awaited;
and a number that was applied is not awaited again.
-/

open ThrottleCtx

/-! ## What an action is computed from -/

/-- The ratio of a level in a configuration. -/
def ThrottleConfig.ratio (k : ThrottleConfig) : ThrottleLevel → ℕ
  | .light => k.lightPct
  | .medium => k.mediumPct
  | .heavy => k.heavyPct
  | .no => 0

/-- The pending fields hold a copy of a configuration. -/
structure PendingDecision.Copies (d : PendingDecision) (k : ThrottleConfig) : Prop where
  source : d.source = k.source
  fixedAction : d.fixedAction = k.fixedAction
  lightPct : d.lightPct = k.lightPct
  mediumPct : d.mediumPct = k.mediumPct
  heavyPct : d.heavyPct = k.heavyPct

/-- The level and the policy that a configuration and the predictor's answer
ask for. -/
def ThrottleConfig.Chooses (k : ThrottleConfig) (predicted : Option (Fin 12))
    (level policy : ℕ) : Prop :=
  match k.source with
  | .fixed => level = k.fixedAction.level.code ∧ policy = k.fixedAction.policy.code
  | .model => ∃ id, predicted = some id
      ∧ level = id.val / dispatchPolicyCount ∧ policy = id.val % dispatchPolicyCount

/-- **An action is what a configuration and an answer of the predictor make of a
queue.** -/
structure ThrottleAction.ComputedFrom (a : ThrottleAction) (k : ThrottleConfig)
    (predicted : Option (Fin 12)) (depth : ℕ) : Prop where
  chosen : k.Chooses predicted a.level.code a.policy.code
  ratioPct : a.ratioPct = k.ratio a.level
  queueMax : a.queueMax = depth
  targetDepth : a.targetDepth
    = if a.level = .no then 0 else Throttle.targetDepthOf depth (k.ratio a.level)

/-- A level that passed the range check keeps its number. -/
theorem ThrottleLevel.code_ofCode {n : ℕ} (h : n < throttleLevelCount) :
    (ThrottleLevel.ofCode n).code = n := by
  unfold throttleLevelCount at h
  interval_cases n <;> rfl

/-- A policy that passed the range check keeps its number. -/
theorem DispatchPolicy.code_ofCode {n : ℕ} (h : n < dispatchPolicyCount) :
    (DispatchPolicy.ofCode n).code = n := by
  unfold dispatchPolicyCount at h
  interval_cases n <;> rfl

theorem ThrottleLevel.code_lt (l : ThrottleLevel) : l.code < throttleLevelCount := by
  cases l <;> decide

theorem DispatchPolicy.code_lt (p : DispatchPolicy) : p.code < dispatchPolicyCount := by
  cases p <;> decide

/-! ## The record of decisions -/

/-- The numbers of the decisions that were applied, oldest first. -/
def appliedIds (log : List DecisionEvent) : List ℕ :=
  log.filterMap (fun e => match e with
    | .installed _ _ a => some a.decisionId
    | _ => none)

theorem appliedIds_append (log es : List DecisionEvent) :
    appliedIds (log ++ es) = appliedIds log ++ appliedIds es := List.filterMap_append

/-- **The record agrees with the context.** -/
structure Recorded (log : List DecisionEvent) (V : DecisionView) : Prop where
  started_le : ∀ d k, .started d k ∈ log → d ≤ V.decisionId
  started_unique : ∀ d k k', .started d k ∈ log → .started d k' ∈ log → k' = k
  pending_id : V.inferencePending = true → V.pending.decisionId = V.decisionId
  pending_config : V.inferencePending = true →
    ∃ k, .started V.decisionId k ∈ log ∧ V.pending.Copies k
  pending_state : V.inferencePending = true → V.pendingStateValid = true →
    .snapshot V.decisionId V.pending.state ∈ log
  applied_le : ∀ d ∈ appliedIds log, d ≤ V.decisionId
  applied_lt : V.inferencePending = true → ∀ d ∈ appliedIds log, d < V.decisionId
  applied_once : (appliedIds log).Pairwise (· < ·)

/-- **A frame belongs to an entry of the record**: it carries the configuration
and a state snapshot of its decision. -/
structure FrameRecorded (log : List DecisionEvent) (f : InferenceFrame) : Prop where
  config : ∃ k, .started f.decisionId k ∈ log ∧ f.source = k.source
    ∧ f.action = k.fixedAction
  state : .snapshot f.decisionId f.state ∈ log

/-- A longer record still has the frame's entry. -/
theorem FrameRecorded.append {log : List DecisionEvent} {f : InferenceFrame}
    (h : FrameRecorded log f) (es : List DecisionEvent) : FrameRecorded (log ++ es) f where
  config := by
    obtain ⟨k, hk, hf⟩ := h.config
    exact ⟨k, List.mem_append_left es hk, hf⟩
  state := List.mem_append_left es h.state

namespace Recorded

variable {log : List DecisionEvent} {V V' : DecisionView}

/-- A move without an event, of a view whose decision stays or is dropped. -/
theorem of_quiet (h : Recorded log V) (hid : V'.decisionId = V.decisionId)
    (hp : V'.inferencePending = true → V.inferencePending = true
      ∧ V'.pending = V.pending ∧ V'.pendingStateValid = V.pendingStateValid) :
    Recorded (log ++ []) V' := by
  rw [List.append_nil]
  refine ⟨?_, h.started_unique, ?_, ?_, ?_, ?_, ?_, h.applied_once⟩
  · rw [hid]
    exact h.started_le
  · intro hpend
    obtain ⟨hold, hpending, -⟩ := hp hpend
    rw [hpending, hid]
    exact h.pending_id hold
  · intro hpend
    obtain ⟨hold, hpending, -⟩ := hp hpend
    rw [hpending, hid]
    exact h.pending_config hold
  · intro hpend hvalid
    obtain ⟨hold, hpending, hstate⟩ := hp hpend
    rw [hpending, hid]
    exact h.pending_state hold (hstate ▸ hvalid)
  · rw [hid]
    exact h.applied_le
  · intro hpend
    rw [hid]
    exact h.applied_lt (hp hpend).1

/-- **The next decision** is a new entry; `es` are the snapshots taken with it. -/
theorem start (h : Recorded log V) (k : ThrottleConfig) (newControl : Bool)
    (state : Option StateSnapshot) {es : List DecisionEvent}
    (hes : es = state.toList.map (.snapshot (V.decisionId + 1)))
    (hsource : k.source = .model ∨ state.isSome = true) :
    Recorded (log ++ .started (V.decisionId + 1) k :: es)
      ((V.configured k).arm newControl state) := by
  have hmem : ∀ d k', .started d k' ∈ log ++ .started (V.decisionId + 1) k :: es →
      .started d k' ∈ log ∨ (d = V.decisionId + 1 ∧ k' = k) := by
    intro d k' hk
    rcases List.mem_append.mp hk with hk | hk
    · exact Or.inl hk
    · rcases List.mem_cons.mp hk with hk | hk
      · injection hk with hd hk
        exact Or.inr ⟨hd, hk⟩
      · rw [hes] at hk
        obtain ⟨s, -, hs⟩ := List.mem_map.mp hk
        exact absurd hs (by simp)
  have hids : appliedIds (log ++ .started (V.decisionId + 1) k :: es) = appliedIds log := by
    rw [appliedIds_append, hes]
    cases state <;> exact List.append_nil _
  have hnew : DecisionEvent.started (V.decisionId + 1) k
      ∈ log ++ .started (V.decisionId + 1) k :: es :=
    List.mem_append_right log List.mem_cons_self
  refine ⟨?_, ?_, fun _ => rfl, fun _ => ⟨k, hnew, rfl, rfl, rfl, rfl, rfl⟩, ?_, ?_, ?_, ?_⟩
  · intro d k' hk
    rcases hmem d k' hk with hk | ⟨hd, -⟩
    · exact (h.started_le d k' hk).trans (Nat.le_succ _)
    · exact hd.le
  · intro d k₁ k₂ h₁ h₂
    rcases hmem d k₁ h₁ with h₁ | ⟨hd₁, hk₁⟩ <;> rcases hmem d k₂ h₂ with h₂ | ⟨hd₂, hk₂⟩
    · exact h.started_unique d k₁ k₂ h₁ h₂
    · exact absurd (hd₂ ▸ h.started_le d k₁ h₁) (Nat.not_succ_le_self _)
    · exact absurd (hd₁ ▸ h.started_le d k₂ h₂) (Nat.not_succ_le_self _)
    · rw [hk₁, hk₂]
  · intro _ hvalid
    rcases hsource with hsource | hsome
    · exact absurd hsource (of_decide_eq_true hvalid)
    · obtain ⟨s, rfl⟩ := Option.isSome_iff_exists.mp hsome
      rw [hes]
      exact List.mem_append_right log (List.mem_cons_of_mem _ List.mem_cons_self)
  · rw [hids]
    exact fun d hd => (h.applied_le d hd).trans (Nat.le_succ _)
  · rw [hids]
    exact fun _ d hd => Nat.lt_succ_of_le (h.applied_le d hd)
  · rw [hids]
    exact h.applied_once

/-- **A new snapshot** for the decision in hand. -/
theorem takeState (h : Recorded log V) (hp : V.inferencePending = true)
    (s : StateSnapshot) :
    Recorded (log ++ [.snapshot V.pending.decisionId s])
      { V with pending := { V.pending with state := s }, pendingStateValid := true } := by
  have hmem : ∀ d k, .started d k ∈ log ++ [.snapshot V.pending.decisionId s] →
      DecisionEvent.started d k ∈ log := by
    intro d k hk
    rcases List.mem_append.mp hk with hk | hk
    · exact hk
    · exact absurd (List.mem_singleton.mp hk) (by simp)
  have hids : appliedIds (log ++ [.snapshot V.pending.decisionId s]) = appliedIds log := by
    rw [appliedIds_append]
    exact List.append_nil _
  refine ⟨fun d k hk => h.started_le d k (hmem d k hk),
    fun d k k' hk hk' => h.started_unique d k k' (hmem d k hk) (hmem d k' hk'),
    h.pending_id, ?_, ?_, ?_, ?_, ?_⟩
  · intro hpend
    obtain ⟨k, hk, hcopy⟩ := h.pending_config hpend
    exact ⟨k, List.mem_append_left _ hk, hcopy.source, hcopy.fixedAction, hcopy.lightPct,
      hcopy.mediumPct, hcopy.heavyPct⟩
  · intro _ _
    rw [← h.pending_id hp]
    exact List.mem_append_right log (List.mem_singleton_self _)
  · rw [hids]
    exact h.applied_le
  · rw [hids]
    exact h.applied_lt
  · rw [hids]
    exact h.applied_once

/-- **An action put in force** is the first of its number. -/
theorem install (h : Recorded log V) {f : InferenceFrame} (predicted : Option (Fin 12))
    {a : ThrottleAction} (hawaits : V.awaits f = true) (hid : a.decisionId = f.decisionId) :
    Recorded (log ++ [.installed f predicted a]) (V.install a) := by
  obtain ⟨hp, hf⟩ : V.inferencePending = true ∧ f.decisionId = V.pending.decisionId := by
    unfold DecisionView.awaits at hawaits
    simp only [Bool.and_eq_true, decide_eq_true_eq] at hawaits
    exact ⟨hawaits.1.1.1.1, hawaits.2⟩
  have hnow : a.decisionId = V.decisionId := hid.trans (hf.trans (h.pending_id hp))
  have hmem : ∀ d k, .started d k ∈ log ++ [.installed f predicted a] →
      DecisionEvent.started d k ∈ log := by
    intro d k hk
    rcases List.mem_append.mp hk with hk | hk
    · exact hk
    · exact absurd (List.mem_singleton.mp hk) (by simp)
  have hids : appliedIds (log ++ [.installed f predicted a])
      = appliedIds log ++ [a.decisionId] := appliedIds_append log _
  refine ⟨fun d k hk => h.started_le d k (hmem d k hk),
    fun d k k' hk hk' => h.started_unique d k k' (hmem d k hk) (hmem d k' hk'),
    fun hno => absurd hno Bool.false_ne_true, fun hno => absurd hno Bool.false_ne_true,
    fun hno => absurd hno Bool.false_ne_true, ?_,
    fun hno => absurd hno Bool.false_ne_true, ?_⟩
  · rw [hids]
    intro d hd
    rcases List.mem_append.mp hd with hd | hd
    · exact h.applied_le d hd
    · rw [List.mem_singleton.mp hd]
      exact hnow.le
  · rw [hids]
    refine List.pairwise_append.mpr ⟨h.applied_once, List.pairwise_singleton _ _, ?_⟩
    intro d hd e he
    rw [List.mem_singleton.mp he, hnow]
    exact h.applied_lt hp d hd

/-- **Every move keeps the record.** -/
theorem turn {g : Globals} {es : List DecisionEvent} (h : Recorded log V)
    (ht : Turn g V es V') : Recorded (log ++ es) V' := by
  cases ht with
  | reserve n hn => exact h.of_quiet rfl (fun hp => ⟨hp, rfl, rfl⟩)
  | release n hn =>
    refine h.of_quiet ?_ ?_
    · unfold DecisionView.reopen
      split <;> rfl
    · unfold DecisionView.reopen
      split <;> exact fun hp => ⟨hp, rfl, rfl⟩
  | fallback => exact h.of_quiet rfl (fun hp => absurd hp Bool.false_ne_true)
  | sample x hx => exact h.of_quiet rfl (fun hp => ⟨hp, rfl, rfl⟩)
  | newSession => exact h.of_quiet rfl (fun hp => ⟨hp, rfl, rfl⟩)
  | close reason hr => exact h.of_quiet rfl (fun hp => ⟨hp, rfl, rfl⟩)
  | configure hp =>
    exact h.of_quiet rfl (fun hp' => absurd (hp.symm.trans hp') Bool.false_ne_true)
  | start newControl henabled hdying hp hsource =>
    exact h.start g.config newControl none rfl (Or.inl hsource)
  | startWith newControl s henabled hdying hp hsource =>
    exact h.start g.config newControl (some s) rfl (Or.inr rfl)
  | takeState s hp hsource => exact h.takeState hp s
  | timeOut hp => exact h.of_quiet rfl (fun hp => ⟨hp, rfl, rfl⟩)
  | install f predicted computed a hcomputed hawaits hdying hqueue htarget =>
    exact h.install predicted hawaits htarget.decisionId
  | die => exact h.of_quiet rfl (fun hp => ⟨hp, rfl, rfl⟩)

end Recorded

/-! ## Along a run -/

namespace Throttle

/-- The record agrees with the context, and with every inference call between
its two sections. -/
structure RunRecorded (log : List DecisionEvent) (w : Throttle) : Prop where
  ctx : Recorded log w.ctx.decisions
  frames : ∀ f ∈ w.frames, FrameRecorded log f

/-- **A frame is taken from the pending fields**, where the entry of the decision
in hand is. -/
theorem frameRecorded_pending {log : List DecisionEvent} {c : ThrottleCtx}
    (h : Recorded log c.decisions) (hc : nothingToCompute c = false) :
    FrameRecorded log c.pending.frame := by
  unfold nothingToCompute at hc
  simp only [Bool.or_eq_false_iff, Bool.not_eq_false'] at hc
  obtain ⟨⟨⟨hp, -⟩, -⟩, hvalid⟩ := hc
  have hid : c.pending.decisionId = c.decisionId := h.pending_id hp
  obtain ⟨k, hk, hcopy⟩ := h.pending_config hp
  refine ⟨⟨k, ?_, hcopy.source, hcopy.fixedAction⟩, ?_⟩
  · show DecisionEvent.started c.pending.decisionId k ∈ log
    rw [hid]
    exact hk
  · show DecisionEvent.snapshot c.pending.decisionId c.pending.state ∈ log
    rw [hid]
    exact h.pending_state hp hvalid

/-- **Every section keeps the record.** -/
theorem runRecorded_step {log : List DecisionEvent} {w : Throttle} (h : RunRecorded log w)
    (op : ThrottleOp) : RunRecorded (log ++ w.decisionEvents op) (w.step op).1 where
  ctx := (turns_step w op).keeps (I := Recorded) (fun _ _ _ _ ht hV => hV.turn ht) h.ctx
  frames := by
    have hold : ∀ f ∈ w.frames, FrameRecorded (log ++ w.decisionEvents op) f :=
      fun f hf => (h.frames f hf).append _
    intro f hf
    rw [frames_step] at hf
    split at hf
    · split at hf
      · exact hold f hf
      · rename_i hc
        rcases List.mem_append.mp hf with hf | hf
        · exact hold f hf
        · rw [List.mem_singleton.mp hf]
          exact (frameRecorded_pending h.ctx (Bool.not_eq_true _ ▸ hc)).append _
    · exact hold f (List.mem_of_mem_eraseIdx hf)
    · exact hold f hf

/-- The record of an attached queue is empty. -/
theorem runRecorded_of_attached {w : Throttle} (h : Attached w) : RunRecorded [] w where
  ctx := by
    obtain ⟨q, n, -, hctx⟩ := h.ctx
    rw [hctx]
    exact
      { started_le := fun d k hk => absurd hk List.not_mem_nil
        started_unique := fun d k k' hk _ => absurd hk List.not_mem_nil
        pending_id := fun hp => absurd hp Bool.false_ne_true
        pending_config := fun hp => absurd hp Bool.false_ne_true
        pending_state := fun hp => absurd hp Bool.false_ne_true
        applied_le := fun d hd => absurd hd List.not_mem_nil
        applied_lt := fun hp => absurd hp Bool.false_ne_true
        applied_once := List.Pairwise.nil }
  frames f hf := by
    rw [h.frames] at hf
    exact absurd hf List.not_mem_nil

/-- **The record of the decisions of a run.** -/
def decisionLog (w : Throttle) (ops : List ThrottleOp) : List DecisionEvent :=
  machine.chronicle decisionEvents w ops

/-- The record agrees with the context after every run. -/
theorem runRecorded_run {w : Throttle} (h : Attached w) (ops : List ThrottleOp) :
    RunRecorded (decisionLog w ops) (machine.run w ops) :=
  StepMachine.chronicle_invariant (I := RunRecorded) (fun _ _ op hw => runRecorded_step hw op)
    (runRecorded_of_attached h) ops

/-- **An action is put in force while its decision is in hand.** The action's
decision is the current one, pending and in time; the inference call that
computed it carries a state snapshot taken for that decision; the action is
what the configuration copied for the decision makes of it, with a level and a
policy in range; and no decision of this number or a later one was applied
before. -/
structure InstallsCurrent (log : List DecisionEvent) (w : Throttle) (op : ThrottleOp)
    (a : ThrottleAction) : Prop where
  current : a.decisionId = w.ctx.decisionId
  awaited : w.ctx.control.inferencePending = true
  inTime : w.ctx.control.inferenceTimedOut = false
  computed : ∃ i predicted f k, op = .inferenceWorkFinish i predicted
    ∧ w.frames[i]? = some f ∧ f.decisionId = a.decisionId
    ∧ .snapshot a.decisionId f.state ∈ log
    ∧ (∀ k', .started a.decisionId k' ∈ log ↔ k' = k)
    ∧ a.ComputedFrom k predicted w.globals.queueDepth
  level : a.level.code < throttleLevelCount
  policy : a.policy.code < dispatchPolicyCount
  first : ∀ d ∈ appliedIds log, d < a.decisionId

/-- What a frame with a decision's configuration makes of a queue. -/
theorem computedFrom_targets {V : DecisionView} {k : ThrottleConfig} {f : InferenceFrame}
    {predicted : Option (Fin 12)} {b a : ThrottleAction} {depth : ℕ}
    (hcopy : V.pending.Copies k) (hsource : f.source = k.source)
    (haction : f.action = k.fixedAction) (hb : frameAction f predicted = some b)
    (ht : V.Targets f b a depth) : a.ComputedFrom k predicted depth := by
  have hratio : ∀ l, V.ratio l = k.ratio l := by
    intro l
    cases l with
    | no => rfl
    | light => exact hcopy.lightPct
    | medium => exact hcopy.mediumPct
    | heavy => exact hcopy.heavyPct
  refine ⟨?_, ?_, ht.queueMax, ?_⟩
  · rw [ht.level, ht.policy]
    unfold ThrottleConfig.Chooses
    unfold frameAction at hb
    rw [hsource] at hb
    cases hk : k.source with
    | fixed =>
      rw [hk] at hb
      dsimp only at hb ⊢
      split at hb
      · rw [← Option.some.inj hb, haction]
        exact ⟨rfl, rfl⟩
      · exact absurd hb (by simp)
    | model =>
      rw [hk] at hb
      dsimp only at hb ⊢
      obtain ⟨id, hid, rfl⟩ := Option.map_eq_some_iff.mp hb
      have hlevel : id.val / dispatchPolicyCount < throttleLevelCount := by
        unfold dispatchPolicyCount throttleLevelCount
        omega
      have hpolicy : id.val % dispatchPolicyCount < dispatchPolicyCount :=
        Nat.mod_lt _ (by decide)
      exact ⟨id, hid, ThrottleLevel.code_ofCode hlevel, DispatchPolicy.code_ofCode hpolicy⟩
  · rw [ht.ratioPct, ht.level]
    exact hratio _
  · rw [ht.level]
    split
    · rename_i hno
      exact ht.none hno
    · rename_i hno
      rw [(ht.some hno).1, hratio]

/-- **An action put in force is current**, if the record agrees with the context. -/
theorem installsCurrent {log : List DecisionEvent} {w : Throttle} (h : RunRecorded log w)
    {op : ThrottleOp} {a : ThrottleAction} (hi : (w.step op).2.installed = some a) :
    InstallsCurrent log w op a := by
  obtain ⟨i, predicted, f, hop, hf⟩ := installs_of_step hi
  obtain ⟨b, hb, htargets⟩ := hf.computed
  have hawaits := hf.awaited
  simp only [framePending, Bool.and_eq_true, Bool.not_eq_true', decide_eq_true_eq] at hawaits
  obtain ⟨⟨⟨⟨hp, hout⟩, -⟩, -⟩, hid⟩ := hawaits
  have hcurrent : f.decisionId = w.ctx.decisionId := hid.trans (h.ctx.pending_id hp)
  have ha : a.decisionId = f.decisionId := htargets.decisionId
  have hrec := h.frames f (List.mem_of_getElem? hf.frame)
  obtain ⟨k, hk, hsource, haction⟩ := hrec.config
  obtain ⟨k', hk', hcopy⟩ := h.ctx.pending_config hp
  have hkk : k' = k := by
    rw [hcurrent] at hk
    exact h.ctx.started_unique _ k k' hk hk'
  subst hkk
  refine ⟨ha.trans hcurrent, hp, hout, ⟨i, predicted, f, k', hop, hf.frame, ha.symm, ?_, ?_, ?_⟩,
    a.level.code_lt, a.policy.code_lt, ?_⟩
  · rw [ha]
    exact hrec.state
  · rw [ha]
    exact fun k₂ => ⟨fun h₂ => h.ctx.started_unique _ k' k₂ hk h₂, fun heq => heq ▸ hk⟩
  · exact computedFrom_targets hcopy hsource haction hb htargets
  · intro d hd
    rw [ha, hcurrent]
    exact h.ctx.applied_lt hp d hd

/-- The numbers of the decisions that a run applies, by its effects. -/
def installedIds (history : List Effects) : List ℕ :=
  history.filterMap (fun e => e.installed.map ThrottleAction.decisionId)

/-- The record has the applied decisions of a section and no others. -/
theorem appliedIds_decisionEvents (w : Throttle) (op : ThrottleOp) :
    appliedIds (w.decisionEvents op)
      = ((w.step op).2.installed.map ThrottleAction.decisionId).toList := by
  have hother : (∀ i predicted, op ≠ .inferenceWorkFinish i predicted) →
      appliedIds (w.decisionEvents op) = [] →
      appliedIds (w.decisionEvents op)
        = ((w.step op).2.installed.map ThrottleAction.decisionId).toList := by
    intro hne hempty
    rw [hempty]
    cases hi : (w.step op).2.installed with
    | none => rfl
    | some a =>
      obtain ⟨i, predicted, f, hop, -⟩ := installs_of_step hi
      exact absurd hop (hne i predicted)
  have hsnaps (s : Option StateSnapshot) (d : ℕ) :
      appliedIds (s.toList.map (DecisionEvent.snapshot d)) = [] := by
    cases s <;> rfl
  cases op with
  | inferenceWorkFinish i predicted =>
    show _ = ((w.inferenceWorkFinish i predicted).2.installed.map _).toList
    simp only [decisionEvents]
    cases hi : (w.inferenceWorkFinish i predicted).2.installed with
    | none => cases w.frames[i]? <;> rfl
    | some a =>
      obtain ⟨f, hf⟩ := installs_inferenceWorkFinish hi
      rw [hf.frame]
      rfl
  | modelThreadRun nowNs =>
    refine hother (by simp) ?_
    simp only [decisionEvents, modelThreadEvents]
    split
    · rfl
    · exact hsnaps _ _
  | recordComplete rq nrBytes nowNs =>
    refine hother (by simp) ?_
    have hstart (c : ThrottleCtx) (newControl : Bool) :
        appliedIds (startEvents c w.globals newControl nowNs) = [] := by
      unfold startEvents
      split
      · split
        · rfl
        · exact hsnaps _ _
      · rfl
    simp only [decisionEvents]
    split
    · rfl
    · split
      · rfl
      · split
        · exact hstart _ _
        · rfl
  | _ => exact hother (by simp) rfl

/-- The record and the effects of a run apply the same decisions. -/
theorem appliedIds_decisionLog (w : Throttle) (ops : List ThrottleOp) :
    appliedIds (decisionLog w ops) = installedIds (machine.outs w ops) := by
  induction ops generalizing w with
  | nil => rfl
  | cons op ops ih =>
    show appliedIds (w.decisionEvents op ++ decisionLog (w.step op).1 ops)
      = installedIds ((w.step op).2 :: machine.outs (w.step op).1 ops)
    rw [appliedIds_append, ih, appliedIds_decisionEvents]
    unfold installedIds
    rw [List.filterMap_cons]
    cases (w.step op).2.installed <;> rfl

/-- **No stale decision is applied.** Whatever the sections and their order, an
action is put in force only while its decision is current, pending and in time,
computed from what was copied for that decision; and the decisions are applied
in the order of their numbers, none of them twice. -/
theorem installs_current {w : Throttle} (h : Attached w) (ops : List ThrottleOp) :
    (∀ op a, (machine.out (machine.run w ops) op).installed = some a →
      InstallsCurrent (decisionLog w ops) (machine.run w ops) op a)
    ∧ (installedIds (machine.outs w ops)).Pairwise (· < ·) := by
  have hrec := runRecorded_run h ops
  refine ⟨fun op a hi => installsCurrent hrec hi, ?_⟩
  rw [← appliedIds_decisionLog]
  exact hrec.ctx.applied_once

/-- Two inference calls compute the same decision; only the first one applies
it. -/
def twiceComputed : List ThrottleOp :=
  slowRequests ++
    [.inferenceWorkBegin, .inferenceWorkBegin, .inferenceWorkFinish 0 none,
      .inferenceWorkFinish 0 none]

/-- A queue in which the workqueue item and the model thread meet. -/
theorem installs_current_twice :
    installedIds (machine.outs (attach 2 [.setThrottleEnabled true, .setQueueDepth 1])
        twiceComputed) = [1]
      ∧ (installedIds (machine.outs (attach 2 [.setThrottleEnabled true, .setQueueDepth 1])
        twiceComputed)).Pairwise (· < ·) :=
  ⟨by decide +kernel, (installs_current (attached_attach Nat.one_ne_zero Nat.one_ne_zero
    (by decide) _) twiceComputed).2⟩

end Throttle
