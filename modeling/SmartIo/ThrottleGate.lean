import Mathlib.Order.MinMax
import SmartIo.ThrottleWakeup

/-!
# The gate and the depth it waits for

A closed gate is a promise: somebody will open it. Two things make the promise
good. The flag never outlives its reason – whatever lets background requests
run again clears it in the same section (`gate_flag_fresh`). And a gate that is
closed for the depth waits for a depth that is really reserved: the target is at
least one, because the ratios of the configuration are, because they were
checked when they were set and are copied with the decision that uses them
(`depth_refusal_released`).

Both are invariants of the moves of `SmartIo.ThrottleDecisions`.
-/

open ThrottleCtx Counting

/-! ## Ratios and targets -/

/-- Three ratios in the order `smart_io_throttle_set_ratios` asks for. -/
structure RatiosOrdered (lightPct mediumPct heavyPct : ℕ) : Prop where
  heavy : heavyPct ≠ 0
  medium : heavyPct < mediumPct
  light : mediumPct < lightPct
  light_le : lightPct ≤ 100

/-- The ratios of a configuration are in order. -/
def ThrottleConfig.Ordered (k : ThrottleConfig) : Prop :=
  RatiosOrdered k.lightPct k.mediumPct k.heavyPct

/-- The ratios copied for a decision are in order. -/
def PendingDecision.Ordered (d : PendingDecision) : Prop :=
  RatiosOrdered d.lightPct d.mediumPct d.heavyPct

/-- **Every configuration call leaves the ratios in order.** -/
theorem Globals.ordered_configure {g : Globals} (h : g.config.Ordered) (k : ConfigOp) :
    (g.configure k).config.Ordered := by
  cases k with
  | setDevLatThreshold n =>
    simp only [configure, setDevLatThreshold]
    split
    · exact h
    · split <;> exact h
  | setBackgroundDeadlineMs n =>
    simp only [configure, setBackgroundDeadlineMs]
    split
    · exact h
    · split <;> exact h
  | setRatios l m k =>
    simp only [configure, setRatios]
    split
    · exact h
    · rename_i hc
      simp only [not_or, not_lt, not_le] at hc
      obtain ⟨hl, -, hml, -, hkm, hk⟩ := hc
      exact ⟨hk, hkm, hml, hl⟩
  | setActionSource s ok =>
    simp only [configure, setActionSource]
    split
    · exact h
    · split <;> exact h
    · exact h
  | setFixedAction l p =>
    simp only [configure, setFixedAction]
    split <;> exact h
  | setUxHpEnable b => exact h
  | setRtReadHpEnable b => exact h
  | setQueueRqDemo b => exact h
  | setThrottleEnabled b => exact h
  | setFgUid u => exact h
  | setFgMainPid p => exact h
  | setQueueDepth n => exact h

/-- The ratios are in order from the initial configuration on. -/
theorem Globals.ordered_foldl {g : Globals} (h : g.config.Ordered) (ks : List ConfigOp) :
    (ks.foldl Globals.configure g).config.Ordered := by
  induction ks generalizing g with
  | nil => exact h
  | cons k ks ih => exact ih (ordered_configure h k)

/-- The initial ratios: 75, 50 and 25 per cent. -/
theorem Globals.ordered_initial : Globals.initial.config.Ordered where
  heavy := by decide
  medium := by decide
  light := by decide
  light_le := by decide

namespace Throttle

/-- A smaller ratio gives no larger a target. -/
theorem targetDepthOf_mono {r s : ℕ} (h : r ≤ s) (depth : ℕ) :
    targetDepthOf depth r ≤ targetDepthOf depth s := by
  have hmul : depth * r ≤ depth * s := Nat.mul_le_mul_left depth h
  exact min_le_min le_rfl (Nat.div_le_div_right (Nat.add_le_add_right hmul 99))

theorem targetDepthOf_le (depth r : ℕ) : targetDepthOf depth r ≤ depth := min_le_left _ _

/-- **Rounding up never leaves nothing**: a ratio of a queue that has any depth
is at least one request. -/
theorem targetDepthOf_pos {depth r : ℕ} (hd : depth ≠ 0) (hr : r ≠ 0) :
    1 ≤ targetDepthOf depth r := by
  refine le_min (Nat.one_le_iff_ne_zero.mpr hd) ((Nat.one_le_div_iff (by decide)).mpr ?_)
  have hmul : 1 ≤ depth * r := Nat.one_le_iff_ne_zero.mpr (Nat.mul_ne_zero hd hr)
  omega

end Throttle

/-! ## The invariant of the moves -/

namespace DecisionView

/-- **The gate is kept**: it is closed for a true reason and only then, the
ratios of an awaited decision are in order, and an action in force has a target
that some request can meet. -/
structure Gated (V : DecisionView) : Prop where
  closed : V.gateBlocked = true → V.inferencePending = true ∨ V.depthCanRun = false
  reason : V.gateReason = .none ↔ V.gateBlocked = false
  ratios : V.inferencePending = true → V.pending.Ordered
  target : V.actionValid = true → V.action.level ≠ .no →
    1 ≤ V.action.targetDepth ∧ V.action.targetDepth ≤ V.action.queueMax

variable {V : DecisionView}

/-- The gate is closed by the depth exactly when an action that throttles is in
force and its target is used up. -/
theorem depthCanRun_eq_false :
    V.depthCanRun = false ↔ V.throttleActive = true ∧ V.actionValid = true
      ∧ V.action.level ≠ .no ∧ V.action.targetDepth ≤ V.bgCurrentDepth := by
  unfold depthCanRun
  split
  · rename_i hc
    simp only [Bool.or_eq_true, Bool.not_eq_true', decide_eq_true_eq] at hc
    refine iff_of_false Bool.true_eq_false.mp ?_
    rintro ⟨ha, hv, hl, -⟩
    rcases hc with (hc | hc) | hc
    · exact Bool.noConfusion (ha.symm.trans hc)
    · exact Bool.noConfusion (hv.symm.trans hc)
    · exact hl hc
  · rename_i hc
    simp only [Bool.or_eq_true, Bool.not_eq_true', decide_eq_true_eq, not_or,
      Bool.not_eq_false] at hc
    obtain ⟨⟨ha, hv⟩, hl⟩ := hc
    rw [decide_eq_false_iff_not, not_lt]
    exact ⟨fun h => ⟨ha, hv, hl, h⟩, fun h => h.2.2.2⟩

/-- The ratio of an ordered copy is in range, for every level that throttles. -/
theorem ratio_bounds (h : V.pending.Ordered) {l : ThrottleLevel} (hl : l ≠ .no) :
    V.ratio l ≠ 0 ∧ V.ratio l ≤ 100 := by
  obtain ⟨hheavy, hmedium, hlight, hle⟩ := h
  cases l with
  | no => exact absurd rfl hl
  | light => exact ⟨by show V.pending.lightPct ≠ 0; omega, hle⟩
  | medium =>
    refine ⟨?_, ?_⟩
    · show V.pending.mediumPct ≠ 0
      omega
    · show V.pending.mediumPct ≤ 100
      omega
  | heavy =>
    refine ⟨hheavy, ?_⟩
    show V.pending.heavyPct ≤ 100
    omega

namespace Gated

/-- A view without a closed gate and without an action. -/
theorem idle (V : DecisionView) : V.idle.Gated where
  closed h := absurd h Bool.false_ne_true
  reason := iff_of_true rfl rfl
  ratios h := absurd h Bool.false_ne_true
  target h := absurd h Bool.false_ne_true

/-- More depth in use keeps a closed gate closed. -/
theorem reserve (h : V.Gated) {n : ℕ} (hn : V.bgCurrentDepth ≤ n) :
    ({ V with bgCurrentDepth := n } : DecisionView).Gated where
  closed hb := by
    refine (h.closed hb).imp id (fun hdepth => ?_)
    rw [depthCanRun_eq_false] at hdepth ⊢
    exact ⟨hdepth.1, hdepth.2.1, hdepth.2.2.1, hdepth.2.2.2.trans hn⟩
  reason := h.reason
  ratios := h.ratios
  target := h.target

/-- **A released depth opens the gate if it no longer has a reason.** -/
theorem release (h : V.Gated) (n : ℕ) :
    ({ V with bgCurrentDepth := n } : DecisionView).reopen.Gated := by
  unfold reopen
  split
  · exact ⟨fun hb => absurd hb Bool.false_ne_true, iff_of_true rfl rfl, h.ratios, h.target⟩
  · rename_i hc
    refine ⟨fun hb => Or.inr ?_, h.reason, h.ratios, h.target⟩
    rw [← Bool.not_eq_true]
    exact fun hrun => hc (Bool.and_eq_true_iff.mpr ⟨hb, hrun⟩)

/-- **A copied configuration** matters once a decision is awaited. -/
theorem configured (h : V.Gated) (hp : V.inferencePending = false) (k : ThrottleConfig) :
    (V.configured k).Gated where
  closed := h.closed
  reason := h.reason
  ratios hp' := absurd (hp.symm.trans hp') Bool.false_ne_true
  target := h.target

/-- **An awaited decision** is a reason of its own to keep the gate closed. -/
theorem arm (h : V.Gated) (hk : V.pending.Ordered) (newControl : Bool)
    (state : Option StateSnapshot) : (V.arm newControl state).Gated where
  closed _ := Or.inl rfl
  reason := h.reason
  ratios _ := hk
  target hv := absurd hv Bool.false_ne_true

/-- **An action in force** has a target between one and the queue. -/
theorem install (h : V.Gated) (hp : V.inferencePending = true) {f : InferenceFrame}
    {computed a : ThrottleAction} {depth : ℕ} (hd : depth ≠ 0)
    (ht : V.Targets f computed a depth) : (V.install a).Gated where
  closed hb := absurd hb Bool.false_ne_true
  reason := iff_of_true rfl rfl
  ratios hp' := absurd hp' Bool.false_ne_true
  target _ hl := by
    show 1 ≤ a.targetDepth ∧ a.targetDepth ≤ a.queueMax
    have hlevel : computed.level ≠ .no := fun hno => hl (ht.level.trans hno)
    obtain ⟨hratio, -⟩ := ratio_bounds (h.ratios hp) hlevel
    rw [(ht.some hlevel).1, ht.queueMax]
    exact ⟨Throttle.targetDepthOf_pos hd hratio, Throttle.targetDepthOf_le _ _⟩

/-- **Every move keeps the gate.** -/
theorem turn (h : V.Gated) {g : Globals} (hg : g.config.Ordered) {es : List DecisionEvent}
    {V' : DecisionView} (ht : Turn g V es V') : V'.Gated := by
  cases ht with
  | reserve n hn => exact h.reserve hn
  | release n hn => exact h.release n
  | fallback => exact idle V
  | sample x hx => exact ⟨h.closed, h.reason, h.ratios, h.target⟩
  | newSession => exact ⟨h.closed, h.reason, h.ratios, h.target⟩
  | close reason hr =>
    refine ⟨fun _ => hr.imp And.right And.right, ?_, h.ratios, h.target⟩
    rcases hr with ⟨rfl, -⟩ | ⟨rfl, -⟩
    · exact iff_of_false GateReason.noConfusion Bool.noConfusion
    · exact iff_of_false GateReason.noConfusion Bool.noConfusion
  | configure hp => exact h.configured hp g.config
  | start newControl henabled hdying hp hsource =>
    exact (h.configured hp g.config).arm hg newControl none
  | startWith newControl s henabled hdying hp hsource =>
    exact (h.configured hp g.config).arm hg newControl (some s)
  | takeState s hp hsource => exact ⟨h.closed, h.reason, h.ratios, h.target⟩
  | timeOut hp => exact ⟨h.closed, h.reason, h.ratios, h.target⟩
  | install f predicted computed a hcomputed hawaits hdying hqueue htarget =>
    have hp : V.inferencePending = true := by
      unfold awaits at hawaits
      simp only [Bool.and_eq_true] at hawaits
      exact hawaits.1.1.1.1
    exact h.install hp hqueue htarget
  | die => exact ⟨h.closed, h.reason, h.ratios, h.target⟩

end Gated

end DecisionView

/-! ## Reachable states -/

namespace Throttle

/-- The gate is kept in every reachable state, with ratios that are in order. -/
theorem gated_of_reachable {w : Throttle} (h : machine.Reachable w) :
    w.globals.config.Ordered ∧ w.ctx.decisions.Gated := by
  refine h.invariant (I := fun w => w.globals.config.Ordered ∧ w.ctx.decisions.Gated) ?_ ?_
  · intro w hw
    obtain ⟨q, n, -, hctx⟩ := hw.ctx
    obtain ⟨ks, hks⟩ := hw.globals
    refine ⟨hks ▸ Globals.ordered_foldl Globals.ordered_initial ks, ?_⟩
    rw [hctx]
    exact DecisionView.Gated.idle (ThrottleCtx.queueInit n).decisions
  · rintro w op ⟨hg, hV⟩
    refine ⟨?_, ?_⟩
    · show (w.step op).1.globals.config.Ordered
      rw [globals_step]
      split
      · exact Globals.ordered_configure hg _
      · exact hg
    · exact (turns_step w op).keeps_state
        (fun V es V' ht hV => hV.turn hg ht) hV

/-- **The gate flag is fresh**, in the words of the source. -/
structure GateFlagFresh (c : ThrottleCtx) : Prop where
  closed : c.gateBlocked = true →
    c.control.inferencePending = true
      ∨ (c.control.throttleActive = true ∧ c.control.actionValid = true
        ∧ c.control.action.level ≠ .no
        ∧ c.control.action.targetDepth ≤ c.bgCurrentDepth)
  reason : c.gateReason = .none ↔ c.gateBlocked = false

/-- **The gate flag is never stale.** In every reachable state a gate that is
marked closed is closed, and it has a reason exactly when it is. -/
theorem gate_flag_fresh {w : Throttle} (h : machine.Reachable w) : GateFlagFresh w.ctx where
  closed hb := ((gated_of_reachable h).2.closed hb).imp id
    DecisionView.depthCanRun_eq_false.mp
  reason := (gated_of_reachable h).2.reason

/-- A queue that has decided to throttle and closed the gate to wait for the
action. -/
theorem gate_flag_fresh_waiting :
    lateQueue.ctx.gateBlocked = true ∧ GateFlagFresh lateQueue.ctx :=
  ⟨by decide +kernel, gate_flag_fresh (reachable_attach _ _)⟩

/-! ## A refusal for the depth -/

/-- **The record a refusal waits for**: it is in use and holds background depth,
a lookup of its request finds it unless the request has another record in use,
and the requeue and the final completion that find it give one unit of the
background depth back. -/
structure HoldsBgDepth (w : Throttle) (m : MetaId) : Prop where
  active : m ∈ w.ctx.activeMetas
  reserved : (w.ctx.metaPool m).bgDepthAccounted = true
  found : ∃ rq, (w.ctx.metaPool m).rq = some rq
    ∧ ((∀ n ∈ w.ctx.activeMetas, (w.ctx.metaPool n).rq = some rq → n = m) →
      w.ctx.findMetaLocked rq = some m)
  requeue : ∀ rq, w.ctx.findMetaLocked rq = some m →
    (w.step (.recordRequeue rq)).1.ctx.bgCurrentDepth + 1 = w.ctx.bgCurrentDepth
  complete : ∀ rq nrBytes nowNs, w.ctx.findMetaLocked rq = some m →
    w.finalCompletion rq nrBytes = true →
      (w.step (.recordComplete rq nrBytes nowNs)).1.ctx.bgCurrentDepth + 1
        = w.ctx.bgCurrentDepth

/-- A record in use that is marked does hold background depth. -/
theorem holdsBgDepth {w : Throttle} (h : machine.Reachable w) {m : MetaId}
    (hm : m ∈ w.ctx.activeMetas) (hbg : (w.ctx.metaPool m).bgDepthAccounted = true) :
    HoldsBgDepth w m := by
  have hacc := accounted_of_reachable h
  have hne : w.ctx.bgCurrentDepth ≠ 0 := counter_ne_zero hacc.books hm (k := .bgCurrentDepth) hbg
  have hdepth (op : ThrottleOp) : (w.step op).1.ctx.bgCurrentDepth
      = (w.ctx.books.make (w.move op)).ledger.balance .bgCurrentDepth :=
    congrArg (fun b : Books => b.ledger.balance .bgCurrentDepth) (step_books h op)
  have htest : ((w.ctx.books.ledger.record m).bgDepthAccounted).toNat = 1 := by
    show ((w.ctx.metaPool m).bgDepthAccounted).toNat = 1
    rw [hbg]
    rfl
  refine ⟨hm, hbg, ?_, ?_, ?_⟩
  · have hm' : m ∈ w.ctx.books.ledger.live := hm
    rw [hacc.books.live] at hm'
    obtain ⟨e, he, rfl⟩ := List.mem_map.mp hm'
    have hrq : (w.ctx.metaPool e.2).rq = some e.1 := hacc.books.keys e he
    refine ⟨e.1, hrq, fun honly => ?_⟩
    obtain ⟨n, hn⟩ := findMetaLocked_of_mem hacc.books hm hrq
    obtain ⟨hactive, hown⟩ := findMetaLocked_some hn
    rw [hn, honly n hactive hown]
  · intro rq hfind
    rw [hdepth]
    simp only [move, hfind]
    show w.ctx.bgCurrentDepth + 0 - ((w.ctx.books.ledger.record m).bgDepthAccounted).toNat + 1
      = w.ctx.bgCurrentDepth
    omega
  · intro rq nrBytes nowNs hfind hfinal
    rw [hdepth]
    simp only [move, hfind, hfinal, if_true]
    show w.ctx.bgCurrentDepth - ((w.ctx.books.ledger.record m).bgDepthAccounted).toNat + 1
      = w.ctx.bgCurrentDepth
    omega

/-- **A depth that is in use is held by some record.** -/
theorem exists_holdsBgDepth {w : Throttle} (h : machine.Reachable w)
    (hne : w.ctx.bgCurrentDepth ≠ 0) : ∃ m, HoldsBgDepth w m := by
  have hcount := (conserved_of_sound (accounted_of_reachable h).books).bgCurrentDepth
  have hpos : 0 < countAt w.ctx.activeMetas w.ctx.metaPool (·.bgDepthAccounted) := by
    rw [← hcount]
    exact Nat.pos_of_ne_zero hne
  obtain ⟨m, hm, hbg⟩ := List.countP_pos_iff.mp hpos
  exact ⟨m, holdsBgDepth h hm hbg⟩

/-- The targets of the three levels that throttle, for one queue. -/
structure TargetsOrdered (depth lightPct mediumPct heavyPct : ℕ) : Prop where
  heavy_le : targetDepthOf depth heavyPct ≤ targetDepthOf depth mediumPct
  medium_le : targetDepthOf depth mediumPct ≤ targetDepthOf depth lightPct

/-- Ratios in order give targets in order. -/
theorem targetsOrdered {l m k : ℕ} (h : RatiosOrdered l m k) (depth : ℕ) :
    TargetsOrdered depth l m k where
  heavy_le := targetDepthOf_mono h.medium.le depth
  medium_le := targetDepthOf_mono h.light.le depth

/-- **What makes a refusal for the depth releasable**, in the words of the
source. -/
structure DepthReleasable (w : Throttle) : Prop where
  installed : ∀ op a, (w.step op).2.installed = some a → a.level ≠ .no →
    1 ≤ a.targetDepth ∧ a.targetDepth ≤ a.queueMax
  inForce : w.ctx.control.actionValid = true → w.ctx.control.action.level ≠ .no →
    1 ≤ w.ctx.control.action.targetDepth
      ∧ w.ctx.control.action.targetDepth ≤ w.ctx.control.action.queueMax
  targets : ∀ depth, TargetsOrdered depth w.globals.config.lightPct
    w.globals.config.mediumPct w.globals.config.heavyPct
  pendingTargets : w.ctx.control.inferencePending = true → ∀ depth,
    TargetsOrdered depth w.ctx.pending.lightPct w.ctx.pending.mediumPct
      w.ctx.pending.heavyPct
  neverInvalid : ∀ f a depth, framePending w.ctx f = true → depth ≠ 0 →
    actionTarget w.ctx a depth ≠ none
  released : w.nonHpAllowed.2 = false → w.nonHpAllowed.1.ctx.gateReason = .depth →
    ∃ m, HoldsBgDepth w m

/-- A section that puts an action in force leaves it there. -/
theorem installed_inForce {w : Throttle} {op : ThrottleOp} {a : ThrottleAction}
    (h : (w.step op).2.installed = some a) :
    (w.step op).1.ctx.control.actionValid = true ∧ (w.step op).1.ctx.control.action = a := by
  obtain ⟨i, predicted, f, -, hf⟩ := installs_of_step h
  rw [hf.ctx]
  exact ⟨rfl, rfl⟩

/-- **A refusal for the depth can always be released.** In every reachable state
the target of an action is at least one and at most the queue, whichever level
throttles; the targets of the levels are in order; no decision is abandoned for
its ratio or its target; and while background requests are refused for the
depth, some record holds depth that its requeue or its completion gives back. -/
theorem depth_refusal_released {w : Throttle} (h : machine.Reachable w) :
    DepthReleasable w := by
  obtain ⟨hk, hV⟩ := gated_of_reachable h
  refine ⟨?_, hV.target, targetsOrdered hk, fun hp => targetsOrdered (hV.ratios hp), ?_, ?_⟩
  · intro op a hi hl
    obtain ⟨hvalid, haction⟩ := installed_inForce hi
    rw [← haction] at hl ⊢
    exact (gated_of_reachable (h.run [op])).2.target hvalid hl
  · intro f a depth hf hd hnone
    have hp : w.ctx.control.inferencePending = true := by
      simp only [framePending, Bool.and_eq_true] at hf
      exact hf.1.1.1.1
    unfold actionTarget at hnone
    split at hnone
    · exact absurd hnone (by simp)
    · rename_i hl
      obtain ⟨hne, hle⟩ := DecisionView.ratio_bounds (hV.ratios hp) hl
      have hratio : w.ctx.actionRatio a.level = w.ctx.decisions.ratio a.level := by
        cases a.level <;> rfl
      rw [hratio, if_neg (not_or.mpr ⟨hne, hle.not_gt⟩)] at hnone
      have hpos := targetDepthOf_pos hd hne
      rw [if_neg (Nat.one_le_iff_ne_zero.mp hpos)] at hnone
      exact absurd hnone (by simp)
  · intro hrefuse hreason
    have hdepth : w.ctx.decisions.depthCanRun = false := by
      unfold nonHpAllowed at hrefuse hreason
      split at hrefuse
      · exact absurd hrefuse Bool.true_eq_false.mp
      · rename_i hc
        rw [if_neg hc, withCtx_ctx] at hreason
        rw [Bool.or_eq_true, not_or, decide_eq_true_eq] at hc
        have hgate : gateReasonOf w.ctx w.globals = .depth := by
          rw [← hreason]
          exact (congrArg DecisionView.gateReason (decisions_closeGate _ _)).symm
        rcases gateReasonOf_cases hc.2 with ⟨hinf, -⟩ | ⟨-, hdepth⟩
        · exact absurd (hinf.symm.trans hgate) (by decide)
        · exact hdepth
    obtain ⟨-, hvalid, hl, hle⟩ := DecisionView.depthCanRun_eq_false.mp hdepth
    have htarget : 1 ≤ w.ctx.control.action.targetDepth := (hV.target hvalid hl).1
    exact exists_holdsBgDepth h (Nat.one_le_iff_ne_zero.mp (htarget.trans hle))

/-- A queue of one request that throttles at half of it, and has dispatched a
background request. -/
def fullQueue : Throttle :=
  machine.run (attach 2 [.setThrottleEnabled true, .setQueueDepth 1])
    (slowRequests ++
      [.inferenceWorkBegin, .inferenceWorkFinish 0 none,
        .prepareRequest 1 { Request.zero with useSched := true },
        .classifyRequest 1 idleTask 2000000, .accountDispatch 1 .backgroundBaseline 2000001])

/-- It refuses the next one for the depth, and the first holds it. -/
theorem depth_refusal_released_full :
    fullQueue.nonHpAllowed.2 = false ∧ fullQueue.nonHpAllowed.1.ctx.gateReason = .depth
      ∧ DepthReleasable fullQueue :=
  ⟨by decide +kernel, by decide +kernel, depth_refusal_released (reachable_attach _ _)⟩

end Throttle
