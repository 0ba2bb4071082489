import SmartIo.ThrottleSystem

/-!
# Disabling takes effect

`smart_io_throttle_set_enabled(false)` clears the switch first and resets every
context afterwards, each under its own lock. A section that starts an inference
looks at the switch under that lock, so it either runs before the reset, which
ends what it started, or after it, and then it sees the switch cleared. Nothing
else puts a context that rests to work: a timer, a work item or the model thread
that comes late finds no decision pending (`Turn.resting`).

So a context that is on the list rests unless the switch is set or a call that
clears it has yet to reset the context (`AwaitsReset`). A context off the list is
dying, and nothing is put in force there either.
-/

/-! ## One context -/

/-- **A context rests**: nothing is throttled, awaited, in force or held back. -/
structure DecisionView.Resting (V : DecisionView) : Prop where
  throttleActive : V.throttleActive = false
  inferencePending : V.inferencePending = false
  actionValid : V.actionValid = false
  gateBlocked : V.gateBlocked = false

namespace DecisionView

variable {V V' : DecisionView}

theorem resting_idle (V : DecisionView) : V.idle.Resting := ⟨rfl, rfl, rfl, rfl⟩

theorem Resting.depthCanRun (h : V.Resting) : V.depthCanRun = true := by
  unfold DecisionView.depthCanRun
  rw [h.throttleActive]
  rfl

theorem Resting.reopen (h : V.Resting) : V.reopen.Resting := by
  unfold DecisionView.reopen
  split
  · exact ⟨h.throttleActive, h.inferencePending, h.actionValid, rfl⟩
  · exact h

end DecisionView

/-- **While the switch is off, a context that rests stays at rest.** -/
theorem Turn.resting {g : Globals} (hg : g.throttleEnabled = false) {V V' : DecisionView}
    {es : List DecisionEvent} (h : Turn g V es V') (hV : V.Resting) : V'.Resting := by
  cases h with
  | reserve n hn => exact ⟨hV.throttleActive, hV.inferencePending, hV.actionValid, hV.gateBlocked⟩
  | release n hn =>
    refine DecisionView.Resting.reopen ?_
    exact ⟨hV.throttleActive, hV.inferencePending, hV.actionValid, hV.gateBlocked⟩
  | fallback => exact V.resting_idle
  | sample x hx => exact ⟨hV.throttleActive, hV.inferencePending, hV.actionValid, hV.gateBlocked⟩
  | newSession => exact ⟨hV.throttleActive, hV.inferencePending, hV.actionValid, hV.gateBlocked⟩
  | close reason hreason =>
    rcases hreason with ⟨-, hpending⟩ | ⟨-, hdepth⟩
    · exact Bool.noConfusion (hpending.symm.trans hV.inferencePending)
    · exact Bool.noConfusion (hdepth.symm.trans hV.depthCanRun)
  | configure hpending =>
    exact ⟨hV.throttleActive, hV.inferencePending, hV.actionValid, hV.gateBlocked⟩
  | start newControl henabled hdying hpending hsource =>
    exact Bool.noConfusion (henabled.symm.trans hg)
  | startWith newControl s henabled hdying hpending hsource =>
    exact Bool.noConfusion (henabled.symm.trans hg)
  | takeState s hpending hsource =>
    exact Bool.noConfusion (hpending.symm.trans hV.inferencePending)
  | timeOut hpending => exact Bool.noConfusion (hpending.symm.trans hV.inferencePending)
  | install f predicted computed a hcomputed hawaits hdying hqueue htarget =>
    unfold DecisionView.awaits at hawaits
    rw [hV.inferencePending] at hawaits
    exact Bool.noConfusion hawaits
  | die => exact ⟨hV.throttleActive, hV.inferencePending, hV.actionValid, hV.gateBlocked⟩

/-- A dying context stays dying. -/
theorem Turn.dying {g : Globals} {V V' : DecisionView} {es : List DecisionEvent}
    (h : Turn g V es V') (hV : V.dying = true) : V'.dying = true := by
  cases h with
  | release n hn =>
    unfold DecisionView.reopen
    split <;> exact hV
  | die => rfl
  | _ => exact hV

namespace ThrottleCtx

/-- A context at rest. -/
def Resting (c : ThrottleCtx) : Prop := c.decisions.Resting

theorem Resting.turns {g : Globals} (hg : g.throttleEnabled = false) {c c' : ThrottleCtx}
    {es : List DecisionEvent} (h : c.Resting) (ht : Turns g c es c') : c'.Resting :=
  ht.keeps_state (I := DecisionView.Resting) (fun _ _ _ hmove => hmove.resting hg) h

theorem dying_turns {g : Globals} {c c' : ThrottleCtx} {es : List DecisionEvent}
    (h : c.dying = true) (ht : Turns g c es c') : c'.dying = true :=
  ht.keeps_state (I := fun V => V.dying = true) (fun _ _ _ hmove => hmove.dying) h

end ThrottleCtx

namespace Throttle

variable {w : Throttle}

/-- **A reset brings a context to rest.** -/
theorem resting_resetContext (w : Throttle) (newSession : Bool) (nowNs : ℕ) :
    (w.step (.resetContext newSession nowNs)).1.ctx.Resting := ⟨rfl, rfl, rfl, rfl⟩

/-- A context at rest lets every request pass, whatever its caller saw. -/
theorem nonHpAllowed_of_resting (h : w.ctx.Resting) : w.nonHpAllowed.2 = true := by
  have hreason : gateReasonOf w.ctx w.globals = .none := by
    by_contra hreason
    rcases gateReasonOf_cases hreason with ⟨-, hpending⟩ | ⟨-, hdepth⟩
    · exact Bool.noConfusion (hpending.symm.trans h.inferencePending)
    · exact Bool.noConfusion (hdepth.symm.trans h.depthCanRun)
  unfold nonHpAllowed
  rw [if_pos (by rw [hreason, decide_eq_true rfl, Bool.or_true])]

/-- **No action is put in force** in a context that rests or is dying. -/
theorem installed_eq_none (h : w.ctx.Resting ∨ w.ctx.dying = true) (op : ThrottleOp) :
    (w.step op).2.installed = none := by
  cases hi : (w.step op).2.installed with
  | none => rfl
  | some a =>
    obtain ⟨i, predicted, f, -, hf⟩ := installs_of_step hi
    rcases h with hrest | hdying
    · have hawaits := hf.awaited
      unfold framePending at hawaits
      rw [show w.ctx.control.inferencePending = false from hrest.inferencePending] at hawaits
      exact Bool.noConfusion hawaits
    · exact Bool.noConfusion (hdying.symm.trans hf.alive)

end Throttle

/-! ## Phases of a context -/

/-- Whether a context is on the list, once it is initialised. -/
def CtxPhase.listed : CtxPhase → Option Bool
  | .absent => none
  | .live | .exiting => some true
  | _ => some false

/-- **Only two steps are about the list**: the others leave every context on it or off
it. -/
theorem ModelThread.listed_step (m : ModelThread) {op : ModelThreadOp}
    (hinit : ∀ c, op ≠ .queueInit c) (hunlist : ∀ c, op ≠ .unlist c) (c : CtxId) :
    ((m.step op).phase c).listed = (m.phase c).listed := by
  rcases m.phase_step op with hsame | ⟨ctx, q, hnext, hset⟩
  · rw [hsame]
  · rw [hset]
    by_cases hctx : c = ctx
    · rw [hctx, Function.update_self]
      generalize m.phase ctx = p at hnext
      cases hnext with
      | queueInit => exact absurd rfl (hinit ctx)
      | unlist => exact absurd rfl (hunlist ctx)
      | _ => rfl
    · rw [Function.update_of_ne hctx]

namespace ThrottleSystem

variable {s : ThrottleSystem}

/-- **A context may be at work**: the switch is set, or a call that clears it has yet to
reset the context. -/
def AwaitsReset (s : ThrottleSystem) (c : CtxId) : Prop :=
  match s.call with
  | some ⟨false, .called⟩ | some ⟨false, .cleared⟩ => True
  | some ⟨false, .walking todo⟩ => c ∈ todo
  | _ => s.globals.throttleEnabled = true

/-- **The switch and the contexts.** -/
structure Switched (s : ThrottleSystem) : Prop where
  cleared : ∀ {enabled stage}, s.call = some ⟨enabled, stage⟩ →
    enabled = true ∨ stage ≠ .called → s.globals.throttleEnabled = false
  nodup : s.active.Nodup
  listed : ∀ c, c ∈ s.active ↔ (s.thread.phase c).listed = some true
  resting : ∀ c ∈ s.active, ¬ s.AwaitsReset c → (s.queue c).ctx.Resting
  dying : ∀ c, (s.thread.phase c).listed = some false → (s.queue c).ctx.dying = true

theorem switched_initial : Switched initial where
  cleared := fun h => absurd h.symm (Option.some_ne_none _)
  nodup := List.nodup_nil
  listed := fun _ => iff_of_false List.not_mem_nil (Option.some_ne_none true ∘ Eq.symm)
  resting := fun _ hc => absurd hc List.not_mem_nil
  dying := fun _ h => absurd h.symm (Option.some_ne_none false)

/-- A context that awaits no reset is read with the switch cleared. -/
theorem Switched.disabled (h : Switched s) {c : CtxId} (hc : ¬ s.AwaitsReset c) :
    s.globals.throttleEnabled = false := by
  unfold AwaitsReset at hc
  split at hc
  · exact absurd trivial hc
  · exact absurd trivial hc
  · next heq => exact h.cleared heq (Or.inr EnableStage.noConfusion)
  · exact Bool.eq_false_iff.mpr hc

/-- A section of a context is a chain of moves. -/
theorem Switched.stored (h : Switched s) {c : CtxId} {w : Throttle} {es : List DecisionEvent}
    (ht : Turns s.globals (s.queue c).ctx es w.ctx) : Switched (s.store c w) where
  cleared := h.cleared
  nodup := h.nodup
  listed := h.listed
  resting := by
    intro d hd hawaits
    show (Function.update s.queue c w d).ctx.Resting
    by_cases hdc : d = c
    · subst hdc
      rw [Function.update_self]
      exact (h.resting d hd hawaits).turns (h.disabled hawaits) ht
    · rw [Function.update_of_ne hdc]
      exact h.resting d hd hawaits
  dying := by
    intro d hd
    show (Function.update s.queue c w d).ctx.dying = true
    by_cases hdc : d = c
    · subst hdc
      rw [Function.update_self]
      exact ThrottleCtx.dying_turns (h.dying d hd) ht
    · rw [Function.update_of_ne hdc]
      exact h.dying d hd

/-- A step of the model thread that leaves the list alone. -/
theorem Switched.threaded (h : Switched s) {op : ModelThreadOp} (hinit : ∀ c, op ≠ .queueInit c)
    (hunlist : ∀ c, op ≠ .unlist c) : Switched (s.threaded op) where
  cleared := h.cleared
  nodup := h.nodup
  listed := by
    intro c
    show c ∈ s.active ↔ ((s.thread.step op).phase c).listed = some true
    rw [s.thread.listed_step hinit hunlist]
    exact h.listed c
  resting := h.resting
  dying := by
    intro c hc
    have hc' : ((s.thread.step op).phase c).listed = some false := hc
    rw [s.thread.listed_step hinit hunlist] at hc'
    exact h.dying c hc'

/-- **A call of `smart_io_throttle_set_enabled` goes on** without touching a context. -/
theorem Switched.called (h : Switched s) {g : Globals} {k : Option EnableCall}
    (hcleared : ∀ {enabled stage}, k = some ⟨enabled, stage⟩ →
      enabled = true ∨ stage ≠ .called → g.throttleEnabled = false)
    (hawaits : ∀ c ∈ s.active, s.AwaitsReset c →
      AwaitsReset { s with globals := g, call := k } c) :
    Switched { s with globals := g, call := k } where
  cleared := hcleared
  nodup := h.nodup
  listed := h.listed
  resting := fun c hc hnot => h.resting c hc fun haw => hnot (hawaits c hc haw)
  dying := h.dying

/-- A queue is attached. -/
theorem Switched.queueInit (h : Switched s) {c : CtxId} (hc : s.thread.phase c = .absent)
    (capacity : ℕ) :
    Switched (({ s with active := s.active ++ [c] }.store c (.attach capacity [])).threaded
      (.queueInit c)) := by
  have hphase : (s.thread.step (.queueInit c)).phase = Function.update s.thread.phase c .live := by
    simp only [ModelThread.step]
    rw [if_pos hc]
    rfl
  have hnew : c ∉ s.active := by
    rw [h.listed c, hc]
    exact (Option.some_ne_none true).symm
  refine ⟨h.cleared, ?_, fun d => ?_, fun d hd hawaits => ?_, fun d hd => ?_⟩
  · exact List.nodup_append.mpr ⟨h.nodup, List.nodup_singleton c, fun x hx y hy hxy => hnew
      (List.mem_singleton.mp hy ▸ hxy ▸ hx)⟩
  · show d ∈ s.active ++ [c] ↔ ((s.thread.step (.queueInit c)).phase d).listed = some true
    rw [hphase, List.mem_append, List.mem_singleton]
    by_cases hdc : d = c
    · rw [hdc, Function.update_self]
      exact iff_of_true (Or.inr rfl) rfl
    · rw [Function.update_of_ne hdc, or_iff_left hdc]
      exact h.listed d
  · show (Function.update s.queue c _ d).ctx.Resting
    by_cases hdc : d = c
    · rw [hdc, Function.update_self]
      exact ⟨rfl, rfl, rfl, rfl⟩
    · rw [Function.update_of_ne hdc]
      have hd' : d ∈ s.active ++ [c] := hd
      rw [List.mem_append, List.mem_singleton, or_iff_left hdc] at hd'
      exact h.resting d hd' hawaits
  · have hd' : ((s.thread.step (.queueInit c)).phase d).listed = some false := hd
    rw [hphase] at hd'
    show (Function.update s.queue c _ d).ctx.dying = true
    by_cases hdc : d = c
    · rw [hdc, Function.update_self] at hd'
      exact Bool.noConfusion (Option.some.inj hd')
    · rw [Function.update_of_ne hdc] at hd' ⊢
      exact h.dying d hd'

/-- A context is taken off the list as it is marked. -/
theorem Switched.setDying (h : Switched s) {c : CtxId} (hc : s.thread.phase c = .exiting) :
    Switched (({ s with active := s.active.erase c }.store c
      ((s.load c).step .setDying).1).threaded (.unlist c)) := by
  have hphase : (s.thread.step (.unlist c)).phase
      = Function.update s.thread.phase c .unlisted := by
    simp only [ModelThread.step]
    rw [if_pos hc]
    rfl
  refine ⟨h.cleared, h.nodup.erase c, fun d => ?_, fun d hd hawaits => ?_, fun d hd => ?_⟩
  · show d ∈ s.active.erase c ↔ ((s.thread.step (.unlist c)).phase d).listed = some true
    rw [hphase, h.nodup.mem_erase_iff]
    by_cases hdc : d = c
    · rw [hdc, Function.update_self]
      exact iff_of_false (fun hand => hand.1 rfl) fun heq => Bool.noConfusion (Option.some.inj heq)
    · rw [Function.update_of_ne hdc, and_iff_right hdc]
      exact h.listed d
  · obtain ⟨hdc, hd⟩ := h.nodup.mem_erase_iff.mp hd
    show (Function.update s.queue c _ d).ctx.Resting
    rw [Function.update_of_ne hdc]
    exact h.resting d hd hawaits
  · have hd' : ((s.thread.step (.unlist c)).phase d).listed = some false := hd
    rw [hphase] at hd'
    show (Function.update s.queue c _ d).ctx.dying = true
    by_cases hdc : d = c
    · rw [hdc, Function.update_self]
      rfl
    · rw [Function.update_of_ne hdc] at hd' ⊢
      exact h.dying d hd'

/-- **The walk resets a context.** -/
theorem Switched.reset (h : Switched s) {enabled : Bool} {c : CtxId} {todo : List CtxId}
    (hcall : s.call = some ⟨enabled, .walking (c :: todo)⟩) (nowNs : ℕ) :
    Switched ({ s with call := some ⟨enabled, .walking todo⟩ }.store c
      ((s.load c).step (.resetContext enabled nowNs)).1) := by
  have hoff := h.cleared hcall (Or.inr EnableStage.noConfusion)
  have hdying : (s.queue c).ctx.dying = true →
      ((s.load c).step (.resetContext enabled nowNs)).1.ctx.dying = true := fun hd =>
    ThrottleCtx.dying_turns (g := s.globals) hd
      (Throttle.untimed_resetContext s.globals (s.load c) enabled nowNs).turns
  refine ⟨fun _ _ => hoff, h.nodup, h.listed, fun d hd hawaits => ?_, fun d hd => ?_⟩
  · show (Function.update s.queue c _ d).ctx.Resting
    by_cases hdc : d = c
    · rw [hdc, Function.update_self]
      exact Throttle.resting_resetContext _ _ _
    · rw [Function.update_of_ne hdc]
      refine h.resting d hd fun hbefore => hawaits ?_
      unfold AwaitsReset at hbefore
      rw [hcall] at hbefore
      cases enabled with
      | false => exact (List.mem_cons.mp hbefore).resolve_left hdc
      | true => exact hbefore
  · show (Function.update s.queue c _ d).ctx.dying = true
    by_cases hdc : d = c
    · rw [hdc, Function.update_self]
      exact hdying (hdc ▸ h.dying d hd)
    · rw [Function.update_of_ne hdc]
      exact h.dying d hd

/-- A call begins, and finds the switch at the other value. -/
theorem Switched.setEnabled (h : Switched s) {enabled : Bool} (hcall : s.call = none)
    (hne : enabled ≠ s.globals.throttleEnabled) :
    Switched { s with call := some ⟨enabled, .called⟩ } := by
  refine h.called (g := s.globals) ?_ fun c hc hawaits => ?_
  · rintro enabled' stage heq hor
    obtain ⟨rfl, rfl⟩ := EnableCall.mk.inj (Option.some.inj heq)
    rcases hor with rfl | hstage
    · exact Bool.eq_false_iff.mpr (Ne.symm hne)
    · exact absurd rfl hstage
  · unfold AwaitsReset at hawaits
    rw [hcall] at hawaits
    have hon : s.globals.throttleEnabled = true := hawaits
    cases enabled with
    | false => exact trivial
    | true => exact absurd hon.symm hne

/-- A call moves on past the store that clears the switch. -/
theorem Switched.moveOn (h : Switched s) {enabled : Bool} {stage stage' : EnableStage}
    (hcall : s.call = some ⟨enabled, stage⟩) {g : Globals} (hoff : g.throttleEnabled = false)
    (hawaits : ∀ c ∈ s.active, s.AwaitsReset c →
      enabled = false → AwaitsReset { s with globals := g, call := some ⟨false, stage'⟩ } c) :
    Switched { s with globals := g, call := some ⟨enabled, stage'⟩ } := by
  refine h.called (fun _ _ => hoff) fun c hc haw => ?_
  cases enabled with
  | false => exact hawaits c hc haw rfl
  | true =>
    unfold AwaitsReset at haw
    rw [hcall] at haw
    exact Bool.noConfusion ((h.cleared hcall (Or.inl rfl)).symm.trans haw)

/-- Configuration calls leave the switch alone. -/
theorem throttleEnabled_configure (g : Globals) {k : ConfigOp}
    (hk : ∀ b, k ≠ .setThrottleEnabled b) :
    (g.configure k).throttleEnabled = g.throttleEnabled := by
  cases k with
  | setThrottleEnabled b => exact absurd rfl (hk b)
  | setDevLatThreshold n =>
    simp only [Globals.configure, Globals.setDevLatThreshold]
    split
    · rfl
    · split <;> rfl
  | setBackgroundDeadlineMs n =>
    simp only [Globals.configure, Globals.setBackgroundDeadlineMs]
    split
    · rfl
    · split <;> rfl
  | setRatios l m n =>
    simp only [Globals.configure, Globals.setRatios]
    split <;> rfl
  | setActionSource n ok =>
    simp only [Globals.configure, Globals.setActionSource]
    split
    · rfl
    · split <;> rfl
    · rfl
  | setFixedAction l p =>
    simp only [Globals.configure, Globals.setFixedAction]
    split <;> rfl
  | _ => rfl

/-- **Every step keeps switch and contexts in order.** -/
theorem Switched.step (h : Switched s) (op : SystemOp) : Switched (s.step op).1 := by
  cases op with
  | queueInit ctx capacity =>
    simp only [ThrottleSystem.step]
    split
    · next hc => exact h.queueInit hc.1 capacity
    · exact h
  | lockSection ctx op =>
    simp only [ThrottleSystem.step]
    split
    · exact h.stored (Throttle.turns_step (s.load ctx) op)
    · exact h
  | dispatchModelIfNeeded ctx enabled =>
    simp only [ThrottleSystem.step]
    split
    · have hstored := h.stored (c := ctx)
        (Throttle.untimed_dispatchModelIfNeeded s.globals (s.loadSeen ctx enabled)
          s.thread.free).turns
      unfold dispatchModelIfNeeded
      dsimp only
      split
      · exact hstored.threaded (fun _ => ModelThreadOp.noConfusion)
          fun _ => ModelThreadOp.noConfusion
      · exact hstored
    · exact h
  | nonHpAllowed ctx enabled =>
    simp only [ThrottleSystem.step]
    split
    · exact h.stored (Throttle.untimed_nonHpAllowed s.globals (s.loadSeen ctx enabled)).turns
    · exact h
  | modelThreadRun nowNs =>
    simp only [ThrottleSystem.step]
    split
    · next ctx _ =>
      exact (h.stored (Throttle.turns_step (s.load ctx) (.modelThreadRun nowNs))).threaded
        (fun _ => ModelThreadOp.noConfusion) fun _ => ModelThreadOp.noConfusion
    · exact h
  | queueExit ctx =>
    exact h.threaded (fun _ => ModelThreadOp.noConfusion) fun _ => ModelThreadOp.noConfusion
  | setDying ctx =>
    simp only [ThrottleSystem.step]
    split
    · next hc => exact h.setDying hc.1
    · exact h
  | modelThread op =>
    simp only [ThrottleSystem.step]
    split
    · next halone =>
      refine h.threaded ?_ ?_
      · rintro c rfl
        exact Bool.noConfusion halone
      · rintro c rfl
        exact Bool.noConfusion halone
    · exact h
  | setEnabled enabled =>
    simp only [ThrottleSystem.step]
    split
    · exact h
    · next hcall =>
      split
      · exact h
      · next hne => exact h.setEnabled (not_not.mp hcall) hne
  | clearEnabled =>
    simp only [ThrottleSystem.step]
    split
    · next enabled hcall => exact h.moveOn hcall rfl fun c _ _ _ => trivial
    · exact h
  | lockQueues =>
    simp only [ThrottleSystem.step]
    split
    · next enabled hcall =>
      exact h.moveOn hcall (h.cleared hcall (Or.inr EnableStage.noConfusion)) fun c hc _ _ => hc
    · exact h
  | resetContext nowNs =>
    simp only [ThrottleSystem.step]
    split
    · next enabled ctx todo hcall => exact h.reset hcall nowNs
    · exact h
  | unlockQueues =>
    simp only [ThrottleSystem.step]
    split
    · next enabled hcall =>
      refine h.moveOn hcall (h.cleared hcall (Or.inr EnableStage.noConfusion)) ?_
      rintro c - hawaits rfl
      unfold AwaitsReset at hawaits
      rw [hcall] at hawaits
      exact absurd hawaits List.not_mem_nil
    · exact h
  | returnEnabled =>
    simp only [ThrottleSystem.step]
    split
    · next enabled hcall =>
      refine h.called (fun heq => absurd heq.symm (Option.some_ne_none _)) fun c _ hawaits => ?_
      unfold AwaitsReset at hawaits
      rw [hcall] at hawaits
      show (enabled || s.globals.throttleEnabled) = true
      have hon : s.globals.throttleEnabled = true := by
        cases enabled <;> exact hawaits
      rw [hon, Bool.or_true]
    · exact h
  | configure k =>
    have hkeep : (∀ b, k ≠ .setThrottleEnabled b) →
        Switched { s with globals := s.globals.configure k } := by
      intro hk
      refine h.called (k := s.call) (fun heq hor => ?_) fun c _ hawaits => ?_
      · rw [throttleEnabled_configure s.globals hk]
        exact h.cleared heq hor
      · unfold AwaitsReset at hawaits ⊢
        rw [throttleEnabled_configure s.globals hk]
        exact hawaits
    cases k with
    | setThrottleEnabled b => exact h
    | _ => exact hkeep fun _ => ConfigOp.noConfusion

/-! ## Runs -/

/-- **Disabling has taken effect**: on every registered context nothing is throttled,
awaited, in force or held back. -/
structure Disabled (s : ThrottleSystem) : Prop where
  throttleActive : ∀ c ∈ s.active, (s.queue c).ctx.control.throttleActive = false
  inferencePending : ∀ c ∈ s.active, (s.queue c).ctx.control.inferencePending = false
  actionValid : ∀ c ∈ s.active, (s.queue c).ctx.control.actionValid = false
  gateBlocked : ∀ c ∈ s.active, (s.queue c).ctx.gateBlocked = false

/-- The steps that answer something. -/
def answers : SystemOp → Bool
  | .lockSection .. | .nonHpAllowed .. | .setEnabled _ | .returnEnabled => true
  | _ => false

/-- The other steps answer nothing. -/
theorem effects_step (s : ThrottleSystem) {op : SystemOp} (hop : answers op = false) :
    (s.step op).2 = {} := by
  cases op with
  | lockSection ctx op => cases hop
  | nonHpAllowed ctx enabled => cases hop
  | setEnabled enabled => cases hop
  | returnEnabled => cases hop
  | queueInit ctx capacity =>
    simp only [step]
    split <;> rfl
  | dispatchModelIfNeeded ctx enabled =>
    simp only [step]
    split <;> rfl
  | modelThreadRun nowNs =>
    simp only [step]
    split <;> rfl
  | queueExit ctx => rfl
  | setDying ctx =>
    simp only [step]
    split <;> rfl
  | modelThread op =>
    simp only [step]
    split <;> rfl
  | clearEnabled =>
    simp only [step]
    split <;> rfl
  | lockQueues =>
    simp only [step]
    split <;> rfl
  | resetContext nowNs =>
    simp only [step]
    split <;> rfl
  | unlockQueues =>
    simp only [step]
    split <;> rfl
  | configure k =>
    simp only [step]
    split <;> rfl

/-- A step that puts no action in force and holds no request back. -/
def Lenient (s : ThrottleSystem) (op : SystemOp) : Prop :=
  (s.step op).2.installed = none ∧ (s.step op).2.allowed ≠ some false

/-- The switch is in order, and no call that clears it is under way. -/
structure Off (s : ThrottleSystem) : Prop where
  switched : Switched s
  returned : ∀ stage, s.call ≠ some ⟨false, stage⟩

/-- With the switch cleared, no context awaits a reset. -/
theorem Off.not_awaitsReset (h : Off s) (hoff : s.globals.throttleEnabled = false) (c : CtxId) :
    ¬ s.AwaitsReset c := by
  intro hawaits
  unfold AwaitsReset at hawaits
  split at hawaits
  · next hcall => exact h.returned _ hcall
  · next hcall => exact h.returned _ hcall
  · next hcall => exact h.returned _ hcall
  · exact Bool.noConfusion (hoff.symm.trans hawaits)

theorem Off.disabled (h : Off s) (hoff : s.globals.throttleEnabled = false) : Disabled s where
  throttleActive := fun c hc =>
    (h.switched.resting c hc (h.not_awaitsReset hoff c)).throttleActive
  inferencePending := fun c hc =>
    (h.switched.resting c hc (h.not_awaitsReset hoff c)).inferencePending
  actionValid := fun c hc => (h.switched.resting c hc (h.not_awaitsReset hoff c)).actionValid
  gateBlocked := fun c hc => (h.switched.resting c hc (h.not_awaitsReset hoff c)).gateBlocked

/-- **No step puts an action in force or holds a request back.** -/
theorem Off.lenient (h : Off s) (hoff : s.globals.throttleEnabled = false) (op : SystemOp) :
    Lenient s op := by
  have hquiet : ∀ {e : SystemEffects}, e.installed = none → e.allowed = none →
      e.installed = none ∧ e.allowed ≠ some false := by
    intro e hi ha
    exact ⟨hi, fun hsome => Option.some_ne_none false (hsome.symm.trans ha)⟩
  unfold Lenient
  cases op with
  | lockSection ctx op =>
    simp only [ThrottleSystem.step]
    split
    · next hc =>
      refine hquiet (Throttle.installed_eq_none ?_ op) rfl
      cases hlisted : (s.thread.phase ctx).listed with
      | none =>
        refine absurd ?_ hc.1
        cases hp : s.thread.phase ctx with
        | absent => rfl
        | _ =>
          rw [hp] at hlisted
          cases hlisted
      | some b =>
        cases b with
        | true =>
          exact Or.inl (h.switched.resting ctx ((h.switched.listed ctx).mpr hlisted)
            (h.not_awaitsReset hoff ctx))
        | false => exact Or.inr (h.switched.dying ctx hlisted)
    · exact hquiet rfl rfl
  | nonHpAllowed ctx enabled =>
    simp only [ThrottleSystem.step]
    split
    · next hlive =>
      have hphase : s.thread.phase ctx = .live := of_decide_eq_true hlive
      have hactive : ctx ∈ s.active := (h.switched.listed ctx).mpr (by rw [hphase]; rfl)
      have hallowed : (s.loadSeen ctx enabled).nonHpAllowed.2 = true :=
        Throttle.nonHpAllowed_of_resting
          (h.switched.resting ctx hactive (h.not_awaitsReset hoff ctx))
      refine ⟨rfl, ?_⟩
      rw [hallowed]
      exact fun heq => Bool.noConfusion (Option.some.inj heq)
    · exact hquiet rfl rfl
  | setEnabled enabled =>
    simp only [ThrottleSystem.step]
    split
    · exact hquiet rfl rfl
    · split <;> exact hquiet rfl rfl
  | returnEnabled =>
    simp only [ThrottleSystem.step]
    split <;> exact hquiet rfl rfl
  | _ =>
    rw [s.effects_step rfl]
    exact hquiet rfl rfl

/-- A call that clears the switch begins only while it is set. -/
theorem Off.step (h : Off s) (hoff : s.globals.throttleEnabled = false) (op : SystemOp) :
    Off (s.step op).1 where
  switched := h.switched.step op
  returned := by
    have hstage : ∀ {enabled : Bool} {stage stage'}, s.call = some ⟨enabled, stage⟩ →
        ∀ next, some (EnableCall.mk enabled stage') ≠ some ⟨false, next⟩ := by
      rintro enabled stage stage' hcall next heq
      obtain ⟨rfl, -⟩ := EnableCall.mk.inj (Option.some.inj heq)
      exact h.returned stage hcall
    cases op with
    | queueInit ctx capacity =>
      simp only [ThrottleSystem.step]
      split <;> exact h.returned
    | lockSection ctx op =>
      simp only [ThrottleSystem.step]
      split <;> exact h.returned
    | dispatchModelIfNeeded ctx enabled =>
      simp only [ThrottleSystem.step]
      split
      · unfold dispatchModelIfNeeded
        dsimp only
        split <;> exact h.returned
      · exact h.returned
    | nonHpAllowed ctx enabled =>
      simp only [ThrottleSystem.step]
      split <;> exact h.returned
    | modelThreadRun nowNs =>
      simp only [ThrottleSystem.step]
      split <;> exact h.returned
    | queueExit ctx => exact h.returned
    | setDying ctx =>
      simp only [ThrottleSystem.step]
      split <;> exact h.returned
    | modelThread op =>
      simp only [ThrottleSystem.step]
      split <;> exact h.returned
    | setEnabled enabled =>
      simp only [ThrottleSystem.step]
      split
      · exact h.returned
      · split
        · exact h.returned
        · next hne =>
          rintro stage heq
          obtain ⟨rfl, -⟩ := EnableCall.mk.inj (Option.some.inj heq)
          exact hne hoff.symm
    | clearEnabled =>
      simp only [ThrottleSystem.step]
      split
      · next hcall => exact hstage hcall
      · exact h.returned
    | lockQueues =>
      simp only [ThrottleSystem.step]
      split
      · next hcall => exact hstage hcall
      · exact h.returned
    | resetContext nowNs =>
      simp only [ThrottleSystem.step]
      split
      · next hcall => exact hstage hcall
      · exact h.returned
    | unlockQueues =>
      simp only [ThrottleSystem.step]
      split
      · next hcall => exact hstage hcall
      · exact h.returned
    | returnEnabled =>
      simp only [ThrottleSystem.step]
      split
      · exact fun _ => (Option.some_ne_none _).symm
      · exact h.returned
    | configure k =>
      simp only [ThrottleSystem.step]
      split <;> exact h.returned

/-- **When `smart_io_throttle_set_enabled(false)` returns**, the switch is off. -/
theorem Switched.off_of_returned (h : Switched s) {op : SystemOp}
    (hret : (s.step op).2.returned = some false) : Off (s.step op).1 := by
  have hno : ∀ {e : SystemEffects}, e.returned = none → e.returned ≠ some false := by
    intro e he hsome
    exact Option.some_ne_none false (hsome.symm.trans he)
  refine ⟨h.step op, ?_⟩
  cases op with
  | setEnabled enabled =>
    simp only [ThrottleSystem.step] at hret ⊢
    split
    · next hcall =>
      rw [if_pos hcall] at hret
      exact absurd hret (hno rfl)
    · next hcall =>
      rw [not_not] at hcall
      rw [if_neg (not_not.mpr hcall)] at hret
      split
      · intro stage heq
        exact Option.some_ne_none _ (heq.symm.trans hcall)
      · next hne =>
        rw [if_neg hne] at hret
        exact absurd hret (hno rfl)
  | returnEnabled =>
    simp only [ThrottleSystem.step] at hret ⊢
    split
    · exact fun _ => (Option.some_ne_none _).symm
    · next hcall =>
      split at hret
      · next heq => exact absurd heq (hcall _)
      · exact absurd hret (hno rfl)
  | lockSection ctx op =>
    simp only [ThrottleSystem.step] at hret
    split at hret <;> exact absurd hret (hno rfl)
  | nonHpAllowed ctx enabled =>
    simp only [ThrottleSystem.step] at hret
    split at hret <;> exact absurd hret (hno rfl)
  | _ =>
    rw [s.effects_step rfl] at hret
    exact absurd hret (hno rfl)

/-- While the switch stays cleared, everything stays at rest. -/
theorem Off.run (h : Off s) {ops : List SystemOp}
    (hoff : machine.StatesMeet (fun s => s.globals.throttleEnabled = false) s ops) :
    machine.StatesMeet Disabled s ops ∧ machine.StepsMeet Lenient s ops := by
  induction ops generalizing s with
  | nil => exact ⟨h.disabled hoff, trivial⟩
  | cons op ops ih =>
    obtain ⟨hnow, hrest⟩ := hoff
    obtain ⟨hstates, hsteps⟩ := ih (h.step hnow op) hrest
    exact ⟨⟨h.disabled hnow, hstates⟩, h.lenient hnow op, hsteps⟩

/-- **Disabling takes effect**: in every run, from the return of a call of
`smart_io_throttle_set_enabled(false)` and until the switch is set again, every
registered context rests, no action is put in force, and no request is held back. -/
theorem set_disabled_takes_effect {before : List SystemOp} {op : SystemOp}
    (hreturned : ((machine.run initial before).step op).2.returned = some false)
    {after : List SystemOp}
    (hoff : machine.StatesMeet (fun s => s.globals.throttleEnabled = false)
      (machine.next (machine.run initial before) op) after) :
    machine.StatesMeet Disabled (machine.next (machine.run initial before) op) after
      ∧ machine.StepsMeet Lenient (machine.next (machine.run initial before) op) after := by
  have hswitched : Switched (machine.run initial before) :=
    (StepMachine.Reachable.of_init (M := machine) rfl |>.run before).invariant
      (fun s hs => hs ▸ switched_initial) fun s o h => h.step o
  exact (hswitched.off_of_returned hreturned).run hoff

/-- Slow requests have started a decision, the gate is closed and the action is being
computed when throttling is disabled. Then the timer and its work come late, the
computation ends, and a caller that saw the switch set looks at the gate. -/
theorem set_disabled_takes_effect_late :
    let slow : List SystemOp := [1, 2, 3, 4, 5].flatMap fun k =>
      [.lockSection 0 (.recordIssue 0 ⟨0, 0, []⟩ k),
        .lockSection 0 (.recordComplete 0 0 (1000000 + k))]
    let throttled : List SystemOp := [.queueInit 0 2, .configure (.setQueueDepth 1),
      .setEnabled true, .clearEnabled, .lockQueues, .resetContext 1, .unlockQueues,
      .returnEnabled] ++ slow ++ [.lockSection 0 .inferenceWorkBegin, .nonHpAllowed 0 true]
    let before := throttled ++ [.setEnabled false, .clearEnabled, .lockQueues, .resetContext 2,
      .unlockQueues]
    let s := machine.next (machine.run initial before) .returnEnabled
    let after : List SystemOp := [.lockSection 0 .inferenceTimer, .lockSection 0 .timeoutWork,
      .lockSection 0 (.inferenceWorkFinish 0 (some 7)), .nonHpAllowed 0 true]
    ((machine.run initial throttled).queue 0).ctx.gateBlocked = true
      ∧ (s.queue 0).frames.length = 1
      ∧ machine.StatesMeet Disabled s after ∧ machine.StepsMeet Lenient s after := by
  intro slow throttled before s after
  refine ⟨by decide +kernel, by decide +kernel, set_disabled_takes_effect (by decide +kernel) ?_⟩
  simp only [StepMachine.StatesMeet, after]
  decide +kernel

end ThrottleSystem
