import SmartIo.ModelThread
import SmartIo.ThrottleDecisions

/-!
# All queues, the model thread and the switch

The contexts of all queues share the static variables of the module, the model
thread, and the list `active_throttle_queues` under its mutex. Here any number of
them run side by side: every step is one lock section of one of them, one step of
the model thread, or one step of `smart_io_throttle_set_enabled` or of an exit.

Some calls look at the switch before they take the lock of the context. What they
saw is an argument of their section, and may be out of date by then. The timers
and the work items may fire at any time, so arming and cancelling them are no
steps.
-/

/-! ## Data -/

/-- How far a call of `smart_io_throttle_set_enabled` is: it found the switch at the
other value, cleared it, resets the contexts under the mutex, or has reset them. -/
inductive EnableStage where
  | called
  | cleared
  | walking (todo : List CtxId)
  | reset
deriving DecidableEq, Repr

/-- A call of `smart_io_throttle_set_enabled`. -/
structure EnableCall where
  enabled : Bool
  stage : EnableStage
deriving DecidableEq, Repr

/-- The module with its queues. -/
structure ThrottleSystem where
  globals : Globals
  /-- The context of a queue, with its requests; it reads the static variables of the
  module, not those stored here. -/
  queue : CtxId → Throttle
  /-- `active_throttle_queues`. -/
  active : List CtxId
  thread : ModelThread
  /-- The one call there is. -/
  call : Option EnableCall

/-- The steps of the module. -/
inductive SystemOp where
  | queueInit (ctx : CtxId) (capacity : ℕ)
  /-- A lock section of a context that reads the switch under the lock, if at all. -/
  | lockSection (ctx : CtxId) (op : ThrottleOp)
  | dispatchModelIfNeeded (ctx : CtxId) (enabled : Bool)
  | nonHpAllowed (ctx : CtxId) (enabled : Bool)
  | modelThreadRun (nowNs : ℕ)
  | queueExit (ctx : CtxId)
  /-- The section of an exit under the mutex. -/
  | setDying (ctx : CtxId)
  /-- A step of the model thread that is about no lock of a context. -/
  | modelThread (op : ModelThreadOp)
  | setEnabled (enabled : Bool)
  | clearEnabled
  | lockQueues
  | resetContext (nowNs : ℕ)
  | unlockQueues
  | returnEnabled
  | configure (k : ConfigOp)
deriving DecidableEq, Repr

/-- What a step answers: the value a call of `smart_io_throttle_set_enabled` that
returns was given, the action that is put in force, and what
`smart_io_throttle_non_hp_allowed` says. -/
structure SystemEffects where
  returned : Option Bool := none
  installed : Option ThrottleAction := none
  allowed : Option Bool := none
deriving DecidableEq, Repr

/-- The sections that `lockSection` stands for. -/
def ThrottleOp.ofContext : ThrottleOp → Bool
  | .nonHpAllowed | .dispatchModelIfNeeded _ | .modelThreadRun _ | .resetContext .. | .configure _
  | .setDying => false
  | _ => true

/-- The steps that `modelThread` stands for. -/
def ModelThreadOp.alone : ModelThreadOp → Bool
  | .queueInit _ | .submit _ | .queueExit _ | .unlist _ | .run => false
  | _ => true

namespace ThrottleSystem

/-- The module before the first queue is attached. -/
def initial : ThrottleSystem :=
  ⟨.initial, fun _ => Throttle.attach 0 [], [], .initial, none⟩

/-- A context under the static variables of the module. -/
def load (s : ThrottleSystem) (ctx : CtxId) : Throttle :=
  { s.queue ctx with globals := s.globals }

/-- A context for a caller that saw the switch before. -/
def loadSeen (s : ThrottleSystem) (ctx : CtxId) (enabled : Bool) : Throttle :=
  { s.queue ctx with globals := { s.globals with throttleEnabled := enabled } }

/-- A context after a section. -/
def store (s : ThrottleSystem) (ctx : CtxId) (w : Throttle) : ThrottleSystem :=
  { s with queue := Function.update s.queue ctx w }

/-- Whether the mutex of the list is held. -/
def walking (s : ThrottleSystem) : Bool :=
  match s.call with
  | some ⟨_, .walking _⟩ => true
  | _ => false

/-- A step of the model thread. -/
def threaded (s : ThrottleSystem) (op : ModelThreadOp) : ThrottleSystem :=
  { s with thread := s.thread.step op }

/-- Whether the block layer dispatches for a queue. -/
def live (s : ThrottleSystem) (ctx : CtxId) : Bool := decide (s.thread.phase ctx = .live)

/-- `smart_io_throttle_dispatch_model_if_needed`. -/
def dispatchModelIfNeeded (s : ThrottleSystem) (ctx : CtxId) (enabled : Bool) : ThrottleSystem :=
  let w := s.loadSeen ctx enabled
  let stored := s.store ctx (w.dispatchModelIfNeeded s.thread.free).1
  if enabled && w.ctx.modelDispatchNeededLocked then stored.threaded (.submit ctx) else stored

/-- One step. -/
def step (s : ThrottleSystem) : SystemOp → ThrottleSystem × SystemEffects
  | .queueInit ctx capacity =>
    if s.thread.phase ctx = .absent ∧ s.walking = false then
      (({ s with active := s.active ++ [ctx] }.store ctx (.attach capacity [])).threaded
        (.queueInit ctx), {})
    else (s, {})
  | .lockSection ctx op =>
    if s.thread.phase ctx ≠ .absent ∧ op.ofContext = true then
      (s.store ctx ((s.load ctx).step op).1, { installed := ((s.load ctx).step op).2.installed })
    else (s, {})
  | .dispatchModelIfNeeded ctx enabled =>
    if s.live ctx then (s.dispatchModelIfNeeded ctx enabled, {}) else (s, {})
  | .nonHpAllowed ctx enabled =>
    if s.live ctx then
      (s.store ctx (s.loadSeen ctx enabled).nonHpAllowed.1,
        { allowed := some (s.loadSeen ctx enabled).nonHpAllowed.2 })
    else (s, {})
  | .modelThreadRun nowNs =>
    match s.thread.pc with
    | .started ctx =>
      ((s.store ctx ((s.load ctx).step (.modelThreadRun nowNs)).1).threaded .run, {})
    | _ => (s, {})
  | .queueExit ctx => (s.threaded (.queueExit ctx), {})
  | .setDying ctx =>
    if s.thread.phase ctx = .exiting ∧ s.walking = false then
      (({ s with active := s.active.erase ctx }.store ctx ((s.load ctx).step .setDying).1).threaded
        (.unlist ctx), {})
    else (s, {})
  | .modelThread op => if op.alone then (s.threaded op, {}) else (s, {})
  | .setEnabled enabled =>
    if s.call ≠ none then (s, {})
    else if enabled = s.globals.throttleEnabled then (s, { returned := some enabled })
    else ({ s with call := some ⟨enabled, .called⟩ }, {})
  | .clearEnabled =>
    match s.call with
    | some ⟨enabled, .called⟩ =>
      ({ s with
        globals := { s.globals with throttleEnabled := false }
        call := some ⟨enabled, .cleared⟩ }, {})
    | _ => (s, {})
  | .lockQueues =>
    match s.call with
    | some ⟨enabled, .cleared⟩ => ({ s with call := some ⟨enabled, .walking s.active⟩ }, {})
    | _ => (s, {})
  | .resetContext nowNs =>
    match s.call with
    | some ⟨enabled, .walking (ctx :: todo)⟩ =>
      ({ s with call := some ⟨enabled, .walking todo⟩ }.store ctx
        ((s.load ctx).step (.resetContext enabled nowNs)).1, {})
    | _ => (s, {})
  | .unlockQueues =>
    match s.call with
    | some ⟨enabled, .walking []⟩ => ({ s with call := some ⟨enabled, .reset⟩ }, {})
    | _ => (s, {})
  | .returnEnabled =>
    match s.call with
    | some ⟨enabled, .reset⟩ =>
      ({ s with
        globals := { s.globals with throttleEnabled := enabled || s.globals.throttleEnabled }
        call := none }, { returned := some enabled })
    | _ => (s, {})
  | .configure k =>
    match k with
    | .setThrottleEnabled _ => (s, {})
    | k => ({ s with globals := s.globals.configure k }, {})

/-- **The module**, from the moment it is loaded. -/
def machine : StepMachine ThrottleSystem SystemOp SystemEffects where
  init s := s = initial
  step := step

/-! ## The model thread among the queues -/

/-- The step of the model thread that a step of the module is, if it is one. -/
def threadOp (s : ThrottleSystem) : SystemOp → Option ModelThreadOp
  | .queueInit ctx _ =>
    if s.thread.phase ctx = .absent ∧ s.walking = false then some (.queueInit ctx) else none
  | .dispatchModelIfNeeded ctx enabled =>
    if s.live ctx && (enabled && (s.loadSeen ctx enabled).ctx.modelDispatchNeededLocked) then
      some (.submit ctx)
    else none
  | .modelThreadRun _ =>
    match s.thread.pc with
    | .started _ => some .run
    | _ => none
  | .queueExit ctx => some (.queueExit ctx)
  | .setDying ctx =>
    if s.thread.phase ctx = .exiting ∧ s.walking = false then some (.unlist ctx) else none
  | .modelThread op => if op.alone then some op else none
  | _ => none

/-- **The module simulates the model thread**: each of its steps is one step of the
thread, or none. -/
theorem thread_step (s : ThrottleSystem) (op : SystemOp) :
    (s.step op).1.thread = (s.threadOp op).elim s.thread s.thread.step := by
  cases op with
  | queueInit ctx capacity =>
    simp only [step, threadOp]
    split <;> rfl
  | lockSection ctx op =>
    simp only [step, threadOp]
    split <;> rfl
  | dispatchModelIfNeeded ctx enabled =>
    simp only [step, threadOp]
    by_cases hlive : s.live ctx = true
    · rw [if_pos hlive, hlive, Bool.true_and]
      unfold dispatchModelIfNeeded
      dsimp only
      split <;> rfl
    · rw [if_neg hlive, Bool.eq_false_iff.mpr hlive]
      rfl
  | nonHpAllowed ctx enabled =>
    simp only [step, threadOp]
    split <;> rfl
  | modelThreadRun nowNs =>
    simp only [step, threadOp]
    split <;> rfl
  | queueExit ctx => rfl
  | setDying ctx =>
    simp only [step, threadOp]
    split <;> rfl
  | modelThread op =>
    simp only [step, threadOp]
    split <;> rfl
  | setEnabled enabled =>
    simp only [step, threadOp]
    split
    · rfl
    · split <;> rfl
  | clearEnabled =>
    simp only [step, threadOp]
    split <;> rfl
  | lockQueues =>
    simp only [step, threadOp]
    split <;> rfl
  | resetContext nowNs =>
    simp only [step, threadOp]
    split <;> rfl
  | unlockQueues =>
    simp only [step, threadOp]
    split <;> rfl
  | returnEnabled =>
    simp only [step, threadOp]
    split <;> rfl
  | configure k =>
    simp only [step, threadOp]
    split <;> rfl

/-- What a step tells of the model thread. -/
def threadEvents (s : ThrottleSystem) (op : SystemOp) : List ModelThread.Event :=
  (s.threadOp op).elim [] s.thread.events

/-- **The slot protocol holds among any number of queues**: in every run one context at
most is submitted or runs, no submission runs twice, and a context whose exit is done
waiting is out of the slot and out of the thread for good. -/
theorem model_thread_protocol (ops : List SystemOp) :
    ModelThread.Kept (machine.chronicle threadEvents initial ops)
      (machine.run initial ops).thread := by
  have htold := StepMachine.chronicle_invariant (M := machine) (f := threadEvents)
    (I := fun es s => ModelThread.Told es s.thread) (fun es s op h => ?_)
    (show ModelThread.Told [] initial.thread from ModelThread.told_initial) ops
  · exact htold.kept
  · have hthread : (machine.next s op).thread = (s.threadOp op).elim s.thread s.thread.step :=
      s.thread_step op
    rw [hthread]
    unfold threadEvents
    cases s.threadOp op with
    | none =>
      rw [Option.elim_none, Option.elim_none, List.append_nil]
      exact h
    | some mop => exact h.step mop

end ThrottleSystem
