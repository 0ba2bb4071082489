import SmartIo.Chronicle
import Mathlib.Data.List.Induction
import Mathlib.Logic.Function.Basic

/-!
# The model thread and its slot

One kernel thread computes the inferences of all queues. A queue that wants one
puts its context into the slot `model_thread_ctx`, if nothing is there and the
thread is not busy; the thread takes the slot, notes the context as the running
one, runs it and clears the note. A context carries a completion that is done
while the context is idle: a submission takes it back, the end of a run, or the
cancelling of a submission, brings it. `smart_io_throttle_queue_exit` cancels and
then waits for it, and may free the context afterwards.

Every step here is one section under `model_thread_lock`, or one operation on a
completion. The note is cleared after the completion is brought, so between the
two an exit may pass while the note still names the context; what matters is
that the slot and the note are never both set (`Sound.apart`), which makes the
completion of a context due to one party at most.
-/

/-! ## Data -/

/-- A `struct smart_io_throttle_ctx`, by its address. A context that is freed keeps
its number. -/
abbrev CtxId := ℕ

/-- How far the life of a context is: `smart_io_throttle_queue_exit` marks it and takes
it off `active_throttle_queues`, cancels its submission, brings the completion for
that, and waits. -/
inductive CtxPhase where
  | absent
  | live
  | exiting
  | unlisted
  | cancelling
  | waiting
  | waited
deriving DecidableEq, Repr

/-- Where `smart_io_throttle_model_thread_main` is: it waits, saw the slot filled, took
a context, is past the first section of `smart_io_throttle_model_thread_run`, left
that function, brought the completion. -/
inductive ThreadPc where
  | stopped
  | waiting
  | awake
  | started (ctx : CtxId)
  | inferring (ctx : CtxId)
  | ran (ctx : CtxId)
  | completed (ctx : CtxId)
deriving DecidableEq, Repr

/-- The context the thread runs, or is about to. -/
def ThreadPc.inRun : ThreadPc → Option CtxId
  | .started ctx | .inferring ctx => some ctx
  | _ => none

/-- The context whose completion the thread is to bring. -/
def ThreadPc.owes : ThreadPc → Option CtxId
  | .started ctx | .inferring ctx | .ran ctx => some ctx
  | _ => none

/-- The context that the thread has not cleared from its note. -/
def ThreadPc.noted : ThreadPc → Option CtxId
  | .started ctx | .inferring ctx | .ran ctx | .completed ctx => some ctx
  | _ => none

/-- The static variables of the model thread, with the completions of the contexts. -/
structure ModelThread where
  /-- `model_thread_ctx`. -/
  slot : Option CtxId
  /-- `model_thread_running_ctx`. -/
  runningCtx : Option CtxId
  pc : ThreadPc
  /-- Whether `model_thread_task` is set. -/
  task : Bool
  /-- Whether a `kthread_stop` waits for the thread; `model_thread_create_lock` is held
  then. -/
  stopping : Bool
  /-- `model_thread_idle.done`. -/
  idle : CtxId → ℕ
  phase : CtxId → CtxPhase

/-- The steps of the model thread and of those who use it. -/
inductive ModelThreadOp where
  | queueInit (ctx : CtxId)
  /-- The inner section of `smart_io_throttle_dispatch_model_if_needed`. -/
  | submit (ctx : CtxId)
  | queueExit (ctx : CtxId)
  | unlist (ctx : CtxId)
  /-- The section of `smart_io_throttle_model_thread_cancel_ctx`, and the `complete`
  after it. -/
  | cancelCtx (ctx : CtxId)
  | completeCancelled (ctx : CtxId)
  | waitForIdle (ctx : CtxId)
  | ensure (created : Bool)
  | exit
  | wake
  | take
  | run
  | leaveRun
  | completeRun
  | clear
  | stop
deriving DecidableEq, Repr

namespace ModelThread

/-- Before the first queue is attached. -/
def initial : ModelThread := ⟨none, none, .stopped, false, false, fun _ => 0, fun _ => .absent⟩

/-- `complete`. -/
def complete (m : ModelThread) (ctx : CtxId) : ModelThread :=
  { m with idle := Function.update m.idle ctx (m.idle ctx + 1) }

/-- The next phase of a context. -/
def setPhase (m : ModelThread) (ctx : CtxId) (p : CtxPhase) : ModelThread :=
  { m with phase := Function.update m.phase ctx p }

/-- Whether a submission is accepted. -/
def free (m : ModelThread) : Bool := m.slot.isNone && m.runningCtx.isNone

/-- One step. The block layer dispatches for no queue whose exit has begun. -/
def step (m : ModelThread) : ModelThreadOp → ModelThread
  | .queueInit ctx =>
    if m.phase ctx = .absent then
      { m.setPhase ctx .live with idle := Function.update m.idle ctx 1 }
    else m
  | .submit ctx =>
    if m.phase ctx = .live ∧ m.free = true then
      { m with slot := some ctx, idle := Function.update m.idle ctx 0 }
    else m
  | .queueExit ctx => if m.phase ctx = .live then m.setPhase ctx .exiting else m
  | .unlist ctx => if m.phase ctx = .exiting then m.setPhase ctx .unlisted else m
  | .cancelCtx ctx =>
    if m.phase ctx = .unlisted then
      if m.slot = some ctx then { m.setPhase ctx .cancelling with slot := none }
      else m.setPhase ctx .waiting
    else m
  | .completeCancelled ctx =>
    if m.phase ctx = .cancelling then (m.complete ctx).setPhase ctx .waiting else m
  | .waitForIdle ctx =>
    if m.phase ctx = .waiting ∧ m.idle ctx ≠ 0 then
      { m.setPhase ctx .waited with idle := Function.update m.idle ctx (m.idle ctx - 1) }
    else m
  | .ensure created =>
    if m.stopping = false ∧ m.task = false ∧ created = true then
      { m with task := true, pc := .waiting }
    else m
  | .exit =>
    if m.stopping = false ∧ m.task = true then { m with task := false, stopping := true } else m
  | .wake =>
    if m.pc = .waiting ∧ m.stopping = false ∧ m.slot ≠ none then { m with pc := .awake } else m
  | .take =>
    if m.pc = .awake then
      { m with
        slot := none
        runningCtx := m.slot
        pc := match m.slot with
          | none => .waiting
          | some ctx => .started ctx }
    else m
  | .run =>
    match m.pc with
    | .started ctx => { m with pc := .inferring ctx }
    | _ => m
  | .leaveRun =>
    match m.pc with
    | .inferring ctx => { m with pc := .ran ctx }
    | _ => m
  | .completeRun =>
    match m.pc with
    | .ran ctx => { m.complete ctx with pc := .completed ctx }
    | _ => m
  | .clear =>
    match m.pc with
    | .completed ctx =>
      { m with
        runningCtx := if m.runningCtx = some ctx then none else m.runningCtx
        pc := .waiting }
    | _ => m
  | .stop =>
    if m.pc = .waiting ∧ m.stopping = true then { m with pc := .stopped, stopping := false } else m

/-- **The model thread**, from the moment the module is loaded. -/
def machine : StepMachine ModelThread ModelThreadOp Unit where
  init m := m = initial
  step m op := (m.step op, ())

/-- **The life of a context**: each step that moves it on, from one phase to the next. -/
inductive NextPhase (ctx : CtxId) : ModelThreadOp → CtxPhase → CtxPhase → Prop
  | queueInit : NextPhase ctx (.queueInit ctx) .absent .live
  | queueExit : NextPhase ctx (.queueExit ctx) .live .exiting
  | unlist : NextPhase ctx (.unlist ctx) .exiting .unlisted
  | cancelled : NextPhase ctx (.cancelCtx ctx) .unlisted .cancelling
  | notSubmitted : NextPhase ctx (.cancelCtx ctx) .unlisted .waiting
  | completed : NextPhase ctx (.completeCancelled ctx) .cancelling .waiting
  | waited : NextPhase ctx (.waitForIdle ctx) .waiting .waited

/-- **A step moves one context on at most.** -/
theorem phase_step (m : ModelThread) (op : ModelThreadOp) :
    (m.step op).phase = m.phase
      ∨ ∃ ctx q, NextPhase ctx op (m.phase ctx) q
        ∧ (m.step op).phase = Function.update m.phase ctx q := by
  have hset : ∀ {p q : CtxPhase} (ctx : CtxId), m.phase ctx = p → NextPhase ctx op p q →
      ∃ ctx' q', NextPhase ctx' op (m.phase ctx') q'
        ∧ Function.update m.phase ctx q = Function.update m.phase ctx' q' := by
    rintro p q ctx rfl hnext
    exact ⟨ctx, q, hnext, rfl⟩
  cases op with
  | queueInit ctx =>
    simp only [step]
    split
    · next hphase => exact Or.inr (hset ctx hphase .queueInit)
    · exact Or.inl rfl
  | queueExit ctx =>
    simp only [step]
    split
    · next hphase => exact Or.inr (hset ctx hphase .queueExit)
    · exact Or.inl rfl
  | unlist ctx =>
    simp only [step]
    split
    · next hphase => exact Or.inr (hset ctx hphase .unlist)
    · exact Or.inl rfl
  | cancelCtx ctx =>
    simp only [step]
    split
    · next hphase =>
      split
      · exact Or.inr (hset ctx hphase .cancelled)
      · exact Or.inr (hset ctx hphase .notSubmitted)
    · exact Or.inl rfl
  | completeCancelled ctx =>
    simp only [step]
    split
    · next hphase => exact Or.inr (hset ctx hphase .completed)
    · exact Or.inl rfl
  | waitForIdle ctx =>
    simp only [step]
    split
    · next hc => exact Or.inr (hset ctx hc.1 .waited)
    · exact Or.inl rfl
  | _ =>
    -- the other steps touch no phase
    refine Or.inl ?_
    simp only [step]
    split <;> rfl

/-! ## What a run tells -/

/-- What happens to a submission. -/
inductive Event where
  | submitted (ctx : CtxId)
  | started (ctx : CtxId)
  | finished (ctx : CtxId)
  | cancelled (ctx : CtxId)
  | waited (ctx : CtxId)
deriving DecidableEq, Repr

/-- The events of a step. -/
def events (m : ModelThread) : ModelThreadOp → List Event
  | .submit ctx => if m.phase ctx = .live ∧ m.free = true then [.submitted ctx] else []
  | .cancelCtx ctx =>
    if m.phase ctx = .unlisted ∧ m.slot = some ctx then [.cancelled ctx] else []
  | .waitForIdle ctx => if m.phase ctx = .waiting ∧ m.idle ctx ≠ 0 then [.waited ctx] else []
  | .take => if m.pc = .awake then (m.slot.map .started).toList else []
  | .leaveRun => (match m.pc with | .inferring ctx => [.finished ctx] | _ => [])
  | _ => []

/-- What the one submission there may be is at. -/
inductive Use where
  | free
  | submitted (ctx : CtxId)
  | running (ctx : CtxId)
deriving DecidableEq, Repr

/-- **Follow the submissions**: one at a time, each started once or cancelled, and
finished before the next one; a wait returns only for a context that has none. Not
defined after an event that does not fit. -/
def Use.follow : Option Use → Event → Option Use
  | some .free, .submitted ctx => some (.submitted ctx)
  | some (.submitted c), .started ctx => if c = ctx then some (.running ctx) else none
  | some (.submitted c), .cancelled ctx => if c = ctx then some .free else none
  | some (.running c), .finished ctx => if c = ctx then some .free else none
  | some .free, .waited _ => some .free
  | some (.submitted c), .waited ctx => if c = ctx then none else some (.submitted c)
  | some (.running c), .waited ctx => if c = ctx then none else some (.running c)
  | _, _ => none

/-- What the submissions are at after some events. -/
def useAfter (es : List Event) : Option Use := es.foldl Use.follow (some .free)

/-- What the submission is at. -/
def use (m : ModelThread) : Use :=
  match m.slot, m.pc.inRun with
  | some ctx, _ => .submitted ctx
  | none, some ctx => .running ctx
  | none, none => .free

end ModelThread

/-! ## The protocol -/

/-- The phases in which a context may be in the slot. -/
def CtxPhase.mayHold : CtxPhase → Bool
  | .live | .exiting | .unlisted => true
  | _ => false

/-- The phases in which the completion says whether the context is idle. -/
def CtxPhase.tells : CtxPhase → Bool
  | .live | .exiting | .unlisted | .waiting => true
  | _ => false

theorem CtxPhase.tells_of_mayHold {p : CtxPhase} (h : p.mayHold = true) : p.tells = true := by
  cases p with
  | live => rfl
  | exiting => rfl
  | unlisted => rfl
  | _ => exact Bool.noConfusion h

theorem ThreadPc.noted_of_owes {pc : ThreadPc} {c : CtxId} (h : pc.owes = some c) :
    pc.noted = some c := by
  cases pc with
  | started ctx => exact h
  | inferring ctx => exact h
  | ran ctx => exact h
  | _ => exact absurd h.symm (Option.some_ne_none c)

theorem ThreadPc.owes_of_inRun {pc : ThreadPc} {c : CtxId} (h : pc.inRun = some c) :
    pc.owes = some c := by
  cases pc with
  | started ctx => exact h
  | inferring ctx => exact h
  | _ => exact (Option.some_ne_none _ h.symm).elim

namespace ModelThread

/-- **The slot protocol.** The note is the context the thread has taken, the slot and
the note are not both set, and the completion of a context is done exactly if the
context is neither in the slot nor owed one by the thread. -/
structure Sound (m : ModelThread) : Prop where
  noted : m.runningCtx = m.pc.noted
  apart : m.slot = none ∨ m.pc.noted = none
  held : ∀ {c}, m.slot = some c → (m.phase c).mayHold = true
  owed : ∀ {c}, m.pc.owes = some c → (m.phase c).tells = true
  idle : ∀ {c}, (m.phase c).tells = true →
    (m.idle c = 0 ↔ m.slot = some c ∨ m.pc.owes = some c)
  parked : m.pc ≠ .stopped → m.task = true ∨ m.stopping = true

variable {m : ModelThread}

theorem sound_initial : Sound initial where
  noted := rfl
  apart := Or.inl rfl
  held := fun h => (Option.some_ne_none _ h.symm).elim
  owed := fun h => (Option.some_ne_none _ h.symm).elim
  idle := fun h => Bool.noConfusion h
  parked := fun h => absurd rfl h

namespace Sound

/-- With the slot filled, the thread owes nothing. -/
theorem owes_of_slot (h : Sound m) {c : CtxId} (hc : m.slot = some c) : m.pc.owes = none := by
  have hnoted := h.apart.resolve_left (by rw [hc]; exact Option.some_ne_none c)
  cases howes : m.pc.owes with
  | none => rfl
  | some d => exact (Option.some_ne_none _ ((ThreadPc.noted_of_owes howes).symm.trans hnoted)).elim

/-- While the thread owes a completion, the slot is empty. -/
theorem slot_of_owes (h : Sound m) {c : CtxId} (hc : m.pc.owes = some c) : m.slot = none := by
  refine h.apart.resolve_right fun hnoted => ?_
  exact (Option.some_ne_none _ ((ThreadPc.noted_of_owes hc).symm.trans hnoted)).elim

/-- A free slot: the thread has noted nothing. -/
theorem of_free (h : Sound m) (hfree : m.free = true) : m.slot = none ∧ m.pc.noted = none := by
  obtain ⟨hslot, hrunning⟩ := Bool.and_eq_true_iff.mp hfree
  refine ⟨Option.isNone_iff_eq_none.mp hslot, ?_⟩
  rw [← h.noted]
  exact Option.isNone_iff_eq_none.mp hrunning

/-- Without a task, and with none being stopped, there is no thread. -/
theorem stopped_of_no_task (h : Sound m) (htask : m.task = false) (hstopping : m.stopping = false) :
    m.pc = .stopped := by
  by_contra hpc
  cases h.parked hpc with
  | inl htask' => exact Bool.false_ne_true (htask.symm.trans htask')
  | inr hstopping' => exact Bool.false_ne_true (hstopping.symm.trans hstopping')

/-- **An exit goes on**: the context keeps its completion, and is not in the slot of a
later phase. -/
theorem setPhase (h : Sound m) {c : CtxId} {p : CtxPhase} (hc : (m.phase c).tells = true)
    (hp : p.tells = true) (hslot : m.slot = some c → p.mayHold = true) :
    Sound (m.setPhase c p) where
  noted := h.noted
  apart := h.apart
  held := by
    intro d hd
    show (Function.update m.phase c p d).mayHold = true
    by_cases hdc : d = c
    · subst hdc
      rw [Function.update_self]
      exact hslot hd
    · rw [Function.update_of_ne hdc]
      exact h.held hd
  owed := by
    intro d hd
    show (Function.update m.phase c p d).tells = true
    by_cases hdc : d = c
    · subst hdc
      rw [Function.update_self]
      exact hp
    · rw [Function.update_of_ne hdc]
      exact h.owed hd
  idle := by
    intro d hd
    refine h.idle ?_
    by_cases hdc : d = c
    · subst hdc
      exact hc
    · have hd' : (Function.update m.phase c p d).tells = true := hd
      rwa [Function.update_of_ne hdc] at hd'
  parked := h.parked

/-- The thread moves on without touching slot and completions. -/
theorem movePc (h : Sound m) {pc : ThreadPc} (hnoted : pc.noted = m.pc.noted)
    (howes : pc.owes = m.pc.owes) (hpc : m.pc ≠ .stopped) : Sound { m with pc := pc } where
  noted := h.noted.trans hnoted.symm
  apart := by
    rw [hnoted]
    exact h.apart
  held := h.held
  owed := by
    rw [howes]
    exact h.owed
  idle := by
    rw [howes]
    exact h.idle
  parked := fun _ => h.parked hpc

/-- A context that is initialised is idle. -/
theorem queueInit (h : Sound m) {c : CtxId} (hc : m.phase c = .absent) :
    Sound { m.setPhase c .live with idle := Function.update m.idle c 1 } where
  noted := h.noted
  apart := h.apart
  held := by
    intro d hd
    show (Function.update m.phase c _ d).mayHold = true
    by_cases hdc : d = c
    · rw [hdc, Function.update_self]
      rfl
    · rw [Function.update_of_ne hdc]
      exact h.held hd
  owed := by
    intro d hd
    show (Function.update m.phase c _ d).tells = true
    by_cases hdc : d = c
    · rw [hdc, Function.update_self]
      rfl
    · rw [Function.update_of_ne hdc]
      exact h.owed hd
  idle := by
    intro d hd
    show Function.update m.idle c 1 d = 0 ↔ m.slot = some d ∨ m.pc.owes = some d
    by_cases hdc : d = c
    · subst hdc
      rw [Function.update_self]
      refine iff_of_false Nat.one_ne_zero ?_
      rintro (hslot | howes)
      · exact Bool.noConfusion ((congrArg CtxPhase.mayHold hc).symm.trans (h.held hslot))
      · exact Bool.noConfusion ((congrArg CtxPhase.tells hc).symm.trans (h.owed howes))
    · rw [Function.update_of_ne hdc]
      have hd' : (Function.update m.phase c _ d).tells = true := hd
      rw [Function.update_of_ne hdc] at hd'
      exact h.idle hd'
  parked := h.parked

/-- **A submission** takes the completion of its context back. -/
theorem submit (h : Sound m) {c : CtxId} (hc : m.phase c = .live) (hfree : m.free = true) :
    Sound { m with slot := some c, idle := Function.update m.idle c 0 } where
  noted := h.noted
  apart := Or.inr (h.of_free hfree).2
  held := by
    intro d hd
    obtain rfl := Option.some.inj hd
    show (m.phase c).mayHold = true
    rw [hc]
    rfl
  owed := h.owed
  idle := by
    intro d hd
    have howes : m.pc.owes ≠ some d := fun howes =>
      (Option.some_ne_none _ ((ThreadPc.noted_of_owes howes).symm.trans (h.of_free hfree).2)).elim
    show Function.update m.idle c 0 d = 0 ↔ some c = some d ∨ m.pc.owes = some d
    rw [or_iff_left howes]
    by_cases hdc : d = c
    · subst hdc
      rw [Function.update_self]
      exact iff_of_true rfl rfl
    · rw [Function.update_of_ne hdc, h.idle hd, or_iff_left howes, (h.of_free hfree).1]
      exact iff_of_false (fun heq => (Option.some_ne_none _ heq.symm).elim)
        fun heq => hdc (Option.some.inj heq).symm
  parked := h.parked

/-- **A submission is cancelled**: its completion is still to come. -/
theorem cancel (h : Sound m) {c : CtxId} (hslot : m.slot = some c) :
    Sound { m.setPhase c .cancelling with slot := none } where
  noted := h.noted
  apart := Or.inl rfl
  held := fun hd => (Option.some_ne_none _ hd.symm).elim
  owed := fun hd => (Option.some_ne_none _ (hd.symm.trans (h.owes_of_slot hslot))).elim
  idle := by
    intro d hd
    have hd' : (Function.update m.phase c .cancelling d).tells = true := hd
    by_cases hdc : d = c
    · rw [hdc, Function.update_self] at hd'
      exact Bool.noConfusion hd'
    · rw [Function.update_of_ne hdc] at hd'
      refine (h.idle hd').trans (or_congr_left ?_)
      rw [hslot]
      exact iff_of_false (fun heq => hdc (Option.some.inj heq).symm)
        fun heq => (Option.some_ne_none _ heq.symm).elim
  parked := h.parked

/-- The completion of a cancelled submission comes. -/
theorem completeCancelled (h : Sound m) {c : CtxId} (hc : m.phase c = .cancelling) :
    Sound ((m.complete c).setPhase c .waiting) where
  noted := h.noted
  apart := h.apart
  held := by
    intro d hd
    show (Function.update m.phase c _ d).mayHold = true
    by_cases hdc : d = c
    · rw [hdc] at hd
      exact Bool.noConfusion ((congrArg CtxPhase.mayHold hc).symm.trans (h.held hd))
    · rw [Function.update_of_ne hdc]
      exact h.held hd
  owed := by
    intro d hd
    show (Function.update m.phase c _ d).tells = true
    by_cases hdc : d = c
    · rw [hdc, Function.update_self]
      rfl
    · rw [Function.update_of_ne hdc]
      exact h.owed hd
  idle := by
    intro d hd
    show Function.update m.idle c (m.idle c + 1) d = 0 ↔ m.slot = some d ∨ m.pc.owes = some d
    by_cases hdc : d = c
    · subst hdc
      rw [Function.update_self]
      refine iff_of_false (Nat.succ_ne_zero _) ?_
      rintro (hslot | howes)
      · exact Bool.noConfusion ((congrArg CtxPhase.mayHold hc).symm.trans (h.held hslot))
      · exact Bool.noConfusion ((congrArg CtxPhase.tells hc).symm.trans (h.owed howes))
    · rw [Function.update_of_ne hdc]
      have hd' : (Function.update m.phase c _ d).tells = true := hd
      rw [Function.update_of_ne hdc] at hd'
      exact h.idle hd'
  parked := h.parked

/-- **A wait returns** for a context that nobody holds. -/
theorem waitForIdle (h : Sound m) {c : CtxId} (hc : m.phase c = .waiting) (hidle : m.idle c ≠ 0) :
    Sound { m.setPhase c .waited with idle := Function.update m.idle c (m.idle c - 1) } where
  noted := h.noted
  apart := h.apart
  held := by
    intro d hd
    show (Function.update m.phase c _ d).mayHold = true
    by_cases hdc : d = c
    · rw [hdc] at hd
      exact Bool.noConfusion ((congrArg CtxPhase.mayHold hc).symm.trans (h.held hd))
    · rw [Function.update_of_ne hdc]
      exact h.held hd
  owed := by
    intro d hd
    show (Function.update m.phase c _ d).tells = true
    by_cases hdc : d = c
    · rw [hdc] at hd
      exact absurd ((h.idle (by rw [hc]; rfl)).mpr (Or.inr hd)) hidle
    · rw [Function.update_of_ne hdc]
      exact h.owed hd
  idle := by
    intro d hd
    have hd' : (Function.update m.phase c .waited d).tells = true := hd
    by_cases hdc : d = c
    · rw [hdc, Function.update_self] at hd'
      exact Bool.noConfusion hd'
    · rw [Function.update_of_ne hdc] at hd'
      show Function.update m.idle c _ d = 0 ↔ _
      rw [Function.update_of_ne hdc]
      exact h.idle hd'
  parked := h.parked

/-- **The thread takes the slot**, and owes the completion from then on. -/
theorem take (h : Sound m) (hpc : m.pc = .awake) :
    Sound { m with
      slot := none
      runningCtx := m.slot
      pc := match m.slot with
        | none => .waiting
        | some ctx => .started ctx } := by
  have hnoted : m.pc.owes = none := by
    rw [hpc]
    rfl
  have hparked := h.parked (by rw [hpc]; exact ThreadPc.noConfusion)
  cases hslot : m.slot with
  | none =>
    refine ⟨rfl, Or.inl rfl, fun hd => (Option.some_ne_none _ hd.symm).elim,
      fun hd => (Option.some_ne_none _ hd.symm).elim,
      fun hd => (h.idle hd).trans ?_, fun _ => hparked⟩
    rw [hslot, hnoted]
    rfl
  | some c =>
    refine ⟨rfl, Or.inl rfl, fun hd => (Option.some_ne_none _ hd.symm).elim, fun hd => ?_,
      fun hd => (h.idle hd).trans ?_, fun _ => hparked⟩
    · obtain rfl := Option.some.inj hd
      exact CtxPhase.tells_of_mayHold (h.held hslot)
    · rw [hslot, hnoted]
      exact or_comm

/-- **The end of a run** brings the completion it owes. -/
theorem completeRun (h : Sound m) {c : CtxId} (hpc : m.pc = .ran c) :
    Sound { m.complete c with pc := .completed c } where
  noted := by
    show m.runningCtx = some c
    rw [h.noted, hpc]
    rfl
  apart := Or.inl (h.slot_of_owes (by rw [hpc]; rfl))
  held := h.held
  owed := fun hd => (Option.some_ne_none _ hd.symm).elim
  idle := by
    intro d hd
    have hslot := h.slot_of_owes (c := c) (by rw [hpc]; rfl)
    show Function.update m.idle c (m.idle c + 1) d = 0 ↔ m.slot = some d ∨ none = some d
    rw [hslot]
    have hnone : ¬ ((none : Option CtxId) = some d ∨ none = some d) := fun hor =>
      hor.elim (fun heq => (Option.some_ne_none _ heq.symm).elim)
        fun heq => (Option.some_ne_none _ heq.symm).elim
    by_cases hdc : d = c
    · rw [hdc, Function.update_self]
      rw [hdc] at hnone
      exact iff_of_false (Nat.succ_ne_zero _) hnone
    · rw [Function.update_of_ne hdc, h.idle hd, hslot, hpc]
      refine iff_of_false ?_ hnone
      rintro (heq | heq)
      · exact (Option.some_ne_none _ heq.symm).elim
      · exact hdc (Option.some.inj heq).symm
  parked := fun _ => h.parked (by rw [hpc]; exact ThreadPc.noConfusion)

/-- The thread clears its note. -/
theorem clear (h : Sound m) {c : CtxId} (hpc : m.pc = .completed c) :
    Sound { m with
      runningCtx := if m.runningCtx = some c then none else m.runningCtx
      pc := .waiting } := by
  have hrunning : m.runningCtx = some c := by
    rw [h.noted, hpc]
    rfl
  have howes : m.pc.owes = none := by
    rw [hpc]
    rfl
  rw [if_pos hrunning]
  refine ⟨rfl, Or.inr rfl, h.held, fun hd => (Option.some_ne_none _ hd.symm).elim,
    fun hd => (h.idle hd).trans ?_,
    fun _ => h.parked (by rw [hpc]; exact ThreadPc.noConfusion)⟩
  rw [howes]
  rfl

/-- **Every step keeps the protocol.** -/
theorem step (h : Sound m) (op : ModelThreadOp) : Sound (m.step op) := by
  cases op with
  | queueInit ctx =>
    simp only [ModelThread.step]
    split
    · next hc => exact h.queueInit hc
    · exact h
  | submit ctx =>
    simp only [ModelThread.step]
    split
    · next hc => exact h.submit hc.1 hc.2
    · exact h
  | queueExit ctx =>
    simp only [ModelThread.step]
    split
    · next hc => exact h.setPhase (by rw [hc]; rfl) rfl fun _ => rfl
    · exact h
  | unlist ctx =>
    simp only [ModelThread.step]
    split
    · next hc => exact h.setPhase (by rw [hc]; rfl) rfl fun _ => rfl
    · exact h
  | cancelCtx ctx =>
    simp only [ModelThread.step]
    split
    · next hc =>
      split
      · next hslot => exact h.cancel hslot
      · next hslot => exact h.setPhase (by rw [hc]; rfl) rfl fun heq => absurd heq hslot
    · exact h
  | completeCancelled ctx =>
    simp only [ModelThread.step]
    split
    · next hc => exact h.completeCancelled hc
    · exact h
  | waitForIdle ctx =>
    simp only [ModelThread.step]
    split
    · next hc => exact h.waitForIdle hc.1 hc.2
    · exact h
  | ensure created =>
    simp only [ModelThread.step]
    split
    · next hc =>
      have hpc := h.stopped_of_no_task hc.2.1 hc.1
      refine ⟨?_, Or.inr rfl, h.held, fun hd => (Option.some_ne_none _ hd.symm).elim,
        fun hd => (h.idle hd).trans ?_, fun _ => Or.inl rfl⟩
      · show m.runningCtx = none
        rw [h.noted, hpc]
        rfl
      · rw [hpc]
        rfl
    · exact h
  | exit =>
    simp only [ModelThread.step]
    split
    · exact ⟨h.noted, h.apart, h.held, h.owed, h.idle, fun _ => Or.inr rfl⟩
    · exact h
  | wake =>
    simp only [ModelThread.step]
    split
    · next hc =>
      exact h.movePc (by rw [hc.1]; rfl) (by rw [hc.1]; rfl)
        (by rw [hc.1]; exact ThreadPc.noConfusion)
    · exact h
  | take =>
    simp only [ModelThread.step]
    split
    · next hc => exact h.take hc
    · exact h
  | run =>
    simp only [ModelThread.step]
    split
    · next hc =>
      exact h.movePc (by rw [hc]; rfl) (by rw [hc]; rfl) (by rw [hc]; exact ThreadPc.noConfusion)
    · exact h
  | leaveRun =>
    simp only [ModelThread.step]
    split
    · next hc =>
      exact h.movePc (by rw [hc]; rfl) (by rw [hc]; rfl) (by rw [hc]; exact ThreadPc.noConfusion)
    · exact h
  | completeRun =>
    simp only [ModelThread.step]
    split
    · next hc => exact h.completeRun hc
    · exact h
  | clear =>
    simp only [ModelThread.step]
    split
    · next hc => exact h.clear hc
    · exact h
  | stop =>
    simp only [ModelThread.step]
    split
    · next hc =>
      have hmoved : Sound { m with pc := .stopped } := h.movePc (by rw [hc.1]; rfl)
        (by rw [hc.1]; rfl) (by rw [hc.1]; exact ThreadPc.noConfusion)
      exact ⟨hmoved.noted, hmoved.apart, hmoved.held, hmoved.owed, hmoved.idle,
        fun hpc => absurd rfl hpc⟩
    · exact h

end Sound

/-! ## Submissions -/

theorem use_of_slot {c : CtxId} (hslot : m.slot = some c) : m.use = .submitted c := by
  unfold use
  rw [hslot]

theorem use_of_inRun {c : CtxId} (hslot : m.slot = none) (hrun : m.pc.inRun = some c) :
    m.use = .running c := by
  unfold use
  rw [hslot, hrun]

theorem use_of_none (hslot : m.slot = none) (hrun : m.pc.inRun = none) : m.use = .free := by
  unfold use
  rw [hslot, hrun]

/-- The submission is read off the slot and the run. -/
theorem use_congr {m' : ModelThread} (hslot : m'.slot = m.slot)
    (hrun : m'.pc.inRun = m.pc.inRun) : m'.use = m.use := by
  unfold use
  rw [hslot, hrun]

/-- A wait that returns is about another context than the one that is submitted or
runs. -/
theorem follow_waited {c : CtxId} (hslot : m.slot ≠ some c)
    (howes : m.pc.owes ≠ some c) : Use.follow (some m.use) (.waited c) = some m.use := by
  cases hs : m.slot with
  | some d =>
    rw [use_of_slot hs]
    refine if_neg ?_
    rintro rfl
    exact hslot hs
  | none =>
    cases hr : m.pc.inRun with
    | some d =>
      rw [use_of_inRun hs hr]
      refine if_neg ?_
      rintro rfl
      exact howes (ThreadPc.owes_of_inRun hr)
    | none =>
      rw [use_of_none hs hr]
      rfl

namespace Sound

theorem inRun_of_slot (h : Sound m) {c : CtxId} (hc : m.slot = some c) : m.pc.inRun = none := by
  cases hrun : m.pc.inRun with
  | none => rfl
  | some d =>
    have howes := ThreadPc.owes_of_inRun hrun
    exact absurd (howes.symm.trans (h.owes_of_slot hc)) (Option.some_ne_none d)

/-- **A context that is done waiting** is neither in the slot nor owed a completion. -/
theorem idle_of_wait (h : Sound m) {c : CtxId} (hc : m.phase c = .waiting) (hidle : m.idle c ≠ 0) :
    m.slot ≠ some c ∧ m.pc.owes ≠ some c := by
  have hiff := h.idle (c := c) (by rw [hc]; rfl)
  exact ⟨fun hslot => hidle (hiff.mpr (Or.inl hslot)), fun howes => hidle (hiff.mpr (Or.inr howes))⟩

/-- **Every step tells what becomes of the submission.** -/
theorem follow_step (h : Sound m) (op : ModelThreadOp) :
    (m.events op).foldl Use.follow (some m.use) = some (m.step op).use := by
  cases op with
  | queueInit ctx =>
    simp only [events, ModelThread.step]
    split <;> rfl
  | submit ctx =>
    simp only [events, ModelThread.step]
    split
    · next hc =>
      obtain ⟨hslot, hnoted⟩ := h.of_free hc.2
      have hrun : m.pc.inRun = none := by
        cases hrun : m.pc.inRun with
        | none => rfl
        | some d =>
          have hnoted' := ThreadPc.noted_of_owes (ThreadPc.owes_of_inRun hrun)
          exact absurd (hnoted'.symm.trans hnoted) (Option.some_ne_none d)
      rw [use_of_none hslot hrun]
      rfl
    · rfl
  | queueExit ctx =>
    simp only [events, ModelThread.step]
    split <;> rfl
  | unlist ctx =>
    simp only [events, ModelThread.step]
    split <;> rfl
  | cancelCtx ctx =>
    simp only [events, ModelThread.step]
    by_cases hc : m.phase ctx = .unlisted
    · rw [if_pos hc]
      by_cases hslot : m.slot = some ctx
      · -- a submission is cancelled, and then nothing runs for it either
        rw [if_pos ⟨hc, hslot⟩, if_pos hslot, use_of_slot hslot]
        refine Eq.trans (if_pos rfl) (congrArg some (use_of_none ?_ ?_).symm)
        · rfl
        · exact h.inRun_of_slot hslot
      · rw [if_neg fun hand => hslot hand.2, if_neg hslot]
        rfl
    · rw [if_neg hc, if_neg fun hand => hc hand.1]
      rfl
  | completeCancelled ctx =>
    simp only [events, ModelThread.step]
    split <;> rfl
  | waitForIdle ctx =>
    simp only [events, ModelThread.step]
    split
    · next hc =>
      obtain ⟨hslot, howes⟩ := h.idle_of_wait hc.1 hc.2
      exact follow_waited hslot howes
    · rfl
  | ensure created =>
    simp only [events, ModelThread.step]
    split
    · next hc =>
      have hpc : m.pc = .stopped := h.stopped_of_no_task hc.2.1 hc.1
      refine congrArg some (use_congr ?_ ?_).symm
      · rfl
      · rw [hpc]
        rfl
    · rfl
  | exit =>
    simp only [events, ModelThread.step]
    split <;> rfl
  | wake =>
    simp only [events, ModelThread.step]
    split
    · next hc =>
      refine congrArg some (use_congr ?_ ?_).symm
      · rfl
      · rw [hc.1]
        rfl
    · rfl
  | take =>
    simp only [events, ModelThread.step]
    split
    · next hc =>
      cases hslot : m.slot with
      | none =>
        refine congrArg some (use_congr ?_ ?_).symm
        · exact hslot.symm
        · rw [hc]
          rfl
      | some c =>
        -- what was submitted runs now
        rw [use_of_slot hslot]
        exact if_pos rfl
    · rfl
  | run =>
    simp only [events, ModelThread.step]
    split
    · next hc =>
      refine congrArg some (use_congr ?_ ?_).symm
      · rfl
      · rw [hc]
        rfl
    · rfl
  | leaveRun =>
    simp only [events, ModelThread.step]
    split
    · next ctx hc =>
      have hslot := h.slot_of_owes (c := ctx) (by rw [hc]; rfl)
      rw [use_of_inRun (c := ctx) hslot (by rw [hc]; rfl)]
      refine Eq.trans (if_pos rfl) (congrArg some (use_of_none ?_ ?_).symm)
      · exact hslot
      · rfl
    · rfl
  | completeRun =>
    simp only [events, ModelThread.step]
    split
    · next hc =>
      refine congrArg some (use_congr ?_ ?_).symm
      · rfl
      · rw [hc]
        rfl
    · rfl
  | clear =>
    simp only [events, ModelThread.step]
    split
    · next hc =>
      refine congrArg some (use_congr ?_ ?_).symm
      · rfl
      · rw [hc]
        rfl
    · rfl
  | stop =>
    simp only [events, ModelThread.step]
    split
    · next hc =>
      refine congrArg some (use_congr ?_ ?_).symm
      · rfl
      · rw [hc.1]
        rfl
    · rfl

end Sound

/-! ## Runs -/

/-- One event starts, cancels or makes one submission. -/
theorem count_follow {v u : Use} {e : Event} (h : Use.follow (some v) e = some u) (c : CtxId) :
    [e].count (.started c) + [e].count (.cancelled c) + (if u = .submitted c then 1 else 0)
      = [e].count (.submitted c) + (if v = .submitted c then 1 else 0) := by
  have hsplit : ∀ {d ctx : CtxId} {w : Use}, (if d = ctx then some w else none) = some u →
      d = ctx ∧ w = u := by
    intro d ctx w hif
    by_cases hd : d = ctx
    · rw [if_pos hd] at hif
      exact ⟨hd, Option.some.inj hif⟩
    · rw [if_neg hd] at hif
      exact absurd hif.symm (Option.some_ne_none u)
  cases e with
  | submitted ctx =>
    cases v with
    | free =>
      obtain rfl := Option.some.inj h
      simp [List.count_cons]
    | submitted d => exact absurd h.symm (Option.some_ne_none u)
    | running d => exact absurd h.symm (Option.some_ne_none u)
  | started ctx =>
    cases v with
    | submitted d =>
      obtain ⟨rfl, rfl⟩ := hsplit h
      simp [List.count_cons]
    | free => exact absurd h.symm (Option.some_ne_none u)
    | running d => exact absurd h.symm (Option.some_ne_none u)
  | cancelled ctx =>
    cases v with
    | submitted d =>
      obtain ⟨rfl, rfl⟩ := hsplit h
      simp [List.count_cons]
    | free => exact absurd h.symm (Option.some_ne_none u)
    | running d => exact absurd h.symm (Option.some_ne_none u)
  | finished ctx =>
    cases v with
    | running d =>
      obtain ⟨rfl, rfl⟩ := hsplit h
      simp
    | free => exact absurd h.symm (Option.some_ne_none u)
    | submitted d => exact absurd h.symm (Option.some_ne_none u)
  | waited ctx =>
    have hu : u = v := by
      cases v with
      | free => exact (Option.some.inj h).symm
      | submitted d =>
        have hif : (if d = ctx then none else some (Use.submitted d)) = some u := h
        split at hif
        · exact absurd hif.symm (Option.some_ne_none u)
        · exact (Option.some.inj hif).symm
      | running d =>
        have hif : (if d = ctx then none else some (Use.running d)) = some u := h
        split at hif
        · exact absurd hif.symm (Option.some_ne_none u)
        · exact (Option.some.inj hif).symm
    rw [hu]
    simp

/-- **Counting the submissions of a context**: each was started or cancelled, but for the
one that waits in the slot. -/
theorem count_of_useAfter {es : List Event} {u : Use} (h : useAfter es = some u) (c : CtxId) :
    es.count (.started c) + es.count (.cancelled c) + (if u = .submitted c then 1 else 0)
      = es.count (.submitted c) := by
  induction es using List.reverseRecOn generalizing u with
  | nil =>
    obtain rfl := Option.some.inj h
    rfl
  | append_singleton es e ih =>
    have hlast : Use.follow (useAfter es) e = some u := by
      rw [← h, useAfter, useAfter, List.foldl_append]
      rfl
    cases hv : useAfter es with
    | none =>
      rw [hv] at hlast
      exact absurd hlast.symm (Option.some_ne_none u)
    | some v =>
      rw [hv] at hlast
      have hone := count_follow hlast c
      have hbefore := ih hv
      rw [List.count_append, List.count_append, List.count_append]
      omega

/-- **What is told of the slot is kept**: one context at most is submitted or runs, a
submission runs once at most, and a context that was waited for is out of the slot
and out of the thread for good. -/
structure Kept (es : List Event) (m : ModelThread) : Prop where
  single : ∀ c d, m.slot = some c ∨ m.pc.inRun = some c → m.slot = some d ∨ m.pc.inRun = some d →
    c = d ∧ (m.slot = none ∨ m.pc.inRun = none)
  /-- The submissions come one after another. -/
  inTurn : useAfter es = some m.use
  once : ∀ c, es.count (.started c) ≤ es.count (.submitted c)
  waited : ∀ c, .waited c ∈ es → m.slot ≠ some c ∧ m.pc.inRun ≠ some c
  after : es.Pairwise fun a b => ∀ c, a = .waited c → b ≠ .submitted c ∧ b ≠ .started c

/-- What the steps told, and the phases they left. -/
structure Told (es : List Event) (m : ModelThread) : Prop where
  sound : Sound m
  use : useAfter es = some m.use
  waited : ∀ c, .waited c ∈ es → m.phase c = .waited
  after : es.Pairwise fun a b => ∀ c, a = .waited c → b ≠ .submitted c ∧ b ≠ .started c

theorem told_initial : Told [] initial where
  sound := sound_initial
  use := rfl
  waited := fun _ h => absurd h List.not_mem_nil
  after := List.Pairwise.nil

/-- A context that was waited for stays so. -/
theorem phase_step_of_waited {c : CtxId} (hc : m.phase c = .waited) (op : ModelThreadOp) :
    (m.step op).phase c = .waited := by
  rcases m.phase_step op with hsame | ⟨ctx, q, hnext, hset⟩
  · rw [hsame]
    exact hc
  · rw [hset]
    by_cases hctx : c = ctx
    · -- no step leaves the last phase
      rw [← hctx, hc] at hnext
      cases hnext
    · rw [Function.update_of_ne hctx]
      exact hc

/-- An event of a step is the only one, and it is not about a context that was waited
for – or it says so. -/
theorem Sound.events_cases (h : Sound m) (op : ModelThreadOp) :
    m.events op = [] ∨ ∃ e, m.events op = [e]
      ∧ (∀ c, m.phase c = .waited → e ≠ .submitted c ∧ e ≠ .started c)
      ∧ ∀ c, e = .waited c → (m.step op).phase c = .waited := by
  cases op with
  | submit ctx =>
    simp only [events]
    split
    · next hc =>
      refine Or.inr ⟨_, rfl, fun c hwaited => ⟨?_, Event.noConfusion⟩, fun _ => Event.noConfusion⟩
      rintro heq
      obtain rfl := Event.submitted.inj heq
      exact CtxPhase.noConfusion (hc.1.symm.trans hwaited)
    · exact Or.inl rfl
  | cancelCtx ctx =>
    simp only [events]
    split
    · exact Or.inr ⟨_, rfl, fun c _ => ⟨Event.noConfusion, Event.noConfusion⟩,
        fun _ => Event.noConfusion⟩
    · exact Or.inl rfl
  | waitForIdle ctx =>
    simp only [events, ModelThread.step]
    split
    · refine Or.inr ⟨_, rfl, fun c _ => ⟨Event.noConfusion, Event.noConfusion⟩, fun c heq => ?_⟩
      obtain rfl := Event.waited.inj heq
      exact Function.update_self _ _ _
    · exact Or.inl rfl
  | take =>
    simp only [events]
    split
    · cases hslot : m.slot with
      | none => exact Or.inl rfl
      | some d =>
        refine Or.inr ⟨_, rfl, fun c hwaited => ⟨Event.noConfusion, ?_⟩, fun _ => Event.noConfusion⟩
        rintro heq
        obtain rfl := Event.started.inj heq
        exact Bool.noConfusion ((congrArg CtxPhase.mayHold hwaited).symm.trans (h.held hslot))
    · exact Or.inl rfl
  | leaveRun =>
    simp only [events]
    split
    · exact Or.inr ⟨_, rfl, fun c _ => ⟨Event.noConfusion, Event.noConfusion⟩,
        fun _ => Event.noConfusion⟩
    · exact Or.inl rfl
  | _ => exact Or.inl rfl

/-- **A step is told.** -/
theorem Told.step {es : List Event} (h : Told es m) (op : ModelThreadOp) :
    Told (es ++ m.events op) (m.step op) := by
  refine ⟨h.sound.step op, ?_, ?_, ?_⟩
  · rw [useAfter, List.foldl_append]
    show List.foldl _ (useAfter es) _ = _
    rw [h.use]
    exact h.sound.follow_step op
  · intro c hc
    rcases List.mem_append.mp hc with hc | hc
    · exact phase_step_of_waited (h.waited c hc) op
    · rcases h.sound.events_cases op with hnone | ⟨e, he, -, hwaited⟩
      · rw [hnone] at hc
        exact absurd hc List.not_mem_nil
      · rw [he] at hc
        exact hwaited c (List.mem_singleton.mp hc).symm
  · rcases h.sound.events_cases op with hnone | ⟨e, he, hold, -⟩
    · rw [hnone, List.append_nil]
      exact h.after
    · rw [he]
      refine List.pairwise_append.mpr
        ⟨h.after, List.pairwise_singleton _ _, fun a ha b hb c hac => ?_⟩
      rw [List.mem_singleton.mp hb]
      refine hold c (h.waited c ?_)
      rw [← hac]
      exact ha

/-- **The protocol keeps what is told.** -/
theorem Told.kept {es : List Event} (h : Told es m) : Kept es m where
  single := by
    have hapart : m.slot = none ∨ m.pc.inRun = none := by
      cases hslot : m.slot with
      | none => exact Or.inl rfl
      | some c => exact Or.inr (h.sound.inRun_of_slot hslot)
    intro c d hc hd
    refine ⟨?_, hapart⟩
    rcases hapart with hnone | hnone
    · have hc := hc.resolve_left (by rw [hnone]; exact (Option.some_ne_none c).symm)
      have hd := hd.resolve_left (by rw [hnone]; exact (Option.some_ne_none d).symm)
      exact Option.some.inj (hc.symm.trans hd)
    · have hc := hc.resolve_right (by rw [hnone]; exact (Option.some_ne_none c).symm)
      have hd := hd.resolve_right (by rw [hnone]; exact (Option.some_ne_none d).symm)
      exact Option.some.inj (hc.symm.trans hd)
  inTurn := h.use
  once := by
    intro c
    have hcount := count_of_useAfter h.use c
    omega
  waited := by
    intro c hc
    have hphase := h.waited c hc
    refine ⟨fun hslot => ?_, fun hrun => ?_⟩
    · exact Bool.noConfusion ((congrArg CtxPhase.mayHold hphase).symm.trans (h.sound.held hslot))
    · exact Bool.noConfusion ((congrArg CtxPhase.tells hphase).symm.trans
        (h.sound.owed (ThreadPc.owes_of_inRun hrun)))
  after := h.after

end ModelThread
