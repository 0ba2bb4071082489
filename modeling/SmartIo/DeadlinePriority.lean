import SmartIo.Deadline
import SmartIo.ThrottleWakeup

/-!
# Strict priority

A dispatch looks at the lists of HP, then of RT, then of BE, and the lists do
not change while it does. It looks at the gate once before RT and once more
before BE, and the lock of the throttle is free in between. `dispatchRequest_from`
says what that comes to: which list the request is taken from, as a function of
the lists and of the gate at the two moments.

Priority can therefore be inverted in one way only: the gate is closed when RT
is asked and open when BE is (`GateReopens`). `dd_has_work` asks once, for both.
-/

/-! ## Lists with work -/

/-- `enum dd_prio`: the lower number is served first. -/
def QueueClass.code : QueueClass → ℕ
  | .hp => 0
  | .rt => 1
  | .be => 2

namespace DdPerPrio

/-- **A priority has a first request as long as it has work.** -/
theorem isSome_pick (p : DdPerPrio) (rqs : RqAddr → Request) :
    (p.pick rqs).isSome = p.hasWork := by
  unfold pick hasWork
  cases hd : p.dispatch with
  | cons rq rest => rfl
  | nil =>
    cases hr : p.fifoList .read with
    | nil => cases hw : p.fifoList .write <;> rfl
    | cons readRq reads =>
      cases hw : p.fifoList .write with
      | nil => rfl
      | cons writeRq writes =>
        show Option.isSome (if _ then _ else _) = true
        split <;> rfl

end DdPerPrio

/-! ## The gate -/

namespace Throttle

/-- Whether a non-HP request may pass: nothing is throttled, or there is no
reason to hold it back. -/
def gateOpen (w : Throttle) : Bool :=
  !w.globals.throttleEnabled || decide (gateReasonOf w.ctx w.globals = .none)

theorem nonHpAllowed_snd (w : Throttle) : w.nonHpAllowed.2 = w.gateOpen := by
  unfold nonHpAllowed gateOpen
  cases hopen : !w.globals.throttleEnabled || decide (gateReasonOf w.ctx w.globals = .none)
    <;> rfl

/-- An open gate is left alone. -/
theorem nonHpAllowed_of_open {w : Throttle} (h : w.gateOpen = true) :
    w.nonHpAllowed = (w, true) := by
  unfold nonHpAllowed
  exact if_pos h

/-- Closing the gate is only a note: no reason to hold requests back reads it. -/
theorem gateReasonOf_closeGate (c : ThrottleCtx) (g : Globals) (reason : GateReason) :
    gateReasonOf (closeGate c reason) g = gateReasonOf c g := by
  unfold closeGate
  split <;> rfl

/-- **Looking at the gate does not move it.** -/
theorem gateOpen_nonHpAllowed (w : Throttle) : w.nonHpAllowed.1.gateOpen = w.gateOpen := by
  unfold nonHpAllowed
  split
  · rfl
  · show (_ || decide (gateReasonOf (closeGate _ _) _ = _)) = _
    rw [gateReasonOf_closeGate]
    rfl

end Throttle

namespace Deadline

/-! ## A dispatch -/

variable (dd : Deadline)

@[simp] theorem throttled_perPrio (op : ThrottleOp) :
    (dd.throttled op).perPrio = dd.perPrio := rfl

@[simp] theorem throttled_throttle (op : ThrottleOp) :
    (dd.throttled op).throttle = (dd.throttle.step op).1 := rfl

@[simp] theorem meanwhile_perPrio (ops : List ThrottleOp) :
    (dd.meanwhile ops).perPrio = dd.perPrio := rfl

@[simp] theorem meanwhile_throttle (ops : List ThrottleOp) :
    (dd.meanwhile ops).throttle = Throttle.machine.run dd.throttle ops := rfl

@[simp] theorem meanwhile_nil : dd.meanwhile [] = dd := rfl

/-- Without work, nothing is dispatched. -/
theorem dispatchFifo_idle {prio : QueueClass} (h : (dd.perPrio prio).hasWork = false) :
    dd.dispatchFifo prio = (dd, none) := by
  rw [← DdPerPrio.isSome_pick _ dd.throttle.rqs] at h
  have hnone : (dd.perPrio prio).pick dd.throttle.rqs = none :=
    Option.isSome_eq_false_iff.mp h |> Option.isNone_iff_eq_none.mp
  unfold dispatchFifo
  rw [hnone]

/-- With work, something is, from the priority that has it. -/
theorem dispatchFifo_busy {prio : QueueClass} (h : (dd.perPrio prio).hasWork = true) :
    ∃ dd' rq, dd.dispatchFifo prio = (dd', some (prio, rq)) := by
  rw [← DdPerPrio.isSome_pick _ dd.throttle.rqs] at h
  obtain ⟨rq, hrq⟩ := Option.isSome_iff_exists.mp h
  unfold dispatchFifo
  rw [hrq]
  exact ⟨_, rq, rfl⟩

/-- **A dispatch behind the gate** takes a request if the gate is open and there
is work, and is only a look at the gate otherwise. -/
theorem dispatchGated_cases (prio : QueueClass) :
    (dd.throttle.gateOpen && (dd.perPrio prio).hasWork) = true
        ∧ (∃ dd' rq, dd.dispatchGated prio = (dd', some (prio, rq)))
      ∨ (dd.throttle.gateOpen && (dd.perPrio prio).hasWork) = false
        ∧ dd.dispatchGated prio = (dd.throttled .nonHpAllowed, none) := by
  unfold dispatchGated
  rw [Throttle.nonHpAllowed_snd]
  cases hgate : dd.throttle.gateOpen with
  | false => exact .inr ⟨rfl, rfl⟩
  | true =>
    cases hwork : (dd.perPrio prio).hasWork with
    | true => exact .inl ⟨rfl, dispatchFifo_busy (dd.throttled .nonHpAllowed) hwork⟩
    | false => exact .inr ⟨rfl, dispatchFifo_idle (dd.throttled .nonHpAllowed) hwork⟩

/-- The throttle when the gate is looked at for RT. -/
def atRtLook (slotFree : Bool) (i : Interference) : Throttle :=
  Throttle.machine.run
    (Throttle.machine.run (dd.throttle.step (.dispatchModelIfNeeded slotFree)).1 i.beforeLock)
    i.beforeRt

/-- The throttle when the gate is looked at for BE: other CPUs had the lock since
the look for RT. -/
def atBeLook (slotFree : Bool) (i : Interference) : Throttle :=
  Throttle.machine.run ((dd.atRtLook slotFree i).step .nonHpAllowed).1 i.beforeBe

/-- **Where a request is dispatched from**: the first of HP, RT behind the gate
and BE behind the gate that has one. -/
theorem dispatchRequest_from (slotFree : Bool) (i : Interference) (nowNs : ℕ) :
    (dd.dispatchRequest slotFree i nowNs).2.map Prod.fst
      = if (dd.perPrio .hp).hasWork then some .hp
        else if (dd.atRtLook slotFree i).gateOpen && (dd.perPrio .rt).hasWork then some .rt
        else if (dd.atBeLook slotFree i).gateOpen && (dd.perPrio .be).hasWork then some .be
        else none := by
  -- the accounting at the end changes nothing in what is returned
  have hchosen (p : Deadline × Option (QueueClass × RqAddr))
      (hp : ((dd.throttled (.dispatchModelIfNeeded slotFree)).meanwhile i.beforeLock).choose i
        = p) :
      (dd.dispatchRequest slotFree i nowNs).2.map Prod.fst = p.2.map Prod.fst := by
    unfold dispatchRequest
    rw [hp]
    obtain ⟨dd', _ | ⟨prio, rq⟩⟩ := p <;> rfl
  generalize hlock : (dd.throttled (.dispatchModelIfNeeded slotFree)).meanwhile i.beforeLock
    = locked at hchosen
  have hlists : locked.perPrio = dd.perPrio := by rw [← hlock]; rfl
  have hrt : (locked.meanwhile i.beforeRt).throttle = dd.atRtLook slotFree i := by
    rw [← hlock]; rfl
  have hbe : (((locked.meanwhile i.beforeRt).throttled .nonHpAllowed).meanwhile
      i.beforeBe).throttle = dd.atBeLook slotFree i := by
    rw [← hlock]; rfl
  rw [hchosen _ rfl]
  unfold choose
  cases hhp : (dd.perPrio .hp).hasWork with
  | true =>
    have hwork : (locked.perPrio .hp).hasWork = true := by rw [hlists, hhp]
    obtain ⟨dd', rq, hpick⟩ := locked.dispatchFifo_busy hwork
    rw [hpick]
    rfl
  | false =>
    rw [locked.dispatchFifo_idle (by rw [hlists, hhp])]
    obtain ⟨hopen, dd', rq, hpick⟩ | ⟨hclosed, hpick⟩ :=
      (locked.meanwhile i.beforeRt).dispatchGated_cases .rt
    · rw [hrt, meanwhile_perPrio, hlists] at hopen
      simp only [hpick, hopen, Option.map_some, if_true, Bool.false_eq_true, if_false]
    · rw [hrt, meanwhile_perPrio, hlists] at hclosed
      simp only [hpick, hclosed, Bool.false_eq_true, if_false]
      obtain ⟨hopen', dd'', rq', hpick'⟩ | ⟨hclosed', hpick'⟩ :=
        (((locked.meanwhile i.beforeRt).throttled .nonHpAllowed).meanwhile
          i.beforeBe).dispatchGated_cases .be
      · rw [hbe, meanwhile_perPrio, throttled_perPrio, meanwhile_perPrio, hlists] at hopen'
        simp only [hpick', hopen', Option.map_some, if_true]
      · rw [hbe, meanwhile_perPrio, throttled_perPrio, meanwhile_perPrio, hlists] at hclosed'
        simp only [hpick', hclosed', Option.map_none, Bool.false_eq_true, if_false]

/-! ## Strict priority -/

/-- **Strict priority** of what a dispatch returns: no priority above the one it
was taken from had work. -/
def StrictPriority (returned : Option (QueueClass × RqAddr)) : Prop :=
  ∀ prio rq above, returned = some (prio, rq) → above.code < prio.code →
    (dd.perPrio above).hasWork = false

/-- **The gate opens between the two looks**, with requests waiting behind both
and none in front. -/
def GateReopens (slotFree : Bool) (i : Interference) : Prop :=
  (dd.perPrio .hp).hasWork = false ∧ (dd.perPrio .rt).hasWork = true
    ∧ (dd.perPrio .be).hasWork = true
    ∧ (dd.atRtLook slotFree i).gateOpen = false ∧ (dd.atBeLook slotFree i).gateOpen = true

variable {dd}

/-- Strict priority depends only on where the request was taken from. -/
theorem strictPriority_iff_from {returned : Option (QueueClass × RqAddr)} :
    dd.StrictPriority returned
      ↔ ∀ prio, returned.map Prod.fst = some prio → ∀ above, above.code < prio.code →
          (dd.perPrio above).hasWork = false := by
  constructor
  · intro h prio hprio above habove
    obtain ⟨⟨prio', rq⟩, hret, rfl⟩ := Option.map_eq_some_iff.mp hprio
    exact h prio' rq above hret habove
  · rintro h prio rq above rfl habove
    exact h prio rfl above habove

/-- Only HP is above RT. -/
theorem above_rt {above : QueueClass} (h : above.code < QueueClass.rt.code) : above = .hp := by
  cases above with
  | hp => rfl
  | rt => exact absurd h (Nat.lt_irrefl 1)
  | be => exact absurd h (by decide)

/-- HP and RT are above BE. -/
theorem above_be {above : QueueClass} (h : above.code < QueueClass.be.code) :
    above = .hp ∨ above = .rt := by
  cases above with
  | hp => exact .inl rfl
  | rt => exact .inr rfl
  | be => exact absurd h (Nat.lt_irrefl 2)

/-- **Priority is strict, unless the gate opens between the two looks.** This is
so in every state and for every interleaving. -/
theorem strictPriority_iff (dd : Deadline) (slotFree : Bool) (i : Interference) (nowNs : ℕ) :
    dd.StrictPriority (dd.dispatchRequest slotFree i nowNs).2
      ↔ ¬ dd.GateReopens slotFree i := by
  rw [strictPriority_iff_from, dispatchRequest_from]
  cases hhp : (dd.perPrio .hp).hasWork with
  | true =>
    refine iff_of_true ?_ (fun h => absurd (hhp.symm.trans h.1) Bool.noConfusion)
    intro prio hprio above habove
    obtain rfl := Option.some.inj hprio
    exact absurd habove (Nat.not_lt_zero _)
  | false =>
    cases hrt : (dd.atRtLook slotFree i).gateOpen && (dd.perPrio .rt).hasWork with
    | true =>
      refine iff_of_true ?_ (fun h => ?_)
      · intro prio hprio above habove
        obtain rfl := Option.some.inj hprio
        rw [above_rt habove]
        exact hhp
      · rw [h.2.2.2.1] at hrt
        exact Bool.noConfusion hrt
    | false =>
      cases hbe : (dd.atBeLook slotFree i).gateOpen && (dd.perPrio .be).hasWork with
      | false =>
        refine iff_of_true (fun prio hprio => absurd hprio.symm (Option.some_ne_none prio))
          (fun h => ?_)
        rw [h.2.2.2.2, h.2.2.1] at hbe
        exact Bool.noConfusion hbe
      | true =>
        -- a BE request goes out: strict only if RT had no work
        obtain ⟨hopen, hwork⟩ := Bool.and_eq_true_iff.mp hbe
        constructor
        · intro hstrict hreopens
          have hidle := hstrict .be rfl .rt (Nat.lt_succ_self 1)
          exact absurd (hreopens.2.1.symm.trans hidle) Bool.noConfusion
        · intro hnot prio hprio above habove
          obtain rfl := Option.some.inj hprio
          obtain rfl | rfl := above_be habove
          · exact hhp
          · rw [← Bool.not_eq_true]
            intro hrtWork
            rw [hrtWork, Bool.and_true] at hrt
            exact hnot ⟨hhp, hrtWork, hwork, hrt, hopen⟩

/-- **A dispatch that nothing interrupts between the two looks is strict.** -/
theorem strictPriority_of_uninterrupted (dd : Deadline) (slotFree : Bool) {i : Interference}
    (hi : i.beforeBe = []) (nowNs : ℕ) :
    dd.StrictPriority (dd.dispatchRequest slotFree i nowNs).2 := by
  rw [strictPriority_iff]
  rintro ⟨-, -, -, hclosed, hopen⟩
  have hsame : (dd.atBeLook slotFree i).gateOpen = (dd.atRtLook slotFree i).gateOpen := by
    unfold atBeLook
    rw [hi]
    exact Throttle.gateOpen_nonHpAllowed _
  exact absurd (hclosed.symm.trans (hsame.symm.trans hopen)) Bool.noConfusion

/-- A write of one sector with a given `ioprio`. -/
def writeOf (ioprio : ℕ) : Request :=
  { Request.zero with
    useSched := true
    op := .write
    sectors := 1
    bytes := 512
    ioprio := ioprio
    hasBio := true }

/-- The `ioprio` of a class at its highest level. -/
def ioprioOf (cls : ℕ) : ℕ := ioprioValueHint cls 0 0

/-- A queue that has seen five slow requests, and computes its first decision
while a BE and an RT write wait. -/
def undecidedQueue : Deadline :=
  machine.run (attach (Throttle.attach 2 [.setThrottleEnabled true, .setQueueDepth 1]))
    (Throttle.slowRequests.map DeadlineOp.throttle ++
      [.throttle .inferenceWorkBegin,
       .prepareRequest 1 (writeOf (ioprioOf ioprioClassBe)),
       .insertRequest 1 false none Throttle.idleTask 0 0,
       .prepareRequest 2 (writeOf (ioprioOf ioprioClassRt)),
       .insertRequest 2 false none Throttle.idleTask 0 0])

/-- The decision arrives after the RT list was passed over and before the BE list
is asked: the BE write goes out, and the RT write stays. -/
theorem strictPriority_lost :
    machine.Reachable undecidedQueue
      ∧ (undecidedQueue.dispatchRequest true
          { beforeBe := [.inferenceWorkFinish 0 none] } 0).2 = some (.be, 1)
      ∧ (undecidedQueue.perPrio .rt).hasWork = true
      ∧ ¬ undecidedQueue.StrictPriority (undecidedQueue.dispatchRequest true
          { beforeBe := [.inferenceWorkFinish 0 none] } 0).2 := by
  have hreturned : (undecidedQueue.dispatchRequest true
      { beforeBe := [.inferenceWorkFinish 0 none] } 0).2 = some (.be, 1) := by
    decide +kernel
  have hwaiting : (undecidedQueue.perPrio .rt).hasWork = true := by
    decide +kernel
  refine ⟨reachable_attach _ _, hreturned, hwaiting, fun hstrict => ?_⟩
  have hidle := hstrict .be 1 .rt hreturned (Nat.lt_succ_self 1)
  exact absurd (hwaiting.symm.trans hidle) Bool.noConfusion

end Deadline
