import SmartIo.DeadlinePriority
import SmartIo.DeadlinePlaces

/-!
# Work to dispatch

The block layer asks a scheduler whether it has work before it asks for a
request, and asks again as long as the answer is yes. `dd_has_work` looks at the
lists and at the gate once; `dd_dispatch_request` submits a decision to the model
thread first, which may open the gate, and looks at the gate for either of the
lower priorities. The two agree (`hasWork_iff_dispatch`): what makes them differ
is the submission alone, and a dispatch that submits leaves nothing to submit.
-/

namespace Throttle

/-! ## Decisions to submit -/

/-- `smart_io_throttle_model_dispatch_needed`. -/
def modelDispatchNeeded (w : Throttle) : Bool :=
  w.globals.throttleEnabled && w.ctx.modelDispatchNeededLocked

/-- Nothing to submit: no decision is pending, or one is being computed. -/
def NothingToSubmit (w : Throttle) : Prop :=
  w.ctx.control.inferencePending = false ∨ w.ctx.control.inferenceRunning = true

theorem NothingToSubmit.modelDispatchNeeded {w : Throttle} (h : w.NothingToSubmit) :
    w.modelDispatchNeeded = false := by
  unfold Throttle.modelDispatchNeeded ThrottleCtx.modelDispatchNeededLocked
  rcases h with h | h
  · rw [h, Bool.false_and, Bool.false_and, Bool.false_and, Bool.and_false]
  · rw [h, Bool.not_true, Bool.and_false, Bool.false_and, Bool.false_and, Bool.and_false]

/-- Without a decision to submit, the throttle is left alone. -/
theorem dispatchModelIfNeeded_idle {w : Throttle} (h : w.modelDispatchNeeded = false)
    (slotFree : Bool) : (w.dispatchModelIfNeeded slotFree).1 = w := by
  have hguard : (!w.globals.throttleEnabled || !w.ctx.modelDispatchNeededLocked) = true := by
    rw [← Bool.not_and]
    exact congrArg not h
  unfold dispatchModelIfNeeded
  rw [if_pos hguard]

/-- **A submission** leaves nothing to submit: it marks the decision as running, or
gives it up because the model thread is busy. -/
theorem nothingToSubmit_dispatchModelIfNeeded {w : Throttle} (h : w.modelDispatchNeeded = true)
    (slotFree : Bool) : (w.dispatchModelIfNeeded slotFree).1.NothingToSubmit := by
  have hguard : (!w.globals.throttleEnabled || !w.ctx.modelDispatchNeededLocked) = false := by
    rw [← Bool.not_and]
    exact congrArg not h
  unfold dispatchModelIfNeeded
  rw [if_neg (by rw [hguard]; exact Bool.false_ne_true)]
  cases slotFree with
  | true => exact Or.inr rfl
  | false => exact Or.inl rfl

end Throttle

/-! ## What the rest of a dispatch keeps -/

namespace ThrottleCtx

variable (c : ThrottleCtx)

/-- What a submission depends on. -/
def submission : Bool × Bool := (c.control.inferencePending, c.control.inferenceRunning)

@[simp] theorem submission_pendingDecLocked (m : MetaId) :
    (c.pendingDecLocked m).submission = c.submission := by
  unfold pendingDecLocked
  dsimp only
  split
  · rfl
  split
  · rfl
  · cases (c.metaPool m).rqClass <;> rfl

@[simp] theorem submission_markDispatch (g : Globals) (m : MetaId) (r : Request) :
    (Throttle.markDispatch c g m r).submission = c.submission := by
  unfold Throttle.markDispatch
  dsimp only
  split
  · exact submission_pendingDecLocked _ m
  · exact submission_pendingDecLocked _ m

/-- A reservation of depth leaves the decision alone, or gives it up. -/
theorem submission_accountDepthLocked (m : MetaId) :
    (c.accountDepthLocked m).1.submission = c.submission
      ∨ (c.accountDepthLocked m).1.control.inferencePending = false := by
  unfold accountDepthLocked
  dsimp only
  split
  · exact Or.inr rfl
  split
  · exact Or.inr rfl
  split
  · exact Or.inl rfl
  · exact Or.inl rfl

@[simp] theorem submission_countClass (m : MetaId) :
    (Throttle.countClass c m).submission = c.submission := by
  unfold Throttle.countClass
  split <;> rfl

@[simp] theorem submission_countSelection (m : MetaId) (selection : DispatchSelection) :
    (Throttle.countSelection c m selection).submission = c.submission := by
  cases selection with
  | backgroundDeadline =>
    show (Throttle.forceDeadline c m).submission = _
    unfold Throttle.forceDeadline
    split <;> rfl
  | foregroundFifo => rfl
  | seqHit => rfl
  | seqFallback => rfl
  | small => rfl
  | backgroundBaseline => rfl

@[simp] theorem submission_bindFeedback (g : Globals) (m : MetaId) (nowNs : ℕ) :
    (Throttle.bindFeedback c g m nowNs).submission = c.submission := by
  unfold Throttle.bindFeedback
  split <;> rfl

end ThrottleCtx

namespace Throttle

/-- Nothing to submit, seen from what a submission depends on. -/
theorem NothingToSubmit.congr {w w' : Throttle} (h : w.NothingToSubmit)
    (heq : w'.ctx.submission = w.ctx.submission) : w'.NothingToSubmit := by
  rcases h with h | h
  · exact Or.inl ((congrArg Prod.fst heq).trans h)
  · exact Or.inr ((congrArg Prod.snd heq).trans h)

/-- A look at the gate leaves nothing to submit. -/
theorem NothingToSubmit.nonHpAllowed {w : Throttle} (h : w.NothingToSubmit) :
    w.nonHpAllowed.1.NothingToSubmit := by
  refine h.congr ?_
  unfold Throttle.nonHpAllowed
  split
  · rfl
  · show (closeGate _ _).submission = _
    unfold closeGate
    split <;> rfl

/-- The account of a dispatch leaves nothing to submit. -/
theorem NothingToSubmit.accountDispatch {w : Throttle} (h : w.NothingToSubmit) (rq : RqAddr)
    (selection : DispatchSelection) (nowNs : ℕ) :
    (w.accountDispatch rq selection nowNs).1.NothingToSubmit := by
  unfold Throttle.accountDispatch
  dsimp only
  cases (w.rqs rq).priv1 with
  | none => exact Or.inl rfl
  | some m =>
    dsimp only
    have hbind := ThrottleCtx.submission_bindFeedback (countSelection (countClass
      ((markDispatch w.ctx w.globals m (w.rqs rq)).accountDepthLocked m).1 m) m selection)
      w.globals m nowNs
    rw [ThrottleCtx.submission_countSelection, ThrottleCtx.submission_countClass] at hbind
    rcases (markDispatch w.ctx w.globals m (w.rqs rq)).submission_accountDepthLocked m with
      hkept | hgiven
    · rw [hkept, ThrottleCtx.submission_markDispatch] at hbind
      exact h.congr hbind
    · exact Or.inl ((congrArg Prod.fst hbind).trans hgiven)

end Throttle

/-! ## The question and the dispatch -/

namespace Deadline

/-- `dd_has_work`: the answer, and what a look at the gate leaves. -/
def hasWork (dd : Deadline) : Deadline × Bool :=
  if !dd.throttle.globals.throttleEnabled then
    (dd, [QueueClass.hp, .rt, .be].any fun prio => (dd.perPrio prio).hasWork)
  else if dd.throttle.modelDispatchNeeded then (dd, true)
  else if (dd.perPrio .hp).hasWork then (dd, true)
  else if !(dd.perPrio .rt).hasWork && !(dd.perPrio .be).hasWork then (dd, false)
  else (dd.throttled .nonHpAllowed, dd.throttle.nonHpAllowed.2)

variable (dd : Deadline)

/-- **When there is work**: a decision to submit, an HP request, or another one and
the gate open. -/
theorem hasWork_snd :
    dd.hasWork.2 = (dd.throttle.modelDispatchNeeded || (dd.perPrio .hp).hasWork
      || (dd.throttle.gateOpen
        && ((dd.perPrio .rt).hasWork || (dd.perPrio .be).hasWork))) := by
  unfold hasWork
  cases henabled : dd.throttle.globals.throttleEnabled with
  | false =>
    have hneeded : dd.throttle.modelDispatchNeeded = false := by
      unfold Throttle.modelDispatchNeeded
      rw [henabled, Bool.false_and]
    have hgate : dd.throttle.gateOpen = true := by
      unfold Throttle.gateOpen
      rw [henabled]
      rfl
    rw [hneeded, hgate, if_pos (show (!false) = true from rfl)]
    simp only [List.any_cons, List.any_nil, Bool.or_false, Bool.false_or, Bool.true_and]
  | true =>
    rw [if_neg (show ¬ (!true) = true from Bool.false_ne_true)]
    cases dd.throttle.modelDispatchNeeded with
    | true => rfl
    | false =>
      rw [if_neg Bool.false_ne_true]
      cases (dd.perPrio .hp).hasWork with
      | true => rfl
      | false =>
        rw [if_neg Bool.false_ne_true, Throttle.nonHpAllowed_snd]
        cases (dd.perPrio .rt).hasWork with
        | true => simp
        | false =>
          cases (dd.perPrio .be).hasWork with
          | true => simp
          | false => simp

/-- An answer of yes changes nothing. -/
theorem hasWork_fst (h : dd.hasWork.2 = true) : dd.hasWork.1 = dd := by
  unfold hasWork at h ⊢
  split
  · rfl
  next henabled =>
  rw [if_neg henabled] at h
  split
  · rfl
  next hneeded =>
  rw [if_neg hneeded] at h
  split
  · rfl
  next hhp =>
  rw [if_neg hhp] at h
  split
  · rfl
  next hother =>
  rw [if_neg hother, Throttle.nonHpAllowed_snd] at h
  show { dd with throttle := dd.throttle.nonHpAllowed.1 } = dd
  rw [Throttle.nonHpAllowed_of_open h]

/-- **When a dispatch that nothing interrupts returns a request**: there is an HP
one, or another one and the gate is open once the decision is submitted. -/
theorem isSome_dispatchRequest (slotFree : Bool) (nowNs : ℕ) :
    (dd.dispatchRequest slotFree {} nowNs).2.isSome
      = ((dd.perPrio .hp).hasWork
        || ((dd.throttle.dispatchModelIfNeeded slotFree).1.gateOpen
          && ((dd.perPrio .rt).hasWork || (dd.perPrio .be).hasWork))) := by
  have hfrom := congrArg Option.isSome (dd.dispatchRequest_from slotFree {} nowNs)
  rw [Option.isSome_map] at hfrom
  have hrt : (dd.atRtLook slotFree {}).gateOpen
      = (dd.throttle.dispatchModelIfNeeded slotFree).1.gateOpen := rfl
  have hbe : (dd.atBeLook slotFree {}).gateOpen
      = (dd.throttle.dispatchModelIfNeeded slotFree).1.gateOpen :=
    Throttle.gateOpen_nonHpAllowed _
  rw [hfrom, hrt, hbe]
  cases (dd.perPrio .hp).hasWork with
  | true => rfl
  | false =>
    cases (dd.throttle.dispatchModelIfNeeded slotFree).1.gateOpen with
    | false => rfl
    | true =>
      cases (dd.perPrio .rt).hasWork with
      | true => rfl
      | false =>
        cases (dd.perPrio .be).hasWork with
        | true => rfl
        | false => rfl

/-- **A dispatch that submits a decision** leaves nothing to submit, whatever else it
does. -/
theorem nothingToSubmit_dispatchRequest (h : dd.throttle.modelDispatchNeeded = true)
    (slotFree : Bool) (nowNs : ℕ) :
    (dd.dispatchRequest slotFree {} nowNs).1.throttle.NothingToSubmit := by
  -- after the submission there are looks at the gate, and the account of the dispatch
  let P : ThrottleOp → Prop := fun op =>
    op = .nonHpAllowed ∨ ∃ rq, op = .accountDispatch rq .backgroundBaseline nowNs
  have hkeeps : ∀ w op, P op → w.NothingToSubmit
      → (Throttle.machine.next w op).NothingToSubmit := by
    rintro w op (rfl | ⟨rq, rfl⟩) hw
    · exact hw.nonHpAllowed
    · exact hw.accountDispatch rq _ nowNs
  have hsubmit := Throttle.nothingToSubmit_dispatchModelIfNeeded h slotFree
  have hpath : Throttle.machine.Path P (dd.throttle.dispatchModelIfNeeded slotFree).1
      (dd.dispatchRequest slotFree {} nowNs).1.throttle := by
    have hchoose := path_choose (P := P)
      (d := (dd.throttled (.dispatchModelIfNeeded slotFree)).meanwhile []) .refl (Or.inl rfl)
    unfold dispatchRequest
    dsimp only
    generalize ((dd.throttled (.dispatchModelIfNeeded slotFree)).meanwhile []).choose {} = p
      at hchoose
    obtain ⟨dd', _ | ⟨prio, rq⟩⟩ := p
    · exact hchoose
    · exact path_throttled (d := dd'.meanwhile []) hchoose (Or.inr ⟨rq, rfl⟩)
  exact hpath.invariant hkeeps hsubmit

/-- **Work and dispatch agree**, in every state. A dispatch that returns a request
does so where there is work; where there is work, and no decision to submit, a
dispatch returns a request, also after the question; and where there is a decision
to submit, a dispatch leaves none. -/
theorem hasWork_iff_dispatch (slotFree : Bool) (nowNs : ℕ) :
    ((dd.dispatchRequest slotFree {} nowNs).2.isSome = true → dd.hasWork.2 = true)
      ∧ (dd.hasWork.2 = true → dd.throttle.modelDispatchNeeded = false →
          dd.hasWork.1 = dd ∧ (dd.dispatchRequest slotFree {} nowNs).2.isSome = true)
      ∧ (dd.throttle.modelDispatchNeeded = true →
          (dd.dispatchRequest slotFree {} nowNs).1.throttle.modelDispatchNeeded = false) := by
  rw [isSome_dispatchRequest]
  cases hneeded : dd.throttle.modelDispatchNeeded with
  | true =>
    refine ⟨fun _ => ?_, fun _ hnot => absurd hnot.symm Bool.false_ne_true, fun _ => ?_⟩
    · rw [hasWork_snd, hneeded]
      rfl
    · exact (dd.nothingToSubmit_dispatchRequest hneeded slotFree nowNs).modelDispatchNeeded
  | false =>
    have hwork := dd.hasWork_snd
    rw [hneeded, Bool.false_or] at hwork
    rw [Throttle.dispatchModelIfNeeded_idle hneeded]
    refine ⟨fun hsome => hwork.trans hsome, fun hyes _ => ⟨dd.hasWork_fst hyes, ?_⟩,
      fun hnot => absurd hnot Bool.false_ne_true⟩
    exact hwork.symm.trans hyes

/-- A background write waits, and slow requests have started a decision for the model:
there is work, and the dispatch submits the decision and returns no request. With
nothing throttled, the dispatch returns the write. -/
theorem hasWork_iff_dispatch_submits :
    let write : List DeadlineOp := [.prepareRequest 1 (writeOf (ioprioOf ioprioClassBe)),
      .insertRequest 1 false none Throttle.idleTask 0 0]
    let waiting := machine.run (attach (Throttle.attach 2 [])) write
    let dd := machine.run (attach (Throttle.attach 3 [.setThrottleEnabled true, .setQueueDepth 1,
      .setActionSource 1 true])) (write ++ Throttle.slowRequests.map DeadlineOp.throttle)
    (waiting.hasWork.2 = true ∧ (waiting.dispatchRequest true {} 0).2.isSome = true)
      ∧ dd.throttle.modelDispatchNeeded = true ∧ dd.hasWork.2 = true
      ∧ (dd.dispatchRequest true {} 0).2 = none
      ∧ (dd.dispatchRequest true {} 0).1.throttle.modelDispatchNeeded = false := by
  intro write waiting dd
  obtain ⟨hreturned, hyes, -⟩ := waiting.hasWork_iff_dispatch true 0
  have hwork : waiting.hasWork.2 = true := hreturned (by decide +kernel)
  have hneeded : dd.throttle.modelDispatchNeeded = true := by decide +kernel
  exact ⟨⟨hwork, (hyes hwork (by decide +kernel)).2⟩, hneeded, by decide +kernel,
    by decide +kernel, (dd.hasWork_iff_dispatch true 0).2.2 hneeded⟩

end Deadline
