import SmartIo.DeadlinePlaces
import SmartIo.DeadlinePriority
import SmartIo.ThrottleControl

/-!
# The bound of the background depth

While an action is in force, a dispatch takes background depth only if the gate
finds room for it, so it leaves the depth at the target at most. The other
place where depth is taken is the issue: a request whose reservation was given
back, by a requeue, takes it again there, and no one looks at the gate.

So the background depth stays within the target as long as no background
request without a reservation is issued with the target used up
(`IssuesPastTarget`) – and exceeds it with the first that is.
-/

open ThrottleCtx

/-! ## Moves that take background depth -/

/-- **A move takes background depth**: it reserves some for a record that held
none. -/
def BooksMove.TakesBg (b : Books) : BooksMove → Prop
  | .post m f => (b.ledger.record m).bgDepthAccounted = false
      ∧ (f (b.ledger.record m)).bgDepthAccounted = true
  | .enter _ _ _ s => s.bgDepthAccounted = true
  | _ => False

/-- No other move raises the depth. -/
theorem Books.bg_make_le {b : Books} {mv : BooksMove} (h : ¬ mv.TakesBg b) :
    (b.make mv).ledger.balance .bgCurrentDepth ≤ b.ledger.balance .bgCurrentDepth := by
  cases mv with
  | same => exact le_refl _
  | post m f =>
    show b.ledger.balance .bgCurrentDepth + (f (b.ledger.record m)).bgDepthAccounted.toNat
      - (b.ledger.record m).bgDepthAccounted.toNat ≤ _
    cases hold : (b.ledger.record m).bgDepthAccounted with
    | true =>
      have hle := Bool.toNat_le (f (b.ledger.record m)).bgDepthAccounted
      show _ + _ - 1 ≤ _
      omega
    | false =>
      cases hnew : (f (b.ledger.record m)).bgDepthAccounted with
      | true => exact absurd ⟨hold, hnew⟩ h
      | false => exact le_refl _
  | enter rq m rest s =>
    show b.ledger.balance .bgCurrentDepth + s.bgDepthAccounted.toNat ≤ _
    rw [show s.bgDepthAccounted = false from Bool.not_eq_true _ ▸ h]
    exact le_refl _
  | leave m => exact Nat.sub_le _ _

/-- A move that does raises it by one. -/
theorem Books.bg_make_succ {b : Books} {mv : BooksMove} (h : mv.TakesBg b) :
    (b.make mv).ledger.balance .bgCurrentDepth
      = b.ledger.balance .bgCurrentDepth + 1 := by
  cases mv with
  | same => exact absurd h id
  | post m f =>
    show b.ledger.balance .bgCurrentDepth + (f (b.ledger.record m)).bgDepthAccounted.toNat
      - (b.ledger.record m).bgDepthAccounted.toNat = _
    rw [h.1, h.2]
    rfl
  | enter rq m rest s =>
    show b.ledger.balance .bgCurrentDepth + s.bgDepthAccounted.toNat = _
    rw [show s.bgDepthAccounted = true from h]
    rfl
  | leave m => exact absurd h id

/-- **What takes depth when it is reserved**: a record without a reservation, that
is not an HP one. -/
theorem MetaStatus.reserve_takes {s : MetaStatus} (h : s.BgReserved) :
    s.bgDepthAccounted = false ∧ s.reserve.bgDepthAccounted = true
      ↔ s.depthAccounted = false ∧ s.queueClass ≠ .hp := by
  unfold MetaStatus.reserve
  cases hd : s.depthAccounted with
  | true =>
    rw [if_pos rfl]
    exact iff_of_false (fun h => Bool.noConfusion (h.1.symm.trans h.2))
      (fun h => Bool.noConfusion h.1)
  | false =>
    rw [if_neg Bool.false_ne_true]
    have hb : s.bgDepthAccounted = false := by
      rw [← Bool.not_eq_true]
      exact fun hb => Bool.noConfusion (hd.symm.trans (h hb))
    show s.bgDepthAccounted = false ∧ decide (s.queueClass ≠ .hp) = true ↔ _
    rw [decide_eq_true_iff, hb]

namespace Throttle

/-- The record of which a section reserves depth. -/
def reserved (w : Throttle) : ThrottleOp → Option MetaId
  | .accountDispatch rq _ _ => (w.rqs rq).priv1
  | .recordIssue rq _ _ => w.ctx.findMetaLocked rq
  | _ => none

/-- **A section takes background depth**: it reserves depth for a record that holds
none and is not an HP one. -/
def TakesBg (w : Throttle) (op : ThrottleOp) : Prop :=
  ∃ m ∈ w.reserved op,
    (w.ctx.metaPool m).depthAccounted = false ∧ (w.ctx.metaPool m).queueClass ≠ .hp

instance (w : Throttle) : DecidablePred w.TakesBg := fun op =>
  inferInstanceAs (Decidable (∃ m ∈ w.reserved op, _))

/-- Its move is the one that does. -/
theorem takesBg_move {w : Throttle} (h : Accounted w) (op : ThrottleOp) :
    (w.move op).TakesBg w.ctx.books ↔ w.TakesBg op := by
  have hnone : ∀ {op : ThrottleOp}, w.reserved op = none → ¬ w.TakesBg op := by
    rintro op hop ⟨m, hm, -⟩
    rw [hop] at hm
    exact Option.not_mem_none m hm
  have hsome : ∀ (op : ThrottleOp) {m : MetaId}, w.reserved op = some m →
      (w.TakesBg op ↔ (w.ctx.metaPool m).depthAccounted = false
        ∧ (w.ctx.metaPool m).queueClass ≠ .hp) := by
    intro op m hop
    constructor
    · rintro ⟨n, hn, htakes⟩
      rw [hop] at hn
      rw [Option.mem_some_iff.mp hn]
      exact htakes
    · exact fun htakes => ⟨m, by rw [hop]; exact Option.mem_some_self m, htakes⟩
  have henter : ∀ {rq : RqAddr} {s : MetaStatus}, s.bgDepthAccounted = false →
      ¬ (w.enterMove rq s).TakesBg w.ctx.books := by
    intro rq s hs
    unfold enterMove
    split
    · exact id
    · exact fun ht => Bool.noConfusion (hs.symm.trans ht)
  cases op with
  | classifyRequest rq t nowNs =>
    refine iff_of_false ?_ (hnone rfl)
    simp only [move]
    split
    · -- to wait in a queue takes no depth
      rintro ⟨hold, hnew⟩
      exact Bool.noConfusion (hold.symm.trans hnew)
    · exact henter rfl
  | unqueueRequest rq =>
    refine iff_of_false ?_ (hnone rfl)
    simp only [move]
    split
    · rintro ⟨hold, hnew⟩
      exact Bool.noConfusion (hold.symm.trans hnew)
    · exact id
  | accountDispatch rq selection nowNs =>
    simp only [move]
    cases hpriv : (w.rqs rq).priv1 with
    | none => exact iff_of_false id (hnone hpriv)
    | some m =>
      rw [hsome (.accountDispatch rq selection nowNs) hpriv]
      have hres := h.books.reserved m (h.priv rq m hpriv).1
      refine Iff.trans ?_ (MetaStatus.reserve_takes (s := (w.ctx.metaPool m).status.unqueue) hres)
      show _ ∧ (MetaStatus.dispatch _ _).bgDepthAccounted = true ↔ _
      unfold MetaStatus.dispatch
      split <;> exact Iff.rfl
  | finishRequest rq =>
    refine iff_of_false ?_ (hnone rfl)
    simp only [move]
    split <;> exact id
  | recordIssue rq t nowNs =>
    simp only [move]
    cases hfind : w.ctx.findMetaLocked rq with
    | none => exact iff_of_false (henter rfl) (hnone hfind)
    | some m =>
      rw [hsome (.recordIssue rq t nowNs) hfind]
      have hres := h.books.reserved m (findMetaLocked_some hfind).1
      exact MetaStatus.reserve_takes (s := (w.ctx.metaPool m).status) hres
  | recordRequeue rq =>
    refine iff_of_false ?_ (hnone rfl)
    simp only [move]
    split
    · rintro ⟨-, hnew⟩
      exact Bool.false_ne_true hnew
    · exact id
  | recordComplete rq nrBytes nowNs =>
    refine iff_of_false ?_ (hnone rfl)
    simp only [move]
    split
    · split <;> exact id
    · exact id
  | _ => exact iff_of_false id (hnone rfl)

/-- **Only a section that takes background depth raises it.** -/
theorem bgCurrentDepth_le {w : Throttle} (h : Accounted w) {op : ThrottleOp}
    (hop : ¬ w.TakesBg op) : (w.step op).1.ctx.bgCurrentDepth ≤ w.ctx.bgCurrentDepth := by
  show (w.step op).1.ctx.books.ledger.balance .bgCurrentDepth ≤ _
  rw [(step_makes h op).books]
  exact Books.bg_make_le (mt (takesBg_move h op).mp hop)

/-- … and it raises it by one. -/
theorem bgCurrentDepth_succ {w : Throttle} (h : Accounted w) {op : ThrottleOp}
    (hop : w.TakesBg op) : (w.step op).1.ctx.bgCurrentDepth = w.ctx.bgCurrentDepth + 1 := by
  show (w.step op).1.ctx.books.ledger.balance .bgCurrentDepth = _
  rw [(step_makes h op).books]
  exact Books.bg_make_succ ((takesBg_move h op).mpr hop)

/-! ## The action in force -/

@[simp] theorem action_pendingDecLocked (c : ThrottleCtx) (m : MetaId) :
    (c.pendingDecLocked m).control.action = c.control.action := by
  unfold pendingDecLocked
  dsimp only
  split
  · rfl
  · split
    · rfl
    · cases (c.metaPool m).rqClass <;> rfl

@[simp] theorem action_markDispatch (c : ThrottleCtx) (g : Globals) (m : MetaId)
    (r : Request) : (markDispatch c g m r).control.action = c.control.action := by
  unfold markDispatch
  dsimp only
  split
  · exact action_pendingDecLocked _ _
  · exact action_pendingDecLocked _ _

@[simp] theorem action_countClass (c : ThrottleCtx) (m : MetaId) :
    (countClass c m).control.action = c.control.action := by
  unfold countClass
  split <;> rfl

@[simp] theorem action_countSelection (c : ThrottleCtx) (m : MetaId)
    (selection : DispatchSelection) :
    (countSelection c m selection).control.action = c.control.action := by
  cases selection with
  | backgroundDeadline =>
    show (forceDeadline c m).control.action = _
    unfold forceDeadline
    split <;> rfl
  | _ => rfl

@[simp] theorem action_bindFeedback (c : ThrottleCtx) (g : Globals) (m : MetaId)
    (nowNs : ℕ) : (bindFeedback c g m nowNs).control.action = c.control.action := by
  unfold bindFeedback
  split <;> rfl

/-- A dispatch that reserves depth keeps the action. -/
theorem action_accountDispatch {w : Throttle} (h : Accounted w) {rq : RqAddr} {m : MetaId}
    (hpriv : (w.rqs rq).priv1 = some m) (hd : (w.ctx.metaPool m).depthAccounted = false)
    (selection : DispatchSelection) (nowNs : ℕ) :
    (w.accountDispatch rq selection nowNs).1.ctx.control.action = w.ctx.control.action := by
  have hp := posted_markDispatch (Posted.refl h.books (h.priv rq m hpriv).1) w.globals (w.rqs rq)
  have hfree := (depthAccounted_markDispatch w.ctx w.globals m (w.rqs rq)).trans hd
  unfold accountDispatch
  rw [hpriv]
  show (bindFeedback (countSelection (countClass _ m) m selection) _ m nowNs).control.action = _
  rw [action_bindFeedback, action_countSelection, action_countClass,
    accountDepthLocked_eq hp.sound hp.mem, if_neg (by rw [hfree]; exact Bool.false_ne_true)]
  exact action_markDispatch w.ctx w.globals m (w.rqs rq)

@[simp] theorem action_inflightAddLocked (c : ThrottleCtx) (m : MetaId) (r : Request) :
    (c.inflightAddLocked m r).control.action = c.control.action := by
  unfold inflightAddLocked
  dsimp only
  split <;> rfl

@[simp] theorem action_stampIssue (c : ThrottleCtx) (g : Globals) (m : MetaId) (nowNs : ℕ) :
    (stampIssue c g m nowNs).control.action = c.control.action := by
  unfold stampIssue
  split <;> rfl

@[simp] theorem action_issueFeedback (c : ThrottleCtx) (m : MetaId) :
    (issueFeedback c m).control.action = c.control.action := by
  unfold issueFeedback
  split <;> rfl

/-- The reservations of an issue keep the action. -/
theorem action_reserveIssue {c : ThrottleCtx} {m : MetaId} (h : c.books.Sound)
    (hm : m ∈ c.activeMetas) : (reserveIssue c m).1.control.action = c.control.action := by
  unfold reserveIssue
  dsimp only
  -- the depth first, for a record that holds none
  have hdepth : ∃ c', (if (c.metaPool m).depthAccounted then (c, false)
        else c.accountDepthLocked m).1 = c'
      ∧ c'.books.Sound ∧ m ∈ c'.activeMetas ∧ c'.control.action = c.control.action := by
    refine ⟨_, rfl, ?_⟩
    by_cases hd : (c.metaPool m).depthAccounted = true
    · rw [if_pos hd]
      exact ⟨h, hm, rfl⟩
    · have hp := (Posted.refl h hm).reserve
      rw [if_neg hd]
      refine ⟨hp.sound, hp.mem, ?_⟩
      rw [accountDepthLocked_eq h hm, if_neg hd]
      rfl
  obtain ⟨c', hc', hsound, hlive, haction⟩ := hdepth
  rw [hc', ← haction]
  by_cases hi : (c'.metaPool m).issuedAccounted = true
  · rw [if_pos hi]
  · rw [if_neg hi, accountIssuedDepthLocked_eq hsound hlive, if_neg hi]
    rfl

/-- An issue of a request that has metadata keeps the action. -/
theorem action_recordIssue {w : Throttle} (h : Accounted w) {rq : RqAddr} {m : MetaId}
    (hfind : w.ctx.findMetaLocked rq = some m) (t : TaskCtx) (nowNs : ℕ) :
    (w.recordIssue rq t nowNs).1.ctx.control.action = w.ctx.control.action := by
  have hp := (Posted.refl h.books (findMetaLocked_some hfind).1).quiet
    (w.ctx.books_modifyMeta m
      (f := fun x => { x with deviceTimeExcluded := deviceTimeExcludedOf (w.rqs rq) }) rfl)
  unfold recordIssue
  rw [hfind]
  show (issueMeta w.ctx w.globals (w.rqs rq) m nowNs).1.control.action = _
  unfold issueMeta
  dsimp only
  rw [action_issueFeedback, action_stampIssue, action_inflightAddLocked]
  exact action_reserveIssue hp.sound hp.mem

/-- **A section that takes background depth keeps the action.** -/
theorem action_of_takesBg {w : Throttle} (h : Accounted w) {op : ThrottleOp}
    (hop : w.TakesBg op) :
    (w.step op).1.ctx.control.action = w.ctx.control.action := by
  obtain ⟨m, hm, hd, -⟩ := hop
  cases op with
  | accountDispatch rq selection nowNs => exact action_accountDispatch h hm hd selection nowNs
  | recordIssue rq t nowNs => exact action_recordIssue h hm t nowNs
  | _ => exact absurd hm (Option.not_mem_none m)

/-! ## Throttled depth -/

/-- **The depth is bounded**: throttling is enabled and not left to the driver,
and an action that is not NO is in force, with no decision on its way. -/
def BoundsDepth (w : Throttle) : Prop :=
  w.globals.throttleEnabled = true ∧ w.globals.queueRqThrottleDemo = false
    ∧ w.ctx.control.actionValid = true ∧ w.ctx.control.action.level ≠ .no
    ∧ w.ctx.control.inferencePending = false

instance : DecidablePred BoundsDepth := fun _ =>
  inferInstanceAs (Decidable (_ ∧ _ ∧ _ ∧ _ ∧ _))

/-- The gate is open as long as the target is not used up. -/
theorem gateOpen_of_boundsDepth {w : Throttle} (h : w.BoundsDepth)
    (hactive : w.ctx.control.throttleActive = true) (hopen : w.gateOpen = true) :
    w.ctx.bgCurrentDepth < w.ctx.control.action.targetDepth := by
  obtain ⟨hen, hdemo, hvalid, hlevel, hpend⟩ := h
  have hcan : w.ctx.depthCanRunLocked
      = decide (w.ctx.bgCurrentDepth < w.ctx.control.action.targetDepth) := by
    unfold depthCanRunLocked
    rw [hactive, hvalid, decide_eq_false hlevel]
    rfl
  unfold gateOpen gateReasonOf at hopen
  rw [hen, hdemo, hpend, hcan] at hopen
  by_contra hlt
  rw [decide_eq_false hlt] at hopen
  exact absurd hopen (by decide)

/-- Without a pending decision, none is submitted. -/
theorem dispatchModelIfNeeded_of_not_pending {w : Throttle}
    (h : w.ctx.control.inferencePending = false) (slotFree : Bool) :
    (w.dispatchModelIfNeeded slotFree).1 = w := by
  have hnot : w.ctx.modelDispatchNeededLocked = false := by
    unfold modelDispatchNeededLocked
    rw [h]
    rfl
  unfold dispatchModelIfNeeded
  dsimp only
  rw [hnot, Bool.not_false, Bool.or_true, if_pos rfl]

end Throttle

namespace Deadline

variable {d : Deadline}

/-! ## A dispatch that nothing interrupts -/

/-- A dispatch from a list takes a request off it, or finds none. -/
theorem dispatchFifo_cases (d : Deadline) (prio : QueueClass) :
    d.dispatchFifo prio = (d, none)
      ∨ ∃ d' rq, d.dispatchFifo prio = (d', some (prio, rq)) ∧ d'.throttle = d.throttle
          ∧ d.On prio rq := by
  have hthrottle := dispatchFifo_throttle d prio
  unfold dispatchFifo at hthrottle ⊢
  cases hpick : (d.perPrio prio).pick d.throttle.rqs with
  | none => exact .inl rfl
  | some rq =>
    rw [hpick] at hthrottle
    exact .inr ⟨_, rq, rfl, hthrottle, DdPerPrio.holds_of_pick hpick⟩

theorem dispatchGated_open (h : d.throttle.gateOpen = true) (prio : QueueClass) :
    d.dispatchGated prio = d.dispatchFifo prio := by
  unfold dispatchGated throttled
  rw [show d.throttle.step .nonHpAllowed = (d.throttle.nonHpAllowed.1, {}) from rfl,
    Throttle.nonHpAllowed_of_open h, if_pos rfl]

theorem dispatchGated_closed (h : d.throttle.gateOpen = false) (prio : QueueClass) :
    d.dispatchGated prio = (d.throttled .nonHpAllowed, none) := by
  unfold dispatchGated
  rw [Throttle.nonHpAllowed_snd, h]
  rfl

/-- The books of the throttle, after a look at the gate. -/
theorem books_nonHpAllowed (d : Deadline) :
    (d.throttled .nonHpAllowed).throttle.ctx.books = d.throttle.ctx.books := by
  show (d.throttle.nonHpAllowed).1.ctx.books = _
  unfold Throttle.nonHpAllowed
  split
  · rfl
  · exact Throttle.books_closeGate _ _

/-- **A choice that nothing interrupts**: none, an HP request, or one that the gate
lets pass. -/
theorem choose_alone (d : Deadline) :
    (∃ d', d.choose {} = (d', none) ∧ d'.throttle.ctx.books = d.throttle.ctx.books)
      ∨ ∃ d' prio rq, d.choose {} = (d', some (prio, rq)) ∧ d'.throttle = d.throttle
          ∧ (d.On .hp rq ∨ d.throttle.gateOpen = true) := by
  unfold choose
  obtain hhp | ⟨d', rq, hhp, hthrottle, hon⟩ := d.dispatchFifo_cases .hp
  · rw [hhp]
    cases hgate : d.throttle.gateOpen with
    | true =>
      have hrt := d.dispatchFifo_cases .rt
      have hbe := d.dispatchFifo_cases .be
      rw [← dispatchGated_open hgate] at hrt hbe
      rcases hrt with hrt | ⟨d', rq, hrt, hthrottle, -⟩
      · rcases hbe with hbe | ⟨d', rq, hbe, hthrottle, -⟩
        · exact .inl ⟨d, by simp only [meanwhile_nil, hrt, hbe], rfl⟩
        · exact .inr ⟨d', .be, rq, by simp only [meanwhile_nil, hrt, hbe], hthrottle, .inr rfl⟩
      · exact .inr ⟨d', .rt, rq, by simp only [meanwhile_nil, hrt], hthrottle, .inr rfl⟩
    | false =>
      -- closed for RT, and so for BE
      have hrt := dispatchGated_closed hgate .rt
      have hgate' : (d.throttled .nonHpAllowed).throttle.gateOpen = false :=
        (Throttle.gateOpen_nonHpAllowed d.throttle).trans hgate
      have hbe := dispatchGated_closed hgate' .be
      refine .inl ⟨(d.throttled .nonHpAllowed).throttled .nonHpAllowed,
        by simp only [meanwhile_nil, hrt, hbe], ?_⟩
      exact (books_nonHpAllowed _).trans (books_nonHpAllowed d)
  · rw [hhp]
    exact .inr ⟨d', .hp, rq, rfl, hthrottle, .inl hon⟩

/-- **A dispatch that nothing interrupts**, with no decision pending: it accounts no
request, an HP one, or one that the gate lets pass. -/
theorem dispatchRequest_alone (h : d.throttle.ctx.control.inferencePending = false)
    (slotFree : Bool) (nowNs : ℕ) :
    (d.dispatchRequest slotFree {} nowNs).1.throttle.ctx.books = d.throttle.ctx.books
      ∨ ∃ rq, (d.On .hp rq ∨ d.throttle.gateOpen = true)
          ∧ (d.dispatchRequest slotFree {} nowNs).1.throttle
            = (d.throttle.step (.accountDispatch rq .backgroundBaseline nowNs)).1 := by
  have hsubmit : d.throttled (.dispatchModelIfNeeded slotFree) = d :=
    congrArg (fun w => { d with throttle := w })
      (Throttle.dispatchModelIfNeeded_of_not_pending h slotFree)
  unfold dispatchRequest
  dsimp only
  rw [hsubmit, meanwhile_nil]
  obtain ⟨d', hchoose, hbooks⟩ | ⟨d', prio, rq, hchoose, hthrottle, hpass⟩ := d.choose_alone
  · rw [hchoose]
    exact .inl hbooks
  · rw [hchoose]
    refine .inr ⟨rq, hpass, ?_⟩
    rw [← hthrottle]
    rfl

/-! ## The bound -/

/-- **The bound of a step**: if it raises the background depth, it leaves it at the
target at most. -/
def DepthBounded (d : Deadline) (op : DeadlineOp) : Prop :=
  d.throttle.ctx.bgCurrentDepth < (d.step op).throttle.ctx.bgCurrentDepth →
    (d.step op).throttle.ctx.bgCurrentDepth
      ≤ (d.step op).throttle.ctx.control.action.targetDepth

/-- **A background request without a reservation is issued** with the target used
up. -/
def IssuesPastTarget (d : Deadline) : DeadlineOp → Prop
  | .throttle (.recordIssue rq t nowNs) =>
    d.queued rq = false ∧ d.throttle.TakesBg (.recordIssue rq t nowNs)
      ∧ d.throttle.ctx.control.action.targetDepth ≤ d.throttle.ctx.bgCurrentDepth
  | _ => False

instance (d : Deadline) : DecidablePred d.IssuesPastTarget := fun op => by
  unfold IssuesPastTarget
  split <;> infer_instance

/-- A dispatch is bounded: the gate has looked. -/
theorem depthBounded_dispatch (hacc : Throttle.Accounted d.throttle) (hpl : Placed d)
    (hsound : d.throttle.ctx.feedback.Sound) (hb : d.throttle.BoundsDepth) (slotFree : Bool)
    (nowNs : ℕ) : DepthBounded d (.dispatchRequest slotFree nowNs) := by
  intro hlt
  have hactive : d.throttle.ctx.control.throttleActive = true :=
    hsound.active.mpr (.inr hb.2.2.1)
  rcases dispatchRequest_alone hb.2.2.2.2 slotFree nowNs with hsame | ⟨rq, hpass, hstep⟩
  · have hdepth : (d.step (.dispatchRequest slotFree nowNs)).throttle.ctx.bgCurrentDepth
        = d.throttle.ctx.bgCurrentDepth :=
      congrArg (fun b : Books => b.ledger.balance .bgCurrentDepth) hsame
    exact absurd hlt (hdepth ▸ lt_irrefl _)
  · show (d.dispatchRequest slotFree {} nowNs).1.throttle.ctx.bgCurrentDepth
      ≤ (d.dispatchRequest slotFree {} nowNs).1.throttle.ctx.control.action.targetDepth
    change _ < (d.dispatchRequest slotFree {} nowNs).1.throttle.ctx.bgCurrentDepth at hlt
    rw [hstep] at hlt ⊢
    by_cases htakes : d.throttle.TakesBg (.accountDispatch rq .backgroundBaseline nowNs)
    · rw [Throttle.bgCurrentDepth_succ hacc htakes, Throttle.action_of_takesBg hacc htakes]
      rcases hpass with hon | hopen
      · -- a request of the HP lists takes none
        obtain ⟨m, hm, -, hclass⟩ := htakes
        exact absurd (hpl.hp rq hon m hm) hclass
      · exact Throttle.gateOpen_of_boundsDepth hb hactive hopen
    · exact absurd hlt (Throttle.bgCurrentDepth_le hacc htakes).not_gt

/-- No other step of the scheduler takes background depth. -/
theorem bgCurrentDepth_step_le (hacc : Throttle.Accounted d.throttle) {op : DeadlineOp}
    (hdispatch : ∀ slotFree nowNs, op ≠ .dispatchRequest slotFree nowNs)
    (hissue : ∀ rq t nowNs, op ≠ .throttle (.recordIssue rq t nowNs)) :
    (d.step op).throttle.ctx.bgCurrentDepth ≤ d.throttle.ctx.bgCurrentDepth := by
  refine ((d.path_step op).invariant (I := fun w => Throttle.Accounted w
    ∧ w.ctx.bgCurrentDepth ≤ d.throttle.ctx.bgCurrentDepth) ?_ ⟨hacc, le_rfl⟩).2
  rintro w o ho ⟨hw, hle⟩
  refine ⟨hw.makes (Throttle.step_makes hw o), le_trans (Throttle.bgCurrentDepth_le hw ?_) hle⟩
  rintro ⟨m, hm, -⟩
  cases o with
  | accountDispatch rq selection nowNs =>
    obtain ⟨slotFree, nowNs, hop⟩ := ho
    exact hdispatch slotFree nowNs hop
  | recordIssue rq t nowNs => exact hissue rq t nowNs ho
  | _ => exact Option.not_mem_none m hm

/-- **A step is bounded just when it does not issue past the target.** -/
theorem depthBounded_iff (h : machine.Reachable d) (hb : d.throttle.BoundsDepth)
    (op : DeadlineOp) : DepthBounded d op ↔ ¬ IssuesPastTarget d op := by
  have hw := reachable_throttle h
  have hacc := Throttle.accounted_of_reachable hw
  by_cases hdispatch : ∃ slotFree nowNs, op = .dispatchRequest slotFree nowNs
  · obtain ⟨slotFree, nowNs, rfl⟩ := hdispatch
    exact iff_of_true (depthBounded_dispatch hacc (placed_of_reachable h)
      (Throttle.feedbackSound_of_reachable hw) hb slotFree nowNs) id
  by_cases hissue : ∃ rq t nowNs, op = .throttle (.recordIssue rq t nowNs)
  · obtain ⟨rq, t, nowNs, rfl⟩ := hissue
    cases hq : d.queued rq with
    | true =>
      -- a queued request is not with the driver
      have hstay : d.step (.throttle (.recordIssue rq t nowNs)) = d := by
        show (if (false || d.queued rq) = true then d else _) = d
        rw [hq]
        rfl
      refine iff_of_true (fun hlt => ?_) (fun hbad => Bool.noConfusion (hq.symm.trans hbad.1))
      rw [hstay] at hlt
      exact absurd hlt (lt_irrefl _)
    | false =>
      have hstep : d.step (.throttle (.recordIssue rq t nowNs))
          = d.throttled (.recordIssue rq t nowNs) := by
        show (if (false || d.queued rq) = true then d else _) = _
        rw [hq]
        rfl
      unfold DepthBounded
      rw [hstep, throttled_throttle]
      by_cases htakes : d.throttle.TakesBg (.recordIssue rq t nowNs)
      · rw [Throttle.bgCurrentDepth_succ hacc htakes, Throttle.action_of_takesBg hacc htakes]
        constructor
        · rintro hbound ⟨-, -, hfull⟩
          exact absurd (hbound (Nat.lt_succ_self _)) (Nat.lt_succ_of_le hfull).not_ge
        · intro hnot _
          by_contra hover
          exact hnot ⟨hq, htakes, Nat.le_of_lt_succ (not_le.mp hover)⟩
      · exact iff_of_true
          (fun hlt => absurd hlt (Throttle.bgCurrentDepth_le hacc htakes).not_gt)
          (fun hbad => htakes hbad.2.1)
  · have hle := bgCurrentDepth_step_le hacc
      (fun slotFree nowNs hop => hdispatch ⟨slotFree, nowNs, hop⟩)
      (fun rq t nowNs hop => hissue ⟨rq, t, nowNs, hop⟩)
    refine iff_of_true (fun hlt => absurd hlt hle.not_gt) (fun hbad => ?_)
    unfold IssuesPastTarget at hbad
    split at hbad
    · exact hissue ⟨_, _, _, rfl⟩
    · exact hbad

/-- **The background depth is bounded in the runs that issue nothing past the
target** – and in no other. -/
theorem depth_bounded_iff (h : machine.init d) (ops : List DeadlineOp) :
    machine.StepsMeet (fun d op => d.throttle.BoundsDepth → DepthBounded d op) d ops
      ↔ machine.StepsMeet (fun d op => d.throttle.BoundsDepth → ¬ IssuesPastTarget d op) d ops :=
  StepMachine.stepsMeet_congr (M := machine) (I := machine.Reachable)
    (fun _ op hd => forall_congr' (fun hb => depthBounded_iff hd hb op))
    (fun _ op hd => hd.run [op]) (.of_init h) ops

/-- A queue of depth two that has decided to throttle at half of it. -/
def throttleHalf : List DeadlineOp :=
  Throttle.slowRequests.map DeadlineOp.throttle
    ++ [.throttle .inferenceWorkBegin, .throttle (.inferenceWorkFinish 0 none)]

/-- A write is inserted, dispatched, issued and bounced. -/
def bounceWrite (rq : RqAddr) : List DeadlineOp :=
  [.prepareRequest rq (writeOf 0), .insertRequest rq false none Throttle.idleTask 0 0,
    .dispatchRequest true 0, .throttle (.recordIssue rq Throttle.idleTask 0),
    .throttle (.recordRequeue rq)]

/-- The write that was bounced is issued again, alone. -/
theorem depth_bounded_alone :
    machine.StepsMeet (fun d op => d.throttle.BoundsDepth → DepthBounded d op)
      (attach (Throttle.attach 2 [.setThrottleEnabled true, .setQueueDepth 2]))
      (throttleHalf ++ bounceWrite 1 ++ [.throttle (.recordIssue 1 Throttle.idleTask 0)]) := by
  refine (depth_bounded_iff ⟨_, Throttle.attached_attach Nat.one_ne_zero Nat.one_ne_zero
    (by decide) _, rfl⟩ _).mpr ?_
  decide +kernel

/-- A queue with a write that was bounced, and another at the device in its
place. -/
def bouncedQueue : Deadline :=
  machine.run (attach (Throttle.attach 2 [.setThrottleEnabled true, .setQueueDepth 2]))
    (throttleHalf ++ bounceWrite 1
      ++ [.prepareRequest 2 (writeOf 0), .insertRequest 2 false none Throttle.idleTask 0 0,
        .dispatchRequest true 0])

/-- **The bound fails** when the write that was bounced is issued again. -/
theorem depth_exceeded :
    machine.Reachable bouncedQueue ∧ bouncedQueue.throttle.BoundsDepth
      ∧ ¬ DepthBounded bouncedQueue (.throttle (.recordIssue 1 Throttle.idleTask 0)) := by
  refine ⟨reachable_attach _ _, ?_, fun hbound => ?_⟩
  · decide +kernel
  · unfold DepthBounded at hbound
    revert hbound
    decide +kernel

end Deadline
