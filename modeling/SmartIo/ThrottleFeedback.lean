import SmartIo.ThrottleAccounting

/-!
# The feedback loop

While an action is in force the throttle follows one dispatched request at a
time – bound at its dispatch, stamped at its issue, counted at its completion –
and after five of them decides anew. A `FeedbackView` is what this loop sees of
a context: the four control flags, the decision of the action, the state of the
loop with its votes, and of every record whether it is bound, to which decision,
and whether it holds depth.

`FeedbackView.Sound` is the invariant of the loop. Its heart is that the bound
record and the pointer to it go together, so that a record which the pointer
does not name can be released, freed and taken again without a trace. The
operations of the loop are stated on views, where the invariant is proved for
each; the lemmas `feedback_…` say which of them a helper of the source performs.
A helper that has no business with the loop leaves the view alone.
-/

/-- What the feedback loop records of a metadata record. -/
structure FeedbackMark where
  /-- `feedback_bound`. -/
  bound : Bool
  /-- `dispatch_decision_id`. -/
  decision : ℕ
  /-- `depth_accounted`. -/
  reserved : Bool
deriving DecidableEq, Repr

/-- The mark of a metadata record. -/
def RqMeta.mark (x : RqMeta) : FeedbackMark where
  bound := x.feedbackBound
  decision := x.dispatchDecisionId
  reserved := x.depthAccounted

/-- The votes of the action in force: `feedback_vote_count`,
`feedback_total_dev_lat_us` and `feedback_max_dev_lat_us`. -/
structure Tally where
  count : ℕ
  total : ℕ
  max : ℕ
deriving DecidableEq, Repr

/-- No votes. -/
def Tally.zero : Tally where
  count := 0
  total := 0
  max := 0

/-- One vote more. -/
def Tally.add (t : Tally) (latencyUs : ℕ) : Tally where
  count := t.count + 1
  total := t.total + latencyUs
  max := Nat.max t.max latencyUs

/-- The tally of a list of votes: how many there are, their sum and the largest
of them. -/
def Tally.of (votes : List ℕ) : Tally where
  count := votes.length
  total := votes.sum
  max := votes.foldl Nat.max 0

/-- **The tally of one vote more.** -/
theorem Tally.of_append (votes : List ℕ) (latencyUs : ℕ) :
    Tally.of (votes ++ [latencyUs]) = (Tally.of votes).add latencyUs := by
  unfold Tally.of Tally.add
  rw [List.length_append, List.sum_append, List.foldl_append]
  rfl

/-- **What the feedback loop sees of a context.** -/
structure FeedbackView where
  throttleActive : Bool
  inferencePending : Bool
  actionValid : Bool
  inferenceTimedOut : Bool
  /-- `action.decision_id`. -/
  decisionId : ℕ
  state : FeedbackState
  bound : Option MetaId
  tally : Tally
  live : List MetaId
  mark : MetaId → FeedbackMark

namespace FeedbackView

/-! ## The operations of the loop -/

/-- The marks once the bound record is let go. -/
def unmarked (V : FeedbackView) : MetaId → FeedbackMark :=
  match V.bound with
  | some m => Function.update V.mark m { V.mark m with bound := false }
  | none => V.mark

/-- Let go of the bound record and wait for the next dispatch. -/
def rebind (V : FeedbackView) : FeedbackView :=
  { V with state := .waitDispatch, bound := none, mark := V.unmarked }

/-- Let go of the bound record and wait for nothing: an action in force must not
be left so. -/
def suspend (V : FeedbackView) : FeedbackView :=
  { V with state := .none, bound := none, mark := V.unmarked }

/-- Throttle nothing. -/
def idle (V : FeedbackView) : FeedbackView :=
  { V with
    throttleActive := false
    inferencePending := false
    actionValid := false
    inferenceTimedOut := false
    decisionId := 0
    state := .none
    bound := none
    tally := .zero
    mark := V.unmarked }

/-- Ask for a decision. -/
def arm (V : FeedbackView) : FeedbackView :=
  { V with
    throttleActive := true
    inferencePending := true
    actionValid := false
    inferenceTimedOut := false
    state := .none
    bound := none
    tally := .zero
    mark := V.unmarked }

/-- Put an action in force. -/
def install (V : FeedbackView) (decisionId : ℕ) : FeedbackView :=
  { V with
    inferencePending := false
    actionValid := true
    inferenceTimedOut := false
    decisionId := decisionId
    state := .waitDispatch }

/-- Follow a record. -/
def bind (V : FeedbackView) (m : MetaId) : FeedbackView :=
  { V with
    state := .waitIssue
    bound := some m
    mark := Function.update V.mark m
      { V.mark m with bound := true, decision := V.decisionId } }

/-- Rewrite the mark of a record. -/
def setMark (V : FeedbackView) (m : MetaId) (k : FeedbackMark) : FeedbackView :=
  { V with mark := Function.update V.mark m k }

/-- Forget a record. -/
def drop (V : FeedbackView) (m : MetaId) : FeedbackView :=
  { V with
    live := V.live.filter (fun n => n ≠ m)
    mark := Function.update V.mark m RqMeta.zero.mark }

/-- Take a record into use. -/
def enter (V : FeedbackView) (m : MetaId) (k : FeedbackMark) : FeedbackView :=
  { V with live := m :: V.live, mark := Function.update V.mark m k }

/-- Rewriting a mark twice is rewriting it once. -/
@[simp] theorem setMark_setMark (V : FeedbackView) (m : MetaId) (k l : FeedbackMark) :
    (V.setMark m k).setMark m l = V.setMark m l := by
  unfold setMark
  rw [Function.update_idem]

/-- What is forgotten need not be rewritten first. -/
@[simp] theorem setMark_drop (V : FeedbackView) (m : MetaId) (k : FeedbackMark) :
    (V.setMark m k).drop m = V.drop m := by
  unfold setMark drop
  rw [Function.update_idem]

/-! ## The invariant -/

/-- Nothing but the bound record is marked as bound. -/
def Sole (V : FeedbackView) : Prop :=
  ∀ m ∈ V.live, (V.mark m).bound = true → V.bound = some m

/-- **The invariant of the feedback loop.** -/
structure Sound (V : FeedbackView) : Prop where
  exclusive : ¬(V.inferencePending = true ∧ V.actionValid = true)
  active : V.throttleActive = true ↔ V.inferencePending = true ∨ V.actionValid = true
  timedOut : V.inferenceTimedOut = true → V.inferencePending = true
  waits : V.state ≠ .none ↔ V.actionValid = true
  follows : V.bound.isSome = true ↔ V.state = .waitIssue ∨ V.state = .waitComplete
  bound : ∀ m, V.bound = some m →
    m ∈ V.live ∧ (V.mark m).bound = true ∧ (V.mark m).decision = V.decisionId
      ∧ (V.mark m).reserved = true
  sole : V.Sole
  votes : V.tally.count < feedbackSampleMax
  unvoted : V.actionValid = false → V.tally = .zero

variable {V : FeedbackView} {m : MetaId}

/-- Once the bound record is let go, no record is marked as bound. -/
theorem unmarked_bound (h : V.Sole) {n : MetaId} (hn : n ∈ V.live) :
    (V.unmarked n).bound = false := by
  unfold unmarked
  cases hb : V.bound with
  | none =>
    rw [← Bool.not_eq_true]
    intro hmark
    exact absurd ((h n hn hmark).symm.trans hb) (by simp)
  | some m =>
    show (Function.update V.mark m _ n).bound = false
    by_cases hnm : n = m
    · rw [hnm, Function.update_self]
    · rw [Function.update_of_ne hnm, ← Bool.not_eq_true]
      intro hmark
      exact hnm (Option.some.inj ((h n hn hmark).symm.trans hb))

/-- **Throttling nothing is sound**, whatever the loop was doing. -/
theorem sound_idle (h : V.Sole) : V.idle.Sound where
  exclusive := by simp [idle]
  active := by simp [idle]
  timedOut := by simp [idle]
  waits := by simp [idle]
  follows := by simp [idle]
  bound := fun m hm => absurd hm (by simp [idle])
  sole := fun m hm hb => absurd ((unmarked_bound h hm).symm.trans hb) (by simp)
  votes := by
    show 0 < feedbackSampleMax
    decide
  unvoted := fun _ => rfl

/-- **Asking for a decision is sound**, whatever the loop was doing. -/
theorem sound_arm (h : V.Sole) : V.arm.Sound where
  exclusive := by simp [arm]
  active := by simp [arm]
  timedOut := by simp [arm]
  waits := by simp [arm]
  follows := by simp [arm]
  bound := fun m hm => absurd hm (by simp [arm])
  sole := fun m hm hb => absurd ((unmarked_bound h hm).symm.trans hb) (by simp)
  votes := by
    show 0 < feedbackSampleMax
    decide
  unvoted := fun _ => rfl

/-- A suspended loop marks nothing as bound. -/
theorem sole_suspend (h : V.Sole) : V.suspend.Sole :=
  fun _ hm hb => absurd ((unmarked_bound h hm).symm.trans hb) (by simp)

/-- Forgetting a record leaves nothing else marked as bound. -/
theorem Sole.drop (h : V.Sole) : (V.drop m).Sole := by
  intro n hn hmark
  obtain ⟨hn, hnm⟩ := List.mem_filter.mp hn
  rw [show (V.drop m).mark n = V.mark n from
    Function.update_of_ne (by simpa using hnm) _ _] at hmark
  exact h n hn hmark

namespace Sound

/-- A followed record means that an action is in force. -/
theorem valid_of_bound (h : V.Sound) (hb : V.bound = some m) : V.actionValid = true := by
  refine h.waits.mp (fun hnone => ?_)
  rcases h.follows.mp (by rw [hb]; rfl) with hs | hs <;>
    exact absurd (hs.symm.trans hnone) (by simp)

/-- While nothing is in force nothing is followed. -/
theorem bound_eq_none (h : V.Sound) (hv : V.actionValid = false) : V.bound = none := by
  cases hb : V.bound with
  | none => rfl
  | some m => exact absurd ((h.valid_of_bound hb).symm.trans hv) (by simp)

/-- **Letting go of a record and waiting for the next** keeps the loop sound
while an action is in force. -/
theorem rebind (h : V.Sound) (hv : V.actionValid = true) : V.rebind.Sound where
  exclusive := h.exclusive
  active := h.active
  timedOut := h.timedOut
  waits := by simp [FeedbackView.rebind, hv]
  follows := by simp [FeedbackView.rebind]
  bound := fun m hm => absurd hm (by simp [FeedbackView.rebind])
  sole := fun m hm hb => absurd ((unmarked_bound h.sole hm).symm.trans hb) (by simp)
  votes := h.votes
  unvoted := h.unvoted

/-- **Putting an action in force.** -/
theorem install (h : V.Sound) (hp : V.inferencePending = true) (decisionId : ℕ) :
    (V.install decisionId).Sound := by
  have hv : V.actionValid = false := by
    rw [← Bool.not_eq_true]
    exact fun hv => h.exclusive ⟨hp, hv⟩
  have hnone := h.bound_eq_none hv
  exact
    { exclusive := by simp [FeedbackView.install]
      active := by simpa [FeedbackView.install] using h.active.mpr (Or.inl hp)
      timedOut := by simp [FeedbackView.install]
      waits := by simp [FeedbackView.install]
      follows := by simp [FeedbackView.install, hnone]
      bound := fun m hm => absurd (hnone.symm.trans hm) (by simp)
      sole := h.sole
      votes := h.votes
      unvoted := by simp [FeedbackView.install] }

/-- **Following a record** that holds depth. -/
theorem bind (h : V.Sound) (hs : V.state = .waitDispatch) (hm : m ∈ V.live)
    (hr : (V.mark m).reserved = true) : (V.bind m).Sound := by
  have hv : V.actionValid = true := h.waits.mp (by rw [hs]; simp)
  have hnone : V.bound = none := by
    cases hb : V.bound with
    | none => rfl
    | some n =>
      rcases h.follows.mp (by rw [hb]; rfl) with hs' | hs' <;>
        exact absurd (hs'.symm.trans hs) (by simp)
  refine
    { exclusive := h.exclusive
      active := h.active
      timedOut := h.timedOut
      waits := by simp [FeedbackView.bind, hv]
      follows := by simp [FeedbackView.bind]
      bound := ?_
      sole := ?_
      votes := h.votes
      unvoted := h.unvoted }
  · rintro n hn
    obtain rfl := Option.some.inj hn
    simp [FeedbackView.bind, hm, hr]
  · intro n hn hb
    by_cases hnm : n = m
    · rw [hnm]
      rfl
    · rw [show (V.bind m).mark n = V.mark n from Function.update_of_ne hnm _ _] at hb
      exact absurd ((h.sole n hn hb).symm.trans hnone) (by simp)

/-- The issue of the followed record. -/
theorem issued (h : V.Sound) (hs : V.state = .waitIssue) :
    ({ V with state := .waitComplete } : FeedbackView).Sound :=
  { h with
    waits := by
      have hv : V.actionValid = true := h.waits.mp (by rw [hs]; simp)
      simp [hv]
    follows := by
      have hb := h.follows.mpr (Or.inl hs)
      simp [hb] }

/-- **Rewriting the mark of a record**: only the followed one may be bound, and
it must keep what following it takes. -/
theorem setMark (h : V.Sound) {k : FeedbackMark} (hk : k.bound = true → V.bound = some m)
    (hkeep : V.bound = some m →
      k.bound = true ∧ k.decision = V.decisionId ∧ k.reserved = true) :
    (V.setMark m k).Sound :=
  { h with
    bound := by
      intro n hn
      refine ⟨(h.bound n hn).1, ?_⟩
      by_cases hnm : n = m
      · subst hnm
        rw [show (V.setMark n k).mark n = k by simp [FeedbackView.setMark]]
        exact hkeep hn
      · rw [show (V.setMark m k).mark n = V.mark n from Function.update_of_ne hnm _ _]
        exact (h.bound n hn).2
    sole := by
      intro n hn hb
      by_cases hnm : n = m
      · subst hnm
        rw [show (V.setMark n k).mark n = k by simp [FeedbackView.setMark]] at hb
        exact hk hb
      · rw [show (V.setMark m k).mark n = V.mark n from Function.update_of_ne hnm _ _] at hb
        exact h.sole n hn hb }

/-- A record that is not followed may be rewritten without binding it. -/
theorem setMark_of_ne (h : V.Sound) (hm : V.bound ≠ some m) {k : FeedbackMark}
    (hk : k.bound = false) : (V.setMark m k).Sound :=
  h.setMark (fun hb => absurd (hk.symm.trans hb) (by simp)) (fun hb => absurd hb hm)

/-- **One vote more**, short of the last. -/
theorem vote (h : V.Sound) (hv : V.actionValid = true) {latencyUs : ℕ}
    (hlt : V.tally.count + 1 < feedbackSampleMax) :
    ({ V with tally := V.tally.add latencyUs } : FeedbackView).Sound :=
  { h with
    votes := hlt
    unvoted := fun hnv => absurd (hv.symm.trans hnv) (by simp) }

/-- A record that nothing follows is not marked as bound. -/
theorem mark_bound_eq_false (h : V.Sound) (hm : m ∈ V.live) (hb : V.bound ≠ some m) :
    (V.mark m).bound = false := by
  rw [← Bool.not_eq_true]
  exact fun hmark => hb (h.sole m hm hmark)

/-- **Reserving depth** for a record in use. -/
theorem reserve (h : V.Sound) (hm : m ∈ V.live) :
    (V.setMark m { V.mark m with reserved := true }).Sound := by
  refine h.setMark (h.sole m hm) (fun hb => ?_)
  obtain ⟨-, hbound, hdecision, -⟩ := h.bound m hb
  exact ⟨hbound, hdecision, rfl⟩

/-- **Forgetting a record** that is not followed. -/
theorem drop (h : V.Sound) (hb : V.bound ≠ some m) : (V.drop m).Sound := by
  have hset := h.setMark_of_ne (k := RqMeta.zero.mark) hb rfl
  refine
    { hset with
      bound := fun n hn => ⟨?_, (hset.bound n hn).2⟩
      sole := fun n hn hmark => hset.sole n (List.mem_filter.mp hn).1 hmark }
  refine List.mem_filter.mpr ⟨(hset.bound n hn).1, ?_⟩
  have hnm : n ≠ m := fun hnm => hb (hnm ▸ hn)
  simpa using hnm

/-- **Taking a record into use**, which nothing follows yet. -/
theorem enter (h : V.Sound) (hm : m ∉ V.live) {k : FeedbackMark} (hk : k.bound = false) :
    (V.enter m k).Sound := by
  have hb : V.bound ≠ some m := fun hb => hm (h.bound m hb).1
  have hset := h.setMark_of_ne (k := k) hb hk
  refine
    { hset with
      bound := fun n hn =>
        ⟨List.mem_cons_of_mem m (hset.bound n hn).1, (hset.bound n hn).2⟩
      sole := ?_ }
  intro n hn hmark
  rcases List.mem_cons.mp hn with rfl | hold
  · have hself : (V.enter n k).mark n = k := Function.update_self (β := fun _ => FeedbackMark) ..
    rw [hself, hk] at hmark
    exact absurd hmark (by simp)
  · exact hset.sole n hold hmark

/-- **The timer** of a pending decision. -/
theorem timeOut (h : V.Sound) (hp : V.inferencePending = true) :
    ({ V with inferenceTimedOut := true } : FeedbackView).Sound :=
  { h with timedOut := fun _ => hp }

end Sound

end FeedbackView

/-! ## The view of a context -/

namespace ThrottleCtx

/-- What the feedback loop sees of a context. -/
def feedback (c : ThrottleCtx) : FeedbackView where
  throttleActive := c.control.throttleActive
  inferencePending := c.control.inferencePending
  actionValid := c.control.actionValid
  inferenceTimedOut := c.control.inferenceTimedOut
  decisionId := c.control.action.decisionId
  state := c.control.feedbackState
  bound := c.control.feedbackMeta
  tally :=
    { count := c.control.feedbackVoteCount
      total := c.control.feedbackTotalDevLatUs
      max := c.control.feedbackMaxDevLatUs }
  live := c.activeMetas
  mark := fun m => (c.metaPool m).mark

/-- A store to a record is a store to its mark. -/
theorem mark_update (pool : MetaId → RqMeta) (m : MetaId) (x : RqMeta) :
    (fun j => (Function.update pool m x j).mark)
      = Function.update (fun j => (pool j).mark) m x.mark :=
  funext (fun j => Function.apply_update (fun _ => RqMeta.mark) pool m x j)

/-- A store to a record rewrites its mark. -/
theorem feedback_modifyMeta (c : ThrottleCtx) (m : MetaId) (f : RqMeta → RqMeta) :
    (c.modifyMeta m f).feedback = c.feedback.setMark m (f (c.metaPool m)).mark := by
  unfold feedback FeedbackView.setMark
  congr 1
  exact mark_update c.metaPool m (f (c.metaPool m))

/-- Rewriting a mark to what it is changes nothing. -/
@[simp] theorem setMark_self (V : FeedbackView) (m : MetaId) :
    V.setMark m (V.mark m) = V := by
  unfold FeedbackView.setMark
  rw [Function.update_eq_self]

/-- A store that leaves the mark alone leaves the view alone. -/
theorem feedback_modifyMeta_of_mark (c : ThrottleCtx) (m : MetaId) {f : RqMeta → RqMeta}
    (h : (f (c.metaPool m)).mark = (c.metaPool m).mark) :
    (c.modifyMeta m f).feedback = c.feedback := by
  rw [feedback_modifyMeta, h]
  exact setMark_self c.feedback m

/-- The marks once the bound record is let go. -/
theorem mark_clearFeedbackBindingLocked (c : ThrottleCtx) :
    (fun m => (c.clearFeedbackBindingLocked.metaPool m).mark) = c.feedback.unmarked := by
  have hbound : c.feedback.bound = c.control.feedbackMeta := rfl
  unfold clearFeedbackBindingLocked FeedbackView.unmarked
  rw [hbound]
  cases c.control.feedbackMeta with
  | none => rfl
  | some m => exact mark_update c.metaPool m _

/-- Two views with equal parts are equal, when only the marks take an argument. -/
theorem feedback_eq_of_mark {c : ThrottleCtx} {V : FeedbackView}
    (h : { c.feedback with mark := V.mark } = V)
    (hmark : (fun m => (c.metaPool m).mark) = V.mark) : c.feedback = V := by
  rw [← h, ← hmark]
  rfl

@[simp] theorem feedback_clearFeedbackBindingLocked (c : ThrottleCtx) :
    c.clearFeedbackBindingLocked.feedback = c.feedback.suspend :=
  feedback_eq_of_mark rfl c.mark_clearFeedbackBindingLocked

@[simp] theorem feedback_fallbackLocked (c : ThrottleCtx) :
    c.fallbackLocked.1.feedback = c.feedback.idle :=
  feedback_eq_of_mark rfl (mark_clearFeedbackBindingLocked _)

@[simp] theorem feedback_armInferenceLocked (c : ThrottleCtx) (newControl : Bool)
    (state : Option StateSnapshot) :
    (c.armInferenceLocked newControl state).feedback = c.feedback.arm :=
  feedback_eq_of_mark rfl (mark_clearFeedbackBindingLocked _)

/-! ## Helpers the loop does not notice -/

section Frame

variable (c : ThrottleCtx) (m : MetaId)

@[simp] theorem feedback_pendingIncLocked (g : Globals) (nowNs : ℕ) :
    (c.pendingIncLocked g m nowNs).feedback = c.feedback := by
  unfold pendingIncLocked
  dsimp only
  split
  · rfl
  · split
    · rfl
    · refine (feedback_modifyMeta_of_mark _ m ?_).trans ?_
      · rfl
      · cases (c.metaPool m).rqClass <;> rfl

@[simp] theorem feedback_pendingDecLocked :
    (c.pendingDecLocked m).feedback = c.feedback := by
  unfold pendingDecLocked
  dsimp only
  split
  · rfl
  · refine (feedback_modifyMeta_of_mark _ m ?_).trans ?_
    · rfl
    · split
      · rfl
      · cases (c.metaPool m).rqClass <;> rfl

@[simp] theorem feedback_inflightRemoveLocked :
    (c.inflightRemoveLocked m).feedback = c.feedback := by
  unfold inflightRemoveLocked
  split
  · rfl
  · refine (feedback_modifyMeta_of_mark _ m ?_).trans ?_
    · rfl
    · rfl

@[simp] theorem feedback_inflightAddLocked (r : Request) :
    (c.inflightAddLocked m r).feedback = c.feedback := by
  unfold inflightAddLocked
  dsimp only
  split
  · rfl
  · refine (feedback_modifyMeta_of_mark _ m ?_).trans ?_
    · rfl
    · rfl

@[simp] theorem feedback_reopenGateLocked :
    c.reopenGateLocked.1.feedback = c.feedback := by
  unfold reopenGateLocked
  split <;> rfl

@[simp] theorem feedback_releaseDeadlineLocked :
    (c.releaseDeadlineLocked m).1.feedback = c.feedback := by
  have hmark := c.feedback_modifyMeta_of_mark m
    (f := fun x => { x with deadlineForced := false }) rfl
  unfold releaseDeadlineLocked
  dsimp only
  split
  · rfl
  · split
    · exact hmark
    · exact hmark

@[simp] theorem feedback_snapshotStateLocked (nowNs queueMax thr : ℕ) :
    (c.snapshotStateLocked nowNs queueMax thr).1.feedback = c.feedback := by
  unfold snapshotStateLocked
  dsimp only
  split
  · rfl
  · split
    · rfl
    · split <;> rfl

end Frame

/-! ## Helpers of the loop -/

section Loop

variable {c : ThrottleCtx} {m : MetaId}

theorem feedback_releaseIssuedDepthLocked (h : c.books.Sound) (hm : m ∈ c.activeMetas) :
    (c.releaseIssuedDepthLocked m).1.feedback = c.feedback := by
  rw [releaseIssuedDepthLocked_eq h hm]
  dsimp only
  split
  · refine (feedback_modifyMeta_of_mark _ m ?_).trans ?_
    · rfl
    · rfl
  · rfl

/-- **A release gives depth back**, and nothing else that the loop sees. -/
theorem feedback_releaseDepthLocked (h : c.books.Sound) (hm : m ∈ c.activeMetas) :
    (c.releaseDepthLocked m).1.feedback
      = c.feedback.setMark m { c.feedback.mark m with reserved := false } := by
  rw [releaseDepthLocked_eq h hm]
  by_cases hd : (c.metaPool m).depthAccounted = true
  · rw [if_pos hd, feedback_reopenGateLocked]
    unfold dropDepth
    rw [feedback_modifyMeta]
    rfl
  · have hmark : { c.feedback.mark m with reserved := false } = c.feedback.mark m := by
      simp [feedback, RqMeta.mark, hd]
    rw [if_neg hd, hmark, setMark_self]

theorem feedback_releaseLocked (h : c.books.Sound) (hm : m ∈ c.activeMetas) :
    (c.releaseLocked m).1.feedback
      = c.feedback.setMark m { c.feedback.mark m with reserved := false } := by
  have hp₂ := ((Posted.refl h hm).quiet (c.books_inflightRemoveLocked m)).unforce
  have hp₃ := hp₂.unissue
  have hV : ((((c.inflightRemoveLocked m).releaseDeadlineLocked m).1).releaseIssuedDepthLocked
      m).1.feedback = c.feedback := by
    rw [feedback_releaseIssuedDepthLocked hp₂.sound hp₂.mem, feedback_releaseDeadlineLocked,
      feedback_inflightRemoveLocked]
  unfold releaseLocked
  rw [feedback_releaseDepthLocked hp₃.sound hp₃.mem, hV]

/-- **A reservation of depth** – or a fallback, for a record that holds some. -/
theorem feedback_accountDepthLocked (h : c.books.Sound) (hm : m ∈ c.activeMetas) :
    (c.accountDepthLocked m).1.feedback
      = if (c.metaPool m).depthAccounted then c.feedback.idle
        else c.feedback.setMark m { c.feedback.mark m with reserved := true } := by
  rw [accountDepthLocked_eq h hm]
  split
  · exact feedback_fallbackLocked _
  · unfold takeDepth
    rw [feedback_modifyMeta]
    rfl

/-- **Invalidating the followed record** makes the loop wait for the next. -/
theorem feedback_invalidateFeedbackLocked (h : c.feedback.Sound) (m : MetaId) :
    (c.invalidateFeedbackLocked m).feedback
      = if c.control.feedbackMeta = some m then c.feedback.rebind else c.feedback := by
  unfold invalidateFeedbackLocked
  dsimp only
  by_cases hb : c.control.feedbackMeta = some m
  · have hv : c.control.actionValid = true := h.valid_of_bound hb
    have hact : c.control.throttleActive = true := h.active.mpr (Or.inr hv)
    have hpend : c.control.inferencePending = false := by
      rw [← Bool.not_eq_true]
      exact fun hp => h.exclusive ⟨hp, hv⟩
    have hcond : (c.clearFeedbackBindingLocked.control.throttleActive
        && c.clearFeedbackBindingLocked.control.actionValid
        && !c.clearFeedbackBindingLocked.control.inferencePending) = true := by
      show (c.control.throttleActive && c.control.actionValid
        && !c.control.inferencePending) = true
      rw [hv, hact, hpend]
      rfl
    rw [if_neg (not_not.mpr hb), if_pos hb, if_pos hcond]
    exact feedback_eq_of_mark rfl c.mark_clearFeedbackBindingLocked
  · rw [if_pos hb, if_neg hb]

/-- Invalidating a record keeps the loop sound, and leaves it following another
one if any. -/
theorem sound_invalidateFeedbackLocked (h : c.feedback.Sound) (m : MetaId) :
    (c.invalidateFeedbackLocked m).feedback.Sound
      ∧ (c.invalidateFeedbackLocked m).feedback.bound ≠ some m := by
  rw [feedback_invalidateFeedbackLocked h m]
  by_cases hb : c.control.feedbackMeta = some m
  · rw [if_pos hb]
    exact ⟨h.rebind (h.valid_of_bound hb), by simp [FeedbackView.rebind]⟩
  · rw [if_neg hb]
    exact ⟨h, hb⟩

end Loop

end ThrottleCtx
