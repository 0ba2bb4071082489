import SmartIo.ThrottleFeedback
import SmartIo.ThrottleWakeup

/-!
# The control and feedback state machine

Every section keeps the feedback loop sound, between whatever sections it runs:
the flags exclude each other as they should, an action in force always waits
for something, and the record it waits for is in use, bound, and the only one.
The votes are a statement about the history of the machine and not only about
its state: they are the count, the sum and the maximum of exactly the latencies
voted since the action in force was applied (`votesInForce`).

A section settles the loop (`Settles`) when it leaves it sound and accounts for
its effects: an applied action starts without votes, a vote is added to the
tally of the action in force, and a section without either leaves the tally
alone as long as an action stays in force.
-/

open ThrottleCtx

/-- The tally of the action in force moves as the effects of a section say. -/
def TallyStep (V V' : FeedbackView) (e : Effects) : Prop :=
  match e.installed, e.voted with
  | some _, _ => V.actionValid = false ∧ V'.tally = V.tally
  | none, some latencyUs =>
    V'.actionValid = true → V.actionValid = true ∧ V'.tally = V.tally.add latencyUs
  | none, none => V'.actionValid = true → V.actionValid = true ∧ V'.tally = V.tally

/-- **A section settles the feedback loop.** -/
structure Settles (c c' : ThrottleCtx) (e : Effects) : Prop where
  sound : c'.feedback.Sound
  tally : TallyStep c.feedback c'.feedback e

namespace Settles

variable {c c' : ThrottleCtx} {e : Effects}

/-- A section that the loop does not notice. -/
theorem of_eq (h : c.feedback.Sound) (hV : c'.feedback = c.feedback)
    (hi : e.installed = none) (hv : e.voted = none) : Settles c c' e := by
  refine ⟨hV ▸ h, ?_⟩
  unfold TallyStep
  rw [hi, hv, hV]
  exact fun hvalid => ⟨hvalid, rfl⟩

/-- A section that keeps the loop sound and its action and tally as they are. -/
theorem of_kept (h : c'.feedback.Sound)
    (hvalid : c'.feedback.actionValid = c.feedback.actionValid)
    (htally : c'.feedback.tally = c.feedback.tally)
    (hi : e.installed = none) (hv : e.voted = none) : Settles c c' e := by
  refine ⟨h, ?_⟩
  unfold TallyStep
  rw [hi, hv, hvalid, htally]
  exact fun hvalid => ⟨hvalid, rfl⟩

/-- A section that leaves no action in force. -/
theorem of_not_valid (h : c'.feedback.Sound) (hnot : c'.feedback.actionValid = false)
    (hi : e.installed = none) : Settles c c' e := by
  refine ⟨h, ?_⟩
  unfold TallyStep
  rw [hi, hnot]
  cases e.voted <;> exact fun hvalid => absurd hvalid (by simp)

/-- **A fallback settles the loop**, whatever it was doing. -/
theorem fallback {d : ThrottleCtx} (h : d.feedback.Sole)
    (hV : c'.feedback = d.feedback.idle) (hi : e.installed = none) : Settles c c' e :=
  of_not_valid (hV ▸ FeedbackView.sound_idle h) (by rw [hV]; rfl) hi

end Settles

namespace Throttle

/-! ## Taking records and giving them back -/

theorem feedback_allocTaken (w : Throttle) (rq : RqAddr) (cls : RqClass) (m : MetaId)
    (rest : List MetaId) :
    (w.allocTaken rq cls m rest).ctx.feedback
      = w.ctx.feedback.enter m (newMeta rq (w.rqs rq) cls (w.ctx.nextRqId + 1)).mark := by
  rw [allocTaken_ctx]
  unfold feedback FeedbackView.enter
  congr 1
  exact mark_update w.ctx.metaPool m _

/-- A taken record keeps the loop sound. -/
theorem sound_allocTaken {w : Throttle} (h : Accounted w) (hV : w.ctx.feedback.Sound)
    {m : MetaId} {rest : List MetaId} (hfree : w.ctx.freeMeta = m :: rest) (rq : RqAddr)
    (cls : RqClass) : (w.allocTaken rq cls m rest).ctx.feedback.Sound := by
  rw [feedback_allocTaken]
  refine hV.enter ?_ rfl
  exact h.books.balanced.notMem_live (show m ∈ w.ctx.freeMeta from hfree ▸ List.mem_cons_self)

theorem feedback_returnMeta {c : ThrottleCtx} {m : MetaId} (hb : c.feedback.bound ≠ some m) :
    (returnMeta c m).feedback = c.feedback.drop m := by
  have hV : ((c.pendingDecLocked m).inflightRemoveLocked m).feedback = c.feedback := by
    rw [feedback_inflightRemoveLocked, feedback_pendingDecLocked]
  unfold returnMeta
  generalize (c.pendingDecLocked m).inflightRemoveLocked m = c₁ at hV
  have hb₁ : c₁.control.feedbackMeta ≠ some m := by
    show c₁.feedback.bound ≠ some m
    rw [hV]
    exact hb
  dsimp only
  rw [if_neg hb₁, ← hV]
  unfold feedback FeedbackView.drop
  congr 1
  · exact ChainTable.all_del m c₁.active
  · exact mark_update c₁.metaPool m RqMeta.zero

/-- **Releasing and forgetting a record** that is not followed. -/
theorem feedback_released {c : ThrottleCtx} {m : MetaId} (h : c.books.Sound)
    (hm : m ∈ c.activeMetas) (hb : c.feedback.bound ≠ some m) :
    (returnMeta (c.releaseLocked m).1 m).feedback = c.feedback.drop m := by
  have hrel := feedback_releaseLocked h hm
  rw [feedback_returnMeta (by rw [hrel]; exact hb), hrel, FeedbackView.setMark_drop]

/-! ## The sections of a dispatch -/

theorem feedback_markDispatch (c : ThrottleCtx) (g : Globals) (m : MetaId) (r : Request) :
    ∃ d, (markDispatch c g m r).feedback
      = c.feedback.setMark m { c.feedback.mark m with decision := d } := by
  have hV : ((c.modifyMeta m (fun x =>
      { x with deviceTimeExcluded := deviceTimeExcludedOf r })).pendingDecLocked m).feedback
      = c.feedback := by
    rw [feedback_pendingDecLocked]
    exact c.feedback_modifyMeta_of_mark m rfl
  unfold markDispatch
  dsimp only
  generalize (c.modifyMeta m (fun x =>
    { x with deviceTimeExcluded := deviceTimeExcludedOf r })).pendingDecLocked m = c₂ at hV
  refine ⟨dispatchDecision c₂ g, ?_⟩
  have hset := c₂.feedback_modifyMeta m
    (fun x => { x with dispatchDecisionId := dispatchDecision c₂ g })
  rw [← hV]
  split
  · exact hset
  · exact hset

theorem depthAccounted_markDispatch (c : ThrottleCtx) (g : Globals) (m : MetaId)
    (r : Request) : ((markDispatch c g m r).metaPool m).depthAccounted
      = (c.metaPool m).depthAccounted := by
  obtain ⟨d, hd⟩ := feedback_markDispatch c g m r
  refine (congrArg (fun V : FeedbackView => (V.mark m).reserved) hd).trans ?_
  simp only [FeedbackView.setMark, Function.update_self]
  rfl

@[simp] theorem feedback_countClass (c : ThrottleCtx) (m : MetaId) :
    (countClass c m).feedback = c.feedback := by
  unfold countClass
  split <;> rfl

@[simp] theorem feedback_countSelection (c : ThrottleCtx) (m : MetaId)
    (selection : DispatchSelection) : (countSelection c m selection).feedback = c.feedback := by
  cases selection with
  | backgroundDeadline =>
    show (forceDeadline c m).feedback = c.feedback
    unfold forceDeadline
    split
    · rfl
    · refine (feedback_modifyMeta_of_mark _ m ?_).trans ?_
      · rfl
      · rfl
  | foregroundFifo => rfl
  | seqHit => rfl
  | seqFallback => rfl
  | small => rfl
  | backgroundBaseline => rfl

/-- **Binding the next dispatch**: the loop follows a record only while it waits
for a dispatch. -/
theorem feedback_bindFeedback (c : ThrottleCtx) (g : Globals) (m : MetaId) (nowNs : ℕ) :
    (bindFeedback c g m nowNs).feedback = c.feedback
      ∨ (c.feedback.state = .waitDispatch
        ∧ (bindFeedback c g m nowNs).feedback = c.feedback.bind m) := by
  unfold bindFeedback
  split
  · rename_i hc
    refine Or.inr ⟨?_, ?_⟩
    · simp only [Bool.and_eq_true, decide_eq_true_eq] at hc
      exact hc.1.2
    · exact feedback_eq_of_mark rfl (mark_update c.metaPool m _)
  · exact Or.inl rfl

theorem settles_accountDispatch {w : Throttle} (h : Accounted w)
    (hV : w.ctx.feedback.Sound) (rq : RqAddr) (selection : DispatchSelection) (nowNs : ℕ) :
    Settles w.ctx (w.accountDispatch rq selection nowNs).1.ctx
      (w.accountDispatch rq selection nowNs).2 := by
  simp only [accountDispatch]
  cases hpriv : (w.rqs rq).priv1 with
  | none => exact Settles.fallback hV.sole (feedback_fallbackLocked w.ctx.anomaly) rfl
  | some m =>
    obtain ⟨hm, -, -⟩ := h.priv rq m hpriv
    obtain ⟨d, hmark⟩ := feedback_markDispatch w.ctx w.globals m (w.rqs rq)
    have hres := depthAccounted_markDispatch w.ctx w.globals m (w.rqs rq)
    have hp := posted_markDispatch (Posted.refl h.books hm) w.globals (w.rqs rq)
    have hacc := feedback_accountDepthLocked hp.sound hp.mem
    rw [hres, hmark] at hacc
    simp only [withCtx_ctx]
    generalize (markDispatch w.ctx w.globals m (w.rqs rq)).accountDepthLocked m = p at hacc
    have hcnt : (countSelection (countClass p.1 m) m selection).feedback = p.1.feedback := by
      rw [feedback_countSelection, feedback_countClass]
    have hbind := feedback_bindFeedback (countSelection (countClass p.1 m) m selection)
      w.globals m nowNs
    rw [hcnt] at hbind
    by_cases hd : (w.ctx.metaPool m).depthAccounted = true
    · -- a second dispatch stops the throttling, so nothing waits for it
      rw [if_pos hd] at hacc
      have hsole : (w.ctx.feedback.setMark m
          { w.ctx.feedback.mark m with decision := d }).Sole := by
        intro n hn hb
        by_cases hnm : n = m
        · subst hnm
          exact hV.sole n hn (by simpa [FeedbackView.setMark] using hb)
        · exact hV.sole n hn (by simpa [FeedbackView.setMark, hnm] using hb)
      rcases hbind with hq | ⟨hs, -⟩
      · exact Settles.fallback (d := w.ctx.modifyMeta m
          (fun x => { x with dispatchDecisionId := d }))
          (by rw [feedback_modifyMeta]; exact hsole)
          (by rw [hq, hacc, feedback_modifyMeta]; rfl) rfl
      · rw [hacc] at hs
        exact absurd hs (by simp [FeedbackView.idle])
    · -- a record that holds no depth is not followed
      rw [if_neg hd] at hacc
      have hb : w.ctx.feedback.bound ≠ some m := fun hb => hd (hV.bound m hb).2.2.2
      have hnb := hV.mark_bound_eq_false hm hb
      rw [FeedbackView.setMark_setMark] at hacc
      have hsound : p.1.feedback.Sound := by
        rw [hacc]
        exact hV.setMark_of_ne hb (by simpa [FeedbackView.setMark] using hnb)
      rcases hbind with hq | ⟨hs, hq⟩
      · refine Settles.of_kept (by rw [hq]; exact hsound) ?_ ?_ rfl rfl
        · rw [hq, hacc]; rfl
        · rw [hq, hacc]; rfl
      · refine Settles.of_kept ?_ ?_ ?_ rfl rfl
        · rw [hq]
          refine hsound.bind hs (by rw [hacc]; exact hm) ?_
          rw [hacc]
          simp [FeedbackView.setMark]
        · rw [hq, hacc]; rfl
        · rw [hq, hacc]; rfl

/-! ## The sections of an issue and a requeue -/

/-- The reservations of an issue keep the loop sound, and its action and tally as
they are. -/
theorem feedback_reserveIssue {c : ThrottleCtx} {m : MetaId} (h : c.books.Sound)
    (hm : m ∈ c.activeMetas) :
    (reserveIssue c m).1.feedback
      = c.feedback.setMark m { c.feedback.mark m with reserved := true } := by
  have hdepth : (if (c.metaPool m).depthAccounted = true then (c, false)
      else c.accountDepthLocked m).1.feedback
      = c.feedback.setMark m { c.feedback.mark m with reserved := true } := by
    by_cases hd : (c.metaPool m).depthAccounted = true
    · have hmark : { c.feedback.mark m with reserved := true } = c.feedback.mark m := by
        simp [feedback, RqMeta.mark, hd]
      rw [if_pos hd, hmark, setMark_self]
    · rw [if_neg hd, feedback_accountDepthLocked h hm, if_neg hd]
  have hp : ∃ s, Posted c m s (if (c.metaPool m).depthAccounted = true then (c, false)
      else c.accountDepthLocked m).1 := by
    split
    · exact ⟨_, Posted.refl h hm⟩
    · exact ⟨_, (Posted.refl h hm).reserve⟩
  unfold reserveIssue
  dsimp only
  generalize (if (c.metaPool m).depthAccounted = true then (c, false)
    else c.accountDepthLocked m) = p at hdepth hp
  obtain ⟨s, hp⟩ := hp
  rw [← hdepth]
  by_cases hi : (p.1.metaPool m).issuedAccounted = true
  · rw [if_pos hi]
  · rw [if_neg hi, accountIssuedDepthLocked_eq hp.sound hp.mem, if_neg hi]
    refine (feedback_modifyMeta_of_mark _ m ?_).trans ?_
    · rfl
    · rfl

@[simp] theorem feedback_stampIssue (c : ThrottleCtx) (g : Globals) (m : MetaId)
    (nowNs : ℕ) : (stampIssue c g m nowNs).feedback = c.feedback := by
  unfold stampIssue
  split
  · rfl
  · exact c.feedback_modifyMeta_of_mark m rfl

/-- **The issue of the followed record** is what the loop waits for next. -/
theorem feedback_issueFeedback (c : ThrottleCtx) (m : MetaId) :
    (issueFeedback c m).feedback = c.feedback
      ∨ (c.feedback.state = .waitIssue
        ∧ (issueFeedback c m).feedback = { c.feedback with state := .waitComplete }) := by
  unfold issueFeedback
  split
  · rename_i hc
    simp only [Bool.and_eq_true, decide_eq_true_eq] at hc
    exact Or.inr ⟨hc.1.2, rfl⟩
  · exact Or.inl rfl

/-- **An issue** keeps the loop sound, and its action and tally as they are. -/
theorem settles_issueMeta {c : ThrottleCtx} {m : MetaId} (h : c.books.Sound)
    (hm : m ∈ c.activeMetas) (hV : c.feedback.Sound) (g : Globals) (r : Request)
    (nowNs : ℕ) :
    (issueMeta c g r m nowNs).1.feedback.Sound
      ∧ (issueMeta c g r m nowNs).1.feedback.actionValid = c.feedback.actionValid
      ∧ (issueMeta c g r m nowNs).1.feedback.tally = c.feedback.tally := by
  have hp := (Posted.refl h hm).quiet (c.books_modifyMeta m
    (f := fun x => { x with deviceTimeExcluded := deviceTimeExcludedOf r }) rfl)
  have hV₁ : (c.modifyMeta m (fun x =>
      { x with deviceTimeExcluded := deviceTimeExcludedOf r })).feedback = c.feedback :=
    c.feedback_modifyMeta_of_mark m rfl
  have hres := feedback_reserveIssue hp.sound hp.mem
  rw [hV₁] at hres
  unfold issueMeta
  dsimp only
  generalize reserveIssue (c.modifyMeta m (fun x =>
    { x with deviceTimeExcluded := deviceTimeExcludedOf r })) m = p at hres
  have hidx : (stampIssue ((p.1.modifyMeta m (fun x =>
      { x with op := r.op })).inflightAddLocked m r) g m nowNs).feedback = p.1.feedback := by
    rw [feedback_stampIssue, feedback_inflightAddLocked]
    exact p.1.feedback_modifyMeta_of_mark m rfl
  have hiss := feedback_issueFeedback (stampIssue ((p.1.modifyMeta m (fun x =>
      { x with op := r.op })).inflightAddLocked m r) g m nowNs) m
  have hsound : p.1.feedback.Sound := by
    rw [hres]
    exact hV.reserve hm
  rw [hidx] at hiss
  rcases hiss with hq | ⟨hs, hq⟩
  · rw [hq, hres]
    exact ⟨hres ▸ hsound, rfl, rfl⟩
  · rw [hq]
    exact ⟨hsound.issued hs, by rw [hres]; rfl, by rw [hres]; rfl⟩

theorem settles_recordIssue {w : Throttle} (h : Accounted w) (hV : w.ctx.feedback.Sound)
    (rq : RqAddr) (t : TaskCtx) (nowNs : ℕ) :
    Settles w.ctx (w.recordIssue rq t nowNs).1.ctx (w.recordIssue rq t nowNs).2 := by
  simp only [recordIssue]
  cases hfind : w.ctx.findMetaLocked rq with
  | some m =>
    obtain ⟨hs, hv, ht⟩ := settles_issueMeta h.books (findMetaLocked_some hfind).1 hV
      w.globals (w.rqs rq) nowNs
    exact Settles.of_kept hs hv ht rfl rfl
  | none =>
    simp only [allocMetaLocked]
    cases hfree : w.ctx.freeMeta with
    | nil => exact Settles.fallback hV.sole (feedback_fallbackLocked _) rfl
    | cons m rest =>
      dsimp only
      generalize hcls : classForQueue (selectQueue w.ctx.metaPool w.globals t (w.rqs rq)) = cls
      have hp := posted_allocTaken h hfree rq cls
      obtain ⟨hs, hv, ht⟩ := settles_issueMeta hp.sound hp.mem
        (sound_allocTaken h hV hfree rq cls) (w.allocTaken rq cls m rest).globals
        ((w.allocTaken rq cls m rest).rqs rq) nowNs
      refine Settles.of_kept hs (hv.trans ?_) (ht.trans ?_) rfl rfl
      · rw [feedback_allocTaken]; rfl
      · rw [feedback_allocTaken]; rfl

theorem settles_classifyRequest {w : Throttle} (h : Accounted w) (hV : w.ctx.feedback.Sound)
    (rq : RqAddr) (t : TaskCtx) (nowNs : ℕ) :
    Settles w.ctx (w.classifyRequest rq t nowNs).1.ctx
      (w.classifyRequest rq t nowNs).2 := by
  simp only [classifyRequest]
  cases hpriv : (w.rqs rq).priv1 with
  | some m =>
    refine Settles.of_eq hV ?_ rfl rfl
    rw [withCtx_ctx, feedback_pendingIncLocked]
    exact w.ctx.feedback_modifyMeta_of_mark m rfl
  | none =>
    simp only [allocMetaLocked]
    cases hfree : w.ctx.freeMeta with
    | nil => exact Settles.fallback hV.sole (feedback_fallbackLocked _) rfl
    | cons m rest =>
      dsimp only
      generalize hq : selectQueue w.ctx.metaPool w.globals t (w.rqs rq) = q
      have hsame : (((w.allocTaken rq (classForQueue q) m rest).ctx.modifyMeta m (fun x =>
          { x with queueClass := q })).pendingIncLocked
          (w.allocTaken rq (classForQueue q) m rest).globals m nowNs).feedback
          = (w.allocTaken rq (classForQueue q) m rest).ctx.feedback := by
        rw [feedback_pendingIncLocked]
        exact feedback_modifyMeta_of_mark _ m rfl
      refine Settles.of_kept ?_ ?_ ?_ rfl rfl
      · rw [withCtx_ctx, hsame]
        exact sound_allocTaken h hV hfree rq _
      · rw [withCtx_ctx, hsame, feedback_allocTaken]; rfl
      · rw [withCtx_ctx, hsame, feedback_allocTaken]; rfl

/-- Invalidating a record keeps the action in force and its tally. -/
theorem kept_invalidateFeedbackLocked {c : ThrottleCtx} (hV : c.feedback.Sound) (m : MetaId) :
    (c.invalidateFeedbackLocked m).feedback.actionValid = c.feedback.actionValid
      ∧ (c.invalidateFeedbackLocked m).feedback.tally = c.feedback.tally := by
  rw [feedback_invalidateFeedbackLocked hV m]
  split <;> exact ⟨rfl, rfl⟩

theorem settles_finishRequest {w : Throttle} (h : Accounted w) (hV : w.ctx.feedback.Sound)
    (rq : RqAddr) :
    Settles w.ctx (w.finishRequest rq).1.ctx (w.finishRequest rq).2 := by
  simp only [finishRequest]
  cases hpriv : (w.rqs rq).priv1 with
  | none => exact Settles.of_eq hV rfl rfl rfl
  | some m =>
    have hp := (Posted.refl h.books (h.priv rq m hpriv).1).quiet
      (w.ctx.books_invalidateFeedbackLocked m)
    obtain ⟨hs, hb⟩ := sound_invalidateFeedbackLocked hV m
    obtain ⟨hv, ht⟩ := kept_invalidateFeedbackLocked hV m
    have hctx := freeMetaLocked_ctx (w := w.withCtx
      ((w.ctx.invalidateFeedbackLocked m).releaseLocked m).1) hp.release.sound hp.release.mem rq
    rw [withCtx_ctx] at hctx
    have hdrop := feedback_released hp.sound hp.mem hb
    refine Settles.of_kept ?_ ?_ ?_ rfl rfl
    · rw [hctx, hdrop]
      exact hs.drop hb
    · rw [hctx, hdrop]
      exact hv
    · rw [hctx, hdrop]
      exact ht

theorem settles_recordRequeue {w : Throttle} (h : Accounted w) (hV : w.ctx.feedback.Sound)
    (rq : RqAddr) :
    Settles w.ctx (w.recordRequeue rq).1.ctx (w.recordRequeue rq).2 := by
  simp only [recordRequeue]
  cases hfind : w.ctx.findMetaLocked rq with
  | none => exact Settles.of_eq hV rfl rfl rfl
  | some m =>
    have hp := (Posted.refl h.books (findMetaLocked_some hfind).1).quiet
      (w.ctx.books_invalidateFeedbackLocked m)
    obtain ⟨hs, hb⟩ := sound_invalidateFeedbackLocked hV m
    obtain ⟨hv, ht⟩ := kept_invalidateFeedbackLocked hV m
    have hnb := hs.mark_bound_eq_false hp.mem hb
    have hrel := feedback_releaseLocked hp.sound hp.mem
    dsimp only
    generalize ((w.ctx.invalidateFeedbackLocked m).releaseLocked m) = p at hrel
    refine Settles.of_kept ?_ ?_ ?_ rfl rfl
    · rw [withCtx_ctx, feedback_modifyMeta]
      have hmark : (p.1.metaPool m).mark = p.1.feedback.mark m := rfl
      refine FeedbackView.Sound.setMark_of_ne ?_ (by rw [hrel]; exact hb) ?_
      · rw [hrel]
        exact hs.setMark_of_ne hb hnb
      · have hbound : (p.1.feedback.mark m).bound = false := by
          rw [hrel]
          simpa [FeedbackView.setMark] using hnb
        exact hbound
    · rw [withCtx_ctx, feedback_modifyMeta, hrel]
      exact hv
    · rw [withCtx_ctx, feedback_modifyMeta, hrel]
      exact ht

/-! ## The section of a completion -/

@[simp] theorem feedback_recordSample (c : ThrottleCtx) (g : Globals) (m : MetaId)
    (nowNs latencyUs : ℕ) :
    (recordSample c g m nowNs latencyUs).1.feedback = c.feedback := by
  have hmark := c.feedback_modifyMeta_of_mark m
    (f := fun x => { x with completionSampled := true }) rfl
  unfold recordSample
  dsimp only
  split
  · rfl
  · split
    · exact hmark
    · exact hmark

/-- **What a latency does to the loop.** Unless it asks for a new inference it
settles the loop; and in any case the completed record is let go and nothing
else is bound. -/
structure Counted (V V' : FeedbackView) (m : MetaId) (r : CompletionResult) : Prop where
  sole : V'.Sole
  released : V'.bound ≠ some m
  settled : r.reinfer = false → V'.Sound ∧ TallyStep V V' { voted := r.voted }

/-- The view of a context after one vote more. -/
theorem counted_recordVote {c : ThrottleCtx} (hV : c.feedback.Sound) (g : Globals)
    (m : MetaId) (latencyUs : ℕ) :
    ((recordVote c g m latencyUs).complete = false
        ∧ (recordVote c g m latencyUs).reinfer = false
        ∧ (recordVote c g m latencyUs).ctx = c)
      ∨ ((recordVote c g m latencyUs).complete = true
        ∧ (recordVote c g m latencyUs).ctx.feedback.Sole
        ∧ (recordVote c g m latencyUs).ctx.feedback.bound = none
        ∧ ((recordVote c g m latencyUs).reinfer = false →
          (recordVote c g m latencyUs).ctx.feedback.Sound
            ∧ TallyStep c.feedback (recordVote c g m latencyUs).ctx.feedback
                { voted := some latencyUs })) := by
  unfold recordVote
  split
  · rename_i hc
    refine Or.inr ?_
    have hb : c.feedback.bound = some m := by
      simp only [Bool.and_eq_true, decide_eq_true_eq] at hc
      exact hc.1.1.2
    have hv : c.feedback.actionValid = true := hV.valid_of_bound hb
    dsimp only
    generalize hc₁ : ({ c with
      control := { c.control with
        feedbackVoteCount := c.control.feedbackVoteCount + 1
        feedbackTotalDevLatUs := c.control.feedbackTotalDevLatUs + latencyUs
        feedbackMaxDevLatUs := max c.control.feedbackMaxDevLatUs latencyUs } } : ThrottleCtx)
      = c₁
    have hV₁ : c₁.feedback
        = { c.feedback with tally := c.feedback.tally.add latencyUs } := by
      rw [← hc₁]
      rfl
    have hsole : c₁.feedback.Sole := by
      rw [hV₁]
      exact hV.sole
    have hsus : c₁.clearFeedbackBindingLocked.feedback.Sole := by
      rw [feedback_clearFeedbackBindingLocked]
      exact FeedbackView.sole_suspend hsole
    by_cases hlast : c₁.clearFeedbackBindingLocked.control.feedbackVoteCount = feedbackSampleMax
    · rw [if_pos hlast]
      split
      · -- the mean is low enough: the control ends
        refine ⟨rfl, ?_, ?_, fun _ => ⟨?_, ?_⟩⟩ <;> dsimp only <;>
          rw [feedback_fallbackLocked]
        · exact (FeedbackView.sound_idle hsus).sole
        · rfl
        · exact FeedbackView.sound_idle hsus
        · exact fun hvalid => absurd hvalid (by simp [FeedbackView.idle])
      · -- the mean is still high: a new inference is asked for
        refine ⟨rfl, hsus, ?_, fun hr => absurd hr (by simp)⟩
        dsimp only
        rw [feedback_clearFeedbackBindingLocked]
        rfl
    · rw [if_neg hlast]
      have hlt : c.feedback.tally.count + 1 < feedbackSampleMax := by
        have hcount : c₁.clearFeedbackBindingLocked.control.feedbackVoteCount
            = c.feedback.tally.count + 1 := congrArg (fun V : FeedbackView => V.tally.count) hV₁
        have hle := hV.votes
        rw [hcount] at hlast
        omega
      have hre : ({ c₁.clearFeedbackBindingLocked with
          control := { c₁.clearFeedbackBindingLocked.control with
            feedbackState := .waitDispatch } } : ThrottleCtx).feedback
          = c₁.feedback.rebind :=
        feedback_eq_of_mark rfl c₁.mark_clearFeedbackBindingLocked
      have hsound : c₁.feedback.rebind.Sound := by
        rw [hV₁]
        exact (hV.vote hv hlt).rebind hv
      refine ⟨rfl, ?_, ?_, fun _ => ⟨?_, ?_⟩⟩ <;> dsimp only <;> rw [hre]
      · exact hsound.sole
      · rfl
      · exact hsound
      · rw [hV₁]
        exact fun _ => ⟨hv, rfl⟩
  · exact Or.inl ⟨rfl, rfl, rfl⟩

theorem counted_recordLatency {c : ThrottleCtx} (hV : c.feedback.Sound) (g : Globals)
    (m : MetaId) (nowNs : ℕ) :
    Counted c.feedback (recordLatency c g m nowNs).ctx.feedback m
      (recordLatency c g m nowNs) := by
  have hinv (c' : ThrottleCtx) (hc' : c'.feedback = c.feedback) (r : CompletionResult)
      (hr : r.voted = none) :
      Counted c.feedback (c'.invalidateFeedbackLocked m).feedback m r := by
    rw [← hc'] at hV ⊢
    obtain ⟨hs, hb⟩ := sound_invalidateFeedbackLocked hV m
    obtain ⟨hv, ht⟩ := kept_invalidateFeedbackLocked hV m
    refine ⟨hs.sole, hb, fun _ => ⟨hs, ?_⟩⟩
    rw [hr]
    exact fun hvalid => ⟨hv.symm.trans hvalid, ht⟩
  unfold recordLatency
  split
  · exact hinv c rfl _ rfl
  · rename_i latencyUs _
    have hsame := feedback_recordSample c g m nowNs latencyUs
    have hvote := counted_recordVote (c := (recordSample c g m nowNs latencyUs).1)
      (by rw [hsame]; exact hV) g m latencyUs
    dsimp only
    generalize recordVote (recordSample c g m nowNs latencyUs).1 g m latencyUs = v at hvote
    rcases hvote with ⟨hcomp, hre, hctx⟩ | ⟨hcomp, hsole, hnone, hset⟩
    · rw [hcomp, hctx, if_neg Bool.false_ne_true]
      exact hinv _ hsame _ rfl
    · rw [hcomp, if_pos rfl]
      refine ⟨hsole, by rw [hnone]; simp, fun hr => ?_⟩
      obtain ⟨hs, ht⟩ := hset hr
      exact ⟨hs, by rw [hsame] at ht; exact ht⟩

/-- **Starting an inference** arms the loop, or fails and leaves it alone. -/
theorem feedback_startInferenceLocked (c : ThrottleCtx) (g : Globals) (newControl : Bool)
    (nowNs : ℕ) :
    ((c.startInferenceLocked g newControl nowNs).2 = true
        ∧ (c.startInferenceLocked g newControl nowNs).1.feedback = c.feedback.arm)
      ∨ ((c.startInferenceLocked g newControl nowNs).2 = false
        ∧ (c.startInferenceLocked g newControl nowNs).1.feedback = c.feedback) := by
  have hsnap := (c.snapshotConfigLocked g).feedback_snapshotStateLocked nowNs
    g.queueDepth g.devLatThresholdUs
  unfold startInferenceLocked
  dsimp only
  split
  · exact Or.inr ⟨rfl, rfl⟩
  · split
    · exact Or.inl ⟨rfl, feedback_armInferenceLocked _ _ _⟩
    · split
      · rename_i heq
        rw [heq] at hsnap
        exact Or.inr ⟨rfl, hsnap⟩
      · rename_i heq
        rw [heq] at hsnap
        refine Or.inl ⟨rfl, (feedback_armInferenceLocked _ _ _).trans ?_⟩
        exact congrArg FeedbackView.arm hsnap

/-- **The end of a completion** leaves the loop sound, whatever the latency asked
for; an action that is still in force is the one from before. -/
theorem feedback_restartInference {c : ThrottleCtx} (hsole : c.feedback.Sole) (g : Globals)
    (reinfer slow : Bool) (nowNs : ℕ) (hsound : reinfer = false → c.feedback.Sound) :
    (restartInference c g reinfer slow nowNs).1.feedback.Sound
      ∧ ((restartInference c g reinfer slow nowNs).1.feedback.actionValid = true →
        reinfer = false
          ∧ (restartInference c g reinfer slow nowNs).1.feedback = c.feedback)
      ∧ (restartInference c g reinfer slow nowNs).2.installed = none := by
  have hstart := feedback_startInferenceLocked c g slow nowNs
  unfold restartInference
  dsimp only
  by_cases hask : (reinfer || slow) = true
  · rw [if_pos hask]
    generalize c.startInferenceLocked g slow nowNs = p at hstart
    rcases hstart with ⟨hp, harm⟩ | ⟨hp, hsame⟩
    · rw [if_pos hp]
      refine ⟨harm ▸ FeedbackView.sound_arm hsole, fun hvalid => ?_, rfl⟩
      rw [harm] at hvalid
      exact absurd hvalid (by simp [FeedbackView.arm])
    · rw [if_neg (by rw [hp]; simp)]
      cases reinfer with
      | true =>
        rw [if_pos rfl]
        dsimp only
        rw [feedback_fallbackLocked, hsame]
        exact ⟨FeedbackView.sound_idle hsole, fun hvalid => absurd hvalid
          (by simp [FeedbackView.idle]), rfl⟩
      | false =>
        rw [if_neg Bool.false_ne_true]
        dsimp only
        rw [hsame]
        exact ⟨hsound rfl, fun _ => ⟨rfl, rfl⟩, rfl⟩
  · rw [if_neg hask]
    have hre : reinfer = false := by
      cases reinfer with
      | true => exact absurd rfl hask
      | false => rfl
    exact ⟨hsound hre, fun _ => ⟨hre, rfl⟩, rfl⟩

theorem settles_recordComplete {w : Throttle} (h : Accounted w) (hV : w.ctx.feedback.Sound)
    (rq : RqAddr) (nrBytes nowNs : ℕ) :
    Settles w.ctx (w.recordComplete rq nrBytes nowNs).1.ctx
      (w.recordComplete rq nrBytes nowNs).2 := by
  simp only [recordComplete]
  cases hfind : w.ctx.findMetaLocked rq with
  | none => exact Settles.of_eq hV rfl rfl rfl
  | some m =>
    have hp := (Posted.refl h.books (findMetaLocked_some hfind).1).quiet
      (books_recordLatency w.ctx w.globals m nowNs)
    have hcnt := counted_recordLatency hV w.globals m nowNs
    dsimp only
    split
    · exact Settles.of_eq hV rfl rfl rfl
    · generalize recordLatency w.ctx w.globals m nowNs = v at hp hcnt
      have hctx := freeMetaLocked_ctx (w := w.withCtx (v.ctx.releaseLocked m).1)
        hp.release.sound hp.release.mem rq
      rw [withCtx_ctx] at hctx
      have hdrop := feedback_released hp.sound hp.mem hcnt.released
      rw [← hctx] at hdrop
      have hre := feedback_restartInference
        (c := ((w.withCtx (v.ctx.releaseLocked m).1).freeMetaLocked rq m).ctx)
        (by rw [hdrop]; exact hcnt.sole.drop) w.globals v.reinfer v.slow nowNs
        (fun hr => by rw [hdrop]; exact (hcnt.settled hr).1.drop hcnt.released)
      obtain ⟨hs, hvalid, hinst⟩ := hre
      refine ⟨hs, ?_⟩
      -- an action that is still in force is the one the vote was counted for
      unfold TallyStep
      dsimp only
      rw [hinst]
      have hkeep := fun hr => (hcnt.settled hr).2
      unfold TallyStep at hkeep
      cases hvoted : v.voted with
      | none =>
        intro hv
        obtain ⟨hr, hsame⟩ := hvalid hv
        have hstep := hkeep hr
        simp only [hvoted] at hstep
        rw [withCtx_ctx, hsame, hdrop] at hv ⊢
        exact hstep hv
      | some latencyUs =>
        intro hv
        obtain ⟨hr, hsame⟩ := hvalid hv
        have hstep := hkeep hr
        simp only [hvoted] at hstep
        rw [withCtx_ctx, hsame, hdrop] at hv ⊢
        exact hstep hv

/-! ## The sections of an inference -/

/-- **The timer, the work items and the model thread** leave the loop alone, stop
it, or put an action in force. -/
theorem settles_inferenceWorkFinish {w : Throttle} (hV : w.ctx.feedback.Sound) (i : ℕ)
    (predicted : Option (Fin 12)) :
    Settles w.ctx (w.inferenceWorkFinish i predicted).1.ctx
      (w.inferenceWorkFinish i predicted).2 := by
  have hfail (w₁ : Throttle) (hw₁ : w₁.ctx = w.ctx) (f : InferenceFrame) :
      Settles w.ctx (w₁.inferenceWorkFail f).1.ctx (w₁.inferenceWorkFail f).2 := by
    unfold inferenceWorkFail
    rw [hw₁]
    split
    · exact Settles.fallback hV.sole (feedback_fallbackLocked _) rfl
    · exact Settles.of_eq hV (by rw [hw₁]) rfl rfl
  have happly (w₁ : Throttle) (hw₁ : w₁.ctx = w.ctx) (f : InferenceFrame) (a : ThrottleAction)
      (n : ℕ) :
      Settles w.ctx (w₁.inferenceWorkApply f a n).1.ctx (w₁.inferenceWorkApply f a n).2 := by
    unfold inferenceWorkApply
    rw [hw₁]
    dsimp only
    split
    · exact Settles.of_eq hV rfl rfl rfl
    · rename_i hc
      split
      · exact Settles.fallback hV.sole (feedback_fallbackLocked _) rfl
      · have hpend : w.ctx.control.inferencePending = true := by
          simp only [Bool.or_eq_true, not_or, Bool.not_eq_true, Bool.not_eq_false',
            framePending, Bool.and_eq_true] at hc
          exact hc.1.1.1.1.1
        refine ⟨hV.install hpend f.decisionId, ?_, rfl⟩
        show w.ctx.feedback.actionValid = false
        rw [← Bool.not_eq_true]
        exact fun hv => hV.exclusive ⟨hpend, hv⟩
  unfold inferenceWorkFinish
  split
  · exact Settles.of_eq hV rfl rfl rfl
  · dsimp only
    split
    · exact hfail { w with frames := w.frames.eraseIdx i } rfl _
    · split
      · exact hfail { w with frames := w.frames.eraseIdx i } rfl _
      · exact happly { w with frames := w.frames.eraseIdx i } rfl _ _ _

theorem settles_modelThreadRun {w : Throttle} (hV : w.ctx.feedback.Sound) (nowNs : ℕ) :
    Settles w.ctx (w.modelThreadRun nowNs).1.ctx (w.modelThreadRun nowNs).2 := by
  have hsnap := w.ctx.feedback_snapshotStateLocked nowNs w.globals.queueDepth
    w.globals.devLatThresholdUs
  unfold modelThreadRun
  dsimp only
  split
  · exact Settles.of_eq hV rfl rfl rfl
  · split
    · rename_i heq
      rw [heq] at hsnap
      refine Settles.fallback (hsnap ▸ hV.sole) (feedback_fallbackLocked _) rfl
    · rename_i heq
      rw [heq] at hsnap
      exact Settles.of_eq hV hsnap rfl rfl

theorem feedback_resetContext (w : Throttle) (newSession : Bool) (nowNs : ℕ) :
    (w.resetContext newSession nowNs).1.ctx.feedback = w.ctx.feedback.idle := by
  refine feedback_eq_of_mark rfl (Eq.trans ?_ (mark_clearFeedbackBindingLocked _))
  funext m
  simp only [resetContext, withCtx_ctx]
  rw [apply_ite RqMeta.mark, show ∀ x, (restamp newSession nowNs x).mark = x.mark from
    fun _ => rfl, ite_self]
  rfl

/-- **Every section settles the feedback loop.** -/
theorem settles_step {w : Throttle} (h : Accounted w) (hV : w.ctx.feedback.Sound)
    (op : ThrottleOp) : Settles w.ctx (w.step op).1.ctx (w.step op).2 := by
  cases op with
  | prepareRequest rq r =>
    simp only [step, prepareRequest]
    split <;> exact Settles.of_eq hV rfl rfl rfl
  | changeRequest rq r => exact Settles.of_eq hV rfl rfl rfl
  | classifyRequest rq t nowNs => exact settles_classifyRequest h hV rq t nowNs
  | updateRequest rq =>
    simp only [step, updateRequest]
    split
    · exact Settles.of_eq hV rfl rfl rfl
    · split
      · exact Settles.of_eq hV rfl rfl rfl
      · exact Settles.of_eq hV (feedback_modifyMeta_of_mark _ _ rfl) rfl rfl
  | unqueueRequest rq =>
    simp only [step, unqueueRequest]
    split
    · exact Settles.of_eq hV rfl rfl rfl
    · exact Settles.of_eq hV (feedback_pendingDecLocked _ _) rfl rfl
  | accountDispatch rq selection nowNs =>
    exact settles_accountDispatch h hV rq selection nowNs
  | finishRequest rq => exact settles_finishRequest h hV rq
  | recordIssue rq t nowNs => exact settles_recordIssue h hV rq t nowNs
  | recordRequeue rq => exact settles_recordRequeue h hV rq
  | recordComplete rq nrBytes nowNs => exact settles_recordComplete h hV rq nrBytes nowNs
  | scheduleFallback =>
    simp only [step, scheduleFallback]
    split
    · exact Settles.fallback hV.sole (feedback_fallbackLocked _) rfl
    · exact Settles.of_eq hV rfl rfl rfl
  | nonHpAllowed =>
    simp only [step, nonHpAllowed]
    split
    · exact Settles.of_eq hV rfl rfl rfl
    · refine Settles.of_eq hV ?_ rfl rfl
      unfold closeGate
      split <;> rfl
  | dispatchModelIfNeeded slotFree =>
    simp only [step, dispatchModelIfNeeded]
    split
    · exact Settles.of_eq hV rfl rfl rfl
    · split
      · exact Settles.of_eq hV rfl rfl rfl
      · exact Settles.fallback (d := { w.ctx with
          control := { w.ctx.control with inferenceRunning := true } })
          hV.sole (feedback_fallbackLocked _) rfl
  | modelThreadRun nowNs => exact settles_modelThreadRun hV nowNs
  | inferenceWorkBegin =>
    simp only [step, inferenceWorkBegin]
    split <;> exact Settles.of_eq hV rfl rfl rfl
  | inferenceWorkFinish i predicted => exact settles_inferenceWorkFinish hV i predicted
  | inferenceTimer =>
    simp only [step, inferenceTimer]
    split
    · rename_i hc
      rw [Bool.and_eq_true] at hc
      exact Settles.of_kept (hV.timeOut hc.1) rfl rfl rfl rfl
    · exact Settles.of_eq hV rfl rfl rfl
  | timeoutWork =>
    simp only [step, timeoutWork]
    split
    · exact Settles.fallback hV.sole (feedback_fallbackLocked _) rfl
    · exact Settles.of_eq hV rfl rfl rfl
  | resetContext newSession nowNs =>
    exact Settles.fallback hV.sole (feedback_resetContext w newSession nowNs) rfl
  | configure k => exact Settles.of_eq hV rfl rfl rfl
  | setDying => exact Settles.of_eq hV rfl rfl rfl

/-! ## The control invariant -/

/-- The loop of an attached queue is idle. -/
theorem sound_of_attached {w : Throttle} (h : Attached w) : w.ctx.feedback.Sound := by
  obtain ⟨q, n, -, hctx⟩ := h.ctx
  have hidle : w.ctx.feedback = w.ctx.feedback.idle := by
    rw [hctx]
    rfl
  rw [hidle]
  refine FeedbackView.sound_idle (fun m hm => ?_)
  rw [hctx] at hm
  exact absurd hm List.not_mem_nil

/-- The feedback loop is sound in every reachable state. -/
theorem feedbackSound_of_reachable {w : Throttle} (h : machine.Reachable w) :
    w.ctx.feedback.Sound := by
  refine (h.invariant (I := fun w => Accounted w ∧ w.ctx.feedback.Sound) ?_ ?_).2
  · exact fun w hw => ⟨accounted_of_attached hw, sound_of_attached hw⟩
  · rintro w op ⟨hacc, hsound⟩
    exact ⟨hacc.makes (step_makes hacc op), (settles_step hacc hsound op).sound⟩

end Throttle
