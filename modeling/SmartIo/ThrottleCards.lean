import SmartIo.ThrottleAccounting

/-!
# What a section leaves alone

Most lock sections of the throttle are about one request (`subject`): they look
up its metadata, and change that and the request. What the throttle knows of any
other request – which record it has, what the record says, and what its
`ioprio` and its operation are – is its card, and no section changes the card of
a request it is not about (`card_step_of_ne`). The queue a request belongs to is
a function of its card and of the task that asks (`select_card`).
-/

/-- The request a section is about. -/
def ThrottleOp.subject : ThrottleOp → Option RqAddr
  | .prepareRequest rq _ | .changeRequest rq _ | .classifyRequest rq _ _ | .updateRequest rq
  | .unqueueRequest rq | .accountDispatch rq _ _ | .finishRequest rq | .recordIssue rq _ _
  | .recordRequeue rq | .recordComplete rq _ _ => some rq
  | _ => none

/-- What the throttle knows of a request. -/
structure RqCard where
  priv1 : Option MetaId
  /-- The status of the record of the request. -/
  status : Option MetaStatus
  op : ReqOp
  ioprio : ℕ
deriving DecidableEq, Repr

/-- The queue of a request, read off its card. -/
def RqCard.select (k : RqCard) (g : Globals) (t : TaskCtx) : QueueClass :=
  match k.status with
  | some s => s.queueClass
  | none =>
    if isHpIoprio k.ioprio then .hp
    else if currentCanMarkHp g t || rtReadCanMarkHp g k.ioprio k.op then .hp
    else queueFromIoprio k.ioprio

/-- **A settled request**: every task, under every setting, finds it in the same
queue. -/
def RqCard.Settled (k : RqCard) (prio : QueueClass) : Prop := ∀ g t, k.select g t = prio

namespace RqCard

variable {k : RqCard}

/-- Metadata settles a request. -/
theorem settled_of_status {s : MetaStatus} (h : k.status = some s) : k.Settled s.queueClass := by
  intro g t
  unfold select
  rw [h]

/-- The HP hint settles a request, if there is no metadata that says otherwise. -/
theorem settled_of_hint (h : k.status = none) (hhint : isHpIoprio k.ioprio = true) :
    k.Settled .hp := by
  intro g t
  unfold select
  rw [h]
  exact if_pos hhint

/-- **Without metadata and hint nothing is settled**: a foreground task finds the
request in HP, and without a foreground app no one does. -/
theorem not_settled (h : k.status = none) (hhint : isHpIoprio k.ioprio = false)
    (prio : QueueClass) : ¬ k.Settled prio := by
  intro hset
  have hfg := hset { Globals.initial with fgUid := 0 } ⟨0, 0, []⟩
  have hbg := hset .initial ⟨0, 0, []⟩
  unfold select at hfg hbg
  rw [h] at hfg hbg
  dsimp only at hfg hbg
  rw [if_neg (by rw [hhint]; exact Bool.false_ne_true)] at hfg hbg
  have hcan : currentCanMarkHp { Globals.initial with fgUid := 0 } ⟨0, 0, []⟩ = true := by decide
  have hcannot : currentCanMarkHp .initial ⟨0, 0, []⟩ = false := by decide
  have hread : rtReadCanMarkHp .initial k.ioprio k.op = false := rfl
  rw [hcan, Bool.true_or, if_pos rfl] at hfg
  rw [hcannot, hread, Bool.false_or, if_neg Bool.false_ne_true, ← hfg] at hbg
  unfold queueFromIoprio at hbg
  split at hbg
  · cases hbg
  · cases hbg

end RqCard

/-- The card of a request that leaves its queue. -/
def RqCard.unqueue (k : RqCard) : RqCard := { k with status := k.status.map .unqueue }

/-- **A request left its queue**: it kept its record, which no longer counts it as
waiting. -/
structure RqCard.Left (k k' : RqCard) : Prop where
  priv1 : k'.priv1 = k.priv1
  op : k'.op = k.op
  queued : ∀ s, k'.status = some s → s.queued = false

theorem RqCard.left_unqueue (k : RqCard) : k.Left k.unqueue where
  priv1 := rfl
  op := rfl
  queued := by
    intro s hs
    obtain ⟨s₀, -, rfl⟩ := Option.map_eq_some_iff.mp hs
    rfl

namespace Throttle

/-- The card of a request. -/
def card (w : Throttle) (x : RqAddr) : RqCard where
  priv1 := (w.rqs x).priv1
  status := (w.rqs x).priv1.map fun m => (w.ctx.metaPool m).status
  op := (w.rqs x).op
  ioprio := (w.rqs x).ioprio

/-- **The queue of a request is a function of its card.** -/
theorem select_card (w : Throttle) (x : RqAddr) (g : Globals) (t : TaskCtx) :
    selectQueue w.ctx.metaPool g t (w.rqs x) = (w.card x).select g t := by
  unfold selectQueue RqCard.select card
  dsimp only
  cases (w.rqs x).priv1 with
  | none => rfl
  | some m => rfl

/-- A card is what the request and its record say. -/
theorem card_eq {w w' : Throttle} {x : RqAddr} (hpriv : (w'.rqs x).priv1 = (w.rqs x).priv1)
    (hop : (w'.rqs x).op = (w.rqs x).op) (hioprio : (w'.rqs x).ioprio = (w.rqs x).ioprio)
    (hstatus : ∀ m, (w.rqs x).priv1 = some m →
      (w'.ctx.metaPool m).status = (w.ctx.metaPool m).status) : w'.card x = w.card x := by
  unfold card
  rw [hpriv, hop, hioprio]
  congr 1
  cases hm : (w.rqs x).priv1 with
  | none => rfl
  | some m => exact congrArg some (hstatus m hm)

/-! ## The requests -/

theorem rqs_freeMetaLocked_of_ne (w : Throttle) {rq x : RqAddr} (hx : x ≠ rq) (m : MetaId) :
    (w.freeMetaLocked rq m).rqs x = w.rqs x := by
  unfold freeMetaLocked
  split
  · rfl
  · dsimp only
    split
    · exact Function.update_of_ne hx _ _
    · rfl

theorem rqs_allocTaken_of_ne (w : Throttle) {rq x : RqAddr} (hx : x ≠ rq) (cls : RqClass)
    (m : MetaId) (rest : List MetaId) : (w.allocTaken rq cls m rest).rqs x = w.rqs x := by
  unfold allocTaken
  dsimp only
  split
  · exact Function.update_of_ne hx _ _
  · rfl

theorem rqs_allocMetaLocked_of_ne (w : Throttle) {rq x : RqAddr} (hx : x ≠ rq)
    (cls : RqClass) : (w.allocMetaLocked rq cls).1.rqs x = w.rqs x := by
  unfold allocMetaLocked
  split
  · rfl
  · exact w.rqs_allocTaken_of_ne hx cls _ _

/-- **A section changes the request it is about**, and no other. -/
theorem rqs_step_of_ne (w : Throttle) {op : ThrottleOp} {x : RqAddr}
    (hx : op.subject ≠ some x) : (w.step op).1.rqs x = w.rqs x := by
  have hne : ∀ {rq : RqAddr}, op.subject = some rq → x ≠ rq := by
    rintro rq hrq rfl
    exact hx hrq
  cases op with
  | prepareRequest rq r =>
    show (w.prepareRequest rq r).rqs x = _
    unfold prepareRequest
    split
    · exact Function.update_of_ne (hne rfl) _ _
    · rfl
  | changeRequest rq r => exact Function.update_of_ne (hne rfl) _ _
  | classifyRequest rq t nowNs =>
    simp only [step, classifyRequest]
    cases (w.rqs rq).priv1 with
    | some m => rfl
    | none =>
      have halloc := w.rqs_allocMetaLocked_of_ne (hne rfl)
        (classForQueue (selectQueue w.ctx.metaPool w.globals t (w.rqs rq)))
      generalize w.allocMetaLocked rq _ = p at halloc ⊢
      obtain ⟨w₁, _ | m⟩ := p
      · exact halloc
      · exact halloc
  | updateRequest rq =>
    simp only [step, updateRequest]
    split
    · rfl
    · split <;> rfl
  | unqueueRequest rq =>
    simp only [step, unqueueRequest]
    split <;> rfl
  | accountDispatch rq selection nowNs =>
    simp only [step, accountDispatch]
    split <;> rfl
  | finishRequest rq =>
    simp only [step, finishRequest]
    split
    · rfl
    · exact rqs_freeMetaLocked_of_ne _ (hne rfl) _
  | recordIssue rq t nowNs =>
    simp only [step, recordIssue]
    cases w.ctx.findMetaLocked rq with
    | some m => rfl
    | none =>
      have halloc := w.rqs_allocMetaLocked_of_ne (hne rfl)
        (classForQueue (selectQueue w.ctx.metaPool w.globals t (w.rqs rq)))
      generalize w.allocMetaLocked rq _ = p at halloc ⊢
      obtain ⟨w₁, _ | m⟩ := p
      · exact halloc
      · exact halloc
  | recordRequeue rq =>
    simp only [step, recordRequeue]
    split <;> rfl
  | recordComplete rq nrBytes nowNs =>
    simp only [step, recordComplete]
    split
    · rfl
    · split
      · rfl
      · exact rqs_freeMetaLocked_of_ne _ (hne rfl) _
  | scheduleFallback =>
    simp only [step, scheduleFallback]
    split <;> rfl
  | nonHpAllowed =>
    simp only [step, nonHpAllowed]
    split <;> rfl
  | dispatchModelIfNeeded slotFree =>
    simp only [step, dispatchModelIfNeeded]
    split
    · rfl
    · split <;> rfl
  | modelThreadRun nowNs => exact congrFun (books_modelThreadRun w nowNs).2 x
  | inferenceWorkBegin =>
    simp only [step, inferenceWorkBegin]
    split <;> rfl
  | inferenceWorkFinish i predicted => exact congrFun (books_inferenceWorkFinish w i predicted).2 x
  | inferenceTimer =>
    simp only [step, inferenceTimer]
    split <;> rfl
  | timeoutWork =>
    simp only [step, timeoutWork]
    split <;> rfl
  | resetContext newSession nowNs => rfl
  | configure k => rfl
  | setDying => rfl

/-! ## The records -/

/-- **The record of another request is not moved.** -/
theorem record_move_of_ne {w : Throttle} (h : Accounted w) {op : ThrottleOp} {x : RqAddr}
    (hx : op.subject ≠ some x) {m : MetaId} (hlive : m ∈ w.ctx.activeMetas)
    (hown : (w.ctx.metaPool m).rq = some x) :
    (w.ctx.books.make (w.move op)).ledger.record m = (w.ctx.metaPool m).status := by
  have hpriv : ∀ {rq : RqAddr} {n : MetaId}, op.subject = some rq →
      (w.rqs rq).priv1 = some n → m ≠ n := by
    rintro rq n hrq hn rfl
    exact hx (hrq.trans ((h.priv rq m hn).2.1.symm.trans hown))
  have hfind : ∀ {rq : RqAddr} {n : MetaId}, op.subject = some rq →
      w.ctx.findMetaLocked rq = some n → m ≠ n := by
    rintro rq n hrq hn rfl
    exact hx (hrq.trans ((ThrottleCtx.findMetaLocked_some hn).2.symm.trans hown))
  have henter : ∀ (rq : RqAddr) (s : MetaStatus),
      (w.ctx.books.make (w.enterMove rq s)).ledger.record m = (w.ctx.metaPool m).status := by
    intro rq s
    unfold enterMove
    split
    · rfl
    · next n rest hfree =>
      refine Ledger.enter_record_of_ne _ _ _ _ fun hmn => ?_
      exact h.books.balanced.notMem_live
        (show m ∈ w.ctx.freeMeta from hfree ▸ hmn ▸ List.mem_cons_self) hlive
  cases op with
  | classifyRequest rq t nowNs =>
    simp only [move]
    split
    · next n hn => exact Ledger.post_record_of_ne _ _ _ (hpriv rfl hn)
    · exact henter _ _
  | unqueueRequest rq =>
    simp only [move]
    split
    · next n hn => exact Ledger.post_record_of_ne _ _ _ (hpriv rfl hn)
    · rfl
  | accountDispatch rq selection nowNs =>
    simp only [move]
    split
    · next n hn => exact Ledger.post_record_of_ne _ _ _ (hpriv rfl hn)
    · rfl
  | finishRequest rq =>
    simp only [move]
    split
    · next n hn => exact Ledger.leave_record_of_ne _ _ _ (hpriv rfl hn)
    · rfl
  | recordIssue rq t nowNs =>
    simp only [move]
    split
    · next n hn => exact Ledger.post_record_of_ne _ _ _ (hfind rfl hn)
    · exact henter _ _
  | recordRequeue rq =>
    simp only [move]
    split
    · next n hn => exact Ledger.post_record_of_ne _ _ _ (hfind rfl hn)
    · rfl
  | recordComplete rq nrBytes nowNs =>
    simp only [move]
    split
    · next n hn =>
      split
      · exact Ledger.leave_record_of_ne _ _ _ (hfind rfl hn)
      · rfl
    · rfl
  | _ => rfl

/-! ## The cards -/

/-- **A section leaves the cards of other requests alone.** -/
theorem card_step_of_ne {w : Throttle} (h : Accounted w) {op : ThrottleOp} {x : RqAddr}
    (hx : op.subject ≠ some x) : (w.step op).1.card x = w.card x := by
  have hrqs := w.rqs_step_of_ne hx
  refine card_eq (by rw [hrqs]) (by rw [hrqs]) (by rw [hrqs]) fun m hm => ?_
  obtain ⟨hlive, hown, -⟩ := h.priv x m hm
  have hbooks := congrArg (fun b : Books => b.ledger.record m) (step_makes h op).books
  exact hbooks.trans (record_move_of_ne h hx hlive hown)

/-- A change that keeps the operation and the `ioprio` of a request leaves its card
alone. -/
theorem card_changeRequest (w : Throttle) {rq : RqAddr} {r : Request}
    (hop : r.op = (w.rqs rq).op) (hioprio : r.ioprio = (w.rqs rq).ioprio) (x : RqAddr) :
    (w.step (.changeRequest rq r)).1.card x = w.card x := by
  by_cases hx : x = rq
  · subst hx
    have hrq : (w.step (.changeRequest x r)).1.rqs x
        = { r with useSched := (w.rqs x).useSched, priv1 := (w.rqs x).priv1 } :=
      Function.update_self _ _ _
    exact card_eq (by rw [hrq]) (by rw [hrq]; exact hop) (by rw [hrq]; exact hioprio)
      fun _ _ => rfl
  · have hrq : (w.step (.changeRequest rq r)).1.rqs x = w.rqs x := Function.update_of_ne hx _ _
    exact card_eq (by rw [hrq]) (by rw [hrq]) (by rw [hrq]) fun _ _ => rfl

/-- A new stamp leaves every card alone. -/
theorem card_fifoTime (w : Throttle) (rq : RqAddr) (jiffies : ℕ) (x : RqAddr) :
    (w.step (.changeRequest rq { w.rqs rq with fifoTime := jiffies })).1.card x = w.card x := by
  refine w.card_changeRequest ?_ ?_ x
  · rfl
  · rfl

/-- An update of the positions leaves every card alone. -/
theorem card_updateRequest {w : Throttle} (h : Accounted w) (rq x : RqAddr) :
    (w.step (.updateRequest rq)).1.card x = w.card x := by
  have hrqs : (w.step (.updateRequest rq)).1.rqs = w.rqs := by
    simp only [step, updateRequest]
    split
    · rfl
    · split <;> rfl
  have hbooks := (step_makes h (.updateRequest rq)).books
  refine card_eq (by rw [hrqs]) (by rw [hrqs]) (by rw [hrqs]) fun m _ => ?_
  exact congrArg (fun b : Books => b.ledger.record m) hbooks

/-- **A section that rewrites the record of a request** rewrites its card. -/
theorem card_post {w : Throttle} (h : Accounted w) {op : ThrottleOp} {x : RqAddr}
    {m : MetaId} {f : MetaStatus → MetaStatus} (hrqs : (w.step op).1.rqs x = w.rqs x)
    (hm : (w.rqs x).priv1 = some m) (hmove : w.move op = .post m f) :
    (w.step op).1.card x = { w.card x with status := (w.card x).status.map f } := by
  have hbooks := (step_makes h op).books
  rw [hmove] at hbooks
  have hstatus : ((w.step op).1.ctx.metaPool m).status = f (w.ctx.metaPool m).status :=
    (congrArg (fun b : Books => b.ledger.record m) hbooks).trans
      (Ledger.post_record_self _ _ _ _)
  unfold card
  rw [hrqs, hm]
  exact congrArg (fun s => RqCard.mk (some m) (some s) (w.rqs x).op (w.rqs x).ioprio) hstatus

/-- A request without metadata cannot leave its queue, another one does. -/
theorem card_unqueueRequest {w : Throttle} (h : Accounted w) (x : RqAddr) :
    (w.step (.unqueueRequest x)).1.card x = (w.card x).unqueue := by
  cases hm : (w.rqs x).priv1 with
  | none =>
    have hstep : (w.step (.unqueueRequest x)).1 = w := by
      simp only [step, unqueueRequest]
      rw [hm]
    rw [hstep]
    unfold RqCard.unqueue card
    rw [hm]
    rfl
  | some m =>
    refine card_post h ?_ hm ?_
    · simp only [step, unqueueRequest]
      rw [hm]
      rfl
    · simp only [move]
      rw [hm]

/-- **A dispatched request leaves its queue**, and keeps its record. -/
theorem card_accountDispatch {w : Throttle} (h : Accounted w) (x : RqAddr)
    (selection : DispatchSelection) (nowNs : ℕ) :
    (w.card x).Left ((w.step (.accountDispatch x selection nowNs)).1.card x) := by
  have hrqs : (w.step (.accountDispatch x selection nowNs)).1.rqs = w.rqs := by
    simp only [step, accountDispatch]
    split <;> rfl
  cases hm : (w.rqs x).priv1 with
  | none =>
    have hcard : (w.step (.accountDispatch x selection nowNs)).1.card x = w.card x := by
      refine card_eq (by rw [hrqs]) (by rw [hrqs]) (by rw [hrqs]) fun m hm' => ?_
      rw [hm] at hm'
      cases hm'
    rw [hcard]
    refine ⟨rfl, rfl, fun s hs => ?_⟩
    have hs' : (w.rqs x).priv1.map _ = some s := hs
    rw [hm] at hs'
    cases hs'
  | some m =>
    rw [card_post h (m := m) (f := .dispatch (decide (selection = .backgroundDeadline)
      && !w.ctx.deadlineForcedActive)) (congrFun hrqs x) hm (by simp only [move]; rw [hm])]
    refine ⟨rfl, rfl, fun s hs => ?_⟩
    obtain ⟨s₀, -, rfl⟩ := Option.map_eq_some_iff.mp hs
    unfold MetaStatus.dispatch MetaStatus.reserve
    split <;> split <;> rfl

/-! ## Classification -/

/-- A request that keeps its record is counted in its queue. -/
theorem card_classifyRequest_some {w : Throttle} (h : Accounted w) {rq : RqAddr} {m : MetaId}
    (hm : (w.rqs rq).priv1 = some m) (t : TaskCtx) (nowNs : ℕ) :
    (w.step (.classifyRequest rq t nowNs)).1.card rq
      = { w.card rq with status := (w.card rq).status.map .enqueue } := by
  refine card_post h ?_ hm ?_
  · simp only [step, classifyRequest]
    rw [hm]
    rfl
  · simp only [move]
    rw [hm]

/-- A request that finds no record stays as it is. -/
theorem card_classifyRequest_empty {w : Throttle} {rq : RqAddr} (hm : (w.rqs rq).priv1 = none)
    (hfree : w.ctx.freeMeta = []) (t : TaskCtx) (nowNs : ℕ) :
    (w.step (.classifyRequest rq t nowNs)).1.card rq = w.card rq := by
  have hstep : (w.step (.classifyRequest rq t nowNs)).1 = w.allocFailed := by
    simp only [step, classifyRequest, allocMetaLocked]
    rw [hm, hfree]
  rw [hstep]
  refine card_eq rfl rfl rfl fun m hm' => ?_
  rw [hm] at hm'
  cases hm'

/-- A request that finds a free record has the selected queue written there. -/
theorem card_classifyRequest_free {w : Throttle} (h : Accounted w) {rq : RqAddr}
    (hsched : (w.rqs rq).useSched = true) (hm : (w.rqs rq).priv1 = none) {m : MetaId}
    {rest : List MetaId} (hfree : w.ctx.freeMeta = m :: rest) (t : TaskCtx) (nowNs : ℕ) :
    (w.step (.classifyRequest rq t nowNs)).1.card rq
      = { w.card rq with
          priv1 := some m
          status := some (.classified rq
            (selectQueue w.ctx.metaPool w.globals t (w.rqs rq))) } := by
  have hrqs : (w.step (.classifyRequest rq t nowNs)).1.rqs rq
      = { w.rqs rq with priv1 := some m } := by
    simp only [step, classifyRequest, allocMetaLocked]
    rw [hm, hfree]
    dsimp only
    unfold allocTaken
    dsimp only
    rw [if_pos hsched]
    exact Function.update_self _ _ _
  have hbooks := (step_makes h (.classifyRequest rq t nowNs)).books
  simp only [move, enterMove] at hbooks
  rw [hm, hfree] at hbooks
  have hstatus : ((w.step (.classifyRequest rq t nowNs)).1.ctx.metaPool m).status
      = .classified rq (selectQueue w.ctx.metaPool w.globals t (w.rqs rq)) :=
    (congrArg (fun b : Books => b.ledger.record m) hbooks).trans
      (Ledger.enter_record_self _ _ _ _ _)
  unfold card
  rw [hrqs]
  exact congrArg (fun s => RqCard.mk (some m) (some s) (w.rqs rq).op (w.rqs rq).ioprio) hstatus

/-- **A request that has or finds a record** is counted as waiting there. -/
theorem status_classifyRequest {w : Throttle} (h : Accounted w) {rq : RqAddr}
    (hsched : (w.rqs rq).useSched = true) (t : TaskCtx) (nowNs : ℕ)
    (hrec : (w.rqs rq).priv1 ≠ none ∨ w.ctx.freeMeta ≠ []) :
    ∃ s, ((w.step (.classifyRequest rq t nowNs)).1.card rq).status = some s
      ∧ s.queued = true := by
  cases hm : (w.rqs rq).priv1 with
  | some m =>
    rw [card_classifyRequest_some h hm]
    show ∃ s, (((w.rqs rq).priv1.map _).map MetaStatus.enqueue) = some s ∧ s.queued = true
    rw [hm]
    exact ⟨_, rfl, rfl⟩
  | none =>
    obtain ⟨m, rest, hfree⟩ := List.exists_cons_of_ne_nil (hrec.resolve_left fun hne => hne hm)
    rw [card_classifyRequest_free h hsched hm hfree]
    exact ⟨_, rfl, rfl⟩

/-- **A classification leaves the selection as it is.** -/
theorem select_classifyRequest {w : Throttle} (h : Accounted w) {rq : RqAddr}
    (hsched : (w.rqs rq).useSched = true) (t : TaskCtx) (nowNs : ℕ) (g : Globals)
    (hg : g = w.globals) :
    ((w.step (.classifyRequest rq t nowNs)).1.card rq).select g t
      = selectQueue w.ctx.metaPool w.globals t (w.rqs rq) := by
  cases hm : (w.rqs rq).priv1 with
  | some m =>
    rw [card_classifyRequest_some h hm, select_card, hg]
    unfold RqCard.select card
    rw [hm]
    rfl
  | none =>
    cases hfree : w.ctx.freeMeta with
    | nil => rw [card_classifyRequest_empty hm hfree, select_card, hg]
    | cons m rest =>
      rw [card_classifyRequest_free h hsched hm hfree]
      rfl

/-- A classification leaves the `ioprio` alone. -/
theorem ioprio_classifyRequest {w : Throttle} (h : Accounted w) {rq : RqAddr}
    (hsched : (w.rqs rq).useSched = true) (t : TaskCtx) (nowNs : ℕ) :
    ((w.step (.classifyRequest rq t nowNs)).1.card rq).ioprio = (w.rqs rq).ioprio := by
  cases hm : (w.rqs rq).priv1 with
  | some m =>
    rw [card_classifyRequest_some h hm]
    rfl
  | none =>
    cases hfree : w.ctx.freeMeta with
    | nil =>
      rw [card_classifyRequest_empty hm hfree]
      rfl
    | cons m rest =>
      rw [card_classifyRequest_free h hsched hm hfree]
      rfl

theorem globals_classifyRequest (w : Throttle) (rq : RqAddr) (t : TaskCtx) (nowNs : ℕ) :
    (w.step (.classifyRequest rq t nowNs)).1.globals = w.globals := by
  simp only [step, classifyRequest, allocMetaLocked]
  split
  · next heq =>
    split at heq
    · cases heq
    · split at heq
      · obtain ⟨rfl, -⟩ := Prod.mk.inj heq
        rfl
      · cases heq
  · next heq =>
    split at heq
    · obtain ⟨rfl, -⟩ := Prod.mk.inj heq
      rfl
    · split at heq
      · cases heq
      · obtain ⟨rfl, -⟩ := Prod.mk.inj heq
        unfold allocTaken
        dsimp only
        split <;> rfl

theorem ioprio_markRequestHp (r : Request) :
    (markRequestHp r).ioprio = if isHpIoprio r.ioprio then r.ioprio else addHpHint r.ioprio := by
  unfold markRequestHp
  split <;> rfl

/-- Marking a request changes its `ioprio`. -/
theorem card_markRequestHp (w : Throttle) (rq : RqAddr) :
    (w.step (.changeRequest rq (markRequestHp (w.rqs rq)))).1.card rq
      = { w.card rq with ioprio := (markRequestHp (w.rqs rq)).ioprio } := by
  have hop : (markRequestHp (w.rqs rq)).op = (w.rqs rq).op := by
    unfold markRequestHp
    split <;> rfl
  have hrq : (w.step (.changeRequest rq (markRequestHp (w.rqs rq)))).1.rqs rq
      = { markRequestHp (w.rqs rq) with
          useSched := (w.rqs rq).useSched, priv1 := (w.rqs rq).priv1 } :=
    Function.update_self _ _ _
  unfold card
  rw [hrq]
  dsimp only
  rw [hop]
  rfl

/-- A section that is about no request moves no record. -/
theorem move_of_subject_none (w : Throttle) {op : ThrottleOp} (h : op.subject = none) :
    w.move op = .same := by
  cases op with
  | classifyRequest rq t nowNs => cases h
  | unqueueRequest rq => cases h
  | accountDispatch rq selection nowNs => cases h
  | finishRequest rq => cases h
  | recordIssue rq t nowNs => cases h
  | recordRequeue rq => cases h
  | recordComplete rq nrBytes nowNs => cases h
  | _ => rfl

/-- Every section keeps the accounting. -/
theorem Accounted.step {w : Throttle} (h : Accounted w) (op : ThrottleOp) :
    Accounted (w.step op).1 :=
  h.makes (step_makes h op)

end Throttle
