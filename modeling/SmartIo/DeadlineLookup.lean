import SmartIo.DeadlineShelves

/-!
# The tree a request is really in

The scheduler does not write down where it has put a request: the priority is
selected anew whenever the request is merged. So a merge acts on the tree the
request is really in only if the selection still says what it said at the
insertion (`Filed.settled`).

The metadata records the selection. A request without metadata – none was free
when it was inserted – is settled by the HP hint alone, which it carries if it
was marked; any other is in one queue for a foreground task and in another one
for the rest. So requests are found where they are exactly as long as every one
that is put on a list has a record or the hint (`FindsRecord`).
-/

namespace Deadline

variable {d d' : Deadline} {rq : RqAddr}

/-! ## What a merge does -/

/-- **A merge** lets the absorbed request leave its queue, may move the other one
behind it, and removes it from the priority that is selected for it. -/
theorem mergedRequests_spec (h : Throttle.Accounted d.throttle) (req next : RqAddr)
    (t : TaskCtx) :
    ∃ d₁ : Deadline, d.mergedRequests req next t = d₁.removeRequest (d.selectPrio next t) next
      ∧ (∀ k e, d₁.tree k e = d.tree k e)
      ∧ ((∀ p, d₁.listAt p = d.listAt p)
        ∨ d.queued req = true ∧ d.queued next = true
          ∧ ∀ p, d₁.listAt p = moveBehind req next (d.listAt p))
      ∧ (∀ x, x ≠ next → d₁.throttle.card x = d.throttle.card x)
      ∧ d₁.throttle.card next = (d.throttle.card next).unqueue := by
  have hupdate := h.step (.updateRequest req)
  have hunqueue := hupdate.step (.unqueueRequest next)
  have hcard : ∀ x, x ≠ next →
      (((d.throttled (.updateRequest req)).throttled (.unqueueRequest next)).throttle.card x)
        = d.throttle.card x := by
    intro x hx
    refine (Throttle.card_step_of_ne hupdate ?_).trans (Throttle.card_updateRequest h req x)
    intro hsub
    exact hx (Option.some.inj hsub).symm
  have hnext : ((d.throttled (.updateRequest req)).throttled
      (.unqueueRequest next)).throttle.card next = (d.throttle.card next).unqueue := by
    refine (Throttle.card_unqueueRequest hupdate next).trans ?_
    rw [Throttle.card_updateRequest h]
  unfold mergedRequests
  dsimp only
  generalize hd₁ : (d.throttled (.updateRequest req)).throttled (.unqueueRequest next) = d₁
    at hcard hnext
  have hperPrio : d₁.perPrio = d.perPrio := by
    rw [← hd₁]
    rfl
  generalize hq : DdPerPrio.mk _ _ _ _ = q
  have hlist : ∀ p, (d₁.setPrio (d.selectPrio next t) q).listAt p = d.listAt p := by
    intro p
    refine (listAt_setPrio (by rw [← hq]) (by rw [← hq]) p).trans ?_
    unfold listAt
    rw [hperPrio]
  have htree : ∀ k e, (d₁.setPrio (d.selectPrio next t) q).tree k e = d.tree k e := by
    intro k e
    refine (tree_setPrio (by rw [← hq]) k e).trans ?_
    unfold tree
    rw [hperPrio]
  have hqueued : ∀ x, (d₁.setPrio (d.selectPrio next t) q).queued x = d.queued x := by
    intro x
    rw [Bool.eq_iff_iff, queued_iff_listAt, queued_iff_listAt]
    exact exists_congr fun p => by rw [hlist]
  refine ⟨_, rfl, ?_⟩
  split
  · next hmove =>
    rw [Bool.and_eq_true, Bool.and_eq_true, hqueued, hqueued] at hmove
    refine ⟨htree, Or.inr ⟨hmove.1.1, hmove.1.2, fun p => ?_⟩, fun x hx => ?_, ?_⟩
    · rw [← hlist]
      exact DdPerPrio.listAt_listMove _ req next p.2
    · exact (Throttle.card_fifoTime _ req _ x).trans (hcard x hx)
    · exact (Throttle.card_fifoTime _ req _ next).trans hnext
  · exact ⟨htree, Or.inl hlist, hcard, hnext⟩

/-! ## What a dispatch does -/

/-- Sections that touch no list, no request and no record. -/
structure Quiet (d d' : Deadline) : Prop where
  perPrio : d'.perPrio = d.perPrio
  rqs : d'.throttle.rqs = d.throttle.rqs
  books : d'.throttle.ctx.books = d.throttle.ctx.books

theorem Quiet.refl (d : Deadline) : Quiet d d := ⟨rfl, rfl, rfl⟩

theorem Quiet.trans {d'' : Deadline} (h : Quiet d d') (h' : Quiet d' d'') : Quiet d d'' where
  perPrio := h'.perPrio.trans h.perPrio
  rqs := h'.rqs.trans h.rqs
  books := h'.books.trans h.books

theorem Quiet.card (h : Quiet d d') (x : RqAddr) :
    d'.throttle.card x = d.throttle.card x :=
  Throttle.card_eq (by rw [h.rqs]) (by rw [h.rqs]) (by rw [h.rqs])
    fun m _ => congrArg (fun b : Books => b.ledger.record m) h.books

theorem Quiet.accounted (h : Quiet d d') (hacc : Throttle.Accounted d.throttle) :
    Throttle.Accounted d'.throttle :=
  hacc.makes (show Throttle.Makes d.throttle .same d'.throttle from ⟨h.books, .of_eq h.rqs⟩)

theorem Quiet.listAt (h : Quiet d d') (p : QueueClass × Option DataDir) :
    d'.listAt p = d.listAt p := by
  unfold Deadline.listAt
  rw [h.perPrio]

theorem Quiet.tree (h : Quiet d d') (k : QueueClass) (e : DataDir) :
    d'.tree k e = d.tree k e := by
  unfold Deadline.tree
  rw [h.perPrio]

/-- A section that is about no request is quiet. -/
theorem quiet_throttled (h : Throttle.Accounted d.throttle) {op : ThrottleOp}
    (hop : op.subject = none) : Quiet d (d.throttled op) where
  perPrio := rfl
  rqs := by
    funext x
    exact d.throttle.rqs_step_of_ne (by rw [hop]; exact (Option.some_ne_none x).symm)
  books := by
    have hbooks := (Throttle.step_makes h op).books
    rw [Throttle.move_of_subject_none _ hop] at hbooks
    exact hbooks

theorem dispatchFifo_of_none {k : QueueClass} (h : (d.perPrio k).pick d.throttle.rqs = none) :
    d.dispatchFifo k = (d, none) := by
  unfold dispatchFifo
  rw [h]

theorem dispatchFifo_of_some {k : QueueClass} {rq : RqAddr}
    (h : (d.perPrio k).pick d.throttle.rqs = some rq) :
    (d.dispatchFifo k).2 = some (k, rq)
      ∧ (∀ p, (d.dispatchFifo k).1.listAt p = (d.listAt p).erase rq)
      ∧ ∀ j e, (d.dispatchFifo k).1.tree j e = (d.removeRequest k rq).tree j e := by
  unfold dispatchFifo
  rw [h]
  refine ⟨rfl, fun p => ?_, fun j e => ?_⟩
  · refine (listAt_setPrio ?_ ?_ p).trans (d.listAt_removeRequest k rq p)
    · rfl
    · rfl
  · refine tree_setPrio ?_ j e
    rfl

/-- **Nothing is dispatched, or the first request of a priority is**, after sections
that are quiet. -/
def Dispatches (d : Deadline) (r : Deadline × Option (QueueClass × RqAddr)) : Prop :=
  ∃ d₁, Quiet d d₁ ∧ (r = (d₁, none)
    ∨ ∃ k rq, (d.perPrio k).pick d.throttle.rqs = some rq ∧ r = d₁.dispatchFifo k)

theorem Quiet.dispatches {r : Deadline × Option (QueueClass × RqAddr)} (h : Quiet d d')
    (hr : Dispatches d' r) : Dispatches d r := by
  obtain ⟨d₁, hq, hr⟩ := hr
  refine ⟨d₁, h.trans hq, hr.imp_right ?_⟩
  rw [h.perPrio, h.rqs]
  exact id

theorem dispatches_dispatchFifo (d : Deadline) (k : QueueClass) :
    Dispatches d (d.dispatchFifo k) := by
  refine ⟨d, .refl d, ?_⟩
  cases hpick : (d.perPrio k).pick d.throttle.rqs with
  | none => exact Or.inl (dispatchFifo_of_none hpick)
  | some rq => exact Or.inr ⟨k, rq, hpick, rfl⟩

theorem dispatches_dispatchGated (h : Throttle.Accounted d.throttle) (k : QueueClass) :
    Dispatches d (d.dispatchGated k) := by
  have hquiet : Quiet d (d.throttled .nonHpAllowed) := quiet_throttled h rfl
  unfold dispatchGated
  dsimp only
  split
  · exact hquiet.dispatches (dispatches_dispatchFifo _ k)
  · exact ⟨_, hquiet, Or.inl rfl⟩

theorem dispatches_choose (h : Throttle.Accounted d.throttle) : Dispatches d (d.choose {}) := by
  unfold choose
  cases hpick : (d.perPrio .hp).pick d.throttle.rqs with
  | some rq =>
    have hsome := (dispatchFifo_of_some hpick).1
    refine ⟨d, .refl d, Or.inr ⟨.hp, rq, hpick, ?_⟩⟩
    generalize d.dispatchFifo .hp = p at hsome ⊢
    obtain ⟨d₁, _ | picked⟩ := p
    · cases hsome
    · rfl
  | none =>
    rw [dispatchFifo_of_none hpick]
    dsimp only
    have hrt := dispatches_dispatchGated h .rt
    rw [show d.meanwhile ({} : Interference).beforeRt = d from rfl]
    generalize d.dispatchGated .rt = p at hrt ⊢
    obtain ⟨d₁, _ | picked⟩ := p
    · -- nothing of RT, so the lists are as before when BE is asked
      obtain ⟨d₂, hq, heq | ⟨k, rq, hk, heq⟩⟩ := hrt
      · obtain ⟨rfl, -⟩ := Prod.mk.inj heq
        exact hq.dispatches (dispatches_dispatchGated (hq.accounted h) .be)
      · have hk₂ : (d₂.perPrio k).pick d₂.throttle.rqs = some rq := by
          rw [hq.perPrio, hq.rqs]
          exact hk
        have hsome := (dispatchFifo_of_some hk₂).1
        rw [← heq] at hsome
        cases hsome
    · exact hrt

/-- **A dispatch** is quiet, or takes the first request of a priority and accounts
for it. -/
theorem dispatchRequest_spec (h : Throttle.Accounted d.throttle) (slotFree : Bool) (nowNs : ℕ) :
    ∃ d₁ : Deadline, Quiet d d₁ ∧ (d.dispatchRequest slotFree {} nowNs = (d₁, none)
      ∨ ∃ k rq, (d₁.perPrio k).pick d₁.throttle.rqs = some rq
        ∧ d.dispatchRequest slotFree {} nowNs
          = ((d₁.dispatchFifo k).1.throttled (.accountDispatch rq .backgroundBaseline nowNs),
            some (k, rq))) := by
  have hquiet : Quiet d (d.throttled (.dispatchModelIfNeeded slotFree)) := quiet_throttled h rfl
  obtain ⟨d₁, hq, hr⟩ := hquiet.dispatches (dispatches_choose (hquiet.accounted h))
  refine ⟨d₁, hq, ?_⟩
  have hmeanwhile : (d.throttled (.dispatchModelIfNeeded slotFree)).meanwhile []
      = d.throttled (.dispatchModelIfNeeded slotFree) := rfl
  unfold dispatchRequest
  dsimp only
  rw [hmeanwhile]
  rcases hr with heq | ⟨k, rq, hpick, heq⟩
  · left
    rw [heq]
  · right
    rw [← hq.perPrio, ← hq.rqs] at hpick
    refine ⟨k, rq, hpick, ?_⟩
    rw [heq, (dispatchFifo_of_some hpick).1]
    rfl

/-! ## What an insertion does -/

/-- A classification counts the request, and leaves lists and trees alone. -/
theorem perPrio_classify (d : Deadline) (rq : RqAddr) (t : TaskCtx) (nowNs : ℕ) :
    ∃ k stats, (d.classify rq t nowNs).perPrio
      = (d.setPrio k { d.perPrio k with stats := stats }).perPrio := by
  unfold classify
  dsimp only
  have hsame : d.perPrio
      = (d.setPrio .hp { d.perPrio .hp with stats := (d.perPrio .hp).stats }).perPrio :=
    (Function.update_eq_self _ _).symm
  split <;> split
  · exact ⟨_, _, rfl⟩
  · exact ⟨_, _, hsame⟩
  · exact ⟨_, _, rfl⟩
  · exact ⟨_, _, hsame⟩

theorem listAt_classify (d : Deadline) (rq : RqAddr) (t : TaskCtx) (nowNs : ℕ)
    (p : QueueClass × Option DataDir) : (d.classify rq t nowNs).listAt p = d.listAt p := by
  obtain ⟨k, stats, hperPrio⟩ := d.perPrio_classify rq t nowNs
  unfold listAt
  rw [hperPrio]
  exact listAt_setPrio (d := d) (k := k) (q := { d.perPrio k with stats := stats }) rfl rfl p

theorem tree_classify (d : Deadline) (rq : RqAddr) (t : TaskCtx) (nowNs : ℕ)
    (j : QueueClass) (e : DataDir) : (d.classify rq t nowNs).tree j e = d.tree j e := by
  obtain ⟨k, stats, hperPrio⟩ := d.perPrio_classify rq t nowNs
  unfold tree
  rw [hperPrio]
  exact tree_setPrio (d := d) (k := k) (q := { d.perPrio k with stats := stats }) rfl j e

theorem queued_classify (d : Deadline) (rq : RqAddr) (t : TaskCtx) (nowNs : ℕ) (x : RqAddr) :
    (d.classify rq t nowNs).queued x = d.queued x := by
  rw [Bool.eq_iff_iff, queued_iff_listAt, queued_iff_listAt]
  exact exists_congr fun p => by rw [listAt_classify]

/-- The priority that is selected after the classification is the one selected
before it. -/
theorem selectPrio_classified (h : Throttle.Accounted d.throttle) {rq : RqAddr}
    (hsched : (d.rq rq).useSched = true) (t : TaskCtx) (nowNs : ℕ) :
    (d.throttled (.classifyRequest rq t nowNs)).selectPrio rq t = d.selectPrio rq t :=
  (Throttle.select_card _ rq _ t).trans (Throttle.select_classifyRequest h hsched t nowNs _
    (d.throttle.globals_classifyRequest rq t nowNs))

/-- **The throttle after a request is classified**: it is marked if it is one of
HP. -/
theorem throttle_classify (h : Throttle.Accounted d.throttle) {rq : RqAddr}
    (hsched : (d.rq rq).useSched = true) (t : TaskCtx) (nowNs : ℕ) :
    (d.classify rq t nowNs).throttle
      = if d.selectPrio rq t = .hp then
          ((d.throttle.step (.classifyRequest rq t nowNs)).1.step
            (.changeRequest rq (markRequestHp
              ((d.throttle.step (.classifyRequest rq t nowNs)).1.rqs rq)))).1
        else (d.throttle.step (.classifyRequest rq t nowNs)).1 := by
  unfold classify
  dsimp only
  rw [selectPrio_classified h hsched]
  split <;> split <;> rfl

/-- **A classification leaves other requests alone.** -/
theorem card_classify_of_ne (h : Throttle.Accounted d.throttle) {rq : RqAddr}
    (hsched : (d.rq rq).useSched = true) (t : TaskCtx) (nowNs : ℕ) {x : RqAddr} (hx : x ≠ rq) :
    (d.classify rq t nowNs).throttle.card x = d.throttle.card x := by
  have hsub : (some rq : Option RqAddr) ≠ some x := fun hs => hx (Option.some.inj hs).symm
  have hclassify : (d.throttle.step (.classifyRequest rq t nowNs)).1.card x = d.throttle.card x :=
    Throttle.card_step_of_ne h hsub
  rw [throttle_classify h hsched]
  split
  · refine Eq.trans (Throttle.card_step_of_ne (h.step _) ?_) hclassify
    exact hsub
  · exact hclassify

/-- **The card of a classified request**: what the classification left, with the mark
of HP. -/
theorem card_classify_self (h : Throttle.Accounted d.throttle) {rq : RqAddr}
    (hsched : (d.rq rq).useSched = true) (t : TaskCtx) (nowNs : ℕ) :
    (d.classify rq t nowNs).throttle.card rq
      = { (d.throttle.step (.classifyRequest rq t nowNs)).1.card rq with
          ioprio := if d.selectPrio rq t = .hp then (markRequestHp (d.rq rq)).ioprio
            else (d.rq rq).ioprio } := by
  have hioprio := Throttle.ioprio_classifyRequest h hsched t nowNs
  rw [throttle_classify h hsched]
  split
  · rw [Throttle.card_markRequestHp, Throttle.ioprio_markRequestHp,
      Throttle.ioprio_markRequestHp]
    rw [show ((d.throttle.step (.classifyRequest rq t nowNs)).1.rqs rq).ioprio
      = (d.rq rq).ioprio from hioprio]
  · exact congrArg (fun n => { (d.throttle.step (.classifyRequest rq t nowNs)).1.card rq with
      ioprio := n }) hioprio

/-- A request has a record after the classification if it had one, or one was
free. -/
def HasRecord (d : Deadline) (rq : RqAddr) : Prop :=
  (d.rq rq).priv1 ≠ none ∨ d.throttle.ctx.freeMeta ≠ []

/-- A request is of HP, and takes the hint. -/
def TakesHint (d : Deadline) (rq : RqAddr) (t : TaskCtx) : Prop :=
  d.selectPrio rq t = .hp ∧ isHpIoprio (markRequestHp (d.rq rq)).ioprio = true

instance (d : Deadline) (rq : RqAddr) : Decidable (HasRecord d rq) :=
  inferInstanceAs (Decidable (_ ∨ _))

instance (d : Deadline) (rq : RqAddr) (t : TaskCtx) : Decidable (TakesHint d rq t) :=
  inferInstanceAs (Decidable (_ ∧ _))

/-- **With a record, a classified request is settled** where it was selected for. -/
theorem settled_classify (h : Throttle.Accounted d.throttle) {rq : RqAddr}
    (hsched : (d.rq rq).useSched = true) (t : TaskCtx) (nowNs : ℕ) (hrec : HasRecord d rq) :
    ((d.classify rq t nowNs).throttle.card rq).Settled (d.selectPrio rq t) := by
  have hselect := Throttle.select_classifyRequest h hsched t nowNs d.throttle.globals rfl
  obtain ⟨s, hs, -⟩ := Throttle.status_classifyRequest h hsched t nowNs hrec
  -- the record says what was selected, and the mark does not change it
  have hclass : s.queueClass = d.selectPrio rq t := by
    rw [← RqCard.settled_of_status hs d.throttle.globals t]
    exact hselect
  rw [card_classify_self h hsched, ← hclass]
  refine RqCard.settled_of_status ?_
  exact hs

/-- Without a record, a request is settled exactly if it takes the hint. -/
theorem settled_classify_iff (h : Throttle.Accounted d.throttle) {rq : RqAddr}
    (hsched : (d.rq rq).useSched = true) (t : TaskCtx) (nowNs : ℕ) (hrec : ¬ HasRecord d rq) :
    ((d.classify rq t nowNs).throttle.card rq).Settled (d.selectPrio rq t)
      ↔ TakesHint d rq t := by
  unfold HasRecord at hrec
  rw [not_or, not_not, not_not] at hrec
  obtain ⟨hm, hfree⟩ := hrec
  have hstatus : (d.throttle.card rq).status = none := by
    show (d.rq rq).priv1.map _ = none
    rw [hm]
    rfl
  have hselect := Throttle.select_card d.throttle rq d.throttle.globals t
  rw [card_classify_self h hsched, Throttle.card_classifyRequest_empty hm hfree]
  unfold TakesHint
  by_cases hhp : d.selectPrio rq t = .hp
  · rw [if_pos hhp, hhp, and_iff_right rfl]
    cases hhint : isHpIoprio (markRequestHp (d.rq rq)).ioprio with
    | true =>
      refine iff_of_true (RqCard.settled_of_hint ?_ hhint) rfl
      exact hstatus
    | false =>
      refine iff_of_false (RqCard.not_settled ?_ hhint _) Bool.false_ne_true
      exact hstatus
  · -- a request of another queue does not carry the hint
    rw [if_neg hhp, iff_false_right fun hand => hhp hand.1]
    have hhint : isHpIoprio (d.rq rq).ioprio = false := by
      rw [← Bool.not_eq_true]
      exact fun hhint => hhp (hselect.trans (RqCard.settled_of_hint hstatus hhint _ t))
    refine RqCard.not_settled ?_ hhint _
    exact hstatus

/-! ## The invariant -/

/-- **Requests are filed**: shelved, and settled in the priority they are shelved
in. -/
structure Filed (d : Deadline) : Prop where
  accounted : Throttle.Accounted d.throttle
  shelved : Shelved d
  settled : ∀ {k x}, d.On k x → (d.throttle.card x).Settled k

/-- The selection finds a filed request where it is. -/
theorem Filed.selectPrio (h : Filed d) {k : QueueClass} {x : RqAddr} (hx : d.On k x)
    (t : TaskCtx) : d.selectPrio x t = k :=
  (Throttle.select_card _ x _ t).trans (h.settled hx _ t)

/-- A step that puts nothing on a list, and leaves the cards of those there alone. -/
theorem Filed.of_card (h : Filed d) (hacc : Throttle.Accounted d'.throttle)
    (hshelved : Shelved d')
    (hcard : ∀ k x, d'.On k x → d.On k x ∧ d'.throttle.card x = d.throttle.card x) :
    Filed d' where
  accounted := hacc
  shelved := hshelved
  settled := by
    intro k x hx
    obtain ⟨hon, heq⟩ := hcard k x hx
    rw [heq]
    exact h.settled hon

/-- The direction of a request is on its card. -/
theorem dataDir_eq {x : RqAddr} (h : (d'.throttle.card x).op = (d.throttle.card x).op) :
    dataDir (d'.rq x) = dataDir (d.rq x) :=
  congrArg (fun op : ReqOp => if op.code % 2 = 1 then DataDir.write else .read) h

/-- **Requests stay**: lists and trees are reordered at most, and the cards of what is
there are left alone. -/
structure Stays (d d' : Deadline) : Prop where
  list : ∀ p, (d'.listAt p).Perm (d.listAt p)
  tree : ∀ k e, (d'.tree k e).Perm (d.tree k e)
  card : ∀ x, d.queued x = true → d'.throttle.card x = d.throttle.card x

theorem Stays.refl (d : Deadline) : Stays d d :=
  ⟨fun _ => .refl _, fun _ _ => .refl _, fun _ _ => rfl⟩

theorem Stays.queued (hs : Stays d d') (x : RqAddr) : d'.queued x = d.queued x := by
  rw [Bool.eq_iff_iff, queued_iff_listAt, queued_iff_listAt]
  exact exists_congr fun p => (hs.list p).mem_iff

/-- A step that leaves lists and trees alone. -/
theorem Stays.of_eq (hlist : ∀ p, d'.listAt p = d.listAt p)
    (htree : ∀ k e, d'.tree k e = d.tree k e)
    (hcard : ∀ x, d.queued x = true → d'.throttle.card x = d.throttle.card x) : Stays d d' where
  list := fun p => List.Perm.of_eq (hlist p)
  tree := fun k e => List.Perm.of_eq (htree k e)
  card := hcard

/-- A step that touches no priority. -/
theorem Stays.of_perPrio (hperPrio : d'.perPrio = d.perPrio)
    (hcard : ∀ x, d.queued x = true → d'.throttle.card x = d.throttle.card x) : Stays d d' := by
  refine .of_eq (fun p => ?_) (fun k e => ?_) hcard
  · unfold listAt
    rw [hperPrio]
  · unfold Deadline.tree
    rw [hperPrio]

/-- **A step in which requests stay keeps them filed.** -/
theorem Filed.stays (h : Filed d) (hs : Stays d d')
    (hacc : Throttle.Accounted d'.throttle) : Filed d' := by
  refine h.of_card hacc (h.shelved.same hs.list hs.tree fun x hx =>
    dataDir_eq (congrArg RqCard.op (hs.card x hx))) fun k x hx => ?_
  obtain ⟨s, hmem⟩ := on_iff_listAt.mp hx
  have hon : d.On k x := on_iff_listAt.mpr ⟨s, (hs.list _).mem_iff.mp hmem⟩
  exact ⟨hon, hs.card x (queued_iff.mpr ⟨k, hon⟩)⟩

/-- **A request is removed**: it is off the lists, off the tree of its priority, and no
longer counted as waiting. -/
structure Removed (d : Deadline) (rq : RqAddr) (d' : Deadline) : Prop where
  list : ∀ p, (d'.listAt p).Perm ((d.listAt p).erase rq)
  tree : ∀ k e, (d'.tree k e).Perm ((d.tree k e).erase rq)
  card : ∀ x, x ≠ rq → d'.throttle.card x = d.throttle.card x
  left : (d.throttle.card rq).Left (d'.throttle.card rq)

/-- What is still on a list is another request. -/
theorem Removed.queued_iff (hr : Removed d rq d') (h : Shelved d) (x : RqAddr) :
    d'.queued x = true ↔ d.queued x = true ∧ x ≠ rq := by
  rw [queued_iff_listAt, queued_iff_listAt]
  constructor
  · rintro ⟨p, hp⟩
    obtain ⟨hne, hx⟩ := (h.lists.nodup p).mem_erase_iff.mp ((hr.list p).mem_iff.mp hp)
    exact ⟨⟨p, hx⟩, hne⟩
  · rintro ⟨⟨p, hx⟩, hne⟩
    exact ⟨p, (hr.list p).mem_iff.mpr ((List.mem_erase_of_ne hne).mpr hx)⟩

/-- **A removal keeps requests filed.** -/
theorem Filed.removed (h : Filed d) {rq : RqAddr} (hr : Removed d rq d')
    (hacc : Throttle.Accounted d'.throttle) : Filed d' := by
  have hcard : ∀ x, (d'.throttle.card x).op = (d.throttle.card x).op := by
    intro x
    by_cases hx : x = rq
    · rw [hx]
      exact hr.left.op
    · rw [hr.card x hx]
  refine h.of_card hacc ⟨?_, ?_, ?_⟩ ?_
  · exact (h.shelved.lists.take rq fun _ => rfl).perm hr.list
  · intro x k e hx
    rw [dataDir_eq (hcard x)]
    exact h.shelved.dir (List.mem_of_mem_erase ((hr.list _).mem_iff.mp hx))
  · intro k e
    exact (hr.tree k e).trans (((h.shelved.tree k e).erase rq).trans (hr.list _).symm)
  · intro k x hx
    obtain ⟨s, hs⟩ := on_iff_listAt.mp hx
    obtain ⟨hne, hmem⟩ := (h.shelved.lists.nodup _).mem_erase_iff.mp ((hr.list _).mem_iff.mp hs)
    exact ⟨on_iff_listAt.mpr ⟨s, hmem⟩, hr.card x hne⟩

/-- The priority that is selected for a request is the one it is removed from. -/
theorem Filed.tree_removeRequest (h : Filed d) {rq : RqAddr} {k : QueueClass}
    (hk : ∀ j, d.On j rq → j = k) (j : QueueClass) (e : DataDir) :
    (d.removeRequest k rq).tree j e = (d.tree j e).erase rq := by
  rw [Deadline.tree_removeRequest]
  by_cases hje : j = k ∧ e = dataDir (d.rq rq)
  · exact if_pos hje
  · -- it is not in that tree
    rw [if_neg hje, List.erase_of_not_mem]
    intro hx
    have hx := h.shelved.mem_list hx
    exact hje ⟨hk j (on_iff_listAt.mpr ⟨_, hx⟩), (h.shelved.dir hx).symm⟩

/-- **A merge removes** a request that is on no list, or that shares a tree with the
other one. -/
theorem Filed.removed_mergedRequests (h : Filed d) {req next : RqAddr} (t : TaskCtx)
    (hplace : d.queued next = false
      ∨ req ≠ next ∧ ∃ k e, req ∈ d.tree k e ∧ next ∈ d.tree k e) :
    Removed d next (d.mergedRequests req next t) := by
  obtain ⟨d₁, heq, htree, hlist, hcard, hnext⟩ := mergedRequests_spec h.accounted req next t
  have hperm : ∀ p, (d₁.listAt p).Perm (d.listAt p) := by
    intro p
    rcases hlist with hlist | ⟨-, hqueued, hlist⟩
    · rw [hlist]
    · obtain ⟨hne, k, e, hreq, hnxt⟩ := hplace.resolve_left (by rw [hqueued]; decide)
      have hreq := h.shelved.mem_list hreq
      have hnxt := h.shelved.mem_list hnxt
      rw [hlist]
      by_cases hp : p = (k, some e)
      · rw [hp]
        exact perm_moveBehind (h.shelved.lists.nodup _) hreq hnxt (Ne.symm hne)
      · rw [moveBehind_of_notMem (fun hx => hp (h.shelved.lists.once hx hreq))
          (fun hx => hp (h.shelved.lists.once hx hnxt))]
  have hprio : ∀ j, d.On j next → j = d.selectPrio next t := fun j hj => (h.selectPrio hj t).symm
  have hdir : dataDir (d₁.rq next) = dataDir (d.rq next) := dataDir_eq (by rw [hnext]; rfl)
  rw [heq]
  refine ⟨fun p => ?_, fun k e => List.Perm.of_eq ?_, hcard, ?_⟩
  · rw [listAt_removeRequest]
    exact (hperm p).erase next
  · rw [← h.tree_removeRequest hprio, Deadline.tree_removeRequest, Deadline.tree_removeRequest,
      htree, hdir]
  · rw [show (d₁.removeRequest (d.selectPrio next t) next).throttle.card next
      = (d.throttle.card next).unqueue from hnext]
    exact RqCard.left_unqueue _

/-- **A front merge** puts the request back in the tree it was in. -/
theorem Filed.stays_requestMerged (h : Filed d) {req : RqAddr} (hreq : d.sorted req = true)
    (front : Bool) (t : TaskCtx) : Stays d (d.requestMerged req front t) := by
  obtain ⟨k, e, hmem⟩ := sorted_iff.mp hreq
  have hlist := h.shelved.mem_list hmem
  have hprio : d.selectPrio req t = k := h.selectPrio (on_iff_listAt.mpr ⟨_, hlist⟩) t
  have hdir : dataDir (d.rq req) = e := h.shelved.dir hlist
  unfold Deadline.requestMerged
  dsimp only
  cases front with
  | false => exact .of_perPrio rfl fun x _ => Throttle.card_updateRequest h.accounted req x
  | true =>
    rw [if_pos rfl]
    refine ⟨fun p => ?_, fun j f => ?_, fun x _ => ?_⟩
    · refine List.Perm.of_eq (listAt_setPrio ?_ ?_ p)
      · rfl
      · rfl
    · show (DdPerPrio.sortList (Function.update d.perPrio _ _ j) f).Perm _
      rw [hprio, hdir]
      by_cases hj : j = k
      · subst hj
        rw [Function.update_self]
        show (Function.update (d.perPrio j).sortList e _ f).Perm _
        by_cases hf : f = e
        · subst hf
          rw [Function.update_self]
          exact (List.perm_cons_erase hmem).symm
        · rw [Function.update_of_ne hf]
          exact List.Perm.refl _
      · rw [Function.update_of_ne hj]
        exact List.Perm.refl _
    · exact Throttle.card_updateRequest h.accounted req x

/-- **A dispatch** is quiet, or removes the request it answers. -/
theorem Filed.dispatchRequest_cases (h : Filed d) (slotFree : Bool) (nowNs : ℕ) :
    (Quiet d (d.dispatchRequest slotFree {} nowNs).1
        ∧ (d.dispatchRequest slotFree {} nowNs).2 = none)
      ∨ ∃ k rq, d.On k rq ∧ Removed d rq (d.dispatchRequest slotFree {} nowNs).1
        ∧ (d.dispatchRequest slotFree {} nowNs).2 = some (k, rq) := by
  obtain ⟨d₁, hq, heq | ⟨k, rq, hpick, heq⟩⟩ := dispatchRequest_spec h.accounted slotFree nowNs
  · rw [heq]
    exact Or.inl ⟨hq, rfl⟩
  · rw [heq]
    have hacc₁ := hq.accounted h.accounted
    obtain ⟨-, hlist, htree⟩ := dispatchFifo_of_some hpick
    have hon : d.On k rq := by
      have hon₁ := DdPerPrio.holds_of_pick hpick
      rw [hq.perPrio] at hon₁
      exact hon₁
    refine Or.inr ⟨k, rq, hon, ⟨fun p => List.Perm.of_eq ?_, fun j e => List.Perm.of_eq ?_,
      fun x hx => ?_, ?_⟩, rfl⟩
    · rw [← hq.listAt]
      exact hlist p
    · rw [← h.tree_removeRequest fun j hj => h.shelved.once hj hon]
      refine (htree j e).trans ?_
      rw [Deadline.tree_removeRequest, Deadline.tree_removeRequest, hq.tree,
        show d₁.rq rq = d.rq rq from congrFun hq.rqs rq]
    · rw [← hq.card x, throttled, dispatchFifo_throttle]
      exact Throttle.card_step_of_ne hacc₁ fun hsub => hx (Option.some.inj hsub).symm
    · rw [← hq.card rq, throttled, dispatchFifo_throttle]
      exact Throttle.card_accountDispatch hacc₁ rq _ nowNs

/-- **A request that is put on a list** is filed if it is settled. -/
theorem Filed.enqueue (h : Filed d) {rq : RqAddr} (hrq : d.queued rq = false) {k : QueueClass}
    (hset : (d.throttle.card rq).Settled k) (atHead : Bool) (jiffies : ℕ)
    (hacc : Throttle.Accounted (d.enqueue k rq atHead jiffies).throttle) :
    Filed (d.enqueue k rq atHead jiffies) where
  accounted := hacc
  shelved := h.shelved.enqueue hrq k atHead jiffies
  settled := by
    intro j x hx
    rw [card_enqueue]
    rcases on_enqueue hx with hx | ⟨rfl, rfl⟩
    · exact h.settled hx
    · exact hset

/-- A classification of a request that is on no list. -/
theorem stays_classify (h : Throttle.Accounted d.throttle) {rq : RqAddr}
    (hrq : d.queued rq = false) (hsched : (d.rq rq).useSched = true) (t : TaskCtx) (nowNs : ℕ) :
    Stays d (d.classify rq t nowNs) := by
  refine .of_eq (d.listAt_classify rq t nowNs) (d.tree_classify rq t nowNs) fun x hx => ?_
  refine card_classify_of_ne h hsched t nowNs ?_
  rintro rfl
  exact Bool.noConfusion (hx.symm.trans hrq)

/-! ## The condition -/

/-- **A request that is put on a list has a record, or takes the hint.** -/
def FindsRecord (d : Deadline) : DeadlineOp → Prop
  | .insertRequest rq _ none t _ _ =>
    (d.rq rq).useSched = true → d.queued rq = false → HasRecord d rq ∨ TakesHint d rq t
  | _ => True

instance (d : Deadline) : DecidablePred (FindsRecord d)
  | .insertRequest _ _ none _ _ _ => inferInstanceAs (Decidable (_ → _ → _))
  | .insertRequest _ _ (some _) _ _ _ => isTrue trivial
  | .prepareRequest .. | .requestMerged .. | .mergedRequests .. | .dispatchRequest ..
  | .finishRequest _ | .throttle _ => isTrue trivial

/-- **Every request is found where it is**: the priority that is selected for a
request on a list or in a tree is the one the list or the tree is of, whatever
task asks under whatever setting; and a request is in a tree exactly if it is on
the FIFO list beside it. -/
structure Found (d : Deadline) : Prop where
  select : ∀ k x, (x ∈ (d.perPrio k).dispatch ∨ ∃ e, x ∈ (d.perPrio k).fifoList e
      ∨ x ∈ (d.perPrio k).sortList e) →
    ∀ g t, selectQueue d.throttle.ctx.metaPool g t (d.rq x) = k
  tree : ∀ k e, ((d.perPrio k).sortList e).Perm ((d.perPrio k).fifoList e)

theorem Filed.found (h : Filed d) : Found d where
  select := by
    intro k x hx g t
    have hon : d.On k x := by
      refine on_iff_listAt.mpr ?_
      rcases hx with hx | ⟨e, hx | hx⟩
      · exact ⟨none, hx⟩
      · exact ⟨some e, hx⟩
      · exact ⟨some e, h.shelved.mem_list hx⟩
    exact (Throttle.select_card _ x g t).trans (h.settled hon g t)
  tree := h.shelved.tree

/-- Every step keeps the accounting. -/
theorem accounted_step (h : Throttle.Accounted d.throttle) (op : DeadlineOp) :
    Throttle.Accounted (d.step op).throttle :=
  (d.path_step op).invariant (I := Throttle.Accounted)
    (fun w o _ hw => show Throttle.Accounted (Throttle.machine.next w o) from hw.step o) h

theorem accounted_classify (h : Throttle.Accounted d.throttle) {rq : RqAddr}
    (hsched : (d.rq rq).useSched = true) (t : TaskCtx) (nowNs : ℕ) :
    Throttle.Accounted (d.classify rq t nowNs).throttle := by
  rw [throttle_classify h hsched]
  split
  · exact (h.step _).step _
  · exact h.step _

/-- The insertions that the block layer makes. -/
theorem insert_accepted {rq : RqAddr} {mergeInto : Option RqAddr}
    (h : ¬ (!(d.rq rq).useSched || d.queued rq || !mergeInto.all d.sorted) = true) :
    (d.rq rq).useSched = true ∧ d.queued rq = false ∧ mergeInto.all d.sorted = true := by
  rw [Bool.or_eq_true, Bool.or_eq_true, not_or, not_or] at h
  obtain ⟨⟨hsched, hrq⟩, hsorted⟩ := h
  rw [Bool.not_eq_true, Bool.not_eq_false'] at hsched hsorted
  exact ⟨hsched, Bool.not_eq_true _ ▸ hrq, hsorted⟩

/-- The sections of others leave the cards of queued requests alone. -/
theorem card_throttled_of_queued (h : Throttle.Accounted d.throttle) {op : ThrottleOp}
    (hop : ¬ (op.ofScheduler || (op.ofDriver d.throttle.rqs).any d.queued) = true) {x : RqAddr}
    (hx : d.queued x = true) : (d.throttled op).throttle.card x = d.throttle.card x := by
  rw [Bool.or_eq_true, not_or] at hop
  obtain ⟨hsched, hdriver⟩ := hop
  by_cases hsub : op.subject = some x
  · -- a change of the request itself, and only of what is not on its card
    have hnot : op.ofDriver d.throttle.rqs ≠ some x := by
      intro hof
      rw [hof] at hdriver
      exact hdriver hx
    cases op with
    | changeRequest rq r =>
      obtain rfl := Option.some.inj hsub
      by_cases hsame : r.op = (d.throttle.rqs rq).op ∧ r.ioprio = (d.throttle.rqs rq).ioprio
      · exact d.throttle.card_changeRequest hsame.1 hsame.2 rq
      · exact absurd (if_neg hsame) hnot
    | recordIssue rq t nowNs => exact absurd hsub hnot
    | recordRequeue rq => exact absurd hsub hnot
    | recordComplete rq nrBytes nowNs => exact absurd hsub hnot
    | prepareRequest rq r => exact absurd rfl hsched
    | classifyRequest rq t nowNs => exact absurd rfl hsched
    | updateRequest rq => exact absurd rfl hsched
    | unqueueRequest rq => exact absurd rfl hsched
    | accountDispatch rq selection nowNs => exact absurd rfl hsched
    | finishRequest rq => exact absurd rfl hsched
    | scheduleFallback => cases hsub
    | nonHpAllowed => cases hsub
    | dispatchModelIfNeeded slotFree => cases hsub
    | modelThreadRun nowNs => cases hsub
    | inferenceWorkBegin => cases hsub
    | inferenceWorkFinish i predicted => cases hsub
    | inferenceTimer => cases hsub
    | timeoutWork => cases hsub
    | resetContext newSession nowNs => cases hsub
    | configure k => cases hsub
    | setDying => cases hsub
  · exact Throttle.card_step_of_ne h hsub

/-- **An insertion** files the request, or merges it into another one. -/
theorem Filed.insertRequest (h : Filed d) {rq : RqAddr} {mergeInto : Option RqAddr}
    (hsched : (d.rq rq).useSched = true) (hrq : d.queued rq = false) (atHead : Bool)
    (t : TaskCtx) (nowNs jiffies : ℕ)
    (hfinds : mergeInto = none → HasRecord d rq ∨ TakesHint d rq t)
    (hacc : Throttle.Accounted (d.insertRequest rq atHead mergeInto t nowNs jiffies).throttle) :
    Filed (d.insertRequest rq atHead mergeInto t nowNs jiffies) := by
  have hfiled := h.stays (stays_classify h.accounted hrq hsched t nowNs)
    (accounted_classify h.accounted hsched t nowNs)
  have hout : (d.classify rq t nowNs).queued rq = false :=
    (d.queued_classify rq t nowNs rq).trans hrq
  unfold Deadline.insertRequest at hacc ⊢
  dsimp only at hacc ⊢
  cases mergeInto with
  | some req => exact hfiled.removed (hfiled.removed_mergedRequests t (Or.inl hout)) hacc
  | none =>
    rw [selectPrio_classified h.accounted hsched] at hacc ⊢
    refine hfiled.enqueue hout ?_ atHead jiffies hacc
    by_cases hrec : HasRecord d rq
    · exact settled_classify h.accounted hsched t nowNs hrec
    · exact (settled_classify_iff h.accounted hsched t nowNs hrec).mpr
        ((hfinds rfl).resolve_left hrec)

/-- The end of a request that is on no list. -/
theorem stays_finishRequest (h : Throttle.Accounted d.throttle) {rq : RqAddr}
    (hrq : d.queued rq = false) : Stays d (d.finishRequest rq) := by
  have hcard : ∀ x, d.queued x = true →
      (d.throttled (.finishRequest rq)).throttle.card x = d.throttle.card x := by
    intro x hx
    refine Throttle.card_step_of_ne h fun hsub => ?_
    rw [← Option.some.inj hsub, hrq] at hx
    cases hx
  unfold Deadline.finishRequest
  dsimp only
  generalize d.priv0 rq = prio
  cases prio with
  | none => exact .of_perPrio rfl hcard
  | some k =>
    refine .of_eq (fun p => ?_) (fun j e => ?_) hcard
    · refine listAt_setPrio (d := d.throttled (.finishRequest rq)) (k := k) ?_ ?_ p
      · rfl
      · rfl
    · refine tree_setPrio (d := d.throttled (.finishRequest rq)) (k := k) ?_ j e
      rfl

/-! ## Steps -/

/-- The request that a step other than an insertion takes off the lists. -/
def leaves (d : Deadline) : DeadlineOp → Option RqAddr
  | .mergedRequests req next _ =>
    if req ≠ next ∧ ∃ prio ∈ [QueueClass.hp, .rt, .be],
        ((d.perPrio prio).holds req ∧ (d.perPrio prio).holds next)
        ∧ ∃ dir ∈ [DataDir.read, .write],
          req ∈ (d.perPrio prio).sortList dir ∧ next ∈ (d.perPrio prio).sortList dir then
      some next
    else none
  | .dispatchRequest slotFree nowNs => (d.dispatchRequest slotFree {} nowNs).2.map Prod.snd
  | _ => none

/-- **In a step other than an insertion requests stay, or one of them is removed.** -/
theorem Filed.step_cases (h : Filed d) {op : DeadlineOp}
    (hop : ∀ rq atHead mergeInto t nowNs jiffies,
      op ≠ .insertRequest rq atHead mergeInto t nowNs jiffies) :
    d.leaves op = none ∧ Stays d (d.step op)
      ∨ ∃ rq, d.leaves op = some rq ∧ d.queued rq = true ∧ Removed d rq (d.step op) := by
  cases op with
  | prepareRequest rq r =>
    refine Or.inl ⟨rfl, ?_⟩
    simp only [Deadline.step]
    split
    · exact .refl d
    · next hrq =>
      refine .of_perPrio rfl fun x hx => Throttle.card_step_of_ne h.accounted ?_
      intro hsub
      exact hrq (Option.some.inj hsub ▸ hx)
  | insertRequest rq atHead mergeInto t nowNs jiffies => exact absurd rfl (hop _ _ _ _ _ _)
  | requestMerged req front t =>
    refine Or.inl ⟨rfl, ?_⟩
    simp only [Deadline.step]
    split
    · next hreq => exact h.stays_requestMerged hreq front t
    · exact .refl d
  | mergedRequests req next t =>
    simp only [Deadline.step, leaves]
    split
    · next hboth =>
      obtain ⟨hne, k, -, ⟨-, hnext⟩, e, -, hreq, hsort⟩ := hboth
      exact Or.inr ⟨next, rfl, queued_iff.mpr ⟨k, hnext⟩,
        h.removed_mergedRequests t (Or.inr ⟨hne, k, e, hreq, hsort⟩)⟩
    · exact Or.inl ⟨rfl, .refl d⟩
  | dispatchRequest slotFree nowNs =>
    rcases h.dispatchRequest_cases slotFree nowNs with ⟨hq, hnone⟩ | ⟨k, rq, hon, hr, hsome⟩
    · exact Or.inl ⟨congrArg (Option.map Prod.snd) hnone,
        .of_perPrio hq.perPrio fun x _ => hq.card x⟩
    · exact Or.inr ⟨rq, congrArg (Option.map Prod.snd) hsome, queued_iff.mpr ⟨k, hon⟩, hr⟩
  | finishRequest rq =>
    refine Or.inl ⟨rfl, ?_⟩
    simp only [Deadline.step]
    split
    · exact .refl d
    · next hrq => exact stays_finishRequest h.accounted (Bool.not_eq_true _ ▸ hrq)
  | throttle op =>
    refine Or.inl ⟨rfl, ?_⟩
    simp only [Deadline.step]
    split
    · exact .refl d
    · next hout =>
      exact .of_perPrio rfl fun x hx => card_throttled_of_queued h.accounted hout hx

/-- **A step that meets the condition keeps requests filed.** -/
theorem Filed.step (h : Filed d) {op : DeadlineOp} (hop : FindsRecord d op) :
    Filed (d.step op) := by
  have hacc := accounted_step h.accounted op
  have hother : (∀ rq atHead mergeInto t nowNs jiffies,
      op ≠ .insertRequest rq atHead mergeInto t nowNs jiffies) → Filed (d.step op) := by
    intro hne
    rcases h.step_cases hne with ⟨-, hs⟩ | ⟨rq, -, -, hr⟩
    · exact h.stays hs hacc
    · exact h.removed hr hacc
  cases op with
  | insertRequest rq atHead mergeInto t nowNs jiffies =>
    simp only [Deadline.step] at hacc ⊢
    split
    · exact h
    · next hin =>
      rw [if_neg hin] at hacc
      obtain ⟨hsched, hrq, -⟩ := insert_accepted hin
      refine h.insertRequest hsched hrq atHead t nowNs jiffies ?_ hacc
      rintro rfl
      exact hop hsched hrq
  | _ => exact hother fun _ _ _ _ _ _ heq => DeadlineOp.noConfusion heq

/-- **A step that misses it** leaves a request that a foreground task looks for in one
priority and another task in another one. -/
theorem Filed.not_found_step (h : Filed d) {op : DeadlineOp} (hop : ¬ FindsRecord d op) :
    ¬ Found (d.step op) := by
  intro hfound
  cases op with
  | insertRequest rq atHead mergeInto t nowNs jiffies =>
    cases mergeInto with
    | some req => exact hop trivial
    | none =>
      have hop' : ¬ ((d.rq rq).useSched = true → d.queued rq = false →
        HasRecord d rq ∨ TakesHint d rq t) := hop
      rw [Classical.not_imp, Classical.not_imp, not_or] at hop'
      obtain ⟨hsched, hrq, hrec, hhint⟩ := hop'
      have hstep : d.step (.insertRequest rq atHead none t nowNs jiffies)
          = (d.classify rq t nowNs).enqueue (d.selectPrio rq t) rq atHead jiffies := by
        simp only [Deadline.step]
        rw [if_neg (by rw [hsched, hrq]; exact Bool.false_ne_true), Deadline.insertRequest,
          selectPrio_classified h.accounted hsched]
      rw [hstep] at hfound
      have hmem := ((d.classify rq t nowNs).listAt_enqueue_self (d.selectPrio rq t) rq atHead
        jiffies).mem_iff.mpr List.mem_cons_self
      refine hhint ((settled_classify_iff h.accounted hsched t nowNs hrec).mp fun g u => ?_)
      rw [← card_enqueue _ (d.selectPrio rq t) rq atHead jiffies, ← Throttle.select_card]
      refine hfound.select _ rq ?_ g u
      cases atHead with
      | true => exact Or.inl hmem
      | false => exact Or.inr ⟨_, Or.inl hmem⟩
  | _ => exact hop trivial

theorem filed_attach {w : Throttle} (h : Throttle.Attached w) : Filed (attach w) where
  accounted := Throttle.accounted_of_attached h
  shelved :=
    { lists := Exclusive.empty.perm fun ⟨_, s⟩ => by cases s <;> exact List.Perm.refl _
      dir := fun hx => absurd hx List.not_mem_nil
      tree := fun _ _ => List.Perm.refl _ }
  settled := by
    intro k x hx
    obtain ⟨s, hs⟩ := on_iff_listAt.mp hx
    cases s <;> exact absurd hs List.not_mem_nil

/-- **Requests are found where they are in every state of a run exactly if every
request that the run puts on a list has a record, or takes the HP hint.** -/
theorem found_iff_findsRecord {w : Throttle} (h : Throttle.Attached w) (ops : List DeadlineOp) :
    machine.StatesMeet Found (attach w) ops ↔ machine.StepsMeet FindsRecord (attach w) ops :=
  StepMachine.statesMeet_iff_stepsMeet (M := machine) (I := Filed) (fun _ hd => hd.found)
    (fun _ _ hd hop => hd.step hop) (fun _ _ hd hop => hd.not_found_step hop)
    (filed_attach h) ops

/-- A task of the uid 1000. -/
def someTask : TaskCtx := ⟨1000, 10, []⟩

/-- A request that is inserted while there are records. -/
theorem found_iff_findsRecord_inserted :
    machine.StatesMeet Found (attach (Throttle.attach 2 []))
      [.prepareRequest 7 { Request.zero with useSched := true },
        .insertRequest 7 false none someTask 1 1] :=
  (found_iff_findsRecord (Throttle.attached_attach Nat.one_ne_zero Nat.one_ne_zero (by decide) [])
    _).mpr ⟨trivial, fun _ _ => Or.inl (Or.inr (by decide +kernel)), trivial⟩

/-- Three requests and two records: after the first app came to the foreground, its
tasks look for the third request in HP, and it is on the lists of BE. -/
theorem not_found_third :
    machine.Reachable (machine.run (attach (Throttle.attach 2 []))
        [.prepareRequest 0 { Request.zero with useSched := true },
          .prepareRequest 1 { Request.zero with useSched := true },
          .prepareRequest 2 { Request.zero with useSched := true },
          .insertRequest 0 false none someTask 1 1, .insertRequest 1 false none someTask 1 1,
          .insertRequest 2 false none someTask 1 1])
      ∧ ¬ Found (machine.run (attach (Throttle.attach 2 []))
        [.prepareRequest 0 { Request.zero with useSched := true },
          .prepareRequest 1 { Request.zero with useSched := true },
          .prepareRequest 2 { Request.zero with useSched := true },
          .insertRequest 0 false none someTask 1 1, .insertRequest 1 false none someTask 1 1,
          .insertRequest 2 false none someTask 1 1]) := by
  refine ⟨reachable_attach [] _, fun hfound => ?_⟩
  have hselect := hfound.select .be 2 (Or.inr ⟨.read, Or.inl (by decide +kernel)⟩)
    { Globals.initial with fgUid := 1000 } someTask
  exact absurd hselect (by decide +kernel)

end Deadline
