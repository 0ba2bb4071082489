import SmartIo.DeadlineLookup
import SmartIo.DeadlinePriority

/-!
# First in, first out

Within a priority the scheduler serves requests in the order of their stamps. It
never sorts: a request is stamped with the time when it is appended to the FIFO
list of its direction, so either list is in order as long as time does not go
back; and a dispatch compares the two heads. A merge is the one thing that writes
a stamp later. It gives a request the earlier stamp of the one it absorbs, and
moves it to the place of that one at the same time, which keeps the order, on
whatever lists the two are.

Stamps are a counter that wraps, and are compared by the sign of their
difference. That is an order on any half of the range of the counter: counted
from where the half begins (`stampAge`), it is the order of numbers.
-/

/-! ## Stamps -/

/-- How far a stamp is from the beginning of the half of the counter's range that
the stamps of a run are in. -/
def stampAge (base stamp : ℕ) : ℕ := (stamp + (2 ^ 64 - base % 2 ^ 64)) % 2 ^ 64

/-- **Within half of the range**, the comparison of stamps is that of their
distances from where it begins. -/
theorem timeBefore_iff {base a b : ℕ} (ha : stampAge base a < 2 ^ 63)
    (hb : stampAge base b < 2 ^ 63) :
    timeBefore a b = true ↔ stampAge base a < stampAge base b := by
  unfold stampAge at ha hb ⊢
  unfold timeBefore
  rw [decide_eq_true_iff]
  omega

/-! ## Lists in order -/

section Lists

variable {ι : Type*} [DecidableEq ι] {f : ι → ℕ} {x a : ι} {l : List ι}

/-- What stands behind an item has its rank. -/
theorem rank_of_mem_behind (hxa : f x = f a) {y z : ι} (hz : z ∈ if y = a then [y, x] else [y]) :
    f z = f y := by
  split at hz
  · rename_i hya
    rcases List.mem_cons.mp hz with rfl | hz
    · rfl
    · rw [List.mem_singleton.mp hz, hxa, hya]
  · rw [List.mem_singleton.mp hz]

/-- **An item with the rank of another**, put behind it, keeps a list in order. -/
theorem pairwise_flatMap_behind (hl : l.Pairwise fun y z => f y ≤ f z) (hxa : f x = f a) :
    (l.flatMap fun y => if y = a then [y, x] else [y]).Pairwise fun y z => f y ≤ f z := by
  rw [List.pairwise_flatMap]
  constructor
  · intro y _
    split
    · rename_i hya
      refine List.pairwise_cons.mpr ⟨fun z hz => ?_, List.pairwise_singleton _ _⟩
      rw [List.mem_singleton.mp hz, hxa, hya]
    · exact List.pairwise_singleton _ _
  · refine hl.imp fun {y z} hyz u hu v hv => ?_
    rw [rank_of_mem_behind hxa hu, rank_of_mem_behind hxa hv]
    exact hyz

/-- What a move leaves on a list was on it, or was moved there. -/
theorem mem_moveBehind {y : ι} (hy : y ∈ moveBehind x a l) : y ∈ l.erase x ∨ y = x ∧ a ∈ l := by
  obtain ⟨z, hz, hy⟩ := List.mem_flatMap.mp hy
  split at hy
  · rename_i hza
    rcases List.mem_cons.mp hy with rfl | hy
    · exact Or.inl hz
    · exact Or.inr ⟨List.mem_singleton.mp hy, hza ▸ List.mem_of_mem_erase hz⟩
  · rw [List.mem_singleton.mp hy]
    exact Or.inl hz

/-- A move leaves no item on a list twice. -/
theorem nodup_moveBehind (hl : l.Nodup) : (moveBehind x a l).Nodup := by
  unfold moveBehind
  by_cases ha : a ∈ l.erase x
  · refine (perm_flatMap_behind (hl.erase x) ha).nodup_iff.mpr ?_
    exact List.nodup_cons.mpr ⟨hl.not_mem_erase, hl.erase x⟩
  · rw [flatMap_behind_of_notMem ha]
    exact hl.erase x

end Lists

/-! ## Who writes a stamp -/

namespace ThrottleOp

/-- The request whose stamp a section may write: one that is prepared, or that the
block layer changes. -/
def stamps : ThrottleOp → Option RqAddr
  | .prepareRequest rq _ | .changeRequest rq _ => some rq
  | _ => none

end ThrottleOp

namespace Throttle

theorem fifoTime_setRqMeta (w : Throttle) (rq : RqAddr) (m : Option MetaId) (x : RqAddr) :
    ((w.setRqMeta rq m).rqs x).fifoTime = (w.rqs x).fifoTime := by
  show ((Function.update w.rqs rq _) x).fifoTime = _
  by_cases hx : x = rq
  · rw [hx, Function.update_self]
  · rw [Function.update_of_ne hx]

theorem fifoTime_freeMetaLocked (w : Throttle) (rq : RqAddr) (m : MetaId) (x : RqAddr) :
    ((w.freeMetaLocked rq m).rqs x).fifoTime = (w.rqs x).fifoTime := by
  unfold freeMetaLocked
  split
  · rfl
  · dsimp only
    split
    · exact fifoTime_setRqMeta _ rq none x
    · rfl

theorem fifoTime_allocMetaLocked (w : Throttle) (rq : RqAddr) (cls : RqClass) (x : RqAddr) :
    ((w.allocMetaLocked rq cls).1.rqs x).fifoTime = (w.rqs x).fifoTime := by
  unfold allocMetaLocked
  split
  · rfl
  · unfold allocTaken
    dsimp only
    split
    · exact fifoTime_setRqMeta _ rq _ x
    · rfl

/-- **No other section writes a stamp.** -/
theorem fifoTime_step (w : Throttle) {op : ThrottleOp} {x : RqAddr} (hop : op.stamps ≠ some x) :
    ((w.step op).1.rqs x).fifoTime = (w.rqs x).fifoTime := by
  by_cases hsub : op.subject = some x
  swap
  · rw [w.rqs_step_of_ne hsub]
  cases op with
  | prepareRequest rq r => exact absurd hsub hop
  | changeRequest rq r => exact absurd hsub hop
  | classifyRequest rq t nowNs =>
    simp only [step, classifyRequest]
    cases (w.rqs rq).priv1 with
    | some m => rfl
    | none =>
      have halloc := w.fifoTime_allocMetaLocked rq
        (classForQueue (selectQueue w.ctx.metaPool w.globals t (w.rqs rq))) x
      generalize w.allocMetaLocked rq _ = p at halloc ⊢
      obtain ⟨w₁, _ | m⟩ := p
      · exact halloc
      · exact halloc
  | updateRequest rq =>
    simp only [step, updateRequest]
    split
    · rfl
    · split <;> rfl
  | unqueueRequest rq =>
    simp only [step, unqueueRequest]
    split <;> rfl
  | accountDispatch rq selection nowNs =>
    simp only [step, accountDispatch]
    split <;> rfl
  | finishRequest rq =>
    simp only [step, finishRequest]
    split
    · rfl
    · exact fifoTime_freeMetaLocked _ rq _ x
  | recordIssue rq t nowNs =>
    simp only [step, recordIssue]
    cases w.ctx.findMetaLocked rq with
    | some m => rfl
    | none =>
      have halloc := w.fifoTime_allocMetaLocked rq
        (classForQueue (selectQueue w.ctx.metaPool w.globals t (w.rqs rq))) x
      generalize w.allocMetaLocked rq _ = p at halloc ⊢
      obtain ⟨w₁, _ | m⟩ := p
      · exact halloc
      · exact halloc
  | recordRequeue rq =>
    simp only [step, recordRequeue]
    split <;> rfl
  | recordComplete rq nrBytes nowNs =>
    simp only [step, recordComplete]
    split
    · rfl
    · split
      · rfl
      · exact fifoTime_freeMetaLocked _ rq _ x
  | scheduleFallback => exact absurd hsub (Option.some_ne_none x).symm
  | nonHpAllowed => exact absurd hsub (Option.some_ne_none x).symm
  | dispatchModelIfNeeded slotFree => exact absurd hsub (Option.some_ne_none x).symm
  | modelThreadRun nowNs => exact absurd hsub (Option.some_ne_none x).symm
  | inferenceWorkBegin => exact absurd hsub (Option.some_ne_none x).symm
  | inferenceWorkFinish i predicted => exact absurd hsub (Option.some_ne_none x).symm
  | inferenceTimer => exact absurd hsub (Option.some_ne_none x).symm
  | timeoutWork => exact absurd hsub (Option.some_ne_none x).symm
  | resetContext newSession nowNs => exact absurd hsub (Option.some_ne_none x).symm
  | configure k => exact absurd hsub (Option.some_ne_none x).symm
  | setDying => exact absurd hsub (Option.some_ne_none x).symm

end Throttle

namespace Deadline

variable {d d' : Deadline}

/-- The stamp of a request. -/
def stamp (d : Deadline) (x : RqAddr) : ℕ := (d.rq x).fifoTime

theorem stamp_throttled (d : Deadline) (op : ThrottleOp) {x : RqAddr} (hop : op.stamps ≠ some x) :
    (d.throttled op).stamp x = d.stamp x := d.throttle.fifoTime_step hop

/-- A change of a request that keeps its stamp keeps all stamps. -/
theorem stamp_changeRequest (d : Deadline) {rq : RqAddr} {r : Request}
    (hr : r.fifoTime = d.stamp rq) (x : RqAddr) :
    (d.throttled (.changeRequest rq r)).stamp x = d.stamp x := by
  show ((Function.update d.throttle.rqs rq _) x).fifoTime = _
  by_cases hx : x = rq
  · rw [hx, Function.update_self]
    exact hr
  · rw [Function.update_of_ne hx]
    rfl

/-- A change of the stamp of a request. -/
theorem stamp_restamp (d : Deadline) (rq : RqAddr) (jiffies : ℕ) (x : RqAddr) :
    (d.throttled (.changeRequest rq { d.rq rq with fifoTime := jiffies })).stamp x
      = if x = rq then jiffies else d.stamp x := by
  show ((Function.update d.throttle.rqs rq _) x).fifoTime = _
  by_cases hx : x = rq
  · rw [hx, Function.update_self, if_pos rfl]
  · rw [Function.update_of_ne hx, if_neg hx]
    rfl

/-! ## Merges and insertions -/

/-- **A merge** takes the absorbed request off its list. If that was stamped earlier,
the other one takes its place and its stamp. -/
theorem stamp_mergedRequests (d : Deadline) (req next : RqAddr) (t : TaskCtx) :
    (∀ p, (d.mergedRequests req next t).listAt p = (d.listAt p).erase next)
        ∧ (∀ x, (d.mergedRequests req next t).stamp x = d.stamp x)
      ∨ d.queued next = true
        ∧ (∀ p, (d.mergedRequests req next t).listAt p
            = (moveBehind req next (d.listAt p)).erase next)
        ∧ ∀ x, (d.mergedRequests req next t).stamp x
            = if x = req then d.stamp next else d.stamp x := by
  have hstamp : ∀ x, ((d.throttled (.updateRequest req)).throttled (.unqueueRequest next)).stamp x
      = d.stamp x := fun x =>
    ((d.throttled (.updateRequest req)).stamp_throttled (.unqueueRequest next)
      (Option.some_ne_none x).symm).trans
      (d.stamp_throttled (.updateRequest req) (Option.some_ne_none x).symm)
  unfold mergedRequests
  dsimp only
  generalize hd₁ : (d.throttled (.updateRequest req)).throttled (.unqueueRequest next) = d₁
    at hstamp
  have hperPrio : d₁.perPrio = d.perPrio := by
    rw [← hd₁]
    rfl
  generalize hq : DdPerPrio.mk _ _ _ _ = q
  have hlist : ∀ p, (d₁.setPrio (d.selectPrio next t) q).listAt p = d.listAt p := by
    intro p
    refine (listAt_setPrio (by rw [← hq]) (by rw [← hq]) p).trans ?_
    unfold listAt
    rw [hperPrio]
  split
  · rename_i hmove
    rw [Bool.and_eq_true, Bool.and_eq_true] at hmove
    refine Or.inr ⟨?_, fun p => ?_, fun x => ?_⟩
    · obtain ⟨p, hp⟩ := queued_iff_listAt.mp hmove.1.2
      rw [hlist] at hp
      exact queued_iff_listAt.mpr ⟨p, hp⟩
    · rw [listAt_removeRequest, ← hlist]
      exact congrArg (fun l : List RqAddr => l.erase next)
        (DdPerPrio.listAt_listMove _ req next p.2)
    · refine (stamp_restamp _ req _ x).trans ?_
      split
      · exact hstamp next
      · exact hstamp x
  · refine Or.inl ⟨fun p => ?_, hstamp⟩
    rw [listAt_removeRequest, hlist]

theorem stamp_classify (d : Deadline) (rq : RqAddr) (t : TaskCtx) (nowNs : ℕ) (x : RqAddr) :
    (d.classify rq t nowNs).stamp x = d.stamp x := by
  have hclassify : (d.throttled (.classifyRequest rq t nowNs)).stamp x = d.stamp x :=
    d.stamp_throttled (.classifyRequest rq t nowNs) (Option.some_ne_none x).symm
  have hmark : ∀ r : Request, (markRequestHp r).fifoTime = r.fifoTime := by
    intro r
    unfold markRequestHp
    split <;> rfl
  have hmarked := (stamp_changeRequest (d.throttled (.classifyRequest rq t nowNs))
    (hmark ((d.throttled (.classifyRequest rq t nowNs)).rq rq)) x).trans hclassify
  unfold classify
  dsimp only
  split <;> split
  · exact hmarked
  · exact hmarked
  · exact hclassify
  · exact hclassify

/-- An enqueued request is stamped, and no other. -/
theorem stamp_enqueue (d : Deadline) (k : QueueClass) (rq : RqAddr) (atHead : Bool)
    (jiffies : ℕ) (x : RqAddr) :
    (d.enqueue k rq atHead jiffies).stamp x = if x = rq then jiffies else d.stamp x := by
  unfold enqueue
  cases atHead with
  | true => exact d.stamp_restamp rq jiffies x
  | false => exact d.stamp_restamp rq jiffies x

/-- A request that is not inserted at the head is appended to a FIFO list. -/
theorem listAt_enqueue_tail (d : Deadline) (k : QueueClass) (rq : RqAddr) (jiffies : ℕ) :
    (d.enqueue k rq false jiffies).listAt (k, some (dataDir (d.rq rq)))
      = d.listAt (k, some (dataDir (d.rq rq))) ++ [rq] := by
  unfold enqueue
  show ((Function.update d.perPrio k _ k).listAt (some (dataDir (d.rq rq)))) = _
  rw [Function.update_self]
  show Function.update (d.perPrio k).fifoList _ _ _ = _
  rw [Function.update_self]
  rfl

/-! ## Moves

What a step other than an insertion does to the lists and the stamps. -/

/-- **A move**: nothing changes, a request is taken off, or a request takes the place
and the stamp of another. -/
inductive FifoMove (d d' : Deadline) : Prop
  | same (hlist : ∀ p, d'.listAt p = d.listAt p)
      (hstamp : ∀ x, d.queued x = true → d'.stamp x = d.stamp x)
  | take (rq : RqAddr) (hlist : ∀ p, d'.listAt p = (d.listAt p).erase rq)
      (hstamp : ∀ x, d'.stamp x = d.stamp x)
  | replace (req next : RqAddr) (hne : req ≠ next)
      (hlist : ∀ p, d'.listAt p = (moveBehind req next (d.listAt p)).erase next)
      (hstamp : ∀ x, d'.stamp x = if x = req then d.stamp next else d.stamp x)

/-- A merge of two requests, of which the absorbed one may be on no list. -/
theorem fifoMove_mergedRequests {req next : RqAddr} (hne : d.queued next = true → req ≠ next)
    (t : TaskCtx) : FifoMove d (d.mergedRequests req next t) := by
  rcases d.stamp_mergedRequests req next t with ⟨hlist, hstamp⟩ | ⟨hnext, hlist, hstamp⟩
  · exact .take next hlist hstamp
  · exact .replace req next (hne hnext) hlist hstamp

/-- A dispatch. -/
theorem fifoMove_dispatchRequest (hacc : Throttle.Accounted d.throttle) (slotFree : Bool)
    (nowNs : ℕ) : FifoMove d (d.dispatchRequest slotFree {} nowNs).1 := by
  obtain ⟨d₁, hquiet, heq | ⟨k, rq, hpick, heq⟩⟩ := dispatchRequest_spec hacc slotFree nowNs
  · rw [heq]
    refine .same hquiet.listAt fun x _ => ?_
    unfold stamp Deadline.rq
    rw [hquiet.rqs]
  · rw [heq]
    refine .take rq (fun p => ?_) fun x => ?_
    · exact ((dispatchFifo_of_some hpick).2.1 p).trans (by rw [hquiet.listAt])
    · refine (stamp_throttled _ (.accountDispatch rq .backgroundBaseline nowNs)
        (Option.some_ne_none x).symm).trans ?_
      unfold stamp Deadline.rq
      rw [dispatchFifo_throttle, hquiet.rqs]

/-- **Every step but an insertion is a move**, if it writes no stamp of a queued
request. -/
theorem fifoMove_step (hacc : Throttle.Accounted d.throttle) {op : DeadlineOp}
    (hinsert : ∀ rq atHead mergeInto t nowNs jiffies,
      op ≠ .insertRequest rq atHead mergeInto t nowNs jiffies)
    (hchange : ∀ rq r, op = .throttle (.changeRequest rq r) → r.fifoTime = d.stamp rq) :
    FifoMove d (d.step op) := by
  have hrefl : FifoMove d d := .same (fun _ => rfl) fun _ _ => rfl
  cases op with
  | insertRequest rq atHead mergeInto t nowNs jiffies => exact absurd rfl (hinsert _ _ _ _ _ _)
  | prepareRequest rq r =>
    simp only [Deadline.step]
    split
    · exact hrefl
    · next hrq =>
      refine .same (fun _ => rfl) fun x hx => d.stamp_throttled (.prepareRequest rq r) ?_
      intro hstamps
      exact hrq (Option.some.inj hstamps ▸ hx)
  | requestMerged req front t =>
    simp only [Deadline.step]
    split
    · unfold Deadline.requestMerged
      dsimp only
      split
      · refine .same (fun p => ?_) fun x _ => stamp_throttled _ (.updateRequest req)
          (Option.some_ne_none x).symm
        refine listAt_setPrio (d := d) (k := d.selectPrio req t) ?_ ?_ p
        · rfl
        · rfl
      · exact .same (fun _ => rfl) fun x _ => d.stamp_throttled (.updateRequest req)
          (Option.some_ne_none x).symm
    · exact hrefl
  | mergedRequests req next t =>
    simp only [Deadline.step]
    split
    · next hmerge => exact fifoMove_mergedRequests (fun _ => hmerge.1) t
    · exact hrefl
  | dispatchRequest slotFree nowNs => exact fifoMove_dispatchRequest hacc slotFree nowNs
  | finishRequest rq =>
    simp only [Deadline.step]
    split
    · exact hrefl
    · refine .same (fun p => ?_) fun x _ => ?_
      · unfold Deadline.finishRequest
        dsimp only
        cases d.priv0 rq with
        | none => rfl
        | some k =>
          refine listAt_setPrio (d := d.throttled (.finishRequest rq)) (k := k) ?_ ?_ p
          · rfl
          · rfl
      · unfold Deadline.finishRequest
        dsimp only
        cases d.priv0 rq with
        | none => exact d.stamp_throttled (.finishRequest rq) (Option.some_ne_none x).symm
        | some k => exact d.stamp_throttled (.finishRequest rq) (Option.some_ne_none x).symm
  | throttle op =>
    simp only [Deadline.step]
    split
    · exact hrefl
    · next hother =>
      refine .same (fun _ => rfl) fun x hx => ?_
      cases op with
      | prepareRequest rq r => exact absurd rfl hother
      | changeRequest rq r => exact d.stamp_changeRequest (hchange rq r rfl) x
      | _ => exact d.stamp_throttled _ (Option.some_ne_none x).symm

/-- **An insertion** of a request that is on no list is a move, by which it is merged,
or nothing and then an enqueueing. -/
theorem insertRequest_cases {rq : RqAddr} (hrq : d.queued rq = false) (atHead : Bool)
    (mergeInto : Option RqAddr) (t : TaskCtx) (nowNs jiffies : ℕ) :
    ∃ d₁, FifoMove d d₁ ∧ d₁.queued rq = false
      ∧ ((∃ req, FifoMove d₁ (d.insertRequest rq atHead mergeInto t nowNs jiffies)
          ∧ mergeInto = some req)
        ∨ ∃ k, d.insertRequest rq atHead mergeInto t nowNs jiffies
          = d₁.enqueue k rq atHead jiffies) := by
  have hout : (d.classify rq t nowNs).queued rq = false :=
    (d.queued_classify rq t nowNs rq).trans hrq
  refine ⟨d.classify rq t nowNs, .same (d.listAt_classify rq t nowNs)
    fun x _ => d.stamp_classify rq t nowNs x, hout, ?_⟩
  unfold Deadline.insertRequest
  cases mergeInto with
  | some req =>
    refine Or.inl ⟨req, fifoMove_mergedRequests (fun hin => ?_) t, rfl⟩
    exact absurd (hin.symm.trans hout) Bool.noConfusion
  | none => exact Or.inr ⟨_, rfl⟩

/-- A move puts nothing on an empty list. -/
theorem FifoMove.listAt_nil (h : FifoMove d d') {p : QueueClass × Option DataDir}
    (hp : d.listAt p = []) : d'.listAt p = [] := by
  cases h with
  | same hlist hstamp => rw [hlist, hp]
  | take rq hlist hstamp =>
    rw [hlist, hp]
    rfl
  | replace req next hne hlist hstamp =>
    rw [hlist, hp]
    rfl

/-! ## Order -/

/-- **The lists of a scheduler are in order**: no request is on a list twice, and
either FIFO list of a priority is sorted by the stamps, none of which is later than
the time `age`. -/
structure InOrder (base age : ℕ) (d : Deadline) : Prop where
  nodup : ∀ p, (d.listAt p).Nodup
  sorted : ∀ k e, (d.listAt (k, some e)).Pairwise fun x y =>
    stampAge base (d.stamp x) ≤ stampAge base (d.stamp y)
  past : ∀ {k e x}, x ∈ d.listAt (k, some e) → stampAge base (d.stamp x) ≤ age

namespace InOrder

variable {base age : ℕ}

/-- **A move keeps the order.** -/
theorem move (h : InOrder base age d) (hmove : FifoMove d d') : InOrder base age d' := by
  cases hmove with
  | same hlist hstamp =>
    refine ⟨fun p => ?_, fun k e => ?_, fun {k e x} hx => ?_⟩
    · rw [hlist]
      exact h.nodup p
    · rw [hlist]
      refine (h.sorted k e).imp_of_mem fun {x y} hx hy hxy => ?_
      rw [hstamp x (queued_iff_listAt.mpr ⟨_, hx⟩), hstamp y (queued_iff_listAt.mpr ⟨_, hy⟩)]
      exact hxy
    · rw [hlist] at hx
      rw [hstamp x (queued_iff_listAt.mpr ⟨_, hx⟩)]
      exact h.past hx
  | take rq hlist hstamp =>
    refine ⟨fun p => ?_, fun k e => ?_, fun {k e x} hx => ?_⟩
    · rw [hlist]
      exact (h.nodup p).erase rq
    · rw [hlist]
      refine ((h.sorted k e).sublist List.erase_sublist).imp fun {x y} hxy => ?_
      rw [hstamp, hstamp]
      exact hxy
    · rw [hlist] at hx
      rw [hstamp]
      exact h.past (List.mem_of_mem_erase hx)
  | replace req next hne hlist hstamp =>
    -- the request that moves is nowhere else, so only its stamp there is new
    have hkept : ∀ {p x}, x ∈ (d.listAt p).erase req → d'.stamp x = d.stamp x := by
      intro p x hx
      rw [hstamp, if_neg]
      rintro rfl
      exact (h.nodup p).not_mem_erase hx
    have hreq : d'.stamp req = d.stamp next := by
      rw [hstamp, if_pos rfl]
    refine ⟨fun p => ?_, fun k e => ?_, fun {k e x} hx => ?_⟩
    · rw [hlist]
      exact (nodup_moveBehind (h.nodup p)).erase next
    · rw [hlist]
      refine List.Pairwise.sublist List.erase_sublist (pairwise_flatMap_behind ?_ ?_)
      · refine ((h.sorted k e).sublist List.erase_sublist).imp_of_mem fun {x y} hx hy hxy => ?_
        rw [hkept hx, hkept hy]
        exact hxy
      · rw [hreq, hstamp, if_neg hne.symm]
    · rw [hlist] at hx
      rcases mem_moveBehind (List.mem_of_mem_erase hx) with hx | ⟨rfl, hnext⟩
      · rw [hkept hx]
        exact h.past (List.mem_of_mem_erase hx)
      · rw [hreq]
        exact h.past hnext

/-- Time goes on. -/
theorem later (h : InOrder base age d) {age' : ℕ} (hle : age ≤ age') : InOrder base age' d where
  nodup := h.nodup
  sorted := h.sorted
  past hx := (h.past hx).trans hle

/-- **A request stamped with the present keeps the order**, at the end of a FIFO list
or at the head. -/
theorem enqueue (h : InOrder base age d) {rq : RqAddr} (hrq : d.queued rq = false)
    (k : QueueClass) (atHead : Bool) {jiffies : ℕ} (hage : age ≤ stampAge base jiffies) :
    InOrder base (stampAge base jiffies) (d.enqueue k rq atHead jiffies) := by
  have hout : ∀ p, rq ∉ d.listAt p := fun p hp =>
    Bool.noConfusion ((queued_iff_listAt.mpr ⟨p, hp⟩).symm.trans hrq)
  have hkept : ∀ {p x}, x ∈ d.listAt p → (d.enqueue k rq atHead jiffies).stamp x = d.stamp x := by
    intro p x hx
    rw [stamp_enqueue, if_neg]
    rintro rfl
    exact hout p hx
  have hself : (d.enqueue k rq atHead jiffies).stamp rq = jiffies := by
    rw [stamp_enqueue, if_pos rfl]
  have hother : ∀ j e, (j, some e) ≠ d.shelf k rq atHead →
      (d.enqueue k rq atHead jiffies).listAt (j, some e) = d.listAt (j, some e) :=
    fun j e hp => d.listAt_enqueue_of_ne jiffies hp
  have htail : ∀ j e, (j, some e) = d.shelf k rq atHead →
      (d.enqueue k rq atHead jiffies).listAt (j, some e) = d.listAt (j, some e) ++ [rq] := by
    intro j e hp
    unfold shelf at hp
    cases atHead with
    | true => exact absurd (Prod.mk.inj hp).2 (Option.some_ne_none e)
    | false =>
      obtain ⟨rfl, he⟩ := Prod.mk.inj hp
      rw [if_neg Bool.false_ne_true] at he
      rw [he]
      exact d.listAt_enqueue_tail j rq jiffies
  refine ⟨fun p => ?_, fun j e => ?_, fun {j e x} hx => ?_⟩
  · by_cases hp : p = d.shelf k rq atHead
    · rw [hp]
      refine (d.listAt_enqueue_self k rq atHead jiffies).nodup_iff.mpr ?_
      exact List.nodup_cons.mpr ⟨hout _, h.nodup _⟩
    · rw [d.listAt_enqueue_of_ne jiffies hp]
      exact h.nodup p
  · have hsorted : (d.listAt (j, some e)).Pairwise fun x y =>
        stampAge base ((d.enqueue k rq atHead jiffies).stamp x)
          ≤ stampAge base ((d.enqueue k rq atHead jiffies).stamp y) := by
      refine (h.sorted j e).imp_of_mem fun {x y} hx hy hxy => ?_
      rw [hkept hx, hkept hy]
      exact hxy
    by_cases hp : (j, some e) = d.shelf k rq atHead
    · rw [htail j e hp]
      refine List.pairwise_append.mpr ⟨hsorted, List.pairwise_singleton _ _, ?_⟩
      intro x hx y hy
      rw [List.mem_singleton.mp hy, hself, hkept hx]
      exact (h.past hx).trans hage
    · rw [hother j e hp]
      exact hsorted
  · by_cases hp : (j, some e) = d.shelf k rq atHead
    · rw [htail j e hp] at hx
      rcases List.mem_append.mp hx with hx | hx
      · rw [hkept hx]
        exact (h.past hx).trans hage
      · rw [List.mem_singleton.mp hx, hself]
    · rw [hother j e hp] at hx
      rw [hkept hx]
      exact (h.past hx).trans hage

/-- **An insertion at the present keeps the order.** -/
theorem insertRequest (h : InOrder base age d) {rq : RqAddr} (hrq : d.queued rq = false)
    (atHead : Bool) (mergeInto : Option RqAddr) (t : TaskCtx) (nowNs : ℕ) {jiffies : ℕ}
    (hage : age ≤ stampAge base jiffies) :
    InOrder base (stampAge base jiffies)
      (d.insertRequest rq atHead mergeInto t nowNs jiffies) := by
  obtain ⟨d₁, hmove, hout, ⟨req, hmerge, -⟩ | ⟨k, heq⟩⟩ :=
    insertRequest_cases hrq atHead mergeInto t nowNs jiffies
  · exact ((h.move hmove).move hmerge).later hage
  · rw [heq]
    exact (h.move hmove).enqueue hout k atHead hage

/-- The first request of a FIFO list is stamped no later than the others. -/
theorem head_le (h : InOrder base age d) {k : QueueClass} {e : DataDir} {x y : RqAddr}
    {rest : List RqAddr} (hlist : d.listAt (k, some e) = y :: rest)
    (hx : x ∈ d.listAt (k, some e)) : stampAge base (d.stamp y) ≤ stampAge base (d.stamp x) := by
  have hsorted := h.sorted k e
  rw [hlist] at hsorted hx
  rcases List.mem_cons.mp hx with rfl | hx
  · exact le_rfl
  · exact (List.pairwise_cons.mp hsorted).1 x hx

/-- **The pick is the oldest**: without a request that was inserted at the head, it is
stamped no later than any other of its priority. -/
theorem pick_le (h : InOrder base age d) (hhalf : age < 2 ^ 63) {k : QueueClass} {rq : RqAddr}
    (hempty : (d.perPrio k).dispatch = []) (hpick : (d.perPrio k).pick d.throttle.rqs = some rq)
    {x : RqAddr} (hx : d.On k x) : stampAge base (d.stamp rq) ≤ stampAge base (d.stamp x) := by
  obtain ⟨s, hx⟩ := on_iff_listAt.mp hx
  have hfifo : ∃ e, x ∈ d.listAt (k, some e) := by
    cases s with
    | none =>
      rw [show d.listAt (k, none) = [] from hempty] at hx
      exact absurd hx List.not_mem_nil
    | some e => exact ⟨e, hx⟩
  obtain ⟨e, hx⟩ := hfifo
  unfold DdPerPrio.pick at hpick
  rw [hempty] at hpick
  dsimp only at hpick
  have hread : (d.perPrio k).fifoList .read = d.listAt (k, some .read) := rfl
  have hwrite : (d.perPrio k).fifoList .write = d.listAt (k, some .write) := rfl
  rw [hread, hwrite] at hpick
  cases hr : d.listAt (k, some .read) with
  | nil =>
    cases hw : d.listAt (k, some .write) with
    | nil =>
      rw [hr, hw] at hpick
      exact absurd hpick.symm (Option.some_ne_none _)
    | cons w ws =>
      rw [hr, hw] at hpick
      obtain rfl := Option.some.inj hpick
      cases e with
      | read =>
        rw [hr] at hx
        exact absurd hx List.not_mem_nil
      | write => exact h.head_le hw hx
  | cons r rs =>
    cases hw : d.listAt (k, some .write) with
    | nil =>
      rw [hr, hw] at hpick
      obtain rfl := Option.some.inj hpick
      cases e with
      | read => exact h.head_le hr hx
      | write =>
        rw [hw] at hx
        exact absurd hx List.not_mem_nil
    | cons w ws =>
      rw [hr, hw] at hpick
      dsimp only [List.head?_cons] at hpick
      -- the two heads are compared, and each is the oldest of its list
      have hpast : ∀ {e x}, x ∈ d.listAt (k, some e) → stampAge base (d.stamp x) < 2 ^ 63 :=
        fun hx => (h.past hx).trans_lt hhalf
      have hcompare : timeBefore (d.throttle.rqs r).fifoTime (d.throttle.rqs w).fifoTime = true
          ↔ stampAge base (d.stamp r) < stampAge base (d.stamp w) :=
        timeBefore_iff (hpast (hr ▸ List.mem_cons_self)) (hpast (hw ▸ List.mem_cons_self))
      split at hpick
      · next hlt =>
        obtain rfl := Option.some.inj hpick
        cases e with
        | read => exact h.head_le hr hx
        | write => exact (hcompare.mp hlt).le.trans (h.head_le hw hx)
      · next hge =>
        obtain rfl := Option.some.inj hpick
        cases e with
        | read => exact (not_lt.mp (mt hcompare.mpr hge)).trans (h.head_le hr hx)
        | write => exact h.head_le hw hx

/-- A later stamp is not before an earlier one. -/
theorem timeBefore_eq_false (h : InOrder base age d) (hhalf : age < 2 ^ 63) {k : QueueClass}
    {e f : DataDir} {x y : RqAddr} (hx : x ∈ d.listAt (k, some e)) (hy : y ∈ d.listAt (k, some f))
    (hle : stampAge base (d.stamp x) ≤ stampAge base (d.stamp y)) :
    timeBefore (d.stamp y) (d.stamp x) = false := by
  rw [Bool.eq_false_iff, Ne, timeBefore_iff ((h.past hy).trans_lt hhalf)
    ((h.past hx).trans_lt hhalf), not_lt]
  exact hle

end InOrder

end Deadline

/-! ## Runs -/

/-- A scheduler in use, and the latest `jiffies` that an insertion has read. -/
structure FifoRun where
  dd : Deadline
  jiffies : ℕ

/-- What happens to a scheduler: any of its steps, or a merge of two requests that
wait on whatever lists – the block layer merges neighbours in a tree, and what it
finds by its hash in an insertion, which goes over all trees. -/
inductive FifoOp where
  | deadline (op : DeadlineOp)
  | mergedRequests (req next : RqAddr) (t : TaskCtx)
deriving DecidableEq, Repr

namespace FifoRun

/-- One step. Time does not go back, and stays within the half of the counter's range
that begins at `base`; nothing but the scheduler writes a stamp. -/
def step (base : ℕ) (s : FifoRun) : FifoOp → FifoRun
  | .deadline (.insertRequest rq atHead mergeInto t nowNs jiffies) =>
    if stampAge base s.jiffies ≤ stampAge base jiffies ∧ stampAge base jiffies < 2 ^ 63 then
      { dd := s.dd.step (.insertRequest rq atHead mergeInto t nowNs jiffies), jiffies := jiffies }
    else s
  | .deadline (.throttle (.changeRequest rq r)) =>
    { s with
      dd := s.dd.step (.throttle (.changeRequest rq { r with fifoTime := s.dd.stamp rq })) }
  | .deadline op => { s with dd := s.dd.step op }
  | .mergedRequests req next t =>
    if req ≠ next ∧ s.dd.queued req = true ∧ s.dd.queued next = true then
      { s with dd := s.dd.mergedRequests req next t }
    else s

/-- **A scheduler whose stamps are within half of the range**, from the moment it is
attached. -/
def machine (base : ℕ) : StepMachine FifoRun FifoOp Unit where
  init s := (∃ w, Throttle.Attached w ∧ s.dd = .attach w) ∧ stampAge base s.jiffies < 2 ^ 63
  step s op := (s.step base op, ())

/-! ## Order in every run -/

variable {base : ℕ}

/-- A step that neither inserts nor changes a request is a step of the scheduler. -/
theorem step_deadline (s : FifoRun) {op : DeadlineOp}
    (hinsert : ∀ rq atHead mergeInto t nowNs jiffies,
      op ≠ .insertRequest rq atHead mergeInto t nowNs jiffies)
    (hchange : ∀ rq r, op ≠ .throttle (.changeRequest rq r)) :
    s.step base (.deadline op) = { s with dd := s.dd.step op } := by
  cases op with
  | insertRequest rq atHead mergeInto t nowNs jiffies => exact absurd rfl (hinsert _ _ _ _ _ _)
  | throttle op =>
    cases op with
    | changeRequest rq r => exact absurd rfl (hchange rq r)
    | _ => rfl
  | _ => rfl

/-- **A step** is a move, while time may go on, or an insertion at the present. -/
theorem step_cases (s : FifoRun) (hacc : Throttle.Accounted s.dd.throttle)
    (hhalf : stampAge base s.jiffies < 2 ^ 63) (op : FifoOp) :
    stampAge base s.jiffies ≤ stampAge base (s.step base op).jiffies
      ∧ stampAge base (s.step base op).jiffies < 2 ^ 63
      ∧ (Deadline.FifoMove s.dd (s.step base op).dd
        ∨ ∃ rq atHead mergeInto t nowNs jiffies,
            op = .deadline (.insertRequest rq atHead mergeInto t nowNs jiffies)
            ∧ s.dd.queued rq = false
            ∧ s.step base op
              = ⟨s.dd.insertRequest rq atHead mergeInto t nowNs jiffies, jiffies⟩) := by
  have hrefl : Deadline.FifoMove s.dd s.dd := .same (fun _ => rfl) fun _ _ => rfl
  have hother : ∀ {op}, (∀ rq atHead mergeInto t nowNs jiffies,
      op ≠ .insertRequest rq atHead mergeInto t nowNs jiffies) →
      (∀ rq r, op ≠ .throttle (.changeRequest rq r)) →
      stampAge base s.jiffies ≤ stampAge base (s.step base (.deadline op)).jiffies
      ∧ stampAge base (s.step base (.deadline op)).jiffies < 2 ^ 63
      ∧ Deadline.FifoMove s.dd (s.step base (.deadline op)).dd := by
    intro op hinsert hchange
    rw [s.step_deadline hinsert hchange]
    exact ⟨le_rfl, hhalf,
      Deadline.fifoMove_step hacc hinsert fun rq r heq => absurd heq (hchange rq r)⟩
  cases op with
  | mergedRequests req next t =>
    simp only [step]
    split
    · next hmerge =>
      exact ⟨le_rfl, hhalf, Or.inl (Deadline.fifoMove_mergedRequests (fun _ => hmerge.1) t)⟩
    · exact ⟨le_rfl, hhalf, Or.inl hrefl⟩
  | deadline op =>
    cases op with
    | insertRequest rq atHead mergeInto t nowNs jiffies =>
      simp only [step]
      split
      · next htime =>
        refine ⟨htime.1, htime.2, ?_⟩
        simp only [Deadline.step]
        split
        · exact Or.inl hrefl
        · next hout =>
          refine Or.inr ⟨rq, atHead, mergeInto, t, nowNs, jiffies, rfl, ?_, rfl⟩
          exact (Deadline.insert_accepted hout).2.1
      · exact ⟨le_rfl, hhalf, Or.inl hrefl⟩
    | throttle op =>
      cases op with
      | changeRequest rq r =>
        refine ⟨le_rfl, hhalf, Or.inl ?_⟩
        show Deadline.FifoMove s.dd (s.dd.step (.throttle (.changeRequest rq
          { r with fifoTime := s.dd.stamp rq })))
        refine Deadline.fifoMove_step hacc (fun _ _ _ _ _ _ heq => by cases heq) ?_
        intro rq' r' heq
        cases heq
        rfl
      | _ =>
        refine And.imp_right (And.imp_right Or.inl) (hother ?_ ?_)
        · simp
        · simp
    | _ =>
      refine And.imp_right (And.imp_right Or.inl) (hother ?_ ?_)
      · simp
      · simp

/-- **The invariant of a run**: books that balance, lists in order, and a time within
the half of the range. -/
structure Sound (base : ℕ) (s : FifoRun) : Prop where
  accounted : Throttle.Accounted s.dd.throttle
  order : s.dd.InOrder base (stampAge base s.jiffies)
  half : stampAge base s.jiffies < 2 ^ 63

/-- A merge keeps the accounting. -/
theorem accounted_mergedRequests {d : Deadline} (h : Throttle.Accounted d.throttle)
    (req next : RqAddr) (t : TaskCtx) :
    Throttle.Accounted (d.mergedRequests req next t).throttle :=
  (Deadline.path_mergedRequests (P := fun _ => True) .refl (fun _ => trivial) (fun _ => trivial)
    (fun _ _ => trivial) req next t).invariant
    (fun w o _ hw => show Throttle.Accounted (Throttle.machine.next w o) from hw.step o) h

theorem accounted_step {s : FifoRun} (h : Throttle.Accounted s.dd.throttle) (op : FifoOp) :
    Throttle.Accounted (s.step base op).dd.throttle := by
  cases op with
  | mergedRequests req next t =>
    simp only [step]
    split
    · exact accounted_mergedRequests h req next t
    · exact h
  | deadline op =>
    cases op with
    | insertRequest rq atHead mergeInto t nowNs jiffies =>
      simp only [step]
      split
      · exact Deadline.accounted_step h _
      · exact h
    | throttle op =>
      cases op with
      | changeRequest rq r => exact Deadline.accounted_step h _
      | _ => exact Deadline.accounted_step h _
    | _ => exact Deadline.accounted_step h _

/-- **One step** keeps the lists in order. -/
theorem sound_step (s : FifoRun) (op : FifoOp) (h : Sound base s) :
    Sound base ((machine base).next s op) := by
  obtain ⟨hle, hlt, hmove | ⟨rq, atHead, mergeInto, t, nowNs, jiffies, -, hrq, heq⟩⟩ :=
    s.step_cases h.accounted h.half op
  · exact ⟨accounted_step h.accounted op, (h.order.move hmove).later hle, hlt⟩
  · refine ⟨accounted_step h.accounted op, ?_, hlt⟩
    show (s.step base op).dd.InOrder base (stampAge base (s.step base op).jiffies)
    rw [heq] at hle ⊢
    exact h.order.insertRequest hrq atHead mergeInto t nowNs hle

/-- A scheduler just attached has empty lists. -/
theorem listAt_attach (w : Throttle) (p : QueueClass × Option DataDir) :
    (Deadline.attach w).listAt p = [] := by
  obtain ⟨k, _ | e⟩ := p <;> rfl

theorem sound_init {s : FifoRun} (h : (machine base).init s) : Sound base s := by
  obtain ⟨⟨w, hw, hdd⟩, hhalf⟩ := h
  have hempty : ∀ p, s.dd.listAt p = [] := by
    rw [hdd]
    exact listAt_attach w
  refine ⟨?_, ⟨fun p => ?_, fun k e => ?_, fun {k e x} hx => ?_⟩, hhalf⟩
  · rw [hdd]
    exact Throttle.accounted_of_attached hw
  · rw [hempty]
    exact List.nodup_nil
  · rw [hempty]
    exact List.Pairwise.nil
  · rw [hempty] at hx
    exact absurd hx List.not_mem_nil

theorem sound_of_reachable {s : FifoRun} (h : (machine base).Reachable s) : Sound base s :=
  h.invariant (fun _ => sound_init) sound_step

/-- A step that inserts nothing at the head. -/
def AtTail : FifoOp → Prop
  | .deadline (.insertRequest _ atHead _ _ _ _) => atHead = false
  | _ => True

/-- **Without insertions at the head**, the lists of requests that were inserted there
stay empty. -/
theorem dispatch_nil_step {s : FifoRun} {op : FifoOp} (hop : AtTail op) (h : Sound base s)
    (hempty : ∀ k, s.dd.listAt (k, none) = []) (k : QueueClass) :
    (s.step base op).dd.listAt (k, none) = [] := by
  obtain ⟨-, -, hmove | ⟨rq, atHead, mergeInto, t, nowNs, jiffies, rfl, hrq, heq⟩⟩ :=
    s.step_cases h.accounted h.half op
  · exact hmove.listAt_nil (hempty k)
  · rw [heq]
    obtain ⟨d₁, hmove, -, ⟨req, hmerge, -⟩ | ⟨j, heq'⟩⟩ :=
      Deadline.insertRequest_cases hrq atHead mergeInto t nowNs jiffies
    · exact hmerge.listAt_nil (hmove.listAt_nil (hempty k))
    · show (s.dd.insertRequest rq atHead mergeInto t nowNs jiffies).listAt (k, none) = []
      rw [heq', d₁.listAt_enqueue_of_ne jiffies]
      · exact hmove.listAt_nil (hempty k)
      · unfold Deadline.shelf
        rw [show atHead = false from hop]
        exact fun h => absurd (Prod.mk.inj h).2.symm (Option.some_ne_none _)

/-- **What a dispatch returns** was picked from its priority. -/
theorem pick_of_dispatchRequest {d : Deadline} (h : Throttle.Accounted d.throttle)
    {slotFree : Bool} {nowNs : ℕ} {k : QueueClass} {rq : RqAddr}
    (hret : (d.dispatchRequest slotFree {} nowNs).2 = some (k, rq)) :
    (d.perPrio k).pick d.throttle.rqs = some rq := by
  obtain ⟨d₁, hquiet, heq | ⟨j, rq', hpick, heq⟩⟩ :=
    Deadline.dispatchRequest_spec h slotFree nowNs
  · rw [heq] at hret
    exact absurd hret.symm (Option.some_ne_none _)
  · rw [heq] at hret
    obtain ⟨rfl, rfl⟩ := Prod.mk.inj (Option.some.inj hret)
    rw [← hquiet.perPrio, ← hquiet.rqs]
    exact hpick

/-- **The oldest request is served**: without a request that was inserted at the head,
no request of its priority is stamped earlier than the one that is picked. -/
theorem Sound.oldest {s : FifoRun} (h : Sound base s) {k : QueueClass} {rq : RqAddr}
    (hempty : (s.dd.perPrio k).dispatch = [])
    (hpick : (s.dd.perPrio k).pick s.dd.throttle.rqs = some rq) {x : RqAddr}
    (hx : s.dd.On k x) : timeBefore (s.dd.stamp x) (s.dd.stamp rq) = false := by
  have hfifo : ∀ {y}, s.dd.On k y → ∃ e, y ∈ s.dd.listAt (k, some e) := by
    intro y hy
    obtain ⟨_ | e, hy⟩ := Deadline.on_iff_listAt.mp hy
    · rw [show s.dd.listAt (k, none) = [] from hempty] at hy
      exact absurd hy List.not_mem_nil
    · exact ⟨e, hy⟩
  obtain ⟨e, hin⟩ := hfifo (DdPerPrio.holds_of_pick hpick)
  obtain ⟨f, hin'⟩ := hfifo hx
  exact h.order.timeBefore_eq_false h.half hin hin' (h.order.pick_le h.half hempty hpick hx)

/-- **First in, first out, within a priority.** In every state of a run the FIFO lists
are sorted by the stamps, and a priority without requests that were inserted at the
head gives out a request, if it has any, than which no request of the priority is
stamped earlier. In a run without insertions at the head, this holds of whatever a
dispatch returns. -/
theorem fifo_within_priority (base : ℕ) :
    (∀ s, (machine base).Reachable s → ∀ k,
        (∀ e, ((s.dd.perPrio k).fifoList e).Pairwise fun x y =>
          timeBefore (s.dd.stamp y) (s.dd.stamp x) = false)
        ∧ ((s.dd.perPrio k).dispatch = [] → (s.dd.perPrio k).hasWork = true →
          ∃ rq, (s.dd.dispatchFifo k).2 = some (k, rq) ∧ s.dd.On k rq
            ∧ ∀ x, s.dd.On k x → timeBefore (s.dd.stamp x) (s.dd.stamp rq) = false))
      ∧ ∀ s₀ s, (machine base).init s₀ → (machine base).Path AtTail s₀ s →
          ∀ slotFree nowNs k rq,
            (s.dd.dispatchRequest slotFree {} nowNs).2 = some (k, rq) →
            ∀ x, s.dd.On k x → timeBefore (s.dd.stamp x) (s.dd.stamp rq) = false := by
  constructor
  · intro s hs k
    have h := sound_of_reachable hs
    refine ⟨fun e => ?_, fun hempty hwork => ?_⟩
    · refine (h.order.sorted k e).imp_of_mem fun {x y} hx hy hxy => ?_
      exact h.order.timeBefore_eq_false h.half hx hy hxy
    · rw [← DdPerPrio.isSome_pick _ s.dd.throttle.rqs] at hwork
      obtain ⟨rq, hpick⟩ := Option.isSome_iff_exists.mp hwork
      exact ⟨rq, (Deadline.dispatchFifo_of_some hpick).1, DdPerPrio.holds_of_pick hpick,
        fun x hx => h.oldest hempty hpick hx⟩
  · intro s₀ s hinit hpath slotFree nowNs k rq hret x hx
    -- along the path nothing is inserted at the head
    have hkept := hpath.invariant
      (I := fun s => Sound base s ∧ ∀ j, s.dd.listAt (j, none) = [])
      (fun s op hop hI => ⟨sound_step s op hI.1, dispatch_nil_step hop hI.1 hI.2⟩)
    obtain ⟨⟨w, -, hdd⟩, -⟩ := id hinit
    obtain ⟨h, hempty⟩ := hkept ⟨sound_init hinit, fun j => hdd ▸ listAt_attach w _⟩
    exact h.oldest (hempty k) (pick_of_dispatchRequest h.accounted hret) hx

/-- A write is merged into a later one, which takes its place and its stamp, and goes
before a read that had come between them. -/
theorem fifo_within_priority_merged :
    let s := (machine 0).run ⟨.attach (Throttle.attach 4 []), 0⟩
      [.deadline (.prepareRequest 1 (Deadline.writeOf 0)),
       .deadline (.insertRequest 1 false none Throttle.idleTask 0 5),
       .deadline (.prepareRequest 2 { Deadline.writeOf 0 with op := .read }),
       .deadline (.insertRequest 2 false none Throttle.idleTask 0 7),
       .deadline (.prepareRequest 3 (Deadline.writeOf 0)),
       .deadline (.insertRequest 3 false none Throttle.idleTask 0 9),
       .mergedRequests 3 1 Throttle.idleTask]
    s.dd.stamp 3 = 5 ∧ s.dd.stamp 2 = 7 ∧ s.dd.queued 1 = false
      ∧ (s.dd.dispatchRequest true {} 0).2 = some (.be, 3)
      ∧ timeBefore (s.dd.stamp 2) (s.dd.stamp 3) = false := by
  intro s
  have hinit : (machine 0).init ⟨.attach (Throttle.attach 4 []), 0⟩ :=
    ⟨⟨_, Throttle.attached_attach (show 3 ≠ 0 by decide) Nat.one_ne_zero (by decide) [], rfl⟩,
      by decide⟩
  have hpath : (machine 0).Path AtTail ⟨.attach (Throttle.attach 4 []), 0⟩ s :=
    ⟨_, by simp [AtTail], rfl⟩
  have hret : (s.dd.dispatchRequest true {} 0).2 = some (.be, 3) := by decide +kernel
  refine ⟨by decide +kernel, by decide +kernel, by decide +kernel, hret, ?_⟩
  exact (fifo_within_priority 0).2 _ s hinit hpath true 0 .be 3 hret 2
    (by unfold Deadline.On; decide +kernel)

end FifoRun
