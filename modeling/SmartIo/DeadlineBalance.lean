import SmartIo.Chronicle
import SmartIo.DeadlineLookup
import SmartIo.ThrottleClasses

/-!
# No request is lost or duplicated

A request is put on a list by an insertion, and leaves the lists by a dispatch
or a merge; a requeue brings it back with another insertion. The chronicle of a
run says in which order (`events`), and the claim is that the lists always hold
exactly the requests whose last event is an insertion, each of them once
(`Balanced`).

The throttle keeps two counters of the same requests, and moves them in lock
sections of its own: they count the records that say `queued`. So they are right
if the records that do are those of the requests on the lists (`Booked.record`,
`Booked.owner`), and say which list it is (`Booked.classes`). A request that is
inserted without a record is not counted, and one whose record was taken into
use at an issue may be counted as one of the other class; where neither happens
(`Served`), nothing does.
-/

open Counting

/-! ## Records that wait -/

/-- **A move that counts no record as waiting** that was not. -/
def BooksMove.Unqueues : BooksMove → Prop
  | .post _ f => ∀ s, (f s).queued = true → s.queued = true
  | .enter _ _ _ s => s.queued = false
  | _ => True

/-- After such a move, the records that wait are records that waited. -/
theorem Books.queued_of_make {b : Books} {mv : BooksMove} (hmv : mv.Unqueues) {m : MetaId}
    (hlive : m ∈ (b.make mv).ledger.live)
    (hq : ((b.make mv).ledger.record m).queued = true) :
    m ∈ b.ledger.live ∧ (b.ledger.record m).queued = true := by
  cases mv with
  | same => exact ⟨hlive, hq⟩
  | post n f =>
    refine ⟨hlive, ?_⟩
    by_cases hmn : m = n
    · subst hmn
      refine hmv _ ?_
      rwa [show ((b.make (.post m f)).ledger.record m) = f (b.ledger.record m) from
        Ledger.post_record_self _ _ _ _] at hq
    · rwa [show ((b.make (.post n f)).ledger.record m) = b.ledger.record m from
        Ledger.post_record_of_ne _ _ _ hmn] at hq
  | enter rq n rest s =>
    by_cases hmn : m = n
    · subst hmn
      rw [show ((b.make (.enter rq m rest s)).ledger.record m) = s from
        Ledger.enter_record_self _ _ _ _ _] at hq
      exact Bool.noConfusion (hq.symm.trans hmv)
    · rw [show ((b.make (.enter rq n rest s)).ledger.record m) = b.ledger.record m from
        Ledger.enter_record_of_ne _ _ _ _ hmn] at hq
      exact ⟨(List.mem_cons.mp hlive).resolve_left hmn, hq⟩
  | leave n =>
    obtain ⟨hm, hmn⟩ := List.mem_filter.mp hlive
    rw [show ((b.make (.leave n)).ledger.record m) = b.ledger.record m from
      Ledger.leave_record_of_ne _ _ _ (by simpa using hmn)] at hq
    exact ⟨hm, hq⟩

namespace Throttle

/-- **Only a classification counts a record as waiting.** -/
theorem unqueues_move (w : Throttle) {op : ThrottleOp}
    (hop : ∀ rq t nowNs, op ≠ .classifyRequest rq t nowNs) : (w.move op).Unqueues := by
  have henter : ∀ {rq : RqAddr} {s : MetaStatus}, s.queued = false →
      (w.enterMove rq s).Unqueues := by
    intro rq s hs
    unfold enterMove
    split
    · trivial
    · exact hs
  cases op with
  | classifyRequest rq t nowNs => exact absurd rfl (hop rq t nowNs)
  | unqueueRequest rq =>
    simp only [move]
    split
    · exact fun s hs => Bool.noConfusion hs
    · trivial
  | accountDispatch rq selection nowNs =>
    simp only [move]
    split
    · intro s hs
      have hfalse : (s.dispatch (decide (selection = .backgroundDeadline)
          && !w.ctx.deadlineForcedActive)).queued = false := by
        unfold MetaStatus.dispatch MetaStatus.reserve
        split <;> split <;> rfl
      exact Bool.noConfusion (hs.symm.trans hfalse)
    · trivial
  | finishRequest rq =>
    simp only [move]
    split <;> trivial
  | recordIssue rq t nowNs =>
    simp only [move]
    split
    · intro s hs
      have hsame : (s.reserve.issue).queued = s.queued := by
        unfold MetaStatus.reserve
        split <;> rfl
      rwa [hsame] at hs
    · exact henter rfl
  | recordRequeue rq =>
    simp only [move]
    split
    · exact fun s hs => hs
    · trivial
  | recordComplete rq nrBytes nowNs =>
    simp only [move]
    split
    · split <;> trivial
    · trivial
  | _ => trivial

/-- The records that wait after a section waited before it, unless it classifies. -/
theorem queued_of_step {w : Throttle} (h : Accounted w) {op : ThrottleOp}
    (hop : ∀ rq t nowNs, op ≠ .classifyRequest rq t nowNs) {m : MetaId}
    (hlive : m ∈ (w.step op).1.ctx.activeMetas)
    (hq : ((w.step op).1.ctx.metaPool m).queued = true) :
    m ∈ w.ctx.activeMetas ∧ (w.ctx.metaPool m).queued = true := by
  have hbooks := (step_makes h op).books
  have hlive' : m ∈ (w.ctx.books.make (w.move op)).ledger.live := by
    rw [← hbooks]
    exact hlive
  have hq' : ((w.ctx.books.make (w.move op)).ledger.record m).queued = true := by
    rw [← hbooks]
    exact hq
  exact Books.queued_of_make (w.unqueues_move hop) hlive' hq'

/-- **A classification counts the record of the request as waiting**, and no other. -/
theorem queued_of_classify {w : Throttle} (h : Accounted w) {rq : RqAddr}
    (hsched : (w.rqs rq).useSched = true) (t : TaskCtx) (nowNs : ℕ) {m : MetaId}
    (hlive : m ∈ (w.step (.classifyRequest rq t nowNs)).1.ctx.activeMetas)
    (hq : ((w.step (.classifyRequest rq t nowNs)).1.ctx.metaPool m).queued = true) :
    m ∈ w.ctx.activeMetas ∧ (w.ctx.metaPool m).queued = true
      ∨ ((w.step (.classifyRequest rq t nowNs)).1.rqs rq).priv1 = some m := by
  have hbooks := (step_makes h (.classifyRequest rq t nowNs)).books
  have hlive' : m ∈ (w.step (.classifyRequest rq t nowNs)).1.ctx.books.ledger.live := hlive
  have hq' : ((w.step (.classifyRequest rq t nowNs)).1.ctx.books.ledger.record m).queued = true :=
    hq
  rw [hbooks] at hlive' hq'
  simp only [move, enterMove] at hlive' hq'
  cases hm : (w.rqs rq).priv1 with
  | some n =>
    rw [hm] at hlive' hq'
    by_cases hmn : m = n
    · right
      rw [hmn, ← hm]
      exact congrArg RqCard.priv1 (card_classifyRequest_some h hm t nowNs)
    · left
      refine ⟨hlive', ?_⟩
      have hsame := w.ctx.books.ledger.post_record_of_ne Counter.test
        (MetaStatus.enqueue (w.ctx.books.ledger.record n)) hmn
      exact (congrArg MetaStatus.queued hsame).symm.trans hq'
  | none =>
    rw [hm] at hlive' hq'
    cases hfree : w.ctx.freeMeta with
    | nil =>
      rw [hfree] at hlive' hq'
      exact Or.inl ⟨hlive', hq'⟩
    | cons n rest =>
      rw [hfree] at hlive' hq'
      by_cases hmn : m = n
      · right
        rw [hmn]
        exact congrArg RqCard.priv1 (card_classifyRequest_free h hsched hm hfree t nowNs)
      · left
        refine ⟨(List.mem_cons.mp hlive').resolve_left hmn, ?_⟩
        have hsame := w.ctx.books.ledger.enter_record_of_ne Counter.test rest
          (.classified rq (selectQueue w.ctx.metaPool w.globals t (w.rqs rq))) hmn
        exact (congrArg MetaStatus.queued hsame).symm.trans hq'

/-- **The records that wait are those of the requests of a set.** -/
structure Waiting (Q : RqAddr → Prop) (w : Throttle) : Prop where
  record : ∀ {x}, Q x → ∃ s, (w.card x).status = some s ∧ s.queued = true
  owner : ∀ {m}, m ∈ w.ctx.activeMetas → (w.ctx.metaPool m).queued = true →
    ∃ x, (w.rqs x).priv1 = some m ∧ Q x

/-- No record waits that did not wait before. -/
def NoneNew (w w' : Throttle) : Prop :=
  ∀ m, m ∈ w'.ctx.activeMetas → (w'.ctx.metaPool m).queued = true →
    m ∈ w.ctx.activeMetas ∧ (w.ctx.metaPool m).queued = true

/-- No classification, no record that waits anew. -/
theorem noneNew_of_path {w w' : Throttle} (h : Accounted w)
    (hpath : machine.Path (fun o => ∀ rq t nowNs, o ≠ .classifyRequest rq t nowNs) w w') :
    NoneNew w w' := by
  refine (hpath.invariant (I := fun u => Accounted u ∧ NoneNew w u) (fun u o ho hu => ?_)
    ⟨h, fun m hm hq => ⟨hm, hq⟩⟩).2
  refine ⟨hu.1.step o, fun m hm hq => ?_⟩
  obtain ⟨hm, hq⟩ := queued_of_step hu.1 ho hm hq
  exact hu.2 m hm hq

variable {Q : RqAddr → Prop} {w w' : Throttle}

theorem Waiting.congr (h : Waiting Q w) {Q' : RqAddr → Prop} (hQ : ∀ x, Q' x ↔ Q x) :
    Waiting Q' w := by
  rw [show Q' = Q from funext fun x => propext (hQ x)]
  exact h

/-- The requests stay. -/
theorem Waiting.stay (h : Waiting Q w) (hnew : NoneNew w w')
    (hcard : ∀ x, Q x → w'.card x = w.card x) : Waiting Q w' where
  record := by
    intro x hx
    rw [hcard x hx]
    exact h.record hx
  owner := by
    intro m hm hq
    obtain ⟨hm, hq⟩ := hnew m hm hq
    obtain ⟨x, hpriv, hx⟩ := h.owner hm hq
    exact ⟨x, (congrArg RqCard.priv1 (hcard x hx)).trans hpriv, hx⟩

/-- **A request leaves the set** as it leaves its queue. -/
theorem Waiting.leave (h : Waiting Q w) (hnew : NoneNew w w') {rq : RqAddr}
    (hcard : ∀ x, x ≠ rq → w'.card x = w.card x) (hleft : (w.card rq).Left (w'.card rq)) :
    Waiting (fun x => Q x ∧ x ≠ rq) w' where
  record := by
    intro x hx
    rw [hcard x hx.2]
    exact h.record hx.1
  owner := by
    intro m hm hq
    obtain ⟨hm', hq'⟩ := hnew m hm hq
    obtain ⟨x, hpriv, hx⟩ := h.owner hm' hq'
    by_cases hxr : x = rq
    · -- its record does not wait any more
      subst hxr
      have hpriv' : (w'.rqs x).priv1 = some m := hleft.priv1.trans hpriv
      have hstatus : (w'.card x).status = some (w'.ctx.metaPool m).status := by
        show (w'.rqs x).priv1.map _ = _
        rw [hpriv']
        rfl
      exact Bool.noConfusion (hq.symm.trans (hleft.queued _ hstatus))
    · exact ⟨x, (congrArg RqCard.priv1 (hcard x hxr)).trans hpriv, hx, hxr⟩

end Throttle

/-! ## What is told of a request -/

/-- What a step does to the lists. -/
inductive DeadlineEvent where
  | inserted (rq : RqAddr)
  | dispatched (rq : RqAddr)
  | merged (rq : RqAddr)
deriving DecidableEq, Repr

namespace DeadlineEvent

/-- The request an event is about. -/
def rq : DeadlineEvent → RqAddr
  | .inserted rq => rq
  | .dispatched rq => rq
  | .merged rq => rq

/-- Whether the request waits from then on. -/
def enters : DeadlineEvent → Bool
  | .inserted _ => true
  | _ => false

/-- Whether a request waits after an event; not defined once it is inserted while it
waits, or dispatched or merged away while it does not. -/
def follow (x : RqAddr) (waits : Option Bool) (e : DeadlineEvent) : Option Bool :=
  if e.rq = x then waits.bind fun b => if b = e.enters then none else some e.enters else waits

/-- **Whether a request waits after a run**: its last insertion is not matched by a
dispatch or a merge. Not defined if one insertion is matched twice. -/
def waitsAfter (x : RqAddr) (es : List DeadlineEvent) : Option Bool :=
  es.foldl (follow x) (some false)

theorem follow_of_ne {x : RqAddr} {e : DeadlineEvent} (he : e.rq ≠ x) (waits : Option Bool) :
    follow x waits e = waits := if_neg he

theorem follow_self {e : DeadlineEvent} {b : Bool} (hb : b ≠ e.enters) :
    follow e.rq (some b) e = some e.enters :=
  (if_pos rfl).trans (if_neg hb)

variable {P Q : RqAddr → Bool}

/-- An insertion adds a request that does not wait. -/
theorem follow_enter {rq : RqAddr} (hrq : P rq = false)
    (hQ : ∀ x, Q x = true ↔ P x = true ∨ x = rq) (x : RqAddr) :
    follow x (some (P x)) (.inserted rq) = some (Q x) := by
  by_cases hx : rq = x
  · subst hx
    rw [hrq, (hQ rq).mpr (Or.inr rfl)]
    exact follow_self (e := .inserted rq) Bool.false_ne_true
  · have hsame : Q x = P x := by
      rw [Bool.eq_iff_iff, hQ, or_iff_left (Ne.symm hx)]
    rw [hsame]
    exact follow_of_ne (e := .inserted rq) hx _

/-- A dispatch or a merge takes away one that does. -/
theorem follow_leave {e : DeadlineEvent} (he : e.enters = false) (hrq : P e.rq = true)
    (hQ : ∀ x, Q x = true ↔ P x = true ∧ x ≠ e.rq) (x : RqAddr) :
    follow x (some (P x)) e = some (Q x) := by
  by_cases hx : e.rq = x
  · subst hx
    have hgone : Q e.rq = false := by
      rw [← Bool.not_eq_true, hQ]
      exact fun hand => hand.2 rfl
    rw [hrq, hgone, ← he]
    refine follow_self ?_
    rw [he]
    exact Bool.true_eq_false.mp
  · have hsame : Q x = P x := by
      rw [Bool.eq_iff_iff, hQ, and_iff_left (Ne.symm hx)]
    rw [hsame]
    exact follow_of_ne hx _

end DeadlineEvent

namespace Deadline

variable {d d' : Deadline}

/-- **The events of a step.** An insertion that is merged puts the request on no list,
so it is told as one that is matched at once. -/
def events (d : Deadline) : DeadlineOp → List DeadlineEvent
  | .insertRequest rq _ mergeInto _ _ _ =>
    if !(d.rq rq).useSched || d.queued rq || !mergeInto.all d.sorted then []
    else match mergeInto with
      | none => [.inserted rq]
      | some _ => [.inserted rq, .merged rq]
  | .dispatchRequest slotFree nowNs =>
    (d.leaves (.dispatchRequest slotFree nowNs)).toList.map .dispatched
  | op => (d.leaves op).toList.map .merged

theorem queued_enqueue (d : Deadline) (k : QueueClass) (rq : RqAddr) (atHead : Bool)
    (jiffies : ℕ) (x : RqAddr) :
    (d.enqueue k rq atHead jiffies).queued x = true ↔ d.queued x = true ∨ x = rq := by
  have hself := d.listAt_enqueue_self k rq atHead jiffies
  rw [queued_iff_listAt, queued_iff_listAt]
  constructor
  · rintro ⟨p, hp⟩
    by_cases hpk : p = d.shelf k rq atHead
    · rw [hpk] at hp
      rcases List.mem_cons.mp (hself.mem_iff.mp hp) with hx | hx
      · exact Or.inr hx
      · exact Or.inl ⟨_, hx⟩
    · rw [d.listAt_enqueue_of_ne jiffies hpk] at hp
      exact Or.inl ⟨p, hp⟩
  · rintro (⟨p, hp⟩ | rfl)
    · by_cases hpk : p = d.shelf k rq atHead
      · rw [hpk] at hp
        exact ⟨_, hself.mem_iff.mpr (List.mem_cons_of_mem _ hp)⟩
      · refine ⟨p, ?_⟩
        rw [d.listAt_enqueue_of_ne jiffies hpk]
        exact hp
    · exact ⟨_, hself.mem_iff.mpr List.mem_cons_self⟩

/-! ## Every step is told -/

/-- An insertion that is accepted, in its two parts. -/
theorem step_insertRequest (h : Throttle.Accounted d.throttle) {rq : RqAddr} {atHead : Bool}
    {mergeInto : Option RqAddr} {t : TaskCtx} {nowNs jiffies : ℕ}
    (hin : ¬ (!(d.rq rq).useSched || d.queued rq || !mergeInto.all d.sorted) = true) :
    d.step (.insertRequest rq atHead mergeInto t nowNs jiffies)
      = mergeInto.elim ((d.classify rq t nowNs).enqueue (d.selectPrio rq t) rq atHead jiffies)
          fun req => (d.classify rq t nowNs).mergedRequests req rq t := by
  simp only [step]
  rw [if_neg hin]
  unfold insertRequest
  dsimp only
  rw [selectPrio_classified h (insert_accepted hin).1]
  cases mergeInto <;> rfl

/-- An insertion puts the request on a list, or is matched by its own merge. -/
theorem Filed.follow_insertRequest (h : Filed d) (rq : RqAddr) (atHead : Bool)
    (mergeInto : Option RqAddr) (t : TaskCtx) (nowNs jiffies : ℕ) (x : RqAddr) :
    (d.events (.insertRequest rq atHead mergeInto t nowNs jiffies)).foldl
        (DeadlineEvent.follow x) (some (d.queued x))
      = some ((d.step (.insertRequest rq atHead mergeInto t nowNs jiffies)).queued x) := by
  simp only [events]
  by_cases hin : (!(d.rq rq).useSched || d.queued rq || !mergeInto.all d.sorted) = true
  · simp only [Deadline.step]
    rw [if_pos hin, if_pos hin]
    rfl
  rw [if_neg hin, step_insertRequest h.accounted hin]
  obtain ⟨hsched, hrq, -⟩ := insert_accepted hin
  have hs := stays_classify h.accounted hrq hsched t nowNs
  cases mergeInto with
  | none =>
    refine DeadlineEvent.follow_enter hrq (fun y => ?_) x
    rw [← hs.queued]
    exact (d.classify rq t nowNs).queued_enqueue (d.selectPrio rq t) rq atHead jiffies y
  | some req =>
    have hfiled := h.stays hs (accounted_classify h.accounted hsched t nowNs)
    have hr : Removed _ rq ((d.classify rq t nowNs).mergedRequests req rq t) :=
      hfiled.removed_mergedRequests t (Or.inl ((hs.queued rq).trans hrq))
    have hfirst : DeadlineEvent.follow x (some (d.queued x)) (.inserted rq)
        = some (d.queued x || decide (x = rq)) :=
      DeadlineEvent.follow_enter (Q := fun y => d.queued y || decide (y = rq)) hrq
        (fun y => by simp) x
    have hsecond : DeadlineEvent.follow x (some (d.queued x || decide (x = rq))) (.merged rq)
        = some (((d.classify rq t nowNs).mergedRequests req rq t).queued x) := by
      refine DeadlineEvent.follow_leave (e := .merged rq)
        (P := fun y => d.queued y || decide (y = rq)) rfl ?_ (fun y => ?_) x
      · show (d.queued rq || decide (rq = rq)) = true
        rw [decide_eq_true rfl, Bool.or_true]
      · rw [hr.queued_iff hfiled.shelved, hs.queued, Bool.or_eq_true, decide_eq_true_iff]
        exact ⟨fun hy => ⟨Or.inl hy.1, hy.2⟩, fun hy => ⟨hy.1.resolve_right hy.2, hy.2⟩⟩
    rw [List.foldl_cons, hfirst]
    exact hsecond

/-- **What a step tells of a request is what becomes of it.** -/
theorem Filed.follow_step (h : Filed d) (op : DeadlineOp) (x : RqAddr) :
    (d.events op).foldl (DeadlineEvent.follow x) (some (d.queued x))
      = some ((d.step op).queued x) := by
  have hother : ∀ {f : RqAddr → DeadlineEvent}, (∀ rq, (f rq).rq = rq) →
      (∀ rq, (f rq).enters = false) →
      (∀ rq atHead mergeInto t nowNs jiffies,
        op ≠ .insertRequest rq atHead mergeInto t nowNs jiffies) →
      ((d.leaves op).toList.map f).foldl (DeadlineEvent.follow x) (some (d.queued x))
        = some ((d.step op).queued x) := by
    intro f hrqf hf hop
    rcases h.step_cases hop with ⟨hnone, hs⟩ | ⟨rq, hsome, hrq, hr⟩
    · rw [hnone, hs.queued]
      rfl
    · rw [hsome]
      rw [← hrqf rq] at hrq
      refine DeadlineEvent.follow_leave (hf rq) hrq (fun y => ?_) x
      rw [hrqf]
      exact hr.queued_iff h.shelved y
  have hmerged := hother (f := .merged) (fun _ => rfl) (fun _ => rfl)
  have hdispatched := hother (f := .dispatched) (fun _ => rfl) (fun _ => rfl)
  cases op with
  | insertRequest rq atHead mergeInto t nowNs jiffies =>
    exact h.follow_insertRequest rq atHead mergeInto t nowNs jiffies x
  | dispatchRequest slotFree nowNs =>
    exact hdispatched fun _ _ _ _ _ _ heq => DeadlineOp.noConfusion heq
  | prepareRequest rq r => exact hmerged fun _ _ _ _ _ _ heq => DeadlineOp.noConfusion heq
  | requestMerged req front t => exact hmerged fun _ _ _ _ _ _ heq => DeadlineOp.noConfusion heq
  | mergedRequests req next t => exact hmerged fun _ _ _ _ _ _ heq => DeadlineOp.noConfusion heq
  | finishRequest rq => exact hmerged fun _ _ _ _ _ _ heq => DeadlineOp.noConfusion heq
  | throttle op => exact hmerged fun _ _ _ _ _ _ heq => DeadlineOp.noConfusion heq

/-! ## The records of the queued requests -/

/-- **Requests are booked**: filed, with records of one class, and the records that
wait are those of the requests on the lists. -/
structure Booked (d : Deadline) : Prop where
  filed : Filed d
  classes : Throttle.ClassBooks d.throttle
  waiting : Throttle.Waiting (fun x => d.queued x = true) d.throttle

/-- **A run of requests that the scheduler serves**: an inserted request finds a
record, and no request is first seen at its issue, past the scheduler. -/
def Served (d : Deadline) : DeadlineOp → Prop
  | .insertRequest rq .. => (d.rq rq).useSched = true → d.queued rq = false → HasRecord d rq
  | .throttle op => ¬ Throttle.FirstSeenAtIssue d.throttle op
  | _ => True

theorem Served.findsRecord {op : DeadlineOp} (h : Served d op) : FindsRecord d op := by
  cases op with
  | insertRequest rq atHead mergeInto t nowNs jiffies =>
    cases mergeInto with
    | none => exact fun hsched hrq => Or.inl (h hsched hrq)
    | some req => trivial
  | _ => trivial

/-- **A served step keeps the records to one class.** -/
theorem classBooks_step (h : Throttle.ClassBooks d.throttle) {op : DeadlineOp}
    (hop : Served d op) : Throttle.ClassBooks (d.step op).throttle := by
  have hpath : (∀ o, op ≠ .throttle o) → Throttle.ClassBooks (d.step op).throttle := by
    intro hne
    refine (d.path_step_of (P := fun o => ∀ w, ¬ Throttle.FirstSeenAtIssue w o) op
      (fun _ _ _ _ _ _ _ _ _ hf => hf) (fun _ _ _ _ _ hf => hf) (fun o heq => absurd heq (hne o))
      fun o hcall => ?_).invariant (I := Throttle.ClassBooks)
      (fun w o ho hw => show Throttle.ClassBooks (Throttle.machine.next w o) from
        Throttle.classBooks_step hw (ho w)) h
    cases o with
    | recordIssue rq t nowNs => cases hcall
    | _ => exact fun _ hf => hf
  cases op with
  | throttle o =>
    simp only [step]
    split
    · exact h
    · exact Throttle.classBooks_step h hop
  | _ => exact hpath fun _ heq => DeadlineOp.noConfusion heq

/-- A step other than an insertion counts no record as waiting. -/
theorem noneNew_step (h : Throttle.Accounted d.throttle) {op : DeadlineOp}
    (hop : ∀ rq atHead mergeInto t nowNs jiffies,
      op ≠ .insertRequest rq atHead mergeInto t nowNs jiffies) :
    Throttle.NoneNew d.throttle (d.step op).throttle := by
  refine Throttle.noneNew_of_path h (d.path_step_of op ?_ ?_ ?_ ?_)
  · intro rq atHead mergeInto t nowNs jiffies heq
    exact absurd heq (hop _ _ _ _ _ _)
  · exact fun _ _ _ _ _ _ _ heq => ThrottleOp.noConfusion heq
  · rintro o - hsched rq t nowNs rfl
    cases hsched
  · rintro o hcall rq t nowNs rfl
    cases hcall

/-- **A classified request waits**, if it has or finds a record. -/
theorem Booked.waiting_classify (h : Booked d) {rq : RqAddr} (hrq : d.queued rq = false)
    (hsched : (d.rq rq).useSched = true) (t : TaskCtx) (nowNs : ℕ) (hrec : HasRecord d rq) :
    Throttle.Waiting (fun x => d.queued x = true ∨ x = rq) (d.classify rq t nowNs).throttle := by
  have hacc := h.filed.accounted
  have hself := card_classify_self hacc hsched t nowNs
  have hstays := stays_classify hacc hrq hsched t nowNs
  refine ⟨fun {x} hx => ?_, fun {m} hm hq => ?_⟩
  · rcases hx with hx | rfl
    · rw [hstays.card x hx]
      exact h.waiting.record hx
    · rw [hself]
      exact Throttle.status_classifyRequest hacc hsched t nowNs hrec
  · have hnew : Throttle.NoneNew (d.throttled (.classifyRequest rq t nowNs)).throttle
        (d.classify rq t nowNs).throttle :=
      Throttle.noneNew_of_path (hacc.step (.classifyRequest rq t nowNs))
        (path_classify .refl fun _ _ _ _ _ heq => ThrottleOp.noConfusion heq)
    obtain ⟨hm, hq⟩ := hnew m hm hq
    rcases Throttle.queued_of_classify hacc hsched t nowNs hm hq with ⟨hm, hq⟩ | hpriv
    · obtain ⟨x, hpriv, hx⟩ := h.waiting.owner hm hq
      exact ⟨x, (congrArg RqCard.priv1 (hstays.card x hx)).trans hpriv, Or.inl hx⟩
    · exact ⟨rq, (congrArg RqCard.priv1 hself).trans hpriv, Or.inr rfl⟩

/-- **An insertion counts the request it puts on a list**, and no other. -/
theorem Booked.waiting_insertRequest (h : Booked d) {rq : RqAddr} {atHead : Bool}
    {mergeInto : Option RqAddr} {t : TaskCtx} {nowNs jiffies : ℕ}
    (hin : ¬ (!(d.rq rq).useSched || d.queued rq || !mergeInto.all d.sorted) = true)
    (hrec : HasRecord d rq) :
    Throttle.Waiting
      (fun x => (d.step (.insertRequest rq atHead mergeInto t nowNs jiffies)).queued x = true)
      (d.step (.insertRequest rq atHead mergeInto t nowNs jiffies)).throttle := by
  obtain ⟨hsched, hrq, -⟩ := insert_accepted hin
  have hwait := h.waiting_classify hrq hsched t nowNs hrec
  have hacc := accounted_classify h.filed.accounted hsched t nowNs
  have hstays := stays_classify h.filed.accounted hrq hsched t nowNs
  rw [step_insertRequest h.filed.accounted hin]
  cases mergeInto with
  | none =>
    have hnew := Throttle.noneNew_of_path hacc (path_enqueue (d := d.classify rq t nowNs) .refl
      (fun _ _ _ _ _ heq => ThrottleOp.noConfusion heq) (d.selectPrio rq t) rq atHead jiffies)
    refine (hwait.stay hnew fun x _ => card_enqueue _ _ _ _ _ x).congr fun x => ?_
    rw [← hstays.queued]
    exact queued_enqueue _ _ _ _ _ x
  | some req =>
    have hfiled := h.filed.stays hstays hacc
    have hr : Removed _ rq ((d.classify rq t nowNs).mergedRequests req rq t) :=
      hfiled.removed_mergedRequests t (Or.inl ((hstays.queued rq).trans hrq))
    have hnew := Throttle.noneNew_of_path hacc (path_mergedRequests (d := d.classify rq t nowNs)
      .refl (fun _ _ _ _ heq => ThrottleOp.noConfusion heq)
      (fun _ _ _ _ heq => ThrottleOp.noConfusion heq)
      (fun _ _ _ _ _ heq => ThrottleOp.noConfusion heq) req rq t)
    refine (hwait.leave hnew hr.card hr.left).congr fun x => ?_
    refine (hr.queued_iff hfiled.shelved x).trans ?_
    rw [hstays.queued]
    exact ⟨fun hx => ⟨Or.inl hx.1, hx.2⟩, fun hx => ⟨hx.1.resolve_right hx.2, hx.2⟩⟩

/-- **A served step keeps requests booked.** -/
theorem Booked.step (h : Booked d) {op : DeadlineOp} (hop : Served d op) :
    Booked (d.step op) where
  filed := h.filed.step hop.findsRecord
  classes := classBooks_step h.classes hop
  waiting := by
    have hother : (∀ rq atHead mergeInto t nowNs jiffies,
        op ≠ .insertRequest rq atHead mergeInto t nowNs jiffies) →
        Throttle.Waiting (fun x => (d.step op).queued x = true) (d.step op).throttle := by
      intro hne
      have hnew := noneNew_step h.filed.accounted hne
      rcases h.filed.step_cases hne with ⟨-, hs⟩ | ⟨rq, -, -, hr⟩
      · refine (h.waiting.stay hnew hs.card).congr fun x => ?_
        rw [hs.queued]
      · exact (h.waiting.leave hnew hr.card hr.left).congr (hr.queued_iff h.filed.shelved)
    cases op with
    | insertRequest rq atHead mergeInto t nowNs jiffies =>
      by_cases hin : (!(d.rq rq).useSched || d.queued rq || !mergeInto.all d.sorted) = true
      · have hstep : d.step (.insertRequest rq atHead mergeInto t nowNs jiffies) = d := if_pos hin
        rw [hstep]
        exact h.waiting
      · obtain ⟨hsched, hrq, -⟩ := insert_accepted hin
        exact h.waiting_insertRequest hin (hop hsched hrq)
    | _ => exact hother fun _ _ _ _ _ _ heq => DeadlineOp.noConfusion heq

/-! ## The counters -/

/-- The requests on the lists of a priority. -/
def waitingIn (d : Deadline) (k : QueueClass) : List RqAddr :=
  (d.perPrio k).dispatch ++ (d.perPrio k).fifoList .read ++ (d.perPrio k).fifoList .write

theorem mem_waitingIn {k : QueueClass} {x : RqAddr} : x ∈ d.waitingIn k ↔ d.On k x := by
  unfold waitingIn On
  rw [List.mem_append, List.mem_append, DdPerPrio.holds_iff, or_assoc]

theorem Shelved.nodup_waitingIn (h : Shelved d) (k : QueueClass) : (d.waitingIn k).Nodup := by
  have hdisjoint : ∀ {s t : Option DataDir}, s ≠ t →
      List.Disjoint (d.listAt (k, s)) (d.listAt (k, t)) := by
    intro s t hst x hs ht
    exact hst (Prod.mk.inj (h.lists.once hs ht)).2
  refine List.Nodup.append (List.Nodup.append (h.lists.nodup (k, none))
    (h.lists.nodup (k, some .read)) ?_) (h.lists.nodup (k, some .write)) ?_
  · exact hdisjoint (s := none) (t := some .read) (Option.some_ne_none _).symm
  · exact List.disjoint_append_left.mpr
      ⟨hdisjoint (s := none) (t := some .write) (Option.some_ne_none _).symm,
        hdisjoint (s := some .read) (t := some .write)
          (fun heq => DataDir.noConfusion (Option.some.inj heq))⟩

/-- **A count of waiting records is a count of requests**: those on the lists of the
priorities that the records name. -/
theorem Booked.countAt_eq_length (h : Booked d) {K : QueueClass → Prop} {p : MetaStatus → Bool}
    (hp : ∀ s : MetaStatus, s.Agrees → (p s = true ↔ s.queued = true ∧ K s.queueClass))
    {l : List RqAddr} (hl : l.Nodup) (hmem : ∀ x, x ∈ l ↔ ∃ k, K k ∧ d.On k x) :
    countAt d.throttle.ctx.activeMetas (fun m => (d.throttle.ctx.metaPool m).status) p
      = l.length := by
  have hclass : ∀ {k x m}, d.On k x → (d.rq x).priv1 = some m →
      (d.throttle.ctx.metaPool m).queueClass = k := by
    intro k x m hx hm
    have hstatus : (d.throttle.card x).status = some (d.throttle.ctx.metaPool m).status := by
      show (d.rq x).priv1.map _ = _
      rw [hm]
      rfl
    rw [← h.filed.settled hx d.throttle.globals ⟨0, 0, []⟩]
    exact (RqCard.settled_of_status hstatus d.throttle.globals ⟨0, 0, []⟩).symm
  have hrecord : ∀ {k x}, d.On k x → ∃ m, (d.rq x).priv1 = some m
      ∧ (d.throttle.ctx.metaPool m).queued = true := by
    intro k x hx
    obtain ⟨s, hs, hq⟩ := h.waiting.record (queued_iff.mpr ⟨k, hx⟩)
    obtain ⟨m, hm, rfl⟩ := Option.map_eq_some_iff.mp hs
    exact ⟨m, hm, hq⟩
  -- the records that are counted, and the requests that carry them
  have hperm : (l.map fun x => (d.rq x).priv1).Perm
      ((d.throttle.ctx.activeMetas.filter
        fun m => p (d.throttle.ctx.metaPool m).status).map some) := by
    refine (List.perm_ext_iff_of_nodup (hl.map_on fun x hx y hy heq => ?_)
      ((h.filed.accounted.books.balanced.nodup_live.filter _).map
        fun _ _ heq => Option.some.inj heq)).mpr fun a => ?_
    · obtain ⟨k, -, hk⟩ := (hmem x).mp hx
      obtain ⟨m, hm, -⟩ := hrecord hk
      have hxm := (h.filed.accounted.priv x m hm).2.1
      have hym := (h.filed.accounted.priv y m (heq.symm.trans hm)).2.1
      exact Option.some.inj (hxm.symm.trans hym)
    · rw [List.mem_map, List.mem_map]
      constructor
      · rintro ⟨x, hx, rfl⟩
        obtain ⟨k, hK, hk⟩ := (hmem x).mp hx
        obtain ⟨m, hm, hq⟩ := hrecord hk
        have hlive := (h.filed.accounted.priv x m hm).1
        refine ⟨m, List.mem_filter.mpr ⟨hlive, ?_⟩, hm.symm⟩
        refine (hp _ (h.classes.agrees m hlive)).mpr ⟨hq, ?_⟩
        rw [← hclass hk hm] at hK
        exact hK
      · rintro ⟨m, hm, rfl⟩
        obtain ⟨hlive, hpm⟩ := List.mem_filter.mp hm
        obtain ⟨hq, hK⟩ := (hp _ (h.classes.agrees m hlive)).mp hpm
        obtain ⟨x, hpriv, hx⟩ := h.waiting.owner hlive hq
        obtain ⟨k, hk⟩ := queued_iff.mp hx
        refine ⟨x, (hmem x).mpr ⟨k, ?_, hk⟩, hpriv⟩
        rw [← hclass hk hpriv]
        exact hK
  unfold countAt
  rw [List.countP_eq_length_filter]
  simpa using hperm.length_eq.symm

/-- **The counter of the foreground** counts the requests on the HP lists. -/
theorem Booked.pendingFg (h : Booked d) :
    d.throttle.ctx.pendingFg = (d.waitingIn .hp).length := by
  refine (h.filed.accounted.books.balanced.balance .pendingFg).trans
    (h.countAt_eq_length (K := fun k => k = .hp) (fun s hs => ?_)
      (h.filed.shelved.nodup_waitingIn .hp) fun x => ?_)
  · show (s.queued && decide (s.rqClass = .foreground)) = true ↔ _
    rw [Bool.and_eq_true, decide_eq_true_iff, hs]
    refine and_congr_right fun _ => ?_
    cases s.queueClass <;> decide
  · rw [mem_waitingIn, exists_eq_left]

/-- **The counter of the background** counts the requests on the RT and BE lists. -/
theorem Booked.pendingBg (h : Booked d) :
    d.throttle.ctx.pendingBg = (d.waitingIn .rt).length + (d.waitingIn .be).length := by
  have hdisjoint : List.Disjoint (d.waitingIn .rt) (d.waitingIn .be) := fun x hrt hbe =>
    QueueClass.noConfusion (h.filed.shelved.once (mem_waitingIn.mp hrt) (mem_waitingIn.mp hbe))
  rw [← List.length_append]
  refine (h.filed.accounted.books.balanced.balance .pendingBg).trans
    (h.countAt_eq_length (K := fun k => k ≠ .hp) (fun s hs => ?_)
      (List.Nodup.append (h.filed.shelved.nodup_waitingIn .rt)
        (h.filed.shelved.nodup_waitingIn .be) hdisjoint) fun x => ?_)
  · show (s.queued && decide (s.rqClass = .background)) = true ↔ _
    rw [Bool.and_eq_true, decide_eq_true_iff, hs]
    refine and_congr_right fun _ => ?_
    cases s.queueClass <;> decide
  · rw [List.mem_append, mem_waitingIn, mem_waitingIn]
    constructor
    · rintro (hx | hx)
      · exact ⟨.rt, by decide, hx⟩
      · exact ⟨.be, by decide, hx⟩
    · rintro ⟨_ | _ | _, hk, hx⟩
      · exact absurd rfl hk
      · exact Or.inl hx
      · exact Or.inr hx

/-! ## Runs -/

/-- **The lists are balanced** with what was told of a run. -/
structure Balanced (h : List DeadlineEvent) (d : Deadline) : Prop where
  /-- No insertion is matched twice, and no request is inserted while it waits. -/
  matched : ∀ x, DeadlineEvent.waitsAfter x h ≠ none
  /-- A request that waits is on exactly one list of one priority, and there once. -/
  waits : ∀ x, DeadlineEvent.waitsAfter x h = some true →
    (∃! k, d.On k x) ∧ ∃! p, x ∈ d.listAt p
  gone : ∀ x, DeadlineEvent.waitsAfter x h = some false → ∀ p, x ∉ d.listAt p
  nodup : ∀ p, (d.listAt p).Nodup
  /-- The tree of a direction holds the requests of its FIFO list. -/
  tree : ∀ k e, ((d.perPrio k).sortList e).Perm ((d.perPrio k).fifoList e)
  pendingFg : d.throttle.ctx.pendingFg = (d.waitingIn .hp).length
  pendingBg : d.throttle.ctx.pendingBg = (d.waitingIn .rt).length + (d.waitingIn .be).length

/-- Booked requests of which everything was told are balanced. -/
theorem Booked.balanced (h : Booked d) {es : List DeadlineEvent}
    (htold : ∀ x, DeadlineEvent.waitsAfter x es = some (d.queued x)) : Balanced es d where
  matched := fun x => by
    rw [htold]
    exact Option.some_ne_none _
  waits := by
    intro x hx
    rw [htold] at hx
    have hqueued : d.queued x = true := Option.some.inj hx
    obtain ⟨k, hk⟩ := queued_iff.mp hqueued
    obtain ⟨p, hp⟩ := queued_iff_listAt.mp hqueued
    exact ⟨⟨k, hk, fun j hj => h.filed.shelved.once hj hk⟩,
      h.filed.shelved.lists.existsUnique hp⟩
  gone := by
    intro x hx p hp
    rw [htold] at hx
    exact Bool.noConfusion ((queued_iff_listAt.mpr ⟨p, hp⟩).symm.trans (Option.some.inj hx))
  nodup := h.filed.shelved.lists.nodup
  tree := h.filed.shelved.tree
  pendingFg := h.pendingFg
  pendingBg := h.pendingBg

/-- A scheduler is attached with empty lists. -/
theorem booked_attach {w : Throttle} (h : Throttle.Attached w) : Booked (attach w) where
  filed := filed_attach h
  classes := Throttle.classBooks_of_attached h
  waiting :=
    { record := fun hx => Bool.noConfusion hx
      owner := fun hm => absurd hm (Throttle.notMem_of_attached h _) }

/-- **In every run of requests that the scheduler serves, none is lost and none is
duplicated**, and the throttle counts them right. -/
theorem balanced_of_served {w : Throttle} (h : Throttle.Attached w) {ops : List DeadlineOp}
    (hserved : machine.StepsMeet Served (attach w) ops) :
    Balanced (machine.chronicle events (attach w) ops) (machine.run (attach w) ops) := by
  have hrun := StepMachine.chronicle_of_stepsMeet (M := machine) (f := events) (C := Served)
    (I := fun es d => Booked d ∧ ∀ x, DeadlineEvent.waitsAfter x es = some (d.queued x))
    (fun es d op hop hd => ⟨hd.1.step hop, fun x => ?_⟩) ⟨booked_attach h, fun x => rfl⟩ hserved
  · exact hrun.1.balanced hrun.2
  · rw [DeadlineEvent.waitsAfter, List.foldl_append]
    show List.foldl _ (DeadlineEvent.waitsAfter x es) _ = _
    rw [hd.2 x]
    exact hd.1.filed.follow_step op x

/-- One request is merged into another one, which is dispatched, bounced by the driver
and inserted again at the head. -/
theorem balanced_of_served_requeued :
    Balanced
      (machine.chronicle events (attach (Throttle.attach 2 []))
        [.prepareRequest 7 { Request.zero with useSched := true },
          .insertRequest 7 false none someTask 1 1,
          .prepareRequest 8 { Request.zero with useSched := true },
          .insertRequest 8 false (some 7) someTask 2 1, .dispatchRequest true 3,
          .throttle (.recordIssue 7 someTask 4), .throttle (.recordRequeue 7),
          .insertRequest 7 true none someTask 5 2])
      (machine.run (attach (Throttle.attach 2 []))
        [.prepareRequest 7 { Request.zero with useSched := true },
          .insertRequest 7 false none someTask 1 1,
          .prepareRequest 8 { Request.zero with useSched := true },
          .insertRequest 8 false (some 7) someTask 2 1, .dispatchRequest true 3,
          .throttle (.recordIssue 7 someTask 4), .throttle (.recordRequeue 7),
          .insertRequest 7 true none someTask 5 2]) :=
  balanced_of_served (Throttle.attached_attach Nat.one_ne_zero Nat.one_ne_zero (by decide) [])
    ⟨trivial, fun _ _ => Or.inr (by decide +kernel), trivial,
      fun _ _ => Or.inr (by decide +kernel), trivial,
      fun hfirst => absurd hfirst.1 (by decide +kernel), not_false,
      fun _ _ => Or.inl (by decide +kernel), trivial⟩

end Deadline
