import SmartIo.RingBuffer
import SmartIo.ThrottleCards
import SmartIo.ThrottleControl
import SmartIo.ThrottleIssues

/-!
# The latency window

The throttle keeps the last five latencies in a ring, `dev_lat`, and engages when all
of them are slow and close together. What the ring is meant to hold is said by a
record that is not in the code: the chronicle of a run, which notes every issue, every
sample, and every time the window is emptied (`Throttle.issueEvents`). The ring holds the last
samples since it was emptied last, whatever else the sections do (`Tracked`).

A sample is taken from a record that was issued, in the session that is current,
and was not sampled since; the issue is the last thing that happened to the record
(`Sourced`), so no issue is counted twice. And the throttle is engaged by one section
only, that of a completion whose sample makes the window slow: the other way to a new
inference, the last vote of a control, needs a throttle that is engaged already.
-/

open ThrottleCtx

/-! ## The chronicle -/

/-- What happens to the requests in the device and to the window. -/
inductive IssueEvent where
  /-- The device time of a request starts, in a session. -/
  | issued (rq : Option RqAddr) (m : MetaId) (sessionId : ℕ)
  /-- The sample of a request enters the window, in a session. -/
  | sampled (rq : Option RqAddr) (m : MetaId) (sessionId : ℕ) (x : CompletionSample)
  /-- The window is emptied. -/
  | emptied
deriving DecidableEq

namespace IssueEvent

/-- The record an event is about. -/
def record : IssueEvent → Option MetaId
  | .issued _ m _ | .sampled _ m _ _ => some m
  | .emptied => none

/-- The last event about a record. -/
def lastOf (m : MetaId) (log : List IssueEvent) : Option IssueEvent :=
  (log.filter fun e => e.record = some m).getLast?

/-- The samples that are in a window after one more event. -/
def addTo (l : List CompletionSample) : IssueEvent → List CompletionSample
  | .issued .. => l
  | .sampled _ _ _ x => l ++ [x]
  | .emptied => []

/-- **The samples since the window was emptied last.** -/
def samples (log : List IssueEvent) : List CompletionSample := log.foldl addTo []

/-- **Every sample has an issue of its own**: the last event about its record is an
issue, of the same request and in the same session. -/
def Sourced (log : List IssueEvent) : Prop :=
  ∀ pre post rq m sessionId x, log = pre ++ .sampled rq m sessionId x :: post →
    lastOf m pre = some (.issued rq m sessionId)

theorem samples_append (log es : List IssueEvent) :
    samples (log ++ es) = es.foldl addTo (samples log) := List.foldl_append

theorem lastOf_concat_self {e : IssueEvent} {m : MetaId} (h : e.record = some m)
    (log : List IssueEvent) : lastOf m (log ++ [e]) = some e := by
  unfold lastOf
  rw [List.filter_append, List.filter_cons_of_pos (by rw [h]; exact decide_eq_true rfl),
    List.filter_nil, List.getLast?_append, List.getLast?_singleton]
  rfl

theorem lastOf_concat_of_ne {e : IssueEvent} {m : MetaId} (h : e.record ≠ some m)
    (log : List IssueEvent) : lastOf m (log ++ [e]) = lastOf m log := by
  unfold lastOf
  rw [List.filter_append, List.filter_cons_of_neg (by rw [decide_eq_true_eq]; exact h),
    List.filter_nil, List.append_nil]

theorem sourced_nil : Sourced [] := by
  intro pre post rq m sessionId x h
  exact absurd h.symm (List.append_ne_nil_of_right_ne_nil pre (List.cons_ne_nil _ _))

/-- One more event needs an issue only if it is a sample. -/
theorem Sourced.concat {log : List IssueEvent} (h : Sourced log) {e : IssueEvent}
    (he : ∀ rq m sessionId x, e = .sampled rq m sessionId x →
      lastOf m log = some (.issued rq m sessionId)) : Sourced (log ++ [e]) := by
  intro pre post rq m sessionId x heq
  rcases List.eq_nil_or_concat post with rfl | ⟨post, e', rfl⟩
  · obtain ⟨hlog, hlast⟩ := List.append_inj' heq rfl
    rw [← hlog]
    exact he rq m sessionId x (List.cons.inj hlast).1
  · rw [List.concat_eq_append, ← List.cons_append, ← List.append_assoc] at heq
    exact h pre post rq m sessionId x (List.append_inj' heq rfl).1

end IssueEvent

namespace IssueView

/-- The event of a move. -/
def event (V : IssueView) : IssueMove → List IssueEvent
  | .issue m _ enabled _ =>
    if (V.card m).issueTsNs = 0 then
      [.issued (V.card m).rq m (if enabled then V.sessionId else 0)]
    else []
  | .sample m x => [.sampled (V.card m).rq m V.sessionId x]
  | .reset => [.emptied]
  | _ => []

/-- The events of several moves. -/
def events : IssueView → List IssueMove → List IssueEvent
  | _, [] => []
  | V, mv :: mvs => V.event mv ++ (V.make mv).events mvs

end IssueView

/-- The events of a section. -/
def Throttle.issueEvents (w : Throttle) (op : ThrottleOp) : List IssueEvent :=
  w.ctx.issues.events (w.issueMoves op)

/-! ## The ring -/

namespace DevLatWindow

/-- The window as a ring buffer. -/
def ring (win : DevLatWindow) : RingBuffer CompletionSample 4 where
  slot := win.devLat
  head := win.devLatHead
  count := win.devLatCount

/-- **The window holds the last samples of a list.** -/
def Holds (win : DevLatWindow) (l : List CompletionSample) : Prop := win.ring.Holds l

/-- The samples in the window, oldest first. -/
def contents (win : DevLatWindow) : List CompletionSample := win.ring.contents

variable {win : DevLatWindow} {l : List CompletionSample}

theorem holds_zero : DevLatWindow.zero.Holds [] := .nil rfl rfl

theorem Holds.push (h : win.Holds l) (x : CompletionSample) : (win.push x).Holds (l ++ [x]) :=
  RingBuffer.Holds.push h x

/-- A full window, from the head on. -/
theorem contents_of_full (h : win.devLatCount = 5) :
    win.contents = [win.devLat win.devLatHead, win.devLat (win.devLatHead + 1),
      win.devLat (win.devLatHead + 2), win.devLat (win.devLatHead + 3),
      win.devLat (win.devLatHead + 4)] := by
  refine (RingBuffer.contents_of_full (r := win.ring) h).trans ?_
  simp [RingBuffer.walk, ring, List.ofFn_succ]

/-- The slots, in their own order, are the same samples. -/
theorem slots_perm (h : win.devLatCount = 5) :
    ([0, 1, 2, 3, 4].map win.devLat).Perm win.contents := by
  have hslots : [0, 1, 2, 3, 4].map win.devLat = List.ofFn win.devLat := by
    simp [List.ofFn_succ]
  rw [hslots, contents, RingBuffer.contents_of_full (r := win.ring) h]
  exact win.ring.walk_perm.symm

end DevLatWindow

/-! ## Tracking the window and the issues -/

namespace IssueCard

/-- What the sample of a record depends on. -/
def stamp (k : IssueCard) : Option RqAddr × ℕ × ℕ × Bool :=
  (k.rq, k.issueTsNs, k.issueSessionId, k.completionSampled)

end IssueCard

namespace IssueView

variable {V : IssueView} {log : List IssueEvent} {m : MetaId}

/-- An issue that was not sampled yet is the last event about its record. -/
def Open (log : List IssueEvent) (m : MetaId) (k : IssueCard) : Prop :=
  k.issueTsNs ≠ 0 → k.completionSampled = false →
    IssueEvent.lastOf m log = some (.issued k.rq m k.issueSessionId)

/-- **A chronicle tracks the window and the issues.** -/
structure Tracked (log : List IssueEvent) (V : IssueView) : Prop where
  window : V.window.Holds (IssueEvent.samples log)
  opened : ∀ m, Open log m (V.card m)
  sourced : IssueEvent.Sourced log

/-- What a move must find to be tracked. -/
def Samples (V : IssueView) : IssueMove → Prop
  | .enter _ k => k.issueTsNs = 0
  | .sample m _ => (V.card m).issueTsNs ≠ 0 ∧ (V.card m).completionSampled = false
    ∧ (V.card m).issueSessionId = V.sessionId
  | _ => True

/-- Only the stamps of the cards matter, for a record that no event is about. -/
theorem Open.of_stamp {k l : IssueCard} (h : Open log m k) (hstamp : l.stamp = k.stamp) :
    Open log m l := by
  obtain ⟨hrq, hts, hsession, hsampled⟩ :
      l.rq = k.rq ∧ l.issueTsNs = k.issueTsNs ∧ l.issueSessionId = k.issueSessionId
        ∧ l.completionSampled = k.completionSampled := by
    simpa [IssueCard.stamp] using hstamp
  unfold Open
  rw [hrq, hts, hsession, hsampled]
  exact h

/-- A view with the same stamps and the same window is tracked. -/
theorem Tracked.of_stamps (h : Tracked log V) {U : IssueView} (hwindow : U.window = V.window)
    (hstamp : ∀ n, (U.card n).stamp = (V.card n).stamp) : Tracked log U where
  window := hwindow ▸ h.window
  opened n := (h.opened n).of_stamp (hstamp n)
  sourced := h.sourced

/-- A card whose issue is over, or was not sampled and is not an issue. -/
theorem Tracked.setCard (h : Tracked log V) {k : IssueCard} (hk : Open log m k) :
    Tracked log (V.setCard m k) where
  window := h.window
  opened n := by
    by_cases hn : n = m
    · rw [hn, setCard_card]
      exact hk
    · rw [setCard_card_of_ne V hn]
      exact h.opened n
  sourced := h.sourced

theorem stamp_unlink (V : IssueView) (m n : MetaId) :
    ((V.unlink m).card n).stamp = (V.card n).stamp := by
  rw [V.unlink_card]
  by_cases hn : n = m
  · rw [hn, Function.update_self]
    rfl
  · rw [Function.update_of_ne hn]

theorem stamp_link (V : IssueView) (m n : MetaId) (r : Request) :
    ((V.link m r).card n).stamp = (V.card n).stamp := by
  unfold link
  split
  · rfl
  · by_cases hn : n = m
    · rw [hn, setCard_card]
      rfl
    · rw [setCard_card_of_ne _ hn]

theorem window_unlink (V : IssueView) (m : MetaId) : (V.unlink m).window = V.window := by
  unfold unlink
  split <;> rfl

theorem window_link (V : IssueView) (m : MetaId) (r : Request) :
    (V.link m r).window = V.window := by
  unfold link
  split <;> rfl

theorem sessionId_link (V : IssueView) (m : MetaId) (r : Request) :
    (V.link m r).sessionId = V.sessionId := by
  unfold link
  split <;> rfl

/-- **The events of an issue**: its time starts, unless it runs already. -/
theorem Tracked.issue (h : Tracked log V) (m : MetaId) (r : Request) (enabled : Bool) (nowNs : ℕ) :
    Tracked (log ++ V.event (.issue m r enabled nowNs)) (V.make (.issue m r enabled nowNs)) := by
  set U := (V.setCard m { V.card m with issuedAccounted := true, op := r.op }).link m r with hU
  have hstamp : ∀ n, (U.card n).stamp = (V.card n).stamp := by
    intro n
    rw [hU, stamp_link]
    by_cases hn : n = m
    · rw [hn, setCard_card]
      rfl
    · rw [setCard_card_of_ne V hn]
  have hts : (U.card m).issueTsNs = (V.card m).issueTsNs :=
    congrArg (fun s => s.2.1) (hstamp m)
  have hrq : (U.card m).rq = (V.card m).rq := congrArg Prod.fst (hstamp m)
  have htracked : Tracked log U := h.of_stamps (window_link _ m r) hstamp
  have hsession : U.sessionId = V.sessionId := sessionId_link _ m r
  show Tracked (log ++ V.event (.issue m r enabled nowNs)) (U.stamp m enabled nowNs)
  unfold event IssueView.stamp
  dsimp only
  rw [hts]
  by_cases hissued : (V.card m).issueTsNs = 0
  · rw [if_pos hissued, if_neg (not_not.mpr hissued), hsession]
    set e : IssueEvent := .issued (V.card m).rq m (if enabled then V.sessionId else 0) with he
    refine ⟨?_, fun n => ?_, h.sourced.concat ?_⟩
    · rw [IssueEvent.samples_append]
      exact htracked.window
    · by_cases hn : n = m
      · subst hn
        rw [setCard_card]
        intro _ _
        rw [IssueEvent.lastOf_concat_self rfl, he, hrq]
      · rw [setCard_card_of_ne U hn]
        intro hne hsampled
        have hother : e.record ≠ some n := fun heq => hn (Option.some.inj heq).symm
        rw [IssueEvent.lastOf_concat_of_ne hother]
        exact htracked.opened n hne hsampled
    · intro rq n sessionId x heq
      exact absurd heq (by simp [he])
  · rw [if_neg hissued, if_pos hissued, List.append_nil]
    exact htracked

/-- **One move** is tracked. -/
theorem Tracked.make (h : Tracked log V) {mv : IssueMove} (hmv : V.Samples mv) :
    Tracked (log ++ V.event mv) (V.make mv) := by
  have hquiet : V.event mv = [] → Tracked log (V.make mv) →
      Tracked (log ++ V.event mv) (V.make mv) := by
    intro hev htracked
    rwa [hev, List.append_nil]
  cases mv with
  | enter m k =>
    refine hquiet rfl (Tracked.setCard (V := { V with live := m :: V.live })
      ⟨h.window, h.opened, h.sourced⟩ fun hts => absurd hmv hts)
  | restate m r => exact hquiet rfl (h.setCard ((h.opened m).of_stamp rfl))
  | issue m r enabled nowNs => exact h.issue m r enabled nowNs
  | release m =>
    have hunlinked : Tracked log (V.unlink m) :=
      h.of_stamps (V.window_unlink m) (V.stamp_unlink m)
    exact hquiet rfl (hunlinked.setCard ((hunlinked.opened m).of_stamp rfl))
  | unstamp m => exact hquiet rfl (h.setCard fun hts => absurd rfl hts)
  | mark m =>
    exact hquiet rfl (h.setCard fun _ hsampled => absurd hsampled.symm Bool.false_ne_true)
  | sample m x =>
    obtain ⟨hts, hsampled, hsession⟩ := hmv
    have hopen := h.opened m hts hsampled
    rw [hsession] at hopen
    refine ⟨?_, fun n => ?_, h.sourced.concat ?_⟩
    · rw [IssueEvent.samples_append]
      exact h.window.push x
    · by_cases hn : n = m
      · rw [hn]
        show Open _ m ((IssueView.setCard _ m _).card m)
        rw [setCard_card]
        exact fun _ hsampled => absurd hsampled.symm Bool.false_ne_true
      · show Open _ n ((IssueView.setCard _ m _).card n)
        rw [setCard_card_of_ne _ hn]
        intro hne hnew
        have hother : (IssueEvent.sampled (V.card m).rq m V.sessionId x).record ≠ some n :=
          fun heq => hn (Option.some.inj heq).symm
        rw [show V.event (.sample m x) = [.sampled (V.card m).rq m V.sessionId x] from rfl,
          IssueEvent.lastOf_concat_of_ne hother]
        exact h.opened n hne hnew
    · intro rq n sessionId y heq
      cases heq
      exact hopen
  | reset =>
    refine ⟨?_, fun n hne hnew => ?_, h.sourced.concat ?_⟩
    · rw [IssueEvent.samples_append]
      exact DevLatWindow.holds_zero
    · have hother : IssueEvent.emptied.record ≠ some n := (Option.some_ne_none n).symm
      rw [show V.event .reset = [.emptied] from rfl, IssueEvent.lastOf_concat_of_ne hother]
      exact h.opened n hne hnew
    · intro rq n sessionId y heq
      cases heq
  | newSession => exact hquiet rfl ⟨h.window, h.opened, h.sourced⟩
  | leave m =>
    have hunlinked : Tracked log (V.unlink m) :=
      h.of_stamps (V.window_unlink m) (V.stamp_unlink m)
    exact hquiet rfl (Tracked.setCard
      (V := { V.unlink m with live := V.live.filter (fun n => n ≠ m) })
      ⟨hunlinked.window, hunlinked.opened, hunlinked.sourced⟩ fun hts => absurd rfl hts)

/-- Every move of a list finds what it must. -/
def SamplesAll : IssueView → List IssueMove → Prop
  | _, [] => True
  | V, mv :: mvs => V.Samples mv ∧ SamplesAll (V.make mv) mvs

/-- **All moves of a section** are tracked. -/
theorem Tracked.makeMoves (h : Tracked log V) {mvs : List IssueMove} (hmvs : V.SamplesAll mvs) :
    Tracked (log ++ V.events mvs) (Throttle.makeMoves V mvs) := by
  induction mvs generalizing V log with
  | nil => rwa [events, List.append_nil]
  | cons mv mvs ih =>
    rw [events, ← List.append_assoc]
    exact ih (h.make hmvs.1) hmvs.2

end IssueView

/-! ## Sections are tracked -/

namespace Throttle

theorem samplesAll_of_plain {mvs : List IssueMove} (hmvs : ∀ mv ∈ mvs, mv.Plain)
    (V : IssueView) : V.SamplesAll mvs := by
  induction mvs generalizing V with
  | nil => trivial
  | cons mv mvs ih =>
    obtain ⟨hmv, hrest⟩ := List.forall_mem_cons.mp hmvs
    refine ⟨?_, ih hrest _⟩
    cases mv with
    | enter m k => exact absurd hmv id
    | sample m x => exact absurd hmv id
    | _ => trivial

/-- **A section finds what its moves must find.** -/
theorem samples_issueMoves (w : Throttle) (op : ThrottleOp) :
    w.ctx.issues.SamplesAll (w.issueMoves op) := by
  have hkind := w.sectionMoves op
  generalize w.issueMoves op = mvs at hkind
  cases hkind with
  | plain hmvs => exact samplesAll_of_plain hmvs _
  | enter hfree => exact ⟨rfl, trivial⟩
  | restate hissued => exact ⟨trivial, trivial⟩
  | issue hfind => exact ⟨trivial, trivial⟩
  | enterIssue hfree => exact ⟨rfl, trivial, trivial⟩
  | sample hissued hsampled hsession hmvs =>
    exact ⟨⟨hissued, hsampled, hsession⟩, samplesAll_of_plain hmvs _⟩

/-- **A run is tracked by its chronicle.** -/
theorem tracked_run {w : Throttle} (h : Attached w) (ops : List ThrottleOp) :
    (machine.run w ops).ctx.issues.Tracked (machine.chronicle issueEvents w ops) := by
  refine (StepMachine.chronicle_invariant (M := machine) (f := issueEvents)
    (I := fun log w => Accounted w ∧ w.ctx.issues.Tracked log) ?_
    ⟨accounted_of_attached h, ?_⟩ ops).2
  · rintro log w op ⟨hacc, htracked⟩
    refine ⟨hacc.step op, ?_⟩
    rw [machine_next, issues_step hacc op]
    exact htracked.makeMoves (w.samples_issueMoves op)
  · obtain ⟨q, n, -, hctx⟩ := h.ctx
    rw [hctx]
    exact ⟨DevLatWindow.holds_zero, fun m hts => absurd rfl hts, IssueEvent.sourced_nil⟩

end Throttle

/-! ## The snapshot of the window -/

/-- Five samples close together: the oldest has a time, and the newest is not before it
and at most 10 ms after it. -/
structure Close (oldest newest : CompletionSample) : Prop where
  stamped : oldest.completeTsNs ≠ 0
  ordered : oldest.completeTsNs ≤ newest.completeTsNs
  within : newest.completeTsNs - oldest.completeTsNs ≤ 10 * 1000 * 1000

/-- What a snapshot reports of five samples, oldest first: the span, the slow ones, those
of the foreground, and the mean. -/
def windowReport (s : StateSnapshot) (thresholdUs : ℕ) (a b c d e : CompletionSample) :
    StateSnapshot :=
  { s with
    windowCompleteCount := 5
    windowSpanUs := (e.completeTsNs - a.completeTsNs) / 1000
    windowSlowCount :=
      s.windowSlowCount + [a, b, c, d, e].countP fun x => thresholdUs ≤ x.devLatUs
    windowFgCompleteCount := s.windowFgCompleteCount + [a, b, c, d, e].countP (·.isFg)
    windowMeanDevUs := (a.devLatUs + b.devLatUs + c.devLatUs + d.devLatUs + e.devLatUs) / 5 }

namespace ThrottleCtx

variable {c : ThrottleCtx} {l : List CompletionSample}

/-- **The snapshot of the window** succeeds for five close samples, and reports them. -/
theorem windowSnapshotLocked_eq_some (h : c.window.Holds l) (s : StateSnapshot)
    (thresholdUs : ℕ) (s' : StateSnapshot) :
    c.windowSnapshotLocked s thresholdUs = some s'
      ↔ ∃ v₁ v₂ v₃ v₄ v₅, l.rtake 5 = [v₁, v₂, v₃, v₄, v₅] ∧ Close v₁ v₅
        ∧ s' = windowReport s thresholdUs v₁ v₂ v₃ v₄ v₅ := by
  have hcontents : c.window.contents = l.rtake 5 := h.contents_eq
  have hlength : c.window.contents.length = c.window.devLatCount :=
    h.length_contents.trans h.count.symm
  unfold windowSnapshotLocked
  dsimp only
  by_cases hfull : c.window.devLatCount = devLatWindowSize
  · have hperm := DevLatWindow.slots_perm hfull
    rw [if_neg fun hne : c.window.devLatCount ≠ devLatWindowSize => hne hfull]
    rw [DevLatWindow.contents_of_full hfull] at hcontents hperm
    rw [hperm.countP_eq, hperm.countP_eq, (hperm.map _).sum_nat, ← hcontents]
    generalize c.window.devLat c.window.devLatHead = v₁
    generalize c.window.devLat (c.window.devLatHead + 1) = v₂
    generalize c.window.devLat (c.window.devLatHead + 2) = v₃
    generalize c.window.devLat (c.window.devLatHead + 3) = v₄
    generalize c.window.devLat (c.window.devLatHead + 4) = v₅
    have hreport : windowReport s thresholdUs v₁ v₂ v₃ v₄ v₅ = { s with
        windowCompleteCount := devLatWindowSize
        windowSpanUs := (v₅.completeTsNs - v₁.completeTsNs) / nsecPerUsec
        windowSlowCount := s.windowSlowCount
          + [v₁, v₂, v₃, v₄, v₅].countP fun x => thresholdUs ≤ x.devLatUs
        windowFgCompleteCount :=
          s.windowFgCompleteCount + [v₁, v₂, v₃, v₄, v₅].countP (·.isFg)
        windowMeanDevUs := ([v₁, v₂, v₃, v₄, v₅].map (·.devLatUs)).sum / devLatWindowSize } := by
      simp [windowReport, devLatWindowSize, nsecPerUsec, Nat.add_assoc]
    rw [← hreport]
    have hclose : (∃ u₁ u₂ u₃ u₄ u₅, [v₁, v₂, v₃, v₄, v₅] = [u₁, u₂, u₃, u₄, u₅] ∧ Close u₁ u₅
        ∧ s' = windowReport s thresholdUs u₁ u₂ u₃ u₄ u₅)
        ↔ Close v₁ v₅ ∧ windowReport s thresholdUs v₁ v₂ v₃ v₄ v₅ = s' := by
      constructor
      · rintro ⟨u₁, u₂, u₃, u₄, u₅, heq, hclose, rfl⟩
        cases heq
        exact ⟨hclose, rfl⟩
      · rintro ⟨hclose, rfl⟩
        exact ⟨v₁, v₂, v₃, v₄, v₅, rfl, hclose, rfl⟩
    rw [hclose]
    by_cases htimes : v₁.completeTsNs = 0 ∨ v₅.completeTsNs < v₁.completeTsNs
    · rw [if_pos (by simpa using htimes)]
      refine iff_of_false (Option.some_ne_none s').symm fun hand => ?_
      rcases htimes with hzero | hback
      · exact hand.1.stamped hzero
      · exact absurd hand.1.ordered (Nat.not_le.mpr hback)
    · rw [if_neg (by simpa using htimes)]
      by_cases hspan : devLatWindowMaxUs * nsecPerUsec < v₅.completeTsNs - v₁.completeTsNs
      · rw [if_pos hspan]
        refine iff_of_false (Option.some_ne_none s').symm fun hand => ?_
        exact absurd hand.1.within (Nat.not_le.mpr hspan)
      · rw [if_neg hspan, Option.some.injEq]
        refine (and_iff_right ?_).symm
        rw [not_or] at htimes
        exact ⟨htimes.1, Nat.not_lt.mp htimes.2, Nat.not_lt.mp hspan⟩
  · rw [if_pos (show c.window.devLatCount ≠ devLatWindowSize from hfull)]
    refine iff_of_false (Option.some_ne_none s').symm ?_
    rintro ⟨v₁, v₂, v₃, v₄, v₅, hl, -, -⟩
    rw [hcontents, hl] at hlength
    exact hfull hlength.symm

/-- **A slow window**: five close samples, none of them fast. -/
theorem slowWindowLocked_iff (h : c.window.Holds l) (thresholdUs : ℕ) :
    c.slowWindowLocked thresholdUs = true
      ↔ ∃ v₁ v₂ v₃ v₄ v₅, l.rtake 5 = [v₁, v₂, v₃, v₄, v₅] ∧ Close v₁ v₅
        ∧ ∀ x ∈ [v₁, v₂, v₃, v₄, v₅], thresholdUs ≤ x.devLatUs := by
  have hslow : c.slowWindowLocked thresholdUs = true
      ↔ ∃ s', c.windowSnapshotLocked {} thresholdUs = some s' ∧ s'.windowSlowCount = 5 := by
    unfold slowWindowLocked
    cases c.windowSnapshotLocked {} thresholdUs with
    | none => exact iff_of_false Bool.false_ne_true fun ⟨s', hs', _⟩ =>
        Option.some_ne_none s' hs'.symm
    | some s =>
      constructor
      · exact fun hall => ⟨s, rfl, of_decide_eq_true hall⟩
      · rintro ⟨s', hs', hall⟩
        rw [Option.some.inj hs']
        exact decide_eq_true hall
  have hcount : ∀ v : List CompletionSample, v.length = 5 →
      (0 + v.countP (fun x => decide (thresholdUs ≤ x.devLatUs)) = 5
        ↔ ∀ x ∈ v, thresholdUs ≤ x.devLatUs) := by
    intro v hv
    rw [Nat.zero_add, ← hv, List.countP_eq_length]
    simp only [decide_eq_true_eq]
  rw [hslow]
  constructor
  · rintro ⟨s', hs', hall⟩
    obtain ⟨v₁, v₂, v₃, v₄, v₅, hl, hclose, rfl⟩ := (windowSnapshotLocked_eq_some h _ _ s').mp hs'
    exact ⟨v₁, v₂, v₃, v₄, v₅, hl, hclose, (hcount [v₁, v₂, v₃, v₄, v₅] rfl).mp hall⟩
  · rintro ⟨v₁, v₂, v₃, v₄, v₅, hl, hclose, hall⟩
    exact ⟨_, (windowSnapshotLocked_eq_some h _ _ _).mpr
      ⟨v₁, v₂, v₃, v₄, v₅, hl, hclose, rfl⟩, (hcount [v₁, v₂, v₃, v₄, v₅] rfl).mpr hall⟩

end ThrottleCtx

/-! ## Who engages the throttle -/

/-- **Only a start engages the throttle.** -/
theorem Turn.started {g : Globals} {V V' : DecisionView} {es : List DecisionEvent}
    (h : Turn g V es V') (hidle : V.throttleActive = false) (hactive : V'.throttleActive = true) :
    ∃ id config, DecisionEvent.started id config ∈ es := by
  have hsame : V'.throttleActive = V.throttleActive → False := fun heq =>
    Bool.false_ne_true (hidle.symm.trans (heq.symm.trans hactive))
  cases h with
  | reserve n hn => exact absurd rfl hsame
  | release n hn =>
    refine absurd ?_ hsame
    unfold DecisionView.reopen
    split <;> rfl
  | fallback => exact absurd hactive Bool.false_ne_true
  | sample x hx => exact absurd rfl hsame
  | newSession => exact absurd rfl hsame
  | close reason hreason => exact absurd rfl hsame
  | configure hpending => exact absurd rfl hsame
  | start newControl => exact ⟨_, _, List.mem_cons_self⟩
  | startWith newControl s => exact ⟨_, _, List.mem_cons_self⟩
  | takeState s hpending hsource => exact absurd rfl hsame
  | timeOut hpending => exact absurd rfl hsame
  | install f predicted computed a => exact absurd rfl hsame
  | die => exact absurd rfl hsame

namespace Throttle

/-- **The section that engages the throttle** starts a decision. -/
theorem started_of_engaged {w : Throttle} {op : ThrottleOp}
    (hidle : w.ctx.control.throttleActive = false)
    (hactive : (w.step op).1.ctx.control.throttleActive = true) :
    ∃ id config, DecisionEvent.started id config ∈ w.decisionEvents op := by
  have hkeeps := Chain.keeps
    (I := fun es (V : DecisionView) => V.throttleActive = true →
      ∃ id config, DecisionEvent.started id config ∈ es)
    (fun es V fs V' hturn hes hV' => ?_) (w.turns_step op) (h := [])
    (fun hV => absurd (hidle.symm.trans hV) Bool.false_ne_true)
  · rw [List.nil_append] at hkeeps
    exact hkeeps hactive
  · cases hV : V.throttleActive with
    | true =>
      obtain ⟨id, config, hmem⟩ := hes hV
      exact ⟨id, config, List.mem_append_left _ hmem⟩
    | false =>
      obtain ⟨id, config, hmem⟩ := hturn.started hV hV'
      exact ⟨id, config, List.mem_append_right _ hmem⟩

/-- **The trigger** is pulled by a sample that has just made the window slow. -/
theorem recordSample_slow {c : ThrottleCtx} {g : Globals} {m : MetaId} {nowNs latencyUs : ℕ}
    (h : (recordSample c g m nowNs latencyUs).2 = true) :
    ∃ x, sampleOf c g m nowNs latencyUs = some x
      ∧ (recordSample c g m nowNs latencyUs).1.window = c.window.push x
      ∧ (recordSample c g m nowNs latencyUs).1.slowWindowLocked g.devLatThresholdUs = true := by
  rw [recordSample_eq] at h ⊢
  cases hx : sampleOf c g m nowNs latencyUs with
  | some x =>
    rw [hx] at h
    exact ⟨x, rfl, rfl, ((Bool.and_eq_true _ _).mp h).2⟩
  | none =>
    rw [hx] at h
    dsimp only at h
    split at h
    · exact absurd h Bool.false_ne_true
    · exact absurd h Bool.false_ne_true

/-- A sample leaves the control alone. -/
theorem recordSample_control (c : ThrottleCtx) (g : Globals) (m : MetaId) (nowNs latencyUs : ℕ) :
    (recordSample c g m nowNs latencyUs).1.control = c.control := by
  rw [recordSample_eq]
  cases sampleOf c g m nowNs latencyUs with
  | some x => rfl
  | none =>
    dsimp only
    split <;> rfl

/-- **No vote asks for a new inference** while nothing is throttled. -/
theorem recordVote_reinfer {c : ThrottleCtx} (h : c.control.feedbackMeta = none) (g : Globals)
    (m : MetaId) (latencyUs : ℕ) : (recordVote c g m latencyUs).reinfer = false := by
  unfold recordVote
  rw [if_neg]
  rw [h]
  simp

/-- **The throttle is engaged** by the section of a completion that has just sampled it,
and the last five samples, that one included, are close and slow. -/
theorem engaged_by_sample {w : Throttle} (h : machine.Reachable w) {l : List CompletionSample}
    (hl : w.ctx.window.Holds l) {op : ThrottleOp}
    (hidle : w.ctx.control.throttleActive = false)
    (hactive : (w.step op).1.ctx.control.throttleActive = true) :
    ∃ rq m sessionId x rest, w.issueEvents op = .sampled rq m sessionId x :: rest
      ∧ ∃ v₁ v₂ v₃ v₄ v₅, (l ++ [x]).rtake 5 = [v₁, v₂, v₃, v₄, v₅] ∧ Close v₁ v₅
        ∧ ∀ y ∈ [v₁, v₂, v₃, v₄, v₅], w.globals.devLatThresholdUs ≤ y.devLatUs := by
  obtain ⟨id, config, hstarted⟩ := started_of_engaged hidle hactive
  have hV := feedbackSound_of_reachable h
  have hvalid : w.ctx.control.actionValid = false := by
    rw [← Bool.not_eq_true]
    intro hv
    exact Bool.false_ne_true (hidle.symm.trans (hV.active.mpr (Or.inr hv)))
  have hunbound : w.ctx.control.feedbackMeta = none := hV.bound_eq_none hvalid
  cases op with
  | recordComplete rq nrBytes nowNs =>
    simp only [decisionEvents] at hstarted
    cases hfind : w.ctx.findMetaLocked rq with
    | none =>
      rw [hfind] at hstarted
      exact absurd hstarted List.not_mem_nil
    | some m =>
      rw [hfind] at hstarted
      dsimp only at hstarted
      by_cases hfinal : (!w.finalCompletion rq nrBytes) = true
      · rw [if_pos hfinal] at hstarted
        exact absurd hstarted List.not_mem_nil
      rw [if_neg hfinal] at hstarted
      have hwants : ((recordLatency w.ctx w.globals m nowNs).reinfer
          || (recordLatency w.ctx w.globals m nowNs).slow) = true := by
        by_contra hno
        rw [if_neg hno] at hstarted
        exact absurd hstarted List.not_mem_nil
      cases hlat : completionLatency (w.ctx.metaPool m) nowNs with
      | none =>
        simp only [recordLatency, hlat] at hwants
        exact absurd hwants Bool.false_ne_true
      | some latencyUs =>
        have hreinfer := recordVote_reinfer
          ((congrArg ControlState.feedbackMeta (recordSample_control w.ctx w.globals m nowNs
            latencyUs)).trans hunbound) w.globals m latencyUs
        simp only [recordLatency, hlat, hreinfer, Bool.false_or] at hwants
        obtain ⟨x, hx, hwindow, hslow⟩ := recordSample_slow hwants
        have hpushed : (recordSample w.ctx w.globals m nowNs latencyUs).1.window.Holds
            (l ++ [x]) := hwindow ▸ hl.push x
        have hmoves : ∃ mvs, w.issueMoves (.recordComplete rq nrBytes nowNs)
            = .sample m x :: mvs := by
          simp only [issueMoves, completeMoves, hfind, latencyMoves, hlat, sampleMoves, hx]
          rw [if_neg hfinal]
          exact ⟨_, rfl⟩
        obtain ⟨mvs, hmoves⟩ := hmoves
        refine ⟨(w.ctx.metaPool m).rq, m, w.ctx.sessionId, x,
          (w.ctx.issues.make (.sample m x)).events mvs, ?_,
          (slowWindowLocked_iff hpushed _).mp hslow⟩
        unfold issueEvents
        rw [hmoves]
        rfl
  | modelThreadRun nowNs =>
    simp only [decisionEvents, modelThreadEvents] at hstarted
    split at hstarted
    · exact absurd hstarted List.not_mem_nil
    · obtain ⟨s, -, heq⟩ := List.mem_map.mp hstarted
      cases heq
  | inferenceWorkFinish i predicted =>
    simp only [decisionEvents] at hstarted
    split at hstarted
    · cases List.mem_singleton.mp hstarted
    · exact absurd hstarted List.not_mem_nil
  | _ => exact absurd hstarted List.not_mem_nil

/-- **What the window is** at the end of a run with a chronicle: the samples since it was
emptied last, of which it holds the last five; what a snapshot makes of them; where they
come from; and what they must be for the throttle to be engaged. -/
structure WindowRefines (log : List IssueEvent) (w : Throttle) : Prop where
  count : w.ctx.window.devLatCount = min (IssueEvent.samples log).length 5
  contents : w.ctx.window.contents = (IssueEvent.samples log).rtake 5
  oldest : 5 ≤ (IssueEvent.samples log).length →
    ((IssueEvent.samples log).rtake 5).head? = some (w.ctx.window.devLat w.ctx.window.devLatHead)
  snapshot : ∀ s thresholdUs s', w.ctx.windowSnapshotLocked s thresholdUs = some s'
    ↔ ∃ v₁ v₂ v₃ v₄ v₅, (IssueEvent.samples log).rtake 5 = [v₁, v₂, v₃, v₄, v₅] ∧ Close v₁ v₅
      ∧ s' = windowReport s thresholdUs v₁ v₂ v₃ v₄ v₅
  sourced : IssueEvent.Sourced log
  engaged : ∀ op, w.ctx.control.throttleActive = false →
    (w.step op).1.ctx.control.throttleActive = true →
    ∃ rq m sessionId x rest, w.issueEvents op = .sampled rq m sessionId x :: rest
      ∧ ∃ v₁ v₂ v₃ v₄ v₅, (IssueEvent.samples log ++ [x]).rtake 5 = [v₁, v₂, v₃, v₄, v₅]
        ∧ Close v₁ v₅
        ∧ ∀ y ∈ [v₁, v₂, v₃, v₄, v₅], w.globals.devLatThresholdUs ≤ y.devLatUs

/-- **The latency window holds the last samples**, at the end of every run, and engages
the throttle only when all of them are slow. -/
theorem window_refines {w : Throttle} (h : Attached w) (ops : List ThrottleOp) :
    WindowRefines (machine.chronicle issueEvents w ops) (machine.run w ops) := by
  have htracked := tracked_run h ops
  have hholds : (machine.run w ops).ctx.window.Holds
      (IssueEvent.samples (machine.chronicle issueEvents w ops)) := htracked.window
  refine ⟨hholds.count, hholds.contents_eq, fun hfull => ?_, windowSnapshotLocked_eq_some hholds,
    htracked.sourced, fun op hidle hactive => ?_⟩
  · have hcount : (machine.run w ops).ctx.window.devLatCount = 5 :=
      hholds.count.trans (min_eq_right hfull)
    rw [← hholds.contents_eq]
    exact RingBuffer.head?_contents hcount
  · exact engaged_by_sample ((StepMachine.Reachable.of_init h).run ops) hholds hidle hactive

/-- Seven requests, each slower than the one before: the window holds the last five, from
its third place on. -/
theorem window_refines_wrapped :
    let ops : List ThrottleOp := [1, 2, 3, 4, 5, 6, 7].flatMap fun k =>
      [.recordIssue 1 ⟨0, 0, []⟩ (1000 * k), .recordComplete 1 0 (8000 * k)]
    let w := machine.run (attach 2 [.setThrottleEnabled true]) ops
    w.ctx.window.devLatHead = 2
      ∧ w.ctx.window.contents = [⟨24000, 21, false⟩, ⟨32000, 28, false⟩, ⟨40000, 35, false⟩,
        ⟨48000, 42, false⟩, ⟨56000, 49, false⟩] := by
  intro ops w
  have hattached := attached_attach Nat.one_ne_zero Nat.one_ne_zero (by decide)
    [.setThrottleEnabled true]
  refine ⟨by decide +kernel, (window_refines hattached ops).contents.trans ?_⟩
  decide +kernel

end Throttle
