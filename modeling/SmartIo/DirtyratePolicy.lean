import Mathlib.Tactic.Linarith
import SmartIo.KernelInt
import SmartIo.StepMachine
import SmartIo.Streak

/-!
# The policy of the dirty rate

At every poll tick the policy compares the dirty memory with that of the tick
before and turns the limit on after three windows of strong growth in a row,
and off after three without any. A tick at which the feature is off, no rate is
configured or no app is in the foreground turns it off at once, and starts all
over.

The decision is meant to be about the last windows seen (`Hysteresis`), and two
`u8` counters keep the streaks (`Tracked.trigger`, `Tracked.recover`). The
streak of the recovery is the right one. The streak of the entry is that of the
comparison `dirty_rate_kib_s >= 512ULL`, which C carries out on unsigned
numbers: a window in which the dirty memory shrinks passes for strong growth
(`moved_toU64`). So the policy follows the windows exactly as long as no
shrinking window helps a streak to its end (`Straight`).
-/

/-- `DIRTYRATE_POLICY_CONSECUTIVE_WINDOWS`. -/
def consecutiveWindows : ℕ := 3

/-- `DIRTYRATE_DIRTY_RATE_ENTER_KIB_S`. -/
def dirtyRateEnterKibS : ℕ := 512

/-- `NSEC_PER_MSEC`. -/
def nsecPerMsec : ℕ := 10 ^ 6

/-- `MSEC_PER_SEC`. -/
def msecPerSec : ℤ := 1000

/-! ## Integers as C converts them -/

/-- A signed number converted to `u64`. -/
def toU64 (z : ℤ) : ℕ := (z % 2 ^ 64).toNat

/-- A number converted to `s32`. -/
def toS32 (z : ℤ) : ℤ := z.bmod (2 ^ 32)

/-- `pages_to_kb`: a shifted `u64`, cut to `u32`. -/
def pagesToKb (pages : ℕ) : ℕ := pages * 2 ^ 12 % 2 ^ 64 / 1024 % 2 ^ 32

/-- `dirty_rate_kib_s`: `div_s64` takes an `s32` divisor and rounds towards
zero. -/
def dirtyRateKibS (dirtyPagesKb prevDirtyPagesKb elapsedMs : ℕ) : ℤ :=
  (((dirtyPagesKb : ℤ) - prevDirtyPagesKb) * msecPerSec).tdiv (toS32 elapsedMs)

/-- A short time survives the conversion. -/
theorem toS32_of_lt {n : ℕ} (h : n < 2 ^ 31) : toS32 n = n := by
  unfold toS32
  rw [Int.bmod_eq_of_le] <;> omega

/-- A positive number is its own conversion; a negative one becomes huge. -/
theorem toU64_of_small {z : ℤ} (hlo : -2 ^ 62 ≤ z) (hhi : z < 2 ^ 62) :
    dirtyRateEnterKibS ≤ toU64 z ↔ (dirtyRateEnterKibS : ℤ) ≤ z ∨ z < 0 := by
  unfold toU64 dirtyRateEnterKibS
  omega

/-! ## The policy -/

instance neZero_gapNs : NeZero (2 ^ 31 * 10 ^ 6) := ⟨by decide⟩

/-- What a poll tick finds: the setting, and the time since the last tick – no
more than `2 ^ 31` milliseconds. -/
structure Tick where
  enabled : Bool
  wkbps : ℕ
  fgUid : ℤ
  dirtyPages : ℕ
  gapNs : Fin (2 ^ 31 * 10 ^ 6)
deriving DecidableEq, Repr

/-- The feature is on, a rate is configured, and there is a foreground app. -/
def Tick.eligible (t : Tick) : Bool := t.enabled && t.wkbps != 0 && decide (0 ≤ t.fgUid)

/-- `dirtyrate_policy`. -/
structure DirtyratePolicy where
  havePrev : Bool
  active : Bool
  triggerWindows : ℕ
  recoverWindows : ℕ
  prevTsNs : ℕ
  dirtyPagesKb : ℕ
deriving DecidableEq, Repr

namespace DirtyratePolicy

/-- Static memory. -/
def zero : DirtyratePolicy := ⟨false, false, 0, 0, 0, 0⟩

/-- The part of `update_dirtyrate_policy` that judges a window. The second
component is the call of `smart_io_dirtyrate_set_active`, if there is one. -/
def judge (p : DirtyratePolicy) (rate : ℤ) : DirtyratePolicy × Option Bool :=
  let pressureContinue := decide (0 < rate)
  if p.active then
    if pressureContinue then ({ p with recoverWindows := 0 }, none)
    else
      let p := { p with recoverWindows := (p.recoverWindows + 1) % 2 ^ 8 }
      if consecutiveWindows ≤ p.recoverWindows then
        ({ p with active := false, triggerWindows := 0 }, some false)
      else (p, none)
  -- an `s64` compared with an `unsigned long long`
  else if dirtyRateEnterKibS ≤ toU64 rate then
    let p := { p with triggerWindows := (p.triggerWindows + 1) % 2 ^ 8 }
    if consecutiveWindows ≤ p.triggerWindows then
      ({ p with active := true, recoverWindows := 0 }, some true)
    else (p, none)
  else ({ p with triggerWindows := 0 }, none)

/-- `update_dirtyrate_policy`. -/
def update (p : DirtyratePolicy) (t : Tick) (nowNs : ℕ) : DirtyratePolicy × Option Bool :=
  if !t.eligible then
    ({ p with
        active := false, havePrev := false, prevTsNs := 0
        triggerWindows := 0, recoverWindows := 0 },
      if p.active then some false else none)
  else
    let dirtyPagesKb := pagesToKb t.dirtyPages
    if !p.havePrev then
      ({ p with havePrev := true, prevTsNs := nowNs, dirtyPagesKb := dirtyPagesKb }, none)
    else
      let elapsedMs := (nowNs - p.prevTsNs) / nsecPerMsec
      let judged :=
        if elapsedMs = 0 then (p, none)
        else p.judge (dirtyRateKibS dirtyPagesKb p.dirtyPagesKb elapsedMs)
      ({ judged.1 with prevTsNs := nowNs, dirtyPagesKb := dirtyPagesKb }, judged.2)

/-- Judging a window does not touch the baseline. -/
theorem judge_havePrev (p : DirtyratePolicy) (rate : ℤ) :
    (p.judge rate).1.havePrev = p.havePrev := by
  unfold judge
  dsimp only
  split_ifs <;> rfl

/-- **A window judged while the limit is on**: growth ends the streak, a window
without any extends it, and the third turns the limit off. -/
theorem judge_on {p : DirtyratePolicy} (hon : p.active = true) (hlt : p.recoverWindows < 3)
    (rate : ℤ) :
    (0 < rate ∧ (p.judge rate).1 = { p with recoverWindows := 0 })
      ∨ (rate ≤ 0 ∧ p.recoverWindows + 1 < 3
          ∧ (p.judge rate).1 = { p with recoverWindows := p.recoverWindows + 1 })
      ∨ (rate ≤ 0 ∧ 3 ≤ p.recoverWindows + 1
          ∧ (p.judge rate).1
            = { p with
                recoverWindows := p.recoverWindows + 1, active := false,
                triggerWindows := 0 }) := by
  -- the counter is far from the end of a `u8`
  have hmod : (p.recoverWindows + 1) % 2 ^ 8 = p.recoverWindows + 1 := Nat.mod_eq_of_lt (by omega)
  unfold judge consecutiveWindows
  dsimp only
  rw [if_pos hon, hmod]
  by_cases hrate : 0 < rate
  · rw [if_pos (decide_eq_true hrate)]
    exact Or.inl ⟨hrate, rfl⟩
  · rw [if_neg (by simpa using hrate)]
    by_cases hend : 3 ≤ p.recoverWindows + 1
    · rw [if_pos hend]
      exact Or.inr (Or.inr ⟨not_lt.mp hrate, hend, rfl⟩)
    · rw [if_neg hend]
      exact Or.inr (Or.inl ⟨not_lt.mp hrate, not_le.mp hend, rfl⟩)

/-- **A window judged while the limit is off**: one that passes the test of the
entry extends the streak, the third turns the limit on, and any other ends
it. -/
theorem judge_off {p : DirtyratePolicy} (hoff : p.active = false) (hlt : p.triggerWindows < 3)
    (rate : ℤ) :
    (¬ dirtyRateEnterKibS ≤ toU64 rate ∧ (p.judge rate).1 = { p with triggerWindows := 0 })
      ∨ (dirtyRateEnterKibS ≤ toU64 rate ∧ p.triggerWindows + 1 < 3
          ∧ (p.judge rate).1 = { p with triggerWindows := p.triggerWindows + 1 })
      ∨ (dirtyRateEnterKibS ≤ toU64 rate ∧ 3 ≤ p.triggerWindows + 1
          ∧ (p.judge rate).1
            = { p with
                triggerWindows := p.triggerWindows + 1, active := true, recoverWindows := 0 }) := by
  have hmod : (p.triggerWindows + 1) % 2 ^ 8 = p.triggerWindows + 1 := Nat.mod_eq_of_lt (by omega)
  unfold judge consecutiveWindows
  dsimp only
  rw [if_neg (by rw [hoff]; exact Bool.false_ne_true), hmod]
  by_cases hrate : dirtyRateEnterKibS ≤ toU64 rate
  · rw [if_pos hrate]
    by_cases hend : 3 ≤ p.triggerWindows + 1
    · rw [if_pos hend]
      exact Or.inr (Or.inr ⟨hrate, hend, rfl⟩)
    · rw [if_neg hend]
      exact Or.inr (Or.inl ⟨hrate, not_le.mp hend, rfl⟩)
  · rw [if_neg hrate]
    exact Or.inl ⟨hrate, rfl⟩

end DirtyratePolicy

/-! ## What a watcher sees -/

/-- A tick that counts: its time and its dirty pages. -/
structure Sample where
  tsNs : ℕ
  dirtyPages : ℕ
deriving DecidableEq, Repr

/-- A window that was evaluated: the dirty pages at its ends and the whole
milliseconds between them. -/
structure Window where
  pagesBefore : ℕ
  pagesAfter : ℕ
  elapsedMs : ℕ
deriving DecidableEq, Repr

namespace Window

/-- How fast the dirty memory grew, in KiB/s rounded towards zero. The KiB are those of
`pages_to_kb`, a `u32` that wraps at 4 TiB. -/
def rate (w : Window) : ℤ :=
  (((pagesToKb w.pagesAfter : ℤ) - pagesToKb w.pagesBefore) * 1000).tdiv w.elapsedMs

/-- The dirty memory grew by at least 512 KiB/s. -/
def Grew (w : Window) : Prop := 512 ≤ w.rate

/-- The dirty memory shrank. -/
def Shrank (w : Window) : Prop := w.rate < 0

/-- The dirty memory did not grow. -/
def Rested (w : Window) : Prop := w.rate ≤ 0

/-- The dirty memory grew by at least 512 KiB/s, or shrank. -/
def Moved (w : Window) : Prop := w.Grew ∨ w.Shrank

instance : DecidablePred Grew := fun w => inferInstanceAs (Decidable (512 ≤ w.rate))

instance : DecidablePred Shrank := fun w => inferInstanceAs (Decidable (w.rate < 0))

instance : DecidablePred Rested := fun w => inferInstanceAs (Decidable (w.rate ≤ 0))

instance : DecidablePred Moved := fun w => inferInstanceAs (Decidable (w.Grew ∨ w.Shrank))

/-- A rate is far from the ends of an `s64`. -/
theorem rate_small (w : Window) : -2 ^ 62 ≤ w.rate ∧ w.rate < 2 ^ 62 := by
  have hbefore : pagesToKb w.pagesBefore < 2 ^ 32 := Nat.mod_lt _ (by decide)
  have hafter : pagesToKb w.pagesAfter < 2 ^ 32 := Nat.mod_lt _ (by decide)
  unfold rate
  generalize pagesToKb w.pagesBefore = before at *
  generalize pagesToKb w.pagesAfter = after at *
  have habs := Int.natAbs_tdiv_le_natAbs (((after : ℤ) - before) * 1000) w.elapsedMs
  omega

/-- **What passes the test of the entry**: strong growth, and any shrinking. -/
theorem moved_toU64 (w : Window) : dirtyRateEnterKibS ≤ toU64 w.rate ↔ w.Moved :=
  toU64_of_small w.rate_small.1 w.rate_small.2

end Window

/-- A policy and what a watcher saw of it: the time, the last sample since the
last tick that did not count, and the windows evaluated since then and since
the last turn, newest first. -/
structure Watch where
  policy : DirtyratePolicy
  nowNs : ℕ
  last : Option Sample
  windows : List Window
deriving DecidableEq, Repr

namespace Watch

/-- The window a tick evaluates: from the last sample, if that is at least a
millisecond ago. -/
def window (w : Watch) (t : Tick) : Option Window :=
  if t.eligible then
    w.last.bind fun s =>
      let elapsedMs := (w.nowNs + t.gapNs - s.tsNs) / nsecPerMsec
      if elapsedMs = 0 then none else some ⟨s.dirtyPages, t.dirtyPages, elapsedMs⟩
  else none

/-- The windows since the last turn or tick that did not count, with that of
this tick. -/
def windowsAt (w : Watch) (t : Tick) : List Window :=
  if t.eligible then (w.window t).toList ++ w.windows else []

/-- One tick. -/
def step (w : Watch) (t : Tick) : Watch × Option Bool :=
  let nowNs := w.nowNs + t.gapNs
  let updated := w.policy.update t nowNs
  ({ policy := updated.1
     nowNs := nowNs
     last := if t.eligible then some ⟨nowNs, t.dirtyPages⟩ else none
     windows := if updated.1.active = w.policy.active then w.windowsAt t else [] },
    updated.2)

/-- The module just loaded. -/
def start (nowNs : ℕ) : Watch := ⟨.zero, nowNs, none, []⟩

/-- **The policy as a machine**, that writes the calls of
`smart_io_dirtyrate_set_active`. -/
def machine : StepMachine Watch Tick (Option Bool) where
  init w := ∃ nowNs, w = start nowNs
  step := step

/-- **Hysteresis.** A tick turns the policy on exactly if the last three windows
grew, and off exactly if the last three did not grow, or if it does not count. How
a window grew is told by the KiB of `pages_to_kb`, which wrap at 4 TiB. -/
def Hysteresis (w : Watch) (t : Tick) : Prop :=
  let turned := (machine.next w t).policy.active
  ((w.policy.active = false ∧ turned = true)
      ↔ (w.policy.active = false ∧ LastAll 3 Window.Grew (w.windowsAt t)))
    ∧ ((w.policy.active = true ∧ turned = false)
      ↔ (w.policy.active = true
          ∧ (LastAll 3 Window.Rested (w.windowsAt t) ∨ t.eligible = false)))

/-- **A straight tick**: if the policy is off and each of the last three windows
grew or shrank, none of them shrank. -/
def Straight (w : Watch) (t : Tick) : Prop :=
  w.policy.active = false → LastAll 3 Window.Moved (w.windowsAt t) →
    ∀ x ∈ (w.windowsAt t).take 3, ¬ x.Shrank

/-- **What the policy keeps of what was seen**: the last sample, and the streak
that matters to it. -/
structure Tracked (w : Watch) : Prop where
  sample : ∀ s, w.last = some s →
    s.tsNs = w.nowNs ∧ w.policy.prevTsNs = s.tsNs ∧ w.policy.dirtyPagesKb = pagesToKb s.dirtyPages
  havePrev : w.policy.havePrev = w.last.isSome
  trigger : w.policy.active = false →
    w.policy.triggerWindows = streak Window.Moved w.windows
      ∧ w.policy.triggerWindows < 3
  recover : w.policy.active = true →
    w.policy.recoverWindows = streak Window.Rested w.windows ∧ w.policy.recoverWindows < 3

/-- Nothing was seen. -/
theorem tracked_start (nowNs : ℕ) : Tracked (start nowNs) where
  sample := fun _ hs => by cases hs
  havePrev := rfl
  trigger := fun _ => ⟨rfl, Nat.zero_lt_succ 2⟩
  recover := fun hon => by cases hon

/-- Between two ticks there are fewer milliseconds than an `s32` holds. -/
theorem elapsed_lt (t : Tick) : t.gapNs / nsecPerMsec < 2 ^ 31 :=
  Nat.div_lt_of_lt_mul (by have := t.gapNs.isLt; unfold nsecPerMsec; omega)

/-- The last sample is that of the last tick, and the window starts there. -/
theorem Tracked.window_eq {w : Watch} (h : Tracked w) {t : Tick} (ht : t.eligible = true) :
    w.window t = w.last.bind fun s =>
      if t.gapNs / nsecPerMsec = 0 then none
      else some ⟨s.dirtyPages, t.dirtyPages, t.gapNs / nsecPerMsec⟩ := by
  unfold window
  rw [if_pos ht]
  cases hlast : w.last with
  | none => rfl
  | some s =>
    rw [Option.bind_some, Option.bind_some, (h.sample s hlast).1, Nat.add_sub_cancel_left]

/-- **A tick that counts** judges the window it evaluates, if it evaluates one,
and keeps the sample. -/
theorem Tracked.update_eq {w : Watch} (h : Tracked w) {t : Tick} (ht : t.eligible = true) :
    (w.policy.update t (w.nowNs + t.gapNs)).1
      = { (w.window t).elim w.policy fun x => (w.policy.judge x.rate).1 with
          havePrev := true
          prevTsNs := w.nowNs + t.gapNs
          dirtyPagesKb := pagesToKb t.dirtyPages } := by
  have hprev := h.havePrev
  rw [h.window_eq ht]
  unfold DirtyratePolicy.update
  rw [ht, if_neg (by decide)]
  dsimp only
  cases hlast : w.last with
  | none =>
    rw [hlast] at hprev
    rw [hprev]
    rfl
  | some s =>
    rw [hlast] at hprev
    obtain ⟨hclock, hts, hkb⟩ := h.sample s hlast
    rw [hprev, hts, hkb, hclock, Nat.add_sub_cancel_left, Option.bind_some, Option.isSome_some,
      if_neg (by decide)]
    by_cases hzero : t.gapNs / nsecPerMsec = 0
    · rw [if_pos hzero, if_pos hzero, Option.elim_none, ← show w.policy.havePrev = true from hprev]
    · have hrate : dirtyRateKibS (pagesToKb t.dirtyPages) (pagesToKb s.dirtyPages)
          (t.gapNs / nsecPerMsec)
          = Window.rate ⟨s.dirtyPages, t.dirtyPages, t.gapNs / nsecPerMsec⟩ := by
        unfold dirtyRateKibS
        rw [toS32_of_lt (elapsed_lt t)]
        rfl
      rw [if_neg hzero, if_neg hzero, hrate, Option.elim_some, DirtyratePolicy.judge_havePrev,
        ← show w.policy.havePrev = true from hprev]

/-- **A tick that does not count** starts all over. -/
theorem update_of_ineligible (p : DirtyratePolicy) {t : Tick} (ht : t.eligible = false)
    (nowNs : ℕ) :
    (p.update t nowNs).1
      = { p with
          active := false, havePrev := false, prevTsNs := 0
          triggerWindows := 0, recoverWindows := 0 } := by
  unfold DirtyratePolicy.update
  rw [ht]
  rfl

/-- The watch after a tick that counts, whose window was judged to `q`. -/
def sampled (w : Watch) (t : Tick) (q : DirtyratePolicy) : Watch where
  policy :=
    { q with
      havePrev := true
      prevTsNs := w.nowNs + t.gapNs
      dirtyPagesKb := pagesToKb t.dirtyPages }
  nowNs := w.nowNs + t.gapNs
  last := some ⟨w.nowNs + t.gapNs, t.dirtyPages⟩
  windows := if q.active = w.policy.active then w.windowsAt t else []

theorem Tracked.next_eq {w : Watch} (h : Tracked w) {t : Tick} (ht : t.eligible = true) :
    machine.next w t
      = w.sampled t ((w.window t).elim w.policy fun x => (w.policy.judge x.rate).1) := by
  show (w.step t).1 = _
  unfold step sampled
  dsimp only
  rw [h.update_eq ht, if_pos ht]

/-- The sample is always tracked; the streaks are what is left to show. -/
theorem tracked_sampled {w : Watch} {t : Tick} {q : DirtyratePolicy} {ws : List Window}
    (hws : (w.sampled t q).windows = ws)
    (htrigger : q.active = false →
      q.triggerWindows = streak Window.Moved ws ∧ q.triggerWindows < 3)
    (hrecover : q.active = true →
      q.recoverWindows = streak Window.Rested ws ∧ q.recoverWindows < 3) :
    Tracked (w.sampled t q) where
  sample := by
    intro s hs
    obtain rfl := Option.some.inj hs
    exact ⟨rfl, rfl, rfl⟩
  havePrev := rfl
  trigger := by
    rw [hws]
    exact htrigger
  recover := by
    rw [hws]
    exact hrecover

/-- **A tick that evaluates no window** turns nothing. -/
theorem Tracked.turn_of_none {w : Watch} (h : Tracked w) {t : Tick}
    (hw : w.windowsAt t = w.windows) : Tracked (w.sampled t w.policy) :=
  tracked_sampled ((if_pos rfl).trans hw) h.trigger h.recover

/-- **A window evaluated while the limit is off**: the limit turns on exactly if
the streak of the entry is complete. -/
theorem Tracked.turn_of_off {w : Watch} (h : Tracked w) (hoff : w.policy.active = false)
    {t : Tick} {x : Window} (hw : w.windowsAt t = x :: w.windows) :
    Tracked (w.sampled t (w.policy.judge x.rate).1)
      ∧ ((w.policy.judge x.rate).1.active = true ↔ LastAll 3 Window.Moved (w.windowsAt t)) := by
  obtain ⟨htrigger, hlt⟩ := h.trigger hoff
  rw [← le_streak_iff, hw]
  have hkeep : ∀ q : DirtyratePolicy, q.active = w.policy.active →
      (w.sampled t q).windows = x :: w.windows := fun q hq => (if_pos hq).trans hw
  rcases DirtyratePolicy.judge_off hoff hlt x.rate with
    ⟨hrate, hq⟩ | ⟨hrate, hlt', hq⟩ | ⟨hrate, hend, hq⟩
  · -- the streak ends
    rw [x.moved_toU64] at hrate
    rw [hq, streak_cons_of_neg hrate]
    refine ⟨tracked_sampled (hkeep _ rfl) ?_ ?_, ?_⟩
    · rw [streak_cons_of_neg hrate]
      exact fun _ => ⟨rfl, Nat.zero_lt_succ 2⟩
    · intro hon
      cases hoff.symm.trans hon
    · refine iff_of_false (fun hon => ?_) (by decide)
      cases hoff.symm.trans hon
  · -- the streak goes on
    rw [x.moved_toU64] at hrate
    rw [hq, streak_cons_of_pos hrate, ← htrigger]
    refine ⟨tracked_sampled (hkeep _ rfl) ?_ ?_, ?_⟩
    · rw [streak_cons_of_pos hrate, ← htrigger]
      exact fun _ => ⟨rfl, hlt'⟩
    · intro hon
      cases hoff.symm.trans hon
    · refine iff_of_false (fun hon => ?_) (not_le.mpr hlt')
      cases hoff.symm.trans hon
  · -- the streak is complete, and the windows of the recovery start
    rw [x.moved_toU64] at hrate
    rw [hq, streak_cons_of_pos hrate, ← htrigger]
    have hturn : ∀ q : DirtyratePolicy, q.active = true → (w.sampled t q).windows = [] :=
      fun q hq => if_neg (by rw [hq, hoff]; decide)
    refine ⟨tracked_sampled (hturn _ rfl) ?_ ?_, iff_of_true rfl hend⟩
    · intro hoff'
      cases hoff'
    · exact fun _ => ⟨rfl, Nat.zero_lt_succ 2⟩

/-- **A window evaluated while the limit is on**: the limit turns off exactly if
the streak of the recovery is complete. -/
theorem Tracked.turn_of_on {w : Watch} (h : Tracked w) (hon : w.policy.active = true)
    {t : Tick} {x : Window} (hw : w.windowsAt t = x :: w.windows) :
    Tracked (w.sampled t (w.policy.judge x.rate).1)
      ∧ ((w.policy.judge x.rate).1.active = false ↔ LastAll 3 Window.Rested (w.windowsAt t)) := by
  obtain ⟨hrecover, hlt⟩ := h.recover hon
  rw [← le_streak_iff, hw]
  have hkeep : ∀ q : DirtyratePolicy, q.active = w.policy.active →
      (w.sampled t q).windows = x :: w.windows := fun q hq => (if_pos hq).trans hw
  rcases DirtyratePolicy.judge_on hon hlt x.rate with
    ⟨hrate, hq⟩ | ⟨hrate, hlt', hq⟩ | ⟨hrate, hend, hq⟩
  · have hrest : ¬ x.Rested := not_le.mpr hrate
    rw [hq, streak_cons_of_neg hrest]
    refine ⟨tracked_sampled (hkeep _ rfl) ?_ ?_, ?_⟩
    · intro hoff
      cases hon.symm.trans hoff
    · rw [streak_cons_of_neg hrest]
      exact fun _ => ⟨rfl, Nat.zero_lt_succ 2⟩
    · refine iff_of_false (fun hoff => ?_) (by decide)
      cases hon.symm.trans hoff
  · have hrest : x.Rested := hrate
    rw [hq, streak_cons_of_pos hrest, ← hrecover]
    refine ⟨tracked_sampled (hkeep _ rfl) ?_ ?_, ?_⟩
    · intro hoff
      cases hon.symm.trans hoff
    · rw [streak_cons_of_pos hrest, ← hrecover]
      exact fun _ => ⟨rfl, hlt'⟩
    · refine iff_of_false (fun hoff => ?_) (not_le.mpr hlt')
      cases hon.symm.trans hoff
  · have hrest : x.Rested := hrate
    rw [hq, streak_cons_of_pos hrest, ← hrecover]
    have hturn : ∀ q : DirtyratePolicy, q.active = false → (w.sampled t q).windows = [] :=
      fun q hq => if_neg (by rw [hq, hon]; decide)
    refine ⟨tracked_sampled (hturn _ rfl) ?_ ?_, iff_of_true rfl hend⟩
    · exact fun _ => ⟨rfl, Nat.zero_lt_succ 2⟩
    · intro hon'
      cases hon'

/-! ## Ticks -/

/-- The windows at a tick that counts: one more, if the tick evaluates one. -/
theorem windowsAt_of_eligible (w : Watch) {t : Tick} (ht : t.eligible = true) :
    w.windowsAt t = (w.window t).toList ++ w.windows := if_pos ht

/-- **A tick turns the limit on** exactly if the last three windows passed the
test of the entry. -/
theorem Tracked.turns_on {w : Watch} (h : Tracked w) (t : Tick) (hoff : w.policy.active = false) :
    (machine.next w t).policy.active = true ↔ LastAll 3 Window.Moved (w.windowsAt t) := by
  cases ht : t.eligible with
  | false =>
    have hws : w.windowsAt t = [] := if_neg (by rw [ht]; decide)
    rw [hws]
    refine iff_of_false ?_ (not_lastAll_nil 2)
    show ¬ (w.policy.update t _).1.active = true
    rw [update_of_ineligible _ ht]
    exact Bool.false_ne_true
  | true =>
    rw [h.next_eq ht]
    show DirtyratePolicy.active ((w.window t).elim _ _) = true ↔ _
    have hws := w.windowsAt_of_eligible ht
    cases hx : w.window t with
    | none =>
      rw [hx] at hws
      rw [hws]
      refine iff_of_false (by rw [Option.elim_none, hoff]; decide) fun hall => ?_
      have hlast := (le_streak_iff 3 w.windows).mpr hall
      rw [← (h.trigger hoff).1] at hlast
      exact absurd (h.trigger hoff).2 (not_lt.mpr hlast)
    | some x =>
      rw [hx] at hws
      exact (h.turn_of_off hoff hws).2

/-- **A tick turns the limit off** exactly if it does not count, or the last
three windows rested. -/
theorem Tracked.turns_off {w : Watch} (h : Tracked w) (t : Tick) (hon : w.policy.active = true) :
    (machine.next w t).policy.active = false
      ↔ LastAll 3 Window.Rested (w.windowsAt t) ∨ t.eligible = false := by
  cases ht : t.eligible with
  | false =>
    refine iff_of_true ?_ (Or.inr rfl)
    show (w.policy.update t _).1.active = false
    rw [update_of_ineligible _ ht]
  | true =>
    rw [h.next_eq ht, or_iff_left (by decide)]
    show DirtyratePolicy.active ((w.window t).elim _ _) = false ↔ _
    have hws := w.windowsAt_of_eligible ht
    cases hx : w.window t with
    | none =>
      rw [hx] at hws
      rw [hws]
      refine iff_of_false (by rw [Option.elim_none, hon]; decide) fun hall => ?_
      have hlast := (le_streak_iff 3 w.windows).mpr hall
      rw [← (h.recover hon).1] at hlast
      exact absurd (h.recover hon).2 (not_lt.mpr hlast)
    | some x =>
      rw [hx] at hws
      exact (h.turn_of_on hon hws).2

/-- **Every tick keeps the streaks.** -/
theorem Tracked.next {w : Watch} (h : Tracked w) (t : Tick) : Tracked (machine.next w t) := by
  cases ht : t.eligible with
  | false =>
    have hnext : machine.next w t = ⟨{ w.policy with
        active := false, havePrev := false, prevTsNs := 0
        triggerWindows := 0, recoverWindows := 0 }, w.nowNs + t.gapNs, none, []⟩ := by
      have hws : w.windowsAt t = [] := if_neg (by rw [ht]; decide)
      show (w.step t).1 = _
      unfold step
      dsimp only
      rw [update_of_ineligible _ ht, hws, ite_self, if_neg (by rw [ht]; decide)]
    rw [hnext]
    refine ⟨fun s hs => ?_, rfl, fun _ => ⟨rfl, Nat.zero_lt_succ 2⟩, fun hon => ?_⟩
    · cases hs
    · cases hon
  | true =>
    rw [h.next_eq ht]
    have hws := w.windowsAt_of_eligible ht
    cases hx : w.window t with
    | none =>
      rw [hx] at hws
      exact h.turn_of_none hws
    | some x =>
      rw [hx] at hws
      cases hactive : w.policy.active with
      | false => exact (h.turn_of_off hactive hws).1
      | true => exact (h.turn_of_on hactive hws).1

/-- **One tick** follows the windows exactly if it is straight. -/
theorem Tracked.hysteresis_iff {w : Watch} (h : Tracked w) (t : Tick) :
    Hysteresis w t ↔ Straight w t := by
  have hgrew : LastAll 3 Window.Grew (w.windowsAt t)
      ↔ LastAll 3 Window.Moved (w.windowsAt t)
        ∧ ∀ x ∈ (w.windowsAt t).take 3, ¬ x.Shrank := by
    constructor
    · refine fun hall => ⟨hall.mono fun _ => Or.inl, fun x hx => ?_⟩
      have hx : 512 ≤ x.rate := hall.2 x hx
      show ¬ x.rate < 0
      omega
    · rintro ⟨hall, hnone⟩
      exact ⟨hall.1, fun x hx => (hall.2 x hx).resolve_right (hnone x hx)⟩
  constructor
  · rintro ⟨henter, -⟩ hoff hall
    exact (hgrew.mp (henter.mp ⟨hoff, (h.turns_on t hoff).mpr hall⟩).2).2
  · refine fun hstraight => ⟨and_congr_right fun hoff => ?_, and_congr_right fun hon => ?_⟩
    · rw [h.turns_on t hoff, hgrew]
      exact (and_iff_left_of_imp (hstraight hoff)).symm
    · exact h.turns_off t hon

/-- **Hysteresis, of the runs whose ticks are straight** – and of no other. -/
theorem hysteresis_iff_straight (nowNs : ℕ) (ts : List Tick) :
    machine.StepsMeet Hysteresis (start nowNs) ts ↔ machine.StepsMeet Straight (start nowNs) ts :=
  StepMachine.stepsMeet_congr (fun _ t h => h.hysteresis_iff t) (fun _ t h => h.next t)
    (tracked_start nowNs) ts

/-- A second after the last tick, with an app in the foreground. -/
def polled (dirtyPages : ℕ) : Tick := ⟨true, 1024, 1000, dirtyPages, 10 ^ 9⟩

/-- **Hysteresis fails** where the dirty memory shrinks three times in a row: the
limit turns on. -/
theorem hysteresis_fails_shrinking :
    ¬ machine.StepsMeet Hysteresis (start 0) [polled 3000, polled 2000, polled 1000, polled 0] := by
  rintro ⟨-, -, -, ⟨henter, -⟩, -⟩
  have hgrew := (henter.mp ⟨rfl, rfl⟩).2
  exact absurd hgrew (by decide)

end Watch
