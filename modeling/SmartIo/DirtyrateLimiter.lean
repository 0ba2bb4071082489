import SmartIo.DirtyrateBucket
import SmartIo.DirtyratePolicy

/-!
# The limiter and its policy

Whether the dirty rate is limited is kept twice: the policy of the poll thread
remembers that it turned the limit on, and the limiter remembers that it was
turned on. A tick tells the limiter only when the policy turns. So the two agree
at the end of a tick as long as nobody else turns the limit – and one call does:
`smart_io_dirtyrate_set_enabled` turns the limit off whatever it is called with,
also when it changes nothing. A limit that was on is then off for good as far as
the policy is concerned, unless the next tick finds a reason to turn off itself.

The poll thread takes its tick apart into the steps between which the settings
may change: it reads the switch, the rate and the foreground uid one by one,
looks at the dirty memory, tells the limiter in a lock section, and only then is
done.
-/

/-- The static variables of the limiter. -/
structure DirtyrateLimiter where
  /-- `dirtyrate_enabled`. -/
  enabled : Bool
  /-- `dirtyrate_active`. -/
  active : Bool
  /-- `dirtyrate_config_wbps`. -/
  configWbps : ℕ
  bucket : DirtyrateBucket
deriving DecidableEq, Repr

namespace DirtyrateLimiter

/-- Static memory. -/
def zero : DirtyrateLimiter := ⟨false, false, 0, ⟨0, 0, 0, 0⟩⟩

/-- The lock section of `smart_io_dirtyrate_set_enabled`. -/
def setEnabled (l : DirtyrateLimiter) (enabled : Bool) (nowNs : ℕ) : DirtyrateLimiter :=
  { l with enabled := enabled, active := false, bucket := .resetBucketLocked 0 nowNs }

/-- The lock section of `smart_io_dirtyrate_set_active`. -/
def setActive (l : DirtyrateLimiter) (active : Bool) (nowNs : ℕ) : DirtyrateLimiter :=
  let active := l.enabled && active
  if l.active = active then l
  else
    { l with
      active := active
      bucket := .resetBucketLocked (if active then l.configWbps else 0) nowNs }

/-- The lock section of `smart_io_dirtyrate_set_wkbps`. -/
def setWkbpsLocked (l : DirtyrateLimiter) (wbps nowNs : ℕ) : DirtyrateLimiter :=
  { l with
    configWbps := wbps
    bucket := if l.active then .resetBucketLocked wbps nowNs else l.bucket }

/-- `smart_io_dirtyrate_get_wkbps`. -/
def getWkbps (l : DirtyrateLimiter) : ℕ := l.configWbps / dirtyrateKibBytes

/-- The lock section of `smart_io_dirtyrate_dirty_rate`, of a task that read the
foreground uid before it. -/
def dirtyRate (l : DirtyrateLimiter) (uid : Fin (2 ^ 32)) (fgUid : ℤ) (nowNs : ℕ) :
    DirtyrateLimiter :=
  if l.enabled = false ∨ l.active = false ∨ l.bucket.wbps = 0 then l
  else if fgUid < 0 ∨ fgUid = uid then l
  else
    let bucket := l.bucket.refillLocked nowNs
    if pageSize ≤ bucket.tokens then
      { l with bucket := { bucket with tokens := bucket.tokens - pageSize } }
    else { l with bucket := bucket }

/-- **The bucket follows the configuration**: the limit is on only while the
feature is, the bucket of a limit that is on runs at the configured rate, and
that of a limit that is off at none. -/
structure Consistent (l : DirtyrateLimiter) : Prop where
  enabled : l.active = true → l.enabled = true
  on : l.active = true → l.bucket.wbps = l.configWbps
  off : l.active = false → l.bucket.wbps = 0

end DirtyrateLimiter

namespace DirtyrateLimiter

theorem consistent_zero : zero.Consistent where
  enabled := fun h => absurd h Bool.false_ne_true
  on := fun h => absurd h Bool.false_ne_true
  off := fun _ => rfl

theorem consistent_setEnabled (l : DirtyrateLimiter) (enabled : Bool) (nowNs : ℕ) :
    (l.setEnabled enabled nowNs).Consistent where
  enabled := fun h => absurd h Bool.false_ne_true
  on := fun h => absurd h Bool.false_ne_true
  off := fun _ => rfl

/-- **The limit is on after it was told so**, and the feature is on. -/
theorem active_setActive (l : DirtyrateLimiter) (active : Bool) (nowNs : ℕ) :
    (l.setActive active nowNs).active = (l.enabled && active) := by
  unfold setActive
  dsimp only
  split
  · next heq => exact heq
  · rfl

theorem Consistent.setActive {l : DirtyrateLimiter} (h : l.Consistent) (active : Bool)
    (nowNs : ℕ) : (l.setActive active nowNs).Consistent := by
  unfold DirtyrateLimiter.setActive
  dsimp only
  split
  · exact h
  · refine ⟨fun hon => ?_, fun hon => ?_, fun hoff => ?_⟩
    · exact (Bool.and_eq_true_iff.mp hon).1
    · exact if_pos hon
    · exact if_neg fun hon => Bool.false_ne_true (hoff.symm.trans hon)

theorem Consistent.setWkbpsLocked {l : DirtyrateLimiter} (h : l.Consistent) (wbps nowNs : ℕ) :
    (l.setWkbpsLocked wbps nowNs).Consistent where
  enabled := h.enabled
  on := by
    intro hon
    show DirtyrateBucket.wbps (if l.active = true then _ else _) = wbps
    rw [if_pos (show l.active = true from hon)]
    rfl
  off := by
    intro hoff
    show DirtyrateBucket.wbps (if l.active = true then _ else _) = 0
    rw [show l.active = false from hoff, if_neg Bool.false_ne_true]
    exact h.off hoff

/-- **A task that dirties a page** changes nothing but the bucket, and not its
rate. -/
theorem dirtyRate_eq (l : DirtyrateLimiter) (uid : Fin (2 ^ 32)) (fgUid : ℤ) (nowNs : ℕ) :
    ∃ bucket, l.dirtyRate uid fgUid nowNs = { l with bucket := bucket }
      ∧ bucket.wbps = l.bucket.wbps := by
  unfold dirtyRate
  dsimp only
  split_ifs
  · exact ⟨l.bucket, rfl, rfl⟩
  · exact ⟨l.bucket, rfl, rfl⟩
  · exact ⟨_, rfl, l.bucket.wbps_refillLocked nowNs⟩
  · exact ⟨_, rfl, l.bucket.wbps_refillLocked nowNs⟩

/-- Another bucket at the same rate. -/
theorem Consistent.withBucket {l : DirtyrateLimiter} (h : l.Consistent) {bucket : DirtyrateBucket}
    (hwbps : bucket.wbps = l.bucket.wbps) : Consistent { l with bucket := bucket } where
  enabled := h.enabled
  on hon := hwbps.trans (h.on hon)
  off hoff := hwbps.trans (h.off hoff)

/-- Tokens are spent. -/
theorem Consistent.spend {l : DirtyrateLimiter} (h : l.Consistent) (tokens : ℕ) :
    Consistent { l with bucket := { l.bucket with tokens := tokens } } := h.withBucket rfl

theorem Consistent.dirtyRate {l : DirtyrateLimiter} (h : l.Consistent) (uid : Fin (2 ^ 32))
    (fgUid : ℤ) (nowNs : ℕ) : (l.dirtyRate uid fgUid nowNs).Consistent := by
  obtain ⟨bucket, heq, hwbps⟩ := l.dirtyRate_eq uid fgUid nowNs
  rw [heq]
  exact h.withBucket hwbps

/-- A rate in the bucket is that of a limit that is on. -/
theorem Consistent.active_of_wbps {l : DirtyrateLimiter} (h : l.Consistent)
    (hrate : l.bucket.wbps ≠ 0) : l.active = true :=
  Bool.of_not_eq_false fun hoff => hrate (h.off hoff)

end DirtyrateLimiter

/-! ## The calls of a tick -/

namespace DirtyratePolicy

/-- **A call is a turn**: a window judged tells the limiter exactly when the
policy turns, and what it turns to. -/
theorem judge_call (p : DirtyratePolicy) (rate : ℤ) :
    (p.judge rate).2
      = if (p.judge rate).1.active = p.active then none else some (p.judge rate).1.active := by
  unfold judge
  dsimp only
  cases hactive : p.active with
  | true =>
    rw [if_pos rfl]
    split_ifs with h₁ h₂ <;> simp_all
  | false =>
    rw [if_neg Bool.false_ne_true]
    split_ifs with h₁ h₂ <;> simp_all

/-- **A tick tells the limiter exactly when the policy turns.** -/
theorem update_call (p : DirtyratePolicy) (t : Tick) (nowNs : ℕ) :
    (p.update t nowNs).2
      = if (p.update t nowNs).1.active = p.active then none
        else some (p.update t nowNs).1.active := by
  unfold update
  cases t.eligible with
  | false =>
    rw [if_pos (show (!false) = true from rfl)]
    cases p.active with
    | false => rfl
    | true => rfl
  | true =>
    rw [if_neg (by decide)]
    dsimp only
    cases p.havePrev with
    | false =>
      rw [if_pos (show (!false) = true from rfl)]
      exact (if_pos rfl).symm
    | true =>
      rw [if_neg (by decide)]
      dsimp only
      split
      · exact (if_pos rfl).symm
      · exact p.judge_call _

end DirtyratePolicy

/-! ## The poll thread and the others -/

/-- How far the poll thread is in its tick: what it has read, what it has
decided, or that it has told the limiter. -/
inductive PollStage where
  | asleep
  | enabledRead (enabled : Bool)
  | wkbpsRead (enabled : Bool) (wkbps : ℕ)
  | fgUidRead (enabled : Bool) (wkbps : ℕ) (fgUid : ℤ)
  | judged (policy : DirtyratePolicy) (call : Option Bool)
  | told (policy : DirtyratePolicy)
deriving DecidableEq, Repr

/-- The limiter, the foreground uid, and the poll thread. -/
structure DirtyrateSystem where
  limiter : DirtyrateLimiter
  /-- `fg_uid`. -/
  fgUid : ℤ
  policy : DirtyratePolicy
  stage : PollStage
  /-- The time of the last sample. -/
  nowNs : ℕ
  /-- The switch was written since the policy turned the limit on, or it was off
  then. No step reads it. -/
  rewritten : Bool
deriving DecidableEq, Repr

/-- What happens: the poll thread takes its next step, and finds these dirty
pages if it looks; or someone writes a setting, or dirties a page. -/
inductive DirtyrateOp where
  | poll (dirtyPages : ℕ) (gapNs : Fin (2 ^ 31 * 10 ^ 6)) (nowNs : ℕ)
  | setEnabled (enabled : Bool) (nowNs : ℕ)
  | setWkbps (wkbps nowNs : ℕ)
  | setFgUid (uid : Fin (2 ^ 32))
  | dirtyRate (uid : Fin (2 ^ 32)) (fgUid : ℤ) (nowNs : ℕ)
deriving DecidableEq, Repr

namespace DirtyrateSystem

/-- The next step of `update_dirtyrate_policy`. -/
def poll (s : DirtyrateSystem) (dirtyPages : ℕ) (gapNs : Fin (2 ^ 31 * 10 ^ 6)) (nowNs : ℕ) :
    DirtyrateSystem :=
  match s.stage with
  | .asleep => { s with stage := .enabledRead s.limiter.enabled }
  | .enabledRead enabled => { s with stage := .wkbpsRead enabled s.limiter.getWkbps }
  | .wkbpsRead enabled wkbps => { s with stage := .fgUidRead enabled wkbps s.fgUid }
  | .fgUidRead enabled wkbps fgUid =>
    let updated := s.policy.update ⟨enabled, wkbps, fgUid, dirtyPages, gapNs⟩ (s.nowNs + gapNs)
    { s with stage := .judged updated.1 updated.2, nowNs := s.nowNs + gapNs }
  | .judged policy none => { s with stage := .told policy }
  | .judged policy (some active) =>
    { s with
      limiter := s.limiter.setActive active nowNs
      stage := .told policy
      rewritten := !s.limiter.enabled }
  | .told policy => { s with policy := policy, stage := .asleep }

/-- One step. -/
def step (s : DirtyrateSystem) : DirtyrateOp → DirtyrateSystem
  | .poll dirtyPages gapNs nowNs => s.poll dirtyPages gapNs nowNs
  | .setEnabled enabled nowNs =>
    { s with limiter := s.limiter.setEnabled enabled nowNs, rewritten := true }
  | .setWkbps wkbps nowNs =>
    { s with
      limiter := (setWkbps wkbps).elim s.limiter (s.limiter.setWkbpsLocked · nowNs) }
  | .setFgUid uid => { s with fgUid := toS32 uid }
  | .dirtyRate uid fgUid nowNs => { s with limiter := s.limiter.dirtyRate uid fgUid nowNs }

/-- The module just loaded. -/
def start (nowNs : ℕ) : DirtyrateSystem := ⟨.zero, -1, .zero, .asleep, nowNs, false⟩

/-- **The policy and the limiter as a machine.** -/
def machine : StepMachine DirtyrateSystem DirtyrateOp Unit where
  init s := ∃ nowNs, s = start nowNs
  step s op := (s.step op, ())

/-- The policy as the limiter was last told. -/
def toldPolicy (s : DirtyrateSystem) : DirtyratePolicy :=
  match s.stage with
  | .told policy => policy
  | _ => s.policy

/-- A step that ends a tick. -/
def EndsTick (s : DirtyrateSystem) (op : DirtyrateOp) : Prop :=
  match s.stage, op with
  | .told _, .poll .. => True
  | _, _ => False

/-- The policy and the limiter agree, and a limit that is on runs at the
configured rate. -/
def InStep (s : DirtyrateSystem) : Prop :=
  s.policy.active = s.limiter.active
    ∧ (s.policy.active = true → s.limiter.active = true →
      s.limiter.bucket.wbps = s.limiter.configWbps)

/-- **Every tick ends in step.** -/
def TickInStep (s : DirtyrateSystem) (op : DirtyrateOp) : Prop :=
  EndsTick s op → InStep (machine.next s op)

/-- **An undisturbed limit**: if a tick ends with the policy on, the switch was on
when the policy turned the limit on, and was not written since. -/
def Undisturbed (s : DirtyrateSystem) (op : DirtyrateOp) : Prop :=
  EndsTick s op → s.toldPolicy.active = true → s.rewritten = false

instance (s : DirtyrateSystem) (op : DirtyrateOp) : Decidable (EndsTick s op) := by
  unfold EndsTick
  exact match s.stage, op with
  | .told _, .poll .. => isTrue trivial
  | .told _, .setEnabled .. => isFalse id
  | .told _, .setWkbps .. => isFalse id
  | .told _, .setFgUid _ => isFalse id
  | .told _, .dirtyRate .. => isFalse id
  | .asleep, _ => isFalse id
  | .enabledRead _, _ => isFalse id
  | .wkbpsRead .., _ => isFalse id
  | .fgUidRead .., _ => isFalse id
  | .judged .., _ => isFalse id

instance (s : DirtyrateSystem) : Decidable (InStep s) :=
  inferInstanceAs (Decidable (_ ∧ (_ → _ → _)))

instance (s : DirtyrateSystem) (op : DirtyrateOp) : Decidable (TickInStep s op) :=
  inferInstanceAs (Decidable (_ → _))

/-- **What the limiter knows of the policy**: it is on exactly if the policy last
told it so and the switch was not written since; and the poll thread is about to
tell it of every turn. -/
structure Informed (s : DirtyrateSystem) : Prop where
  limiter : s.limiter.Consistent
  active : s.limiter.active = (s.toldPolicy.active && !s.rewritten)
  call : ∀ policy call, s.stage = .judged policy call →
    call = if policy.active = s.policy.active then none else some policy.active

theorem informed_start (nowNs : ℕ) : Informed (start nowNs) where
  limiter := DirtyrateLimiter.consistent_zero
  active := rfl
  call := fun _ _ h => by cases h

/-- **Someone else's step**: the poll thread stands still, and the limiter is
turned off only by a write of the switch. -/
theorem Informed.other {s s' : DirtyrateSystem} (h : Informed s) (hstage : s'.stage = s.stage)
    (hpolicy : s'.policy = s.policy) (hlimiter : s'.limiter.Consistent)
    (hactive : (s'.limiter.active = s.limiter.active ∧ s'.rewritten = s.rewritten)
      ∨ (s'.limiter.active = false ∧ s'.rewritten = true)) : Informed s' where
  limiter := hlimiter
  active := by
    have htold : s'.toldPolicy = s.toldPolicy := by
      unfold toldPolicy
      rw [hstage, hpolicy]
    rw [htold]
    rcases hactive with ⟨hactive, hrewritten⟩ | ⟨hactive, hrewritten⟩
    · rw [hactive, hrewritten]
      exact h.active
    · rw [hactive, hrewritten]
      exact (Bool.and_false _).symm
  call := by
    rw [hstage, hpolicy]
    exact h.call

/-- **A step of the poll thread** that tells the limiter nothing. -/
theorem Informed.advance {s s' : DirtyrateSystem} (h : Informed s)
    (hlimiter : s'.limiter = s.limiter) (hrewritten : s'.rewritten = s.rewritten)
    (htold : s'.toldPolicy.active = s.toldPolicy.active)
    (hcall : ∀ policy call, s'.stage = .judged policy call →
      call = if policy.active = s'.policy.active then none else some policy.active) :
    Informed s' where
  limiter := by
    rw [hlimiter]
    exact h.limiter
  active := by
    rw [hlimiter, hrewritten, htold]
    exact h.active
  call := hcall

/-- **Every step of the poll thread keeps the limiter informed.** -/
theorem Informed.poll {s : DirtyrateSystem} (h : Informed s) (dirtyPages : ℕ)
    (gapNs : Fin (2 ^ 31 * 10 ^ 6)) (nowNs : ℕ) : Informed (s.poll dirtyPages gapNs nowNs) := by
  obtain ⟨limiter, fgUid, policy, stage, sampleNs, rewritten⟩ := s
  cases stage with
  | asleep => exact h.advance rfl rfl rfl fun _ _ hstage => by cases hstage
  | enabledRead enabled => exact h.advance rfl rfl rfl fun _ _ hstage => by cases hstage
  | wkbpsRead enabled wkbps => exact h.advance rfl rfl rfl fun _ _ hstage => by cases hstage
  | fgUidRead enabled wkbps uid =>
    refine h.advance rfl rfl rfl fun p call hstage => ?_
    obtain ⟨rfl, rfl⟩ := PollStage.judged.inj hstage
    exact policy.update_call _ _
  | told p => exact h.advance rfl rfl rfl fun _ _ hstage => by cases hstage
  | judged p call =>
    have hcall := h.call p call rfl
    have hactive : limiter.active = (policy.active && !rewritten) := h.active
    cases call with
    | none =>
      -- no turn, so what the limiter was told last is still right
      have hsame : p.active = policy.active := by
        by_contra hne
        rw [if_neg hne] at hcall
        cases hcall
      exact h.advance rfl rfl hsame fun _ _ hstage => by cases hstage
    | some active =>
      have hturn : active = p.active := by
        split at hcall
        · cases hcall
        · exact Option.some.inj hcall
      refine ⟨h.limiter.setActive active nowNs, ?_, fun _ _ hstage => by cases hstage⟩
      show (limiter.setActive active nowNs).active = (p.active && !!limiter.enabled)
      rw [limiter.active_setActive, Bool.not_not, hturn, Bool.and_comm]

/-- **Every step keeps the limiter informed.** -/
theorem Informed.next {s : DirtyrateSystem} (h : Informed s) (op : DirtyrateOp) :
    Informed (machine.next s op) := by
  cases op with
  | poll dirtyPages gapNs nowNs => exact h.poll dirtyPages gapNs nowNs
  | setEnabled enabled nowNs =>
    exact h.other rfl rfl (s.limiter.consistent_setEnabled enabled nowNs) (Or.inr ⟨rfl, rfl⟩)
  | setWkbps wkbps nowNs =>
    cases hset : setWkbps wkbps with
    | none =>
      have hnext : machine.next s (.setWkbps wkbps nowNs) = s := by
        show { s with limiter := (setWkbps wkbps).elim _ _ } = s
        rw [hset]
        rfl
      rw [hnext]
      exact h
    | some wbps =>
      have hnext : machine.next s (.setWkbps wkbps nowNs)
          = { s with limiter := s.limiter.setWkbpsLocked wbps nowNs } := by
        show { s with limiter := (setWkbps wkbps).elim _ _ } = _
        rw [hset]
        rfl
      rw [hnext]
      exact h.other rfl rfl (h.limiter.setWkbpsLocked wbps nowNs) (Or.inl ⟨rfl, rfl⟩)
  | setFgUid uid =>
    show Informed { s with fgUid := toS32 uid }
    exact h.other rfl rfl h.limiter (Or.inl ⟨rfl, rfl⟩)
  | dirtyRate uid fgUid nowNs =>
    obtain ⟨bucket, heq, -⟩ := s.limiter.dirtyRate_eq uid fgUid nowNs
    refine h.other rfl rfl (h.limiter.dirtyRate uid fgUid nowNs) (Or.inl ⟨?_, rfl⟩)
    show (s.limiter.dirtyRate uid fgUid nowNs).active = s.limiter.active
    rw [heq]

/-! ## In step -/

/-- **The end of a tick** is in step exactly if the limit is undisturbed. -/
theorem Informed.tickInStep_iff {s : DirtyrateSystem} (h : Informed s) (op : DirtyrateOp) :
    TickInStep s op ↔ Undisturbed s op := by
  refine forall_congr' fun hends => ?_
  obtain ⟨limiter, fgUid, policy, stage, sampleNs, rewritten⟩ := s
  cases stage with
  | asleep => exact hends.elim
  | enabledRead enabled => exact hends.elim
  | wkbpsRead enabled wkbps => exact hends.elim
  | fgUidRead enabled wkbps uid => exact hends.elim
  | judged p call => exact hends.elim
  | told p =>
    cases op with
    | setEnabled enabled nowNs => exact hends.elim
    | setWkbps wkbps nowNs => exact hends.elim
    | setFgUid uid => exact hends.elim
    | dirtyRate uid fgUid nowNs => exact hends.elim
    | poll dirtyPages gapNs nowNs =>
      have hactive : limiter.active = (p.active && !rewritten) := h.active
      show (p.active = limiter.active
          ∧ (p.active = true → limiter.active = true → limiter.bucket.wbps = limiter.configWbps))
        ↔ (p.active = true → rewritten = false)
      rw [and_iff_left fun _ => h.limiter.on, hactive]
      cases p.active <;> cases rewritten <;> decide

/-- **Every tick of a run ends in step exactly if the run leaves the limit
undisturbed**: no write of the switch comes between the turn that turned the
limit on and the end of a tick that finds the policy on. -/
theorem inStep_iff_undisturbed (nowNs : ℕ) (ops : List DirtyrateOp) :
    machine.StepsMeet TickInStep (start nowNs) ops
      ↔ machine.StepsMeet Undisturbed (start nowNs) ops :=
  StepMachine.stepsMeet_congr (fun _ op h => h.tickInStep_iff op) (fun _ op h => h.next op)
    (informed_start nowNs) ops

/-- A tick of six steps, a second after the last one. -/
def growing (dirtyPages : ℕ) : List DirtyrateOp :=
  List.replicate 6 (.poll dirtyPages (10 ^ 9) 0)

/-- **Switching on what is on** turns the limit off, and the policy does not
learn of it. -/
theorem out_of_step_reenabled :
    ¬ machine.StepsMeet TickInStep (start 0)
      ([.setEnabled true 0, .setWkbps 1024 0, .setFgUid 10123] ++ growing 0 ++ growing 1000
        ++ growing 2000 ++ growing 3000 ++ [.setEnabled true 0] ++ growing 4000) := by
  decide

end DirtyrateSystem
