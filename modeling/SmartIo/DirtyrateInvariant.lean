import SmartIo.DirtyrateLimiter

/-!
# What the token bucket keeps

The bucket of the limiter is reset by the settings, refilled and charged. Its
numbers are `u64`, and nothing in a refill checks a product: it is safe because
of the order of its tests. A refill that tops the bucket off is found from the
*time* that the missing bytes cost, so the bytes of a refill that does not are
fewer than the missing ones (`bytesForNs_lt_missing`), however long the gap.

That this is so is stated with a second version of the two functions, in which
every operation fails when its exact result does not fit or its divisor is zero:
in every state that a run of the limiter reaches, the checked version does not
fail and computes what the model of the code computes.
-/

/-! ## Checked arithmetic -/

/-- A `u64` number, if it is one. -/
def checkedU64 (n : ℕ) : Option ℕ := if n ≤ u64Max then some n else none

/-- A sum that must fit. -/
def checkedAdd (a b : ℕ) : Option ℕ := checkedU64 (a + b)

/-- A difference that must not be negative. -/
def checkedSub (a b : ℕ) : Option ℕ := if b ≤ a then some (a - b) else none

/-- A product that must fit. -/
def checkedMul (a b : ℕ) : Option ℕ := checkedU64 (a * b)

/-- A quotient and a remainder, by a divisor that must not be zero. -/
def checkedDivRem (a b : ℕ) : Option (ℕ × ℕ) := if b = 0 then none else some (a / b, a % b)

/-- `mul_u64_u64_div_u64`, whose result must fit. -/
def checkedMulDiv (a b c : ℕ) : Option ℕ := if c = 0 then none else checkedU64 (a * b / c)

@[simp] theorem checkedU64_of_le {n : ℕ} (h : n ≤ u64Max) : checkedU64 n = some n := if_pos h

@[simp] theorem checkedAdd_of_le {a b : ℕ} (h : a + b ≤ u64Max) :
    checkedAdd a b = some (a + b) := checkedU64_of_le h

@[simp] theorem checkedSub_of_le {a b : ℕ} (h : b ≤ a) : checkedSub a b = some (a - b) := if_pos h

@[simp] theorem checkedMul_of_le {a b : ℕ} (h : a * b ≤ u64Max) :
    checkedMul a b = some (a * b) := checkedU64_of_le h

@[simp] theorem checkedDivRem_of_ne {a b : ℕ} (h : b ≠ 0) :
    checkedDivRem a b = some (a / b, a % b) := if_neg h

@[simp] theorem checkedMulDiv_of_le {a b c : ℕ} (hc : c ≠ 0) (h : a * b / c ≤ u64Max) :
    checkedMulDiv a b c = some (a * b / c) := (if_neg hc).trans (checkedU64_of_le h)

/-- `dirtyrate_add_sat`, every operation checked. -/
def checkedAddSat (left right : ℕ) : Option ℕ := do
  let room ← checkedSub u64Max left
  if room < right then pure u64Max else checkedAdd left right

/-- `dirtyrate_ns_for_bytes`, every operation checked. -/
def checkedNsForBytes (bytes rateBps : ℕ) (roundUp : Bool) : Option ℕ := do
  let seconds ← checkedDivRem bytes rateBps
  if u64Max / nsecPerSec < seconds.1 then pure u64Max
  else
    let wholeNs ← checkedMul seconds.1 nsecPerSec
    let restNs ← checkedMulDiv seconds.2 nsecPerSec rateBps
    let durationNs ← checkedAddSat wholeNs restNs
    if roundUp && decide (seconds.2 ≠ 0) then checkedAddSat durationNs 1 else pure durationNs

/-- `dirtyrate_refill_locked`, every operation checked. -/
def DirtyrateBucket.checkedRefill (b : DirtyrateBucket) (nowNs : ℕ) : Option DirtyrateBucket :=
  if b.wbps = 0 ∨ b.burstBytes = 0 then some b
  else if b.burstBytes ≤ b.tokens then some (b.fill nowNs)
  else if nowNs ≤ b.lastRefillNs then some b
  else do
    let elapsed ← checkedSub nowNs b.lastRefillNs
    let missing ← checkedSub b.burstBytes b.tokens
    let fullRefillNs ← checkedNsForBytes missing b.wbps true
    if fullRefillNs ≤ elapsed then pure (b.fill nowNs)
    else
      let added ← checkedMulDiv elapsed b.wbps nsecPerSec
      if added = 0 then pure b
      else if missing ≤ added then pure (b.fill nowNs)
      else
        let tokens ← checkedAdd b.tokens added
        let advanced ← checkedNsForBytes added b.wbps false
        let lastRefillNs ← checkedAddSat b.lastRefillNs (max advanced 1)
        pure { b with tokens := tokens, lastRefillNs := min nowNs lastRefillNs }

/-- A saturating sum does not overflow. -/
theorem checkedAddSat_eq {a b : ℕ} (h : a ≤ u64Max) : checkedAddSat a b = some (addSat a b) := by
  unfold checkedAddSat addSat
  rw [checkedSub_of_le h, Option.bind_eq_bind, Option.bind_some]
  split
  · rfl
  · exact checkedAdd_of_le (by omega)

/-- A saturating sum fits. -/
theorem addSat_le {a b : ℕ} (h : a ≤ u64Max) : addSat a b ≤ u64Max := by
  unfold addSat
  generalize u64Max = most at h ⊢
  split <;> omega

/-- **The time of a number of bytes** is computed without an overflow, for any
rate that is not zero. -/
theorem checkedNsForBytes_eq {bytes rateBps : ℕ} (h : rateBps ≠ 0) (roundUp : Bool) :
    checkedNsForBytes bytes rateBps roundUp = some (nsForBytes bytes rateBps roundUp) := by
  have hdiv : checkedNsForBytes bytes rateBps roundUp
      = if u64Max / nsecPerSec < bytes / rateBps then some u64Max
        else
          (checkedMul (bytes / rateBps) nsecPerSec).bind fun wholeNs =>
          (checkedMulDiv (bytes % rateBps) nsecPerSec rateBps).bind fun restNs =>
          (checkedAddSat wholeNs restNs).bind fun durationNs =>
          if roundUp && decide (bytes % rateBps ≠ 0) then checkedAddSat durationNs 1
          else some durationNs := by
    unfold checkedNsForBytes
    rw [checkedDivRem_of_ne h]
    rfl
  rw [hdiv]
  unfold nsForBytes
  by_cases hsec : u64Max / nsecPerSec < bytes / rateBps
  · rw [if_pos hsec, if_pos hsec]
  rw [if_neg hsec, if_neg hsec]
  -- whole seconds fit because of the test, the rest is less than a second
  have hwhole : bytes / rateBps * nsecPerSec ≤ u64Max :=
    (Nat.mul_le_mul_right _ (not_lt.mp hsec)).trans (Nat.div_mul_le_self _ _)
  have hrest : bytes % rateBps * nsecPerSec / rateBps ≤ u64Max := by
    refine (Nat.div_le_of_le_mul ?_).trans (show nsecPerSec ≤ u64Max by decide)
    exact Nat.mul_le_mul_right _ (Nat.mod_lt _ (Nat.pos_of_ne_zero h)).le
  rw [checkedMul_of_le hwhole, checkedMulDiv_of_le h hrest, Option.bind_some, Option.bind_some,
    checkedAddSat_eq hwhole, Option.bind_some]
  dsimp only
  by_cases hup : (roundUp && decide (bytes % rateBps ≠ 0)) = true
  · rw [if_pos hup, if_pos hup]
    exact checkedAddSat_eq (addSat_le hwhole)
  · rw [if_neg hup, if_neg hup]

/-! ## One refill -/

/-- **A bucket as the code keeps it** at a time: no more tokens than the burst,
the burst of the rate, a rate that the configuration accepts, and a stamp that
is not in the future. -/
structure DirtyrateBucket.Sound (b : DirtyrateBucket) (nowNs : ℕ) : Prop where
  tokens : b.tokens ≤ b.burstBytes
  idle : b.wbps = 0 → b.burstBytes = 0
  burst : b.wbps ≠ 0 → b.burstBytes = max pageSize (b.wbps / 8)
  rate : b.wbps ≠ 0 → 1024 ≤ b.wbps
  fits : b.wbps ≤ u64Max
  stamp : b.lastRefillNs ≤ nowNs

namespace DirtyrateBucket

/-- **Time pays for bytes**: the time computed for a number of bytes, rounded up,
is enough for them. -/
theorem paid_of_nsForBytes_le {bytes rateBps elapsed : ℕ} (h : 0 < rateBps)
    (hle : bytes ≤ 4 * rateBps) (hwait : nsForBytes bytes rateBps true ≤ elapsed) :
    bytes ≤ bytesForNs elapsed rateBps := by
  unfold bytesForNs
  rw [Nat.le_div_iff_mul_le (by decide), Nat.mul_comm elapsed]
  rw [nsForBytes_eq h hle] at hwait
  refine le_trans ?_ (Nat.mul_le_mul_left _ hwait)
  by_cases hrem : bytes % rateBps = 0
  · -- whole seconds: nothing is rounded
    have hdvd : rateBps ∣ bytes * nsecPerSec := (Nat.dvd_of_mod_eq_zero hrem).mul_right _
    rw [Nat.mul_add, Nat.mul_div_cancel' hdvd]
    exact Nat.le_add_right _ _
  · rw [show (true && decide (bytes % rateBps ≠ 0)).toNat = 1 by simp [hrem]]
    exact (Nat.lt_mul_div_succ _ h).le

/-- **Less time than the missing bytes cost** pays for no more than them. -/
theorem bytesForNs_le_of_lt {bytes rateBps elapsed : ℕ} (h : 0 < rateBps)
    (hle : bytes ≤ 4 * rateBps) (hlt : elapsed < nsForBytes bytes rateBps true) :
    bytesForNs elapsed rateBps ≤ bytes := by
  rw [nsForBytes_eq h hle] at hlt
  have hbit : (true && decide (bytes % rateBps ≠ 0)).toNat ≤ 1 := Bool.toNat_le _
  have helapsed : elapsed ≤ bytes * nsecPerSec / rateBps := by omega
  unfold bytesForNs
  refine Nat.div_le_of_le_mul ?_
  rw [Nat.mul_comm nsecPerSec]
  exact (Nat.le_div_iff_mul_le h).mp helapsed

/-- A page taken from the bucket. -/
def charge (b : DirtyrateBucket) : DirtyrateBucket :=
  { b with tokens := b.tokens - pageSize }

section Refill

variable {b : DirtyrateBucket} {nowNs : ℕ}

theorem Sound.burst_pos (h : b.Sound nowNs) (hrate : b.wbps ≠ 0) : pageSize ≤ b.burstBytes := by
  rw [h.burst hrate]
  exact le_max_left _ _

/-- The burst is a few seconds' worth of bytes. -/
theorem Sound.burst_le (h : b.Sound nowNs) (hrate : b.wbps ≠ 0) :
    b.burstBytes ≤ 4 * b.wbps := by
  have hmin := h.rate hrate
  rw [h.burst hrate]
  unfold pageSize
  omega

/-- Time that passes does no harm. -/
theorem Sound.later (h : b.Sound nowNs) {laterNs : ℕ} (hle : nowNs ≤ laterNs) :
    b.Sound laterNs :=
  { h with stamp := h.stamp.trans hle }

/-- Fewer tokens are sound. -/
theorem Sound.spend (h : b.Sound nowNs) {tokens : ℕ} (hle : tokens ≤ b.tokens) :
    Sound { b with tokens := tokens } nowNs :=
  { h with tokens := hle.trans h.tokens }

/-- Charging a page keeps the bucket sound. -/
theorem Sound.charge (h : b.Sound nowNs) : b.charge.Sound nowNs := h.spend (Nat.sub_le _ _)

/-- **What a refill leaves**: the tokens and what the time pays for, up to the
burst. -/
theorem Sound.tokens_refillLocked (h : b.Sound nowNs) (hrate : b.wbps ≠ 0) (laterNs : ℕ) :
    (b.refillLocked laterNs).tokens
      = min b.burstBytes (b.tokens + bytesForNs (laterNs - b.lastRefillNs) b.wbps) := by
  have hpos : 0 < b.wbps := Nat.pos_of_ne_zero hrate
  have hburst : b.burstBytes ≠ 0 := by
    have := h.burst_pos hrate
    unfold pageSize at this
    omega
  have htokens := h.tokens
  have hmissing : b.burstBytes - b.tokens ≤ 4 * b.wbps :=
    (Nat.sub_le _ _).trans (h.burst_le hrate)
  unfold refillLocked
  rw [if_neg (not_or.mpr ⟨hrate, hburst⟩)]
  split
  · next hfull =>
    show b.burstBytes = _
    omega
  split
  · next hlate =>
    rw [Nat.sub_eq_zero_of_le hlate, bytesForNs, Nat.zero_mul, Nat.zero_div]
    omega
  dsimp only
  split
  · next hwait =>
    have hpaid := paid_of_nsForBytes_le hpos hmissing hwait
    show b.burstBytes = _
    omega
  split
  · next hzero => omega
  split
  · show b.burstBytes = _
    omega
  · show b.tokens + _ = _
    omega

/-- **The stamp moves forward**, and not past the present. -/
theorem Sound.stamp_refillLocked (h : b.Sound nowNs) {laterNs : ℕ} (hle : nowNs ≤ laterNs)
    (hmax : laterNs ≤ u64Max) :
    b.lastRefillNs ≤ (b.refillLocked laterNs).lastRefillNs
      ∧ (b.refillLocked laterNs).lastRefillNs ≤ laterNs := by
  have hstamp := h.stamp.trans hle
  unfold refillLocked
  split
  · exact ⟨le_rfl, hstamp⟩
  split
  · exact ⟨hstamp, le_rfl⟩
  split
  · exact ⟨le_rfl, hstamp⟩
  dsimp only
  split
  · exact ⟨hstamp, le_rfl⟩
  split
  · exact ⟨le_rfl, hstamp⟩
  split
  · exact ⟨hstamp, le_rfl⟩
  · dsimp only
    refine ⟨le_min hstamp ?_, min_le_left _ _⟩
    unfold addSat
    split <;> omega

/-- A refill keeps the rate and the burst. -/
theorem burstBytes_refillLocked (b : DirtyrateBucket) (nowNs : ℕ) :
    (b.refillLocked nowNs).burstBytes = b.burstBytes := by
  unfold refillLocked fill
  dsimp only
  split_ifs <;> rfl

/-- A bucket at no rate is left alone. -/
theorem refillLocked_idle (hrate : b.wbps = 0) (nowNs : ℕ) : b.refillLocked nowNs = b := by
  unfold refillLocked
  exact if_pos (Or.inl hrate)

/-- **A refill adds tokens**, and no more than the burst holds. -/
theorem Sound.tokens_le_refillLocked (h : b.Sound nowNs) (laterNs : ℕ) :
    b.tokens ≤ (b.refillLocked laterNs).tokens
      ∧ (b.refillLocked laterNs).tokens ≤ b.burstBytes := by
  by_cases hrate : b.wbps = 0
  · rw [refillLocked_idle hrate]
    exact ⟨le_rfl, h.tokens⟩
  · rw [h.tokens_refillLocked hrate]
    exact ⟨le_min h.tokens (Nat.le_add_right _ _), min_le_left _ _⟩

/-- A refill keeps the bucket sound. -/
theorem Sound.refillLocked (h : b.Sound nowNs) {laterNs : ℕ} (hle : nowNs ≤ laterNs)
    (hmax : laterNs ≤ u64Max) : (b.refillLocked laterNs).Sound laterNs where
  tokens := by
    rw [burstBytes_refillLocked]
    exact (h.tokens_le_refillLocked laterNs).2
  idle hrate := by
    rw [wbps_refillLocked] at hrate
    rw [burstBytes_refillLocked]
    exact h.idle hrate
  burst hrate := by
    rw [wbps_refillLocked] at hrate
    rw [burstBytes_refillLocked, wbps_refillLocked]
    exact h.burst hrate
  rate hrate := by
    rw [wbps_refillLocked] at hrate ⊢
    exact h.rate hrate
  fits := by
    rw [wbps_refillLocked]
    exact h.fits
  stamp := (h.stamp_refillLocked hle hmax).2

/-- **No operation of a refill overflows**, and none divides by zero. -/
theorem Sound.checkedRefill_eq (h : b.Sound nowNs) {laterNs : ℕ} (hle : nowNs ≤ laterNs)
    (hmax : laterNs ≤ u64Max) : b.checkedRefill laterNs = some (b.refillLocked laterNs) := by
  unfold checkedRefill DirtyrateBucket.refillLocked
  split
  · rfl
  next hon =>
  have hrate : b.wbps ≠ 0 := fun hzero => hon (Or.inl hzero)
  have hpos : 0 < b.wbps := Nat.pos_of_ne_zero hrate
  have hburst : b.burstBytes ≤ 4 * b.wbps := h.burst_le hrate
  have hfits : b.burstBytes ≤ u64Max := by
    rw [h.burst hrate]
    exact max_le (by decide) ((Nat.div_le_self _ _).trans h.fits)
  split
  · rfl
  next hroom =>
  split
  · rfl
  next hlate =>
  rw [not_le] at hroom hlate
  simp only [checkedSub_of_le hlate.le, checkedSub_of_le hroom.le, checkedNsForBytes_eq hrate,
    Option.bind_eq_bind, Option.bind_some]
  split
  · rfl
  next hwait =>
  -- the time is less than the missing bytes cost, so its bytes are no more than they
  have hadded := bytesForNs_le_of_lt hpos ((Nat.sub_le _ _).trans hburst) (not_le.mp hwait)
  unfold bytesForNs at hadded
  have hsum : b.tokens + (laterNs - b.lastRefillNs) * b.wbps / nsecPerSec ≤ b.burstBytes := by
    omega
  simp only [checkedMulDiv_of_le (show nsecPerSec ≠ 0 by decide)
    ((hadded.trans (Nat.sub_le _ _)).trans hfits), Option.bind_some]
  unfold bytesForNs
  split
  · rfl
  split
  · rfl
  · simp only [checkedAdd_of_le (hsum.trans hfits),
      checkedAddSat_eq ((h.stamp.trans hle).trans hmax), Option.bind_some]
    rfl

end Refill

end DirtyrateBucket

/-! ## Runs of the limiter -/

/-- A limiter in use, and the latest time that a lock section has read. -/
structure LimiterRun where
  limiter : DirtyrateLimiter
  nowNs : ℕ
deriving DecidableEq, Repr

/-- What happens to a limiter: a setting is written, the bucket is refilled, or a
page is charged. Times and settings are `u64`. -/
inductive LimiterOp where
  | setEnabled (enabled : Bool) (nowNs : Fin (2 ^ 64))
  | setWkbps (wkbps : Fin (2 ^ 64)) (nowNs : Fin (2 ^ 64))
  | setActive (active : Bool) (nowNs : Fin (2 ^ 64))
  | refill (nowNs : Fin (2 ^ 64))
  | charge
deriving DecidableEq, Repr

namespace LimiterRun

/-- What a lock section leaves at the time it reads. Time does not go back. -/
def atTime (r : LimiterRun) (nowNs : Fin (2 ^ 64)) (limiter : DirtyrateLimiter) : LimiterRun :=
  if nowNs.val < r.nowNs then r else ⟨limiter, nowNs⟩

/-- One step. A rate that the configuration does not accept is refused before the
lock is taken; a page is charged if it can be paid. -/
def step (r : LimiterRun) : LimiterOp → LimiterRun
  | .setEnabled enabled nowNs => r.atTime nowNs (r.limiter.setEnabled enabled nowNs)
  | .setWkbps wkbps nowNs =>
    match setWkbps wkbps with
    | none => r
    | some wbps => r.atTime nowNs (r.limiter.setWkbpsLocked wbps nowNs)
  | .setActive active nowNs => r.atTime nowNs (r.limiter.setActive active nowNs)
  | .refill nowNs =>
    r.atTime nowNs { r.limiter with bucket := r.limiter.bucket.refillLocked nowNs }
  | .charge =>
    if r.limiter.bucket.tokens < pageSize then r
    else { r with limiter := { r.limiter with bucket := r.limiter.bucket.charge } }

/-- Static memory, before any lock section. -/
def start : LimiterRun := ⟨.zero, 0⟩

/-- **The limiter as a machine.** -/
def machine : StepMachine LimiterRun LimiterOp Unit where
  init r := r = start
  step r op := (r.step op, ())

/-- **The lock section of a task that dirties a page** leaves the limiter alone,
or refills the bucket and then charges the page if it can be paid. -/
theorem dirtyRate_eq_steps (r : LimiterRun) (uid : Fin (2 ^ 32)) (fgUid : ℤ)
    {nowNs : Fin (2 ^ 64)} (hle : r.nowNs ≤ nowNs) :
    r.limiter.dirtyRate uid fgUid nowNs = r.limiter
      ∨ r.limiter.dirtyRate uid fgUid nowNs
        = (machine.run r [.refill nowNs, .charge]).limiter := by
  unfold DirtyrateLimiter.dirtyRate
  split
  · exact Or.inl rfl
  split
  · exact Or.inl rfl
  · refine Or.inr ?_
    have hrefill : machine.next r (.refill nowNs)
        = ⟨{ r.limiter with bucket := r.limiter.bucket.refillLocked nowNs }, nowNs⟩ :=
      if_neg (not_lt.mpr hle)
    show _ = (step (machine.next r (.refill nowNs)) .charge).limiter
    rw [hrefill]
    unfold step
    dsimp only
    by_cases hpage : pageSize ≤ (r.limiter.bucket.refillLocked nowNs).tokens
    · rw [if_pos hpage, if_neg (not_lt.mpr hpage)]
      rfl
    · rw [if_neg hpage, if_pos (not_le.mp hpage)]

/-- A rate that the configuration accepts. -/
def AcceptedRate (wbps : ℕ) : Prop := (wbps ≠ 0 → 1024 ≤ wbps) ∧ wbps ≤ u64Max

/-- **The invariant of the limiter**: a bucket as the code keeps it, and a
configured rate that was accepted. -/
structure Sound (r : LimiterRun) : Prop where
  bucket : r.limiter.bucket.Sound r.nowNs
  config : AcceptedRate r.limiter.configWbps
  clock : r.nowNs ≤ u64Max

theorem acceptedRate_zero : AcceptedRate 0 := ⟨fun h => absurd rfl h, Nat.zero_le _⟩

/-- What `set_wkbps` accepts is a rate that was accepted. -/
theorem acceptedRate_setWkbps {wkbps wbps : ℕ} (h : setWkbps wkbps = some wbps) :
    AcceptedRate wbps := by
  unfold setWkbps at h
  split at h
  · exact absurd h.symm (Option.some_ne_none _)
  next hfits =>
  rw [Option.some.injEq] at h
  refine ⟨fun hne => ?_, ?_⟩
  · have hpos : wkbps ≠ 0 := by
      intro hzero
      exact hne (by rw [← h, hzero, Nat.zero_mul])
    show dirtyrateKibBytes ≤ _
    rw [← h]
    exact Nat.le_mul_of_pos_left _ (Nat.pos_of_ne_zero hpos)
  · rw [← h]
    exact (Nat.mul_le_mul_right _ (not_lt.mp hfits)).trans (Nat.div_mul_le_self _ _)

/-- A bucket just reset to an accepted rate is sound. -/
theorem sound_resetBucketLocked {wbps : ℕ} (h : AcceptedRate wbps) (nowNs : ℕ) :
    (DirtyrateBucket.resetBucketLocked wbps nowNs).Sound nowNs where
  tokens := le_rfl
  idle hrate := if_pos hrate
  burst hrate := if_neg hrate
  rate := h.1
  fits := h.2
  stamp := le_rfl

/-- A lock section that leaves a sound limiter. -/
theorem Sound.atTime {r : LimiterRun} (h : r.Sound) {nowNs : Fin (2 ^ 64)}
    {limiter : DirtyrateLimiter}
    (hnew : r.nowNs ≤ nowNs → limiter.bucket.Sound nowNs ∧ AcceptedRate limiter.configWbps) :
    (r.atTime nowNs limiter).Sound := by
  unfold LimiterRun.atTime
  split
  · exact h
  next hclock =>
  obtain ⟨hbucket, hconfig⟩ := hnew (not_lt.mp hclock)
  exact ⟨hbucket, hconfig, Nat.le_sub_one_of_lt nowNs.isLt⟩

/-- Turning the limit on or off keeps the limiter sound. -/
theorem Sound.setActive {r : LimiterRun} (h : r.Sound) (active : Bool) {nowNs : ℕ}
    (hle : r.nowNs ≤ nowNs) :
    (r.limiter.setActive active nowNs).bucket.Sound nowNs
      ∧ AcceptedRate (r.limiter.setActive active nowNs).configWbps := by
  unfold DirtyrateLimiter.setActive
  dsimp only
  split
  · exact ⟨h.bucket.later hle, h.config⟩
  · refine ⟨?_, h.config⟩
    dsimp only
    split
    · exact sound_resetBucketLocked h.config nowNs
    · exact sound_resetBucketLocked acceptedRate_zero nowNs

/-- Writing the rate keeps the limiter sound. -/
theorem Sound.setWkbpsLocked {r : LimiterRun} (h : r.Sound) {wbps : ℕ}
    (hrate : AcceptedRate wbps) {nowNs : ℕ} (hle : r.nowNs ≤ nowNs) :
    (r.limiter.setWkbpsLocked wbps nowNs).bucket.Sound nowNs := by
  unfold DirtyrateLimiter.setWkbpsLocked
  dsimp only
  split
  · exact sound_resetBucketLocked hrate nowNs
  · exact h.bucket.later hle

/-- Another bucket, as the code keeps one. -/
theorem Sound.withBucket {r : LimiterRun} (h : r.Sound) {bucket : DirtyrateBucket}
    (hbucket : bucket.Sound r.nowNs) :
    Sound { r with limiter := { r.limiter with bucket := bucket } } :=
  ⟨hbucket, h.config, h.clock⟩

/-- **One step** keeps the limiter sound. -/
theorem sound_step (r : LimiterRun) (op : LimiterOp) (h : r.Sound) :
    (machine.next r op).Sound := by
  cases op with
  | setEnabled enabled nowNs =>
    exact h.atTime fun _ => ⟨sound_resetBucketLocked acceptedRate_zero nowNs, h.config⟩
  | setWkbps wkbps nowNs =>
    show (match setWkbps wkbps with
      | none => r
      | some wbps => r.atTime nowNs (r.limiter.setWkbpsLocked wbps nowNs)).Sound
    cases hset : setWkbps wkbps with
    | none => exact h
    | some wbps =>
      have hrate := acceptedRate_setWkbps hset
      exact h.atTime fun hle => ⟨h.setWkbpsLocked hrate hle, hrate⟩
  | setActive active nowNs => exact h.atTime fun hle => h.setActive active hle
  | refill nowNs =>
    exact h.atTime fun hle =>
      ⟨h.bucket.refillLocked hle (Nat.le_sub_one_of_lt nowNs.isLt), h.config⟩
  | charge =>
    show (if r.limiter.bucket.tokens < pageSize then r
      else { r with limiter := { r.limiter with bucket := r.limiter.bucket.charge } }).Sound
    split
    · exact h
    · exact h.withBucket h.bucket.charge

/-- Static memory is sound. -/
theorem sound_start : start.Sound where
  bucket := ⟨le_rfl, fun _ => rfl, fun h => absurd rfl h, fun h => absurd rfl h, Nat.zero_le _,
    le_rfl⟩
  config := acceptedRate_zero
  clock := Nat.zero_le _

theorem sound_of_reachable {r : LimiterRun} (h : machine.Reachable r) : r.Sound :=
  h.invariant (fun _ h₀ => h₀ ▸ sound_start) sound_step

/-- A lock section that leaves a consistent limiter. -/
theorem consistent_atTime {r : LimiterRun} (h : r.limiter.Consistent) (nowNs : Fin (2 ^ 64))
    {limiter : DirtyrateLimiter} (hnew : limiter.Consistent) :
    (r.atTime nowNs limiter).limiter.Consistent := by
  unfold LimiterRun.atTime
  split
  · exact h
  · exact hnew

/-- **One step** keeps the limiter consistent. -/
theorem consistent_step (r : LimiterRun) (op : LimiterOp) (h : r.limiter.Consistent) :
    (machine.next r op).limiter.Consistent := by
  cases op with
  | setEnabled enabled nowNs =>
    exact consistent_atTime h nowNs (r.limiter.consistent_setEnabled enabled nowNs)
  | setWkbps wkbps nowNs =>
    show (match setWkbps wkbps with
      | none => r
      | some wbps => r.atTime nowNs (r.limiter.setWkbpsLocked wbps nowNs)).limiter.Consistent
    cases setWkbps wkbps with
    | none => exact h
    | some wbps => exact consistent_atTime h nowNs (h.setWkbpsLocked wbps nowNs)
  | setActive active nowNs => exact consistent_atTime h nowNs (h.setActive active nowNs)
  | refill nowNs =>
    exact consistent_atTime h nowNs (h.withBucket (r.limiter.bucket.wbps_refillLocked nowNs))
  | charge =>
    show (if r.limiter.bucket.tokens < pageSize then r
      else { r with limiter :=
        { r.limiter with bucket := r.limiter.bucket.charge } }).limiter.Consistent
    split
    · exact h
    · exact h.spend _

theorem consistent_of_reachable {r : LimiterRun} (h : machine.Reachable r) :
    r.limiter.Consistent :=
  h.invariant (I := fun r => r.limiter.Consistent)
    (fun _ h₀ => h₀ ▸ DirtyrateLimiter.consistent_zero) consistent_step

/-- **What the bucket keeps**, in every state that a run reaches: the tokens are
within the burst, the burst is that of a rate, the stamp is not in the future; a
refill neither takes tokens nor moves the stamp back; and nothing in it, nor in
the time of a number of bytes, overflows or divides by zero. -/
theorem bucket_invariant {r : LimiterRun} (h : machine.Reachable r) :
    r.limiter.bucket.tokens ≤ r.limiter.bucket.burstBytes
      ∧ (r.limiter.bucket.wbps = 0 → r.limiter.bucket.burstBytes = 0)
      ∧ (r.limiter.bucket.wbps ≠ 0 → pageSize ≤ r.limiter.bucket.burstBytes)
      ∧ r.limiter.bucket.lastRefillNs ≤ r.nowNs
      ∧ (∀ nowNs : Fin (2 ^ 64), r.nowNs ≤ nowNs →
          r.limiter.bucket.tokens ≤ (r.limiter.bucket.refillLocked nowNs).tokens
          ∧ r.limiter.bucket.lastRefillNs
            ≤ (r.limiter.bucket.refillLocked nowNs).lastRefillNs
          ∧ r.limiter.bucket.checkedRefill nowNs
            = some (r.limiter.bucket.refillLocked nowNs))
      ∧ ∀ bytes roundUp, r.limiter.bucket.wbps ≠ 0 →
          checkedNsForBytes bytes r.limiter.bucket.wbps roundUp
            = some (nsForBytes bytes r.limiter.bucket.wbps roundUp) := by
  have hsound := (sound_of_reachable h).bucket
  refine ⟨hsound.tokens, hsound.idle, hsound.burst_pos, hsound.stamp, ?_, ?_⟩
  · intro nowNs hle
    have hmax : nowNs.val ≤ u64Max := Nat.le_sub_one_of_lt nowNs.isLt
    exact ⟨(hsound.tokens_le_refillLocked nowNs).1, (hsound.stamp_refillLocked hle hmax).1,
      hsound.checkedRefill_eq hle hmax⟩
  · intro bytes roundUp hrate
    exact checkedNsForBytes_eq hrate roundUp

/-- A limit of a mebibyte a second with a page taken from it, and a refill a
millisecond later. -/
theorem bucket_invariant_page :
    let r := machine.run start
      [.setEnabled true 1, .setWkbps 1024 2, .setActive true 3, .charge]
    r.limiter.bucket.tokens ≤ r.limiter.bucket.burstBytes
      ∧ r.limiter.bucket.tokens ≤ (r.limiter.bucket.refillLocked 1000003).tokens := by
  intro r
  have hr : machine.Reachable r := ⟨start, _, rfl, rfl⟩
  obtain ⟨htokens, -, -, -, hrefill, -⟩ := bucket_invariant hr
  exact ⟨htokens, (hrefill 1000003 (by decide)).1⟩

end LimiterRun
