import Mathlib.Tactic.Linarith
import Mathlib.Tactic.Ring
import SmartIo.KernelInt
import SmartIo.StepMachine

/-!
# The token bucket of the dirty rate

A task that dirties a page pays for it from a bucket that refills with time.
The bucket keeps two numbers: the tokens left, and the time up to which the
refills have been paid out (`last_refill_ns`). A refill turns the time that has
passed into bytes, rounded down, and turns the bytes back into time to move the
stamp – rounded down again, so that what is left of the time is not lost.

The bound one expects – bytes charged and tokens left never exceed the burst
and what the rate allows for the time – is the statement that every byte is
backed by time (`Backed`). It survives the first rounding and not the second:
the time of `added` bytes, rounded down, may be less than what the bytes cost,
and the difference is paid out twice. A refill that does not round is one whose
bytes cost a whole number of nanoseconds, or less than one (`Covered`), and
along a run of such refills the bound holds.
-/

/-- `NSEC_PER_SEC`. -/
def nsecPerSec : ℕ := 10 ^ 9

/-- `PAGE_SIZE`. -/
def pageSize : ℕ := 4096

/-- `SMART_IO_DIRTYRATE_KIB_BYTES`. -/
def dirtyrateKibBytes : ℕ := 1024

/-! ## The arithmetic of rates -/

/-- `dirtyrate_add_sat`. -/
def addSat (left right : ℕ) : ℕ := if u64Max - left < right then u64Max else left + right

/-- `dirtyrate_bytes_for_ns`. -/
def bytesForNs (durationNs rateBps : ℕ) : ℕ := durationNs * rateBps / nsecPerSec

/-- `dirtyrate_ns_for_bytes`. -/
def nsForBytes (bytes rateBps : ℕ) (roundUp : Bool) : ℕ :=
  if u64Max / nsecPerSec < bytes / rateBps then u64Max
  else
    let durationNs := addSat (bytes / rateBps * nsecPerSec)
      (bytes % rateBps * nsecPerSec / rateBps)
    if roundUp && decide (bytes % rateBps ≠ 0) then addSat durationNs 1 else durationNs

/-- A sum that fits does not saturate. -/
theorem addSat_of_le {a b : ℕ} (h : a + b ≤ u64Max) : addSat a b = a + b := by
  unfold addSat
  rw [if_neg (by omega)]

/-- Whole seconds and the rest of them make up the time of a number of bytes. -/
theorem seconds_add_rest (bytes rateBps : ℕ) (h : 0 < rateBps) :
    bytes / rateBps * nsecPerSec + bytes % rateBps * nsecPerSec / rateBps
      = bytes * nsecPerSec / rateBps := by
  have hsplit : bytes * nsecPerSec
      = bytes % rateBps * nsecPerSec + rateBps * (bytes / rateBps * nsecPerSec) := by
    calc bytes * nsecPerSec
        = (bytes % rateBps + rateBps * (bytes / rateBps)) * nsecPerSec := by
          rw [Nat.mod_add_div]
      _ = _ := by ring
  rw [hsplit, Nat.add_mul_div_left _ _ h, Nat.add_comm]

/-- **The time of a few seconds' worth of bytes** is exact, up to the two
roundings. -/
theorem nsForBytes_eq {bytes rateBps : ℕ} (h : 0 < rateBps) (hle : bytes ≤ 4 * rateBps)
    (roundUp : Bool) :
    nsForBytes bytes rateBps roundUp
      = bytes * nsecPerSec / rateBps
        + (roundUp && decide (bytes % rateBps ≠ 0)).toNat := by
  have hsec : bytes / rateBps ≤ 4 := Nat.div_le_of_le_mul (by omega)
  have hns : bytes * nsecPerSec / rateBps ≤ 4 * nsecPerSec := by
    refine Nat.div_le_of_le_mul ?_
    calc bytes * nsecPerSec ≤ 4 * rateBps * nsecPerSec := Nat.mul_le_mul_right _ hle
      _ = rateBps * (4 * nsecPerSec) := by ring
  have hmax : 4 * nsecPerSec + 1 ≤ u64Max := by decide
  have hsmall : ¬ u64Max / nsecPerSec < bytes / rateBps := by
    have : 4 ≤ u64Max / nsecPerSec := by decide
    omega
  unfold nsForBytes
  rw [if_neg hsmall, addSat_of_le (by rw [seconds_add_rest _ _ h]; omega),
    seconds_add_rest _ _ h]
  dsimp only
  cases (roundUp && decide (bytes % rateBps ≠ 0)) with
  | false => rfl
  | true =>
    rw [if_pos rfl, addSat_of_le (by omega)]
    rfl

/-! ## The bucket -/

/-- The static variables of the bucket. -/
structure DirtyrateBucket where
  /-- `dirtyrate_wbps`. -/
  wbps : ℕ
  /-- `dirtyrate_burst_bytes`. -/
  burstBytes : ℕ
  /-- `dirtyrate_tokens`. -/
  tokens : ℕ
  /-- `dirtyrate_last_refill_ns`. -/
  lastRefillNs : ℕ
deriving DecidableEq, Repr

/-- The rate `smart_io_dirtyrate_set_wkbps` configures, if it accepts the
number. -/
def setWkbps (wkbps : ℕ) : Option ℕ :=
  if u64Max / dirtyrateKibBytes < wkbps then none else some (wkbps * dirtyrateKibBytes)

namespace DirtyrateBucket

/-- `dirtyrate_reset_bucket_locked`. -/
def resetBucketLocked (wbps nowNs : ℕ) : DirtyrateBucket where
  wbps := wbps
  burstBytes := if wbps = 0 then 0 else max pageSize (wbps / 8)
  tokens := if wbps = 0 then 0 else max pageSize (wbps / 8)
  lastRefillNs := nowNs

/-- A bucket filled up. -/
def fill (b : DirtyrateBucket) (nowNs : ℕ) : DirtyrateBucket :=
  { b with tokens := b.burstBytes, lastRefillNs := nowNs }

/-- `dirtyrate_refill_locked`. -/
def refillLocked (b : DirtyrateBucket) (nowNs : ℕ) : DirtyrateBucket :=
  if b.wbps = 0 ∨ b.burstBytes = 0 then b
  else if b.burstBytes ≤ b.tokens then b.fill nowNs
  else if nowNs ≤ b.lastRefillNs then b
  else
    let elapsed := nowNs - b.lastRefillNs
    let missing := b.burstBytes - b.tokens
    if nsForBytes missing b.wbps true ≤ elapsed then b.fill nowNs
    else
      let added := bytesForNs elapsed b.wbps
      if added = 0 then b
      else if missing ≤ added then b.fill nowNs
      else
        let advanced := max (nsForBytes added b.wbps false) 1
        { b with
          tokens := b.tokens + added
          lastRefillNs := min nowNs (addSat b.lastRefillNs advanced) }

/-- A refill does not change the rate. -/
@[simp] theorem wbps_refillLocked (b : DirtyrateBucket) (nowNs : ℕ) :
    (b.refillLocked nowNs).wbps = b.wbps := by
  unfold refillLocked fill
  dsimp only
  split_ifs <;> rfl

end DirtyrateBucket

/-! ## Runs -/

/-- A bucket in use: when it was reset, what time it is, and what it has been
charged since. -/
structure BucketRun where
  bucket : DirtyrateBucket
  startNs : ℕ
  nowNs : ℕ
  charged : ℕ
deriving DecidableEq, Repr

/-- What happens to a bucket: a refill at a `u64` time, or the charge of a
page. -/
inductive BucketOp where
  | refill (nowNs : Fin (2 ^ 64))
  | charge
deriving DecidableEq, Repr

namespace BucketRun

/-- Bytes paid from the bucket. -/
def pay (r : BucketRun) (bytes : ℕ) : BucketRun :=
  { r with
    bucket := { r.bucket with tokens := r.bucket.tokens - bytes }
    charged := r.charged + bytes }

/-- Paying leaves the rate alone. -/
@[simp] theorem wbps_pay (r : BucketRun) (bytes : ℕ) :
    (r.pay bytes).bucket.wbps = r.bucket.wbps := rfl

/-- One step. Time does not go back; a page is charged if it can be paid. -/
def step (r : BucketRun) : BucketOp → BucketRun
  | .refill nowNs =>
    if nowNs.val < r.nowNs then r
    else { r with bucket := r.bucket.refillLocked nowNs, nowNs := nowNs }
  | .charge =>
    if r.bucket.tokens < pageSize then r else r.pay pageSize

/-- A bucket just reset. -/
def start (wbps : ℕ) (nowNs : Fin (2 ^ 64)) : BucketRun where
  bucket := .resetBucketLocked wbps nowNs
  startNs := nowNs
  nowNs := nowNs
  charged := 0

/-- A bucket just reset to a non-zero rate that the configuration accepts. -/
def Started (r : BucketRun) : Prop :=
  ∃ wkbps wbps nowNs, setWkbps wkbps = some wbps ∧ wbps ≠ 0 ∧ r = start wbps nowNs

/-- **The bucket as a machine.** -/
def machine : StepMachine BucketRun BucketOp Unit where
  init := Started
  step r op := (r.step op, ())

/-- **The rate bound**: what has been charged and what could be charged now is at
most the burst and what the rate allows for the time since the reset. -/
def Bounded (r : BucketRun) : Prop :=
  r.charged + r.bucket.tokens
    ≤ r.bucket.burstBytes + r.bucket.wbps * (r.nowNs - r.startNs) / nsecPerSec

/-- **A refill whose bytes cost the time it moves the stamp by**: it comes to a
full bucket, or the elapsed time pays for all that is missing, or it pays for a
number of bytes that cost less than a nanosecond or a whole number of them. -/
def Covered (r : BucketRun) : BucketOp → Prop
  | .charge => True
  | .refill nowNs =>
    let b := r.bucket
    let due := (nowNs.val - b.lastRefillNs) * b.wbps
    nowNs.val < r.nowNs ∨ b.burstBytes ≤ b.tokens
      ∨ (b.burstBytes - b.tokens) * nsecPerSec ≤ due
      ∨ due / nsecPerSec * nsecPerSec < b.wbps
      ∨ b.wbps ∣ due / nsecPerSec * nsecPerSec

/-- **Every byte is backed by time**: the stamp has moved far enough for what was
charged and what is left. -/
structure Backed (r : BucketRun) : Prop where
  rate : 1024 ≤ r.bucket.wbps
  burst : r.bucket.burstBytes = max pageSize (r.bucket.wbps / 8)
  start : r.startNs ≤ r.bucket.lastRefillNs
  stamp : r.bucket.lastRefillNs ≤ r.nowNs
  clock : r.nowNs ≤ u64Max
  paid : (r.charged + r.bucket.tokens) * nsecPerSec
    ≤ r.bucket.burstBytes * nsecPerSec
      + r.bucket.wbps * (r.bucket.lastRefillNs - r.startNs)

/-- **Backed bytes stay within the rate.** -/
theorem Backed.bounded {r : BucketRun} (h : Backed r) : Bounded r := by
  have hmono : r.bucket.wbps * (r.bucket.lastRefillNs - r.startNs)
      ≤ r.bucket.wbps * (r.nowNs - r.startNs) :=
    Nat.mul_le_mul_left _ (Nat.sub_le_sub_right h.stamp _)
  have hpaid := h.paid.trans (Nat.add_le_add_left hmono _)
  unfold Bounded
  rw [Nat.add_comm r.bucket.burstBytes,
    ← Nat.add_mul_div_right _ _ (show 0 < nsecPerSec by decide),
    Nat.le_div_iff_mul_le (by decide), Nat.add_comm (_ * _)]
  exact hpaid

/-- A bucket just reset is full, and owes nothing. -/
theorem backed_of_started {r : BucketRun} (h : Started r) : Backed r := by
  obtain ⟨wkbps, wbps, nowNs, hset, hne, rfl⟩ := h
  have hrate : 1024 ≤ wbps := by
    unfold setWkbps at hset
    split at hset
    · exact absurd hset (by simp)
    · have heq : wkbps * dirtyrateKibBytes = wbps := Option.some.inj hset
      have hk : wkbps ≠ 0 := by
        rintro rfl
        exact hne (heq.symm.trans (Nat.zero_mul _))
      unfold dirtyrateKibBytes at heq
      omega
  have hburst : (start wbps nowNs).bucket.burstBytes = max pageSize (wbps / 8) := if_neg hne
  have htokens : (start wbps nowNs).bucket.tokens = max pageSize (wbps / 8) := if_neg hne
  refine ⟨hrate, hburst, le_refl _, le_refl _, Nat.le_sub_one_of_lt nowNs.isLt, ?_⟩
  rw [hburst, htokens]
  show (0 + _) * _ ≤ _
  rw [Nat.zero_add]
  exact Nat.le_add_right _ _

/-- What is missing is at most a few seconds' worth. -/
theorem Backed.missing_le {r : BucketRun} (h : Backed r) :
    r.bucket.burstBytes - r.bucket.tokens ≤ 4 * r.bucket.wbps := by
  have hrate := h.rate
  have hburst := h.burst
  unfold pageSize at hburst
  omega

/-- **Filling the bucket** is backed once the time covers what was missing. -/
theorem Backed.fill {r : BucketRun} (h : Backed r) {nowNs : ℕ} (hnow : r.nowNs ≤ nowNs)
    (hmax : nowNs ≤ u64Max)
    (hcover : (r.bucket.burstBytes - r.bucket.tokens) * nsecPerSec
      ≤ r.bucket.wbps * (nowNs - r.bucket.lastRefillNs)) :
    Backed { r with bucket := r.bucket.fill nowNs, nowNs := nowNs } where
  rate := h.rate
  burst := h.burst
  start := h.start.trans (h.stamp.trans hnow)
  stamp := le_refl _
  clock := hmax
  paid := by
    show (r.charged + r.bucket.burstBytes) * nsecPerSec
      ≤ r.bucket.burstBytes * nsecPerSec + r.bucket.wbps * (nowNs - r.startNs)
    have hpaid := h.paid
    have hstart := h.start
    have hstamp := h.stamp.trans hnow
    have htime : r.bucket.wbps * (nowNs - r.startNs)
        = r.bucket.wbps * (nowNs - r.bucket.lastRefillNs)
          + r.bucket.wbps * (r.bucket.lastRefillNs - r.startNs) := by
      rw [← Nat.mul_add]
      congr 1
      omega
    have hfull : r.bucket.burstBytes * nsecPerSec
        ≤ (r.bucket.burstBytes - r.bucket.tokens) * nsecPerSec
          + r.bucket.tokens * nsecPerSec := by
      rw [← Nat.add_mul]
      exact Nat.mul_le_mul_right _ (by omega)
    rw [Nat.add_mul] at hpaid ⊢
    rw [htime]
    linarith

/-- **Adding bytes** is backed once the time the stamp moves by covers them. -/
theorem Backed.add {r : BucketRun} (h : Backed r) {nowNs added lastNs : ℕ}
    (hmax : nowNs ≤ u64Max)
    (hlast : r.bucket.lastRefillNs ≤ lastNs) (hle : lastNs ≤ nowNs)
    (hcover : added * nsecPerSec ≤ r.bucket.wbps * (lastNs - r.bucket.lastRefillNs)) :
    Backed { r with
      bucket := { r.bucket with
        tokens := r.bucket.tokens + added, lastRefillNs := lastNs }
      nowNs := nowNs } where
  rate := h.rate
  burst := h.burst
  start := h.start.trans hlast
  stamp := hle
  clock := hmax
  paid := by
    show (r.charged + (r.bucket.tokens + added)) * nsecPerSec
      ≤ r.bucket.burstBytes * nsecPerSec + r.bucket.wbps * (lastNs - r.startNs)
    have hpaid := h.paid
    have hstart := h.start
    have htime : r.bucket.wbps * (lastNs - r.startNs)
        = r.bucket.wbps * (lastNs - r.bucket.lastRefillNs)
          + r.bucket.wbps * (r.bucket.lastRefillNs - r.startNs) := by
      rw [← Nat.mul_add]
      congr 1
      omega
    rw [← Nat.add_assoc, Nat.add_mul, htime]
    linarith

/-- Standing still is backed. -/
theorem Backed.wait {r : BucketRun} (h : Backed r) {nowNs : ℕ} (hnow : r.nowNs ≤ nowNs)
    (hmax : nowNs ≤ u64Max) : Backed { r with nowNs := nowNs } where
  rate := h.rate
  burst := h.burst
  start := h.start
  stamp := h.stamp.trans hnow
  clock := hmax
  paid := h.paid

/-- **Paying** moves bytes from one side of the books to the other. -/
theorem Backed.pay {r : BucketRun} (h : Backed r) {bytes : ℕ}
    (hpay : bytes ≤ r.bucket.tokens) :
    Backed (r.pay bytes) where
  rate := h.rate
  burst := h.burst
  start := h.start
  stamp := h.stamp
  clock := h.clock
  paid := by
    show (r.charged + bytes + (r.bucket.tokens - bytes)) * nsecPerSec ≤ _
    rw [Nat.add_assoc, Nat.add_sub_cancel' hpay]
    exact h.paid

/-- A charge keeps every byte backed. -/
theorem Backed.charge {r : BucketRun} (h : Backed r) : Backed (r.step .charge) := by
  unfold step
  dsimp only
  split
  · exact h
  · next hpay => exact h.pay (Nat.le_of_not_lt hpay)

/-- The time that a top-off waits for pays for what is missing. -/
theorem Backed.missing_paid {r : BucketRun} (h : Backed r) {elapsed : ℕ}
    (hfull : nsForBytes (r.bucket.burstBytes - r.bucket.tokens) r.bucket.wbps true
      ≤ elapsed) :
    (r.bucket.burstBytes - r.bucket.tokens) * nsecPerSec ≤ r.bucket.wbps * elapsed := by
  have hrate : 0 < r.bucket.wbps := by have := h.rate; omega
  rw [nsForBytes_eq hrate h.missing_le] at hfull
  generalize r.bucket.burstBytes - r.bucket.tokens = missing at hfull ⊢
  refine le_trans ?_ (Nat.mul_le_mul_left _ hfull)
  by_cases hrem : missing % r.bucket.wbps = 0
  · -- whole seconds: nothing is rounded
    have hdvd : r.bucket.wbps ∣ missing * nsecPerSec :=
      (Nat.dvd_of_mod_eq_zero hrem).mul_right _
    rw [Nat.mul_add, Nat.mul_div_cancel' hdvd]
    exact Nat.le_add_right _ _
  · have hup : (true && decide (missing % r.bucket.wbps ≠ 0)).toNat = 1 := by simp [hrem]
    rw [hup]
    exact (Nat.lt_mul_div_succ _ hrate).le

/-- **What a refill does**: nothing, or it fills the bucket when it is full
already or the time pays for it, or it adds the bytes the time pays for and
moves the stamp by what they cost. -/
theorem refillLocked_cases {r : BucketRun} (h : Backed r) (nowNs : ℕ) :
    r.bucket.refillLocked nowNs = r.bucket
      ∨ (r.bucket.refillLocked nowNs = r.bucket.fill nowNs
          ∧ (r.bucket.burstBytes - r.bucket.tokens) * nsecPerSec
            ≤ r.bucket.wbps * (nowNs - r.bucket.lastRefillNs))
      ∨ ∃ added, added = (nowNs - r.bucket.lastRefillNs) * r.bucket.wbps / nsecPerSec
          ∧ ¬ r.bucket.burstBytes ≤ r.bucket.tokens
          ∧ added < r.bucket.burstBytes - r.bucket.tokens ∧ r.bucket.lastRefillNs < nowNs
          ∧ r.bucket.refillLocked nowNs
            = { r.bucket with
                tokens := r.bucket.tokens + added
                lastRefillNs := min nowNs (addSat r.bucket.lastRefillNs
                  (max (nsForBytes added r.bucket.wbps false) 1)) } := by
  unfold DirtyrateBucket.refillLocked
  split
  · exact Or.inl rfl
  split
  · next hfull =>
    refine Or.inr (Or.inl ⟨rfl, ?_⟩)
    rw [Nat.sub_eq_zero_of_le hfull, Nat.zero_mul]
    exact Nat.zero_le _
  next hroom =>
  split
  · exact Or.inl rfl
  next hlate =>
  dsimp only
  split
  · next hwait => exact Or.inr (Or.inl ⟨rfl, h.missing_paid hwait⟩)
  split
  · exact Or.inl rfl
  split
  · next hbytes =>
    refine Or.inr (Or.inl ⟨rfl, ?_⟩)
    rw [Nat.mul_comm r.bucket.wbps]
    exact (Nat.le_div_iff_mul_le (by decide)).mp hbytes
  · next hsome =>
    exact Or.inr (Or.inr ⟨_, rfl, hroom, Nat.lt_of_not_le hsome, Nat.lt_of_not_le hlate, rfl⟩)

/-- **Bytes that cost the time they are paid with**: when they cost less than a
nanosecond, or a whole number of them, the stamp moves by no less than they
cost, and not past the present. -/
theorem Backed.advance {r : BucketRun} (h : Backed r) {nowNs added : ℕ}
    (hmax : nowNs ≤ u64Max) (hlate : r.bucket.lastRefillNs < nowNs)
    (hadded : added * nsecPerSec ≤ r.bucket.wbps * (nowNs - r.bucket.lastRefillNs))
    (hroom : added ≤ r.bucket.burstBytes - r.bucket.tokens)
    (hcover : added * nsecPerSec < r.bucket.wbps ∨ r.bucket.wbps ∣ added * nsecPerSec) :
    let lastNs := min nowNs (addSat r.bucket.lastRefillNs
      (max (nsForBytes added r.bucket.wbps false) 1))
    r.bucket.lastRefillNs ≤ lastNs ∧ lastNs ≤ nowNs
      ∧ added * nsecPerSec ≤ r.bucket.wbps * (lastNs - r.bucket.lastRefillNs) := by
  have hrate : 0 < r.bucket.wbps := by have := h.rate; omega
  have hns : nsForBytes added r.bucket.wbps false = added * nsecPerSec / r.bucket.wbps := by
    rw [nsForBytes_eq hrate (hroom.trans h.missing_le)]
    exact Nat.add_zero _
  rw [hns]
  have hle : max (added * nsecPerSec / r.bucket.wbps) 1 ≤ nowNs - r.bucket.lastRefillNs :=
    max_le (Nat.div_le_of_le_mul hadded) (by omega)
  have hcost : added * nsecPerSec
      ≤ r.bucket.wbps * max (added * nsecPerSec / r.bucket.wbps) 1 := by
    rcases hcover with hsmall | hdvd
    · calc added * nsecPerSec ≤ r.bucket.wbps * 1 := by omega
        _ ≤ _ := Nat.mul_le_mul_left _ (le_max_right _ _)
    · calc added * nsecPerSec
          = r.bucket.wbps * (added * nsecPerSec / r.bucket.wbps) :=
            (Nat.mul_div_cancel' hdvd).symm
        _ ≤ _ := Nat.mul_le_mul_left _ (le_max_left _ _)
  generalize max (added * nsecPerSec / r.bucket.wbps) 1 = moved at hle hcost ⊢
  intro lastNs
  -- neither the saturation nor the minimum is reached
  have hlast : lastNs = r.bucket.lastRefillNs + moved := by
    show min nowNs (addSat _ _) = _
    rw [addSat_of_le (by omega), Nat.min_eq_right (by omega)]
  rw [hlast, Nat.add_sub_cancel_left]
  exact ⟨Nat.le_add_right _ _, by omega, hcost⟩

/-- **A covered refill keeps every byte backed.** -/
theorem Backed.refill {r : BucketRun} (h : Backed r) {nowNs : Fin (2 ^ 64)}
    (hcov : Covered r (.refill nowNs)) : Backed (r.step (.refill nowNs)) := by
  unfold step
  dsimp only
  split
  · exact h
  next hclock =>
  have hnow : r.nowNs ≤ nowNs := Nat.le_of_not_lt hclock
  have hmax : nowNs.val ≤ u64Max := Nat.le_sub_one_of_lt nowNs.isLt
  rcases refillLocked_cases h nowNs with
    heq | ⟨heq, hpaid⟩ | ⟨added, hadded, hroom, hle, hlate, heq⟩
  · rw [heq]
    exact h.wait hnow hmax
  · rw [heq]
    exact h.fill hnow hmax hpaid
  · rw [heq]
    have hwhole : added * nsecPerSec ≤ r.bucket.wbps * (nowNs - r.bucket.lastRefillNs) := by
      rw [hadded, Nat.mul_comm r.bucket.wbps]
      exact Nat.div_mul_le_self _ _
    have hcost : added * nsecPerSec < r.bucket.wbps
        ∨ r.bucket.wbps ∣ added * nsecPerSec := by
      rcases hcov with hback | hfull | hdue | hcost
      · exact absurd hback hclock
      · exact absurd hfull hroom
      · -- the time pays for all that is missing, so the bucket would be full
        have hall := (Nat.le_div_iff_mul_le (by decide)).mpr hdue
        rw [← hadded] at hall
        omega
      · rw [hadded]
        exact hcost
    obtain ⟨hlast, hend, hcover⟩ := h.advance hmax hlate hwhole hle.le hcost
    exact h.add hmax hlast hend hcover

/-- **One step**: a charge, or a covered refill, keeps every byte backed. -/
theorem backed_step (r : BucketRun) (op : BucketOp) (h : Backed r) (hcov : Covered r op) :
    Backed (machine.next r op) := by
  cases op with
  | charge => exact h.charge
  | refill nowNs => exact h.refill hcov

/-- **A run whose refills are covered** keeps every byte backed. -/
theorem backed_of_covered {r : BucketRun} (h : Started r) {ops : List BucketOp}
    (hcov : machine.StepsMeet Covered r ops) : machine.StatesMeet Backed r ops :=
  StepMachine.statesMeet_of_stepsMeet backed_step (backed_of_started h) hcov

/-- **The rate bound**, in every state of a run whose refills are covered. -/
theorem rate_bounded {r : BucketRun} (h : Started r) (ops : List BucketOp)
    (hcov : machine.StepsMeet Covered r ops) : machine.StatesMeet Bounded r ops :=
  (backed_of_covered h hcov).mono fun _ => Backed.bounded

/-- A page charged at 1024 bytes a second, and the two bytes that cost 1953125
nanoseconds. -/
theorem rate_bounded_two_bytes :
    machine.StatesMeet Bounded (start 1024 0) [.charge, .refill 1953125, .charge] := by
  refine rate_bounded ⟨1, 1024, 0, rfl, by decide, rfl⟩ _ ⟨trivial, ?_, trivial, trivial⟩
  -- the bytes cost a whole number of nanoseconds
  exact Or.inr (Or.inr (Or.inr (Or.inr (by decide))))

/-- **The rate bound fails** at half a byte for each nanosecond: of the three
nanoseconds after a charge, the second is paid out twice. -/
theorem rate_exceeded :
    Started (start 500000768 0)
      ∧ ¬ machine.StatesMeet Bounded (start 500000768 0) [.charge, .refill 2, .refill 3] := by
  refine ⟨⟨488282, 500000768, 0, rfl, by decide, rfl⟩, ?_⟩
  rintro ⟨-, -, -, hlast⟩
  change Bounded _ at hlast
  unfold Bounded at hlast
  exact absurd hlast (by decide)

/-- No step changes the rate. -/
theorem wbps_step (r : BucketRun) (op : BucketOp) :
    (machine.next r op).bucket.wbps = r.bucket.wbps := by
  cases op with
  | charge =>
    show (r.step .charge).bucket.wbps = _
    unfold step
    dsimp only
    split
    · rfl
    · exact wbps_pay r pageSize
  | refill nowNs =>
    show (r.step (.refill nowNs)).bucket.wbps = _
    unfold step
    dsimp only
    split
    · rfl
    · exact r.bucket.wbps_refillLocked nowNs

/-- At a whole number of bytes for each nanosecond nothing is rounded. -/
theorem covered_of_dvd {r : BucketRun} (h : nsecPerSec ∣ r.bucket.wbps) (op : BucketOp) :
    Covered r op := by
  cases op with
  | charge => trivial
  | refill nowNs =>
    refine Or.inr (Or.inr (Or.inr (Or.inr ?_)))
    rw [Nat.div_mul_cancel (h.mul_left _)]
    exact Dvd.intro_left _ rfl

/-- **A whole number of bytes for each nanosecond**: every run is within the
rate. -/
theorem bounded_of_dvd {r : BucketRun} (h : Started r) (hdvd : nsecPerSec ∣ r.bucket.wbps)
    (ops : List BucketOp) : machine.StatesMeet Bounded r ops := by
  have hcov : machine.StepsMeet Covered r ops :=
    StepMachine.stepsMeet_of_invariant (fun _ op hd => covered_of_dvd hd op)
      (fun s op hd => hd.trans (dvd_of_eq (wbps_step s op).symm)) hdvd ops
  exact (backed_of_covered h hcov).mono fun _ => Backed.bounded

end BucketRun
