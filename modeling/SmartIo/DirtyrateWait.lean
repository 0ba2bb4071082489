import SmartIo.DirtyrateInvariant

/-!
# Waiting for a page

A task that cannot pay for its page computes how long the missing tokens take,
sleeps that long, a second at most, and tries again. The time is rounded up and
counted from the present, while the refill counts from its stamp, which is not
later; so after the computed time the tokens are there (`late_refill`).

At low rates the second cuts the sleep short. A second pays for at least the
lowest rate, which is a quarter of a page: the loop ends after four sleeps at most
(`takePage_of_quarters`), and where it ends a page is there, and is paid for
(`takePage_eq_some`).
-/

/-- `SMART_IO_DIRTYRATE_MAX_SLEEP_NS`. -/
def maxSleepNs : ℕ := nsecPerSec

namespace DirtyrateBucket

/-- The `wait_ns` of `smart_io_dirtyrate_dirty_rate`. -/
def waitNs (b : DirtyrateBucket) : ℕ :=
  min (nsForBytes (pageSize - b.tokens) b.wbps true) maxSleepNs

/-- The loop of `smart_io_dirtyrate_dirty_rate`, of a limited task that no one
disturbs and whose lock sections read the clock at the given times: how often it
slept before it took its page, and the bucket it left. There is no answer while
it is still waiting after the last of the times. -/
def takePage (b : DirtyrateBucket) : List (Fin (2 ^ 64)) → Option (ℕ × DirtyrateBucket)
  | [] => none
  | nowNs :: rest =>
    if pageSize ≤ (b.refillLocked nowNs).tokens then some (0, (b.refillLocked nowNs).charge)
    else ((b.refillLocked nowNs).takePage rest).map fun taken => (taken.1 + 1, taken.2)

/-- The bucket that the last of some lock sections finds, after its refill. -/
def looked (b : DirtyrateBucket) (times : List (Fin (2 ^ 64))) : DirtyrateBucket :=
  times.foldl (fun b nowNs => b.refillLocked nowNs) b

/-- **Full sleeps**: after each time at which the page could not be paid, the next
one is no earlier than the computed sleep. -/
def FullSleeps (b : DirtyrateBucket) : List (Fin (2 ^ 64)) → Prop
  | nowNs :: laterNs :: rest =>
    (b.refillLocked nowNs).tokens < pageSize →
      nowNs.val + (b.refillLocked nowNs).waitNs ≤ laterNs
        ∧ (b.refillLocked nowNs).FullSleeps (laterNs :: rest)
  | _ => True

variable {b : DirtyrateBucket} {nowNs : ℕ}

/-- **The computed time is enough**, whatever was lost to rounding before. -/
theorem Sound.late_refill (h : b.Sound nowNs) (hrate : b.wbps ≠ 0) {laterNs : ℕ}
    (hlate : nowNs + nsForBytes (pageSize - b.tokens) b.wbps true ≤ laterNs) :
    pageSize ≤ (b.refillLocked laterNs).tokens := by
  have hburst := h.burst_pos hrate
  have hstamp := h.stamp
  have hfew : pageSize - b.tokens ≤ 4 * b.wbps :=
    ((Nat.sub_le _ _).trans hburst).trans (h.burst_le hrate)
  -- the refill counts from its stamp, which is no later than the present
  have hlong : nsForBytes (pageSize - b.tokens) b.wbps true ≤ laterNs - b.lastRefillNs := by
    omega
  have hpaid := paid_of_nsForBytes_le (Nat.pos_of_ne_zero hrate) hfew hlong
  rw [h.tokens_refillLocked hrate]
  exact le_min hburst (by omega)

/-- A second pays for the rate. -/
theorem wbps_le_bytesForNs {elapsed rateBps : ℕ} (h : nsecPerSec ≤ elapsed) :
    rateBps ≤ bytesForNs elapsed rateBps := by
  unfold bytesForNs
  rw [Nat.le_div_iff_mul_le (by decide), Nat.mul_comm]
  exact Nat.mul_le_mul_right _ h

/-- **One sleep**: the page can be paid after it, or a quarter of it came in. -/
theorem Sound.tokens_after_sleep (h : b.Sound nowNs) (hrate : b.wbps ≠ 0) {laterNs : ℕ}
    (hlate : nowNs + b.waitNs ≤ laterNs) :
    pageSize ≤ (b.refillLocked laterNs).tokens
      ∨ b.tokens + 1024 ≤ (b.refillLocked laterNs).tokens := by
  unfold waitNs at hlate
  rcases le_total (nsForBytes (pageSize - b.tokens) b.wbps true) maxSleepNs with hle | hle
  · rw [min_eq_left hle] at hlate
    exact Or.inl (h.late_refill hrate hlate)
  · rw [min_eq_right hle] at hlate
    have hstamp := h.stamp
    have hsecond : nsecPerSec ≤ laterNs - b.lastRefillNs := by
      unfold maxSleepNs at hlate
      omega
    have hbytes : 1024 ≤ bytesForNs (laterNs - b.lastRefillNs) b.wbps :=
      (h.rate hrate).trans (wbps_le_bytesForNs hsecond)
    rw [h.tokens_refillLocked hrate]
    rcases le_total b.burstBytes
        (b.tokens + bytesForNs (laterNs - b.lastRefillNs) b.wbps) with hfull | hroom
    · rw [min_eq_left hfull]
      exact Or.inl (h.burst_pos hrate)
    · rw [min_eq_right hroom]
      exact Or.inr (Nat.add_le_add_left hbytes _)

/-- **The loop ends**: with so many quarters of a page missing, after as many
sleeps. -/
theorem takePage_of_quarters (k : ℕ) :
    ∀ {b : DirtyrateBucket} {earlierNs : ℕ} {nowNs : Fin (2 ^ 64)} {rest : List (Fin (2 ^ 64))},
      b.Sound earlierNs → b.wbps ≠ 0 → earlierNs ≤ nowNs →
      pageSize ≤ (b.refillLocked nowNs).tokens + 1024 * k →
      b.FullSleeps (nowNs :: rest) → k ≤ rest.length →
      ∃ taken, b.takePage (nowNs :: rest) = some taken ∧ taken.1 ≤ k := by
  induction k with
  | zero =>
    intro b earlierNs nowNs rest _ _ _ htokens _ _
    exact ⟨_, if_pos htokens, le_rfl⟩
  | succ k ih =>
    intro b earlierNs nowNs rest hsound hrate hle htokens hsleeps hlen
    by_cases hpage : pageSize ≤ (b.refillLocked nowNs).tokens
    · exact ⟨_, if_pos hpage, Nat.zero_le _⟩
    cases rest with
    | nil => exact absurd hlen (Nat.not_succ_le_zero k)
    | cons laterNs rest =>
      have hsound' := hsound.refillLocked hle (Nat.le_sub_one_of_lt nowNs.isLt)
      have hrate' : (b.refillLocked nowNs).wbps ≠ 0 := by
        rw [wbps_refillLocked]
        exact hrate
      obtain ⟨hslept, hsleeps'⟩ := hsleeps (not_le.mp hpage)
      have hquarter : pageSize
          ≤ ((b.refillLocked nowNs).refillLocked laterNs).tokens + 1024 * k := by
        rcases hsound'.tokens_after_sleep hrate' hslept with h | h
        · exact h.trans (Nat.le_add_right _ _)
        · omega
      obtain ⟨taken, htaken, hk⟩ := ih hsound' hrate'
        ((Nat.le_add_right _ _).trans hslept) hquarter hsleeps' (Nat.le_of_succ_le_succ hlen)
      refine ⟨(taken.1 + 1, taken.2), ?_, Nat.succ_le_succ hk⟩
      rw [takePage, if_neg hpage, htaken]
      rfl

/-- **What the loop takes**: it ends at the first look that finds a page, and pays for it
there. -/
theorem takePage_eq_some {times : List (Fin (2 ^ 64))} {k : ℕ} {left : DirtyrateBucket}
    (h : b.takePage times = some (k, left)) :
    left = (b.looked (times.take (k + 1))).charge
      ∧ pageSize ≤ (b.looked (times.take (k + 1))).tokens
      ∧ ∀ j < k, (b.looked (times.take (j + 1))).tokens < pageSize := by
  induction times generalizing b k with
  | nil => exact absurd h.symm (Option.some_ne_none _)
  | cons nowNs rest ih =>
    unfold takePage at h
    split at h
    · next hpage =>
      obtain ⟨rfl, rfl⟩ := Prod.mk.inj (Option.some.inj h)
      exact ⟨rfl, hpage, fun j hj => absurd hj (Nat.not_lt_zero j)⟩
    · next hpage =>
      obtain ⟨⟨j, left'⟩, hrest, heq⟩ := Option.map_eq_some_iff.mp h
      obtain ⟨rfl, rfl⟩ := Prod.mk.inj heq
      obtain ⟨hleft, htokens, hbefore⟩ := ih hrest
      refine ⟨hleft, htokens, fun i hi => ?_⟩
      cases i with
      | zero => exact not_le.mp hpage
      | succ i => exact hbefore i (Nat.lt_of_succ_lt_succ hi)

end DirtyrateBucket

namespace DirtyrateLimiter

section Limited

variable {l : DirtyrateLimiter} {uid : Fin (2 ^ 32)} {fgUid : ℤ}

/-- **The lock section of a limited task** is one turn of the loop: a refill, and
a page taken if it is there. -/
theorem dirtyRate_of_limited (hcons : l.Consistent) (hrate : l.bucket.wbps ≠ 0) (hfg : 0 ≤ fgUid)
    (huid : fgUid ≠ uid) (nowNs : ℕ) :
    l.dirtyRate uid fgUid nowNs
      = { l with bucket :=
          if pageSize ≤ (l.bucket.refillLocked nowNs).tokens
          then (l.bucket.refillLocked nowNs).charge else l.bucket.refillLocked nowNs } := by
  have hactive := hcons.active_of_wbps hrate
  have hon : ¬ (l.enabled = false ∨ l.active = false ∨ l.bucket.wbps = 0) := by
    rw [hcons.enabled hactive, hactive]
    simp [hrate]
  have hbackground : ¬ (fgUid < 0 ∨ fgUid = uid) := not_or.mpr ⟨not_lt.mpr hfg, huid⟩
  unfold dirtyRate
  rw [if_neg hon, if_neg hbackground]
  dsimp only
  split <;> rfl

/-- **The lock sections of a limited task**, up to the one that takes its page, are the
turns of the loop. -/
theorem foldl_dirtyRate_of_takePage (hcons : l.Consistent) (hrate : l.bucket.wbps ≠ 0)
    (hfg : 0 ≤ fgUid) (huid : fgUid ≠ uid) {times : List (Fin (2 ^ 64))} {k : ℕ}
    {left : DirtyrateBucket} (h : l.bucket.takePage times = some (k, left)) :
    (times.take (k + 1)).foldl (fun l nowNs => l.dirtyRate uid fgUid nowNs) l
      = { l with bucket := left } := by
  induction times generalizing l k with
  | nil => exact absurd h.symm (Option.some_ne_none _)
  | cons nowNs rest ih =>
    have hsection := dirtyRate_of_limited hcons hrate hfg huid nowNs
    rw [List.take_succ_cons, List.foldl_cons, hsection]
    unfold DirtyrateBucket.takePage at h
    split at h
    · next hpage =>
      obtain ⟨rfl, rfl⟩ := Prod.mk.inj (Option.some.inj h)
      rw [if_pos hpage]
      rfl
    · next hpage =>
      obtain ⟨⟨j, left'⟩, hrest, heq⟩ := Option.map_eq_some_iff.mp h
      obtain ⟨rfl, rfl⟩ := Prod.mk.inj heq
      have hwbps := l.bucket.wbps_refillLocked nowNs
      rw [if_neg hpage]
      exact ih (hcons.withBucket hwbps) (hwbps.trans_ne hrate) hrest

end Limited

end DirtyrateLimiter

namespace LimiterRun

/-- **Waiting ends.** In every state that a run of the limiter reaches with a rate
set: if a refill leaves less than a page, the next refill leaves a page if it is after
the time computed from what is missing; and a task alone at the bucket, whose sleeps
last as long as computed, finds its page after four sleeps at most and not before,
and its lock sections leave the bucket with that page taken. -/
theorem wait_ends {r : LimiterRun} (h : machine.Reachable r)
    (hrate : r.limiter.bucket.wbps ≠ 0) :
    (∀ nowNs laterNs : Fin (2 ^ 64), r.nowNs ≤ nowNs →
        (r.limiter.bucket.refillLocked nowNs).tokens < pageSize →
        nowNs.val + nsForBytes (pageSize - (r.limiter.bucket.refillLocked nowNs).tokens)
          r.limiter.bucket.wbps true ≤ laterNs →
        pageSize ≤ ((r.limiter.bucket.refillLocked nowNs).refillLocked laterNs).tokens)
      ∧ ∀ (nowNs : Fin (2 ^ 64)) (rest : List (Fin (2 ^ 64))), r.nowNs ≤ nowNs →
          r.limiter.bucket.FullSleeps (nowNs :: rest) → 4 ≤ rest.length →
          ∃ k ≤ 4, ∃ found, found = r.limiter.bucket.looked ((nowNs :: rest).take (k + 1))
            ∧ r.limiter.bucket.takePage (nowNs :: rest) = some (k, found.charge)
            ∧ pageSize ≤ found.tokens
            ∧ (∀ j < k, (r.limiter.bucket.looked ((nowNs :: rest).take (j + 1))).tokens < pageSize)
            ∧ ∀ (uid : Fin (2 ^ 32)) (fgUid : ℤ), 0 ≤ fgUid → fgUid ≠ uid →
                ((nowNs :: rest).take (k + 1)).foldl
                    (fun l nowNs => l.dirtyRate uid fgUid nowNs) r.limiter
                  = { r.limiter with bucket := found.charge } := by
  have hsound := (sound_of_reachable h).bucket
  constructor
  · intro nowNs laterNs hle _ hlate
    have hrate' : (r.limiter.bucket.refillLocked nowNs).wbps ≠ 0 := by
      rw [DirtyrateBucket.wbps_refillLocked]
      exact hrate
    refine (hsound.refillLocked hle (Nat.le_sub_one_of_lt nowNs.isLt)).late_refill hrate' ?_
    rw [DirtyrateBucket.wbps_refillLocked]
    exact hlate
  · intro nowNs rest hle hsleeps hlen
    obtain ⟨⟨k, left⟩, htaken, hk⟩ := DirtyrateBucket.takePage_of_quarters 4 hsound hrate hle
      (Nat.le_add_left _ _) hsleeps hlen
    obtain ⟨rfl, htokens, hbefore⟩ := DirtyrateBucket.takePage_eq_some htaken
    refine ⟨k, hk, _, rfl, htaken, htokens, hbefore, fun uid fgUid hfg huid => ?_⟩
    exact DirtyrateLimiter.foldl_dirtyRate_of_takePage (consistent_of_reachable h) hrate hfg huid
      htaken

/-- At a kibibyte a second a page takes the four sleeps, and leaves nothing in the
bucket. -/
theorem wait_ends_four :
    let r := machine.run start [.setEnabled true 0, .setWkbps 1 0, .setActive true 0, .charge]
    let times : List (Fin (2 ^ 64)) := [0, 1000000000, 2000000000, 3000000000, 4000000000]
    r.limiter.bucket.takePage times = some (4, ⟨1024, 4096, 0, 4000000000⟩)
      ∧ times.foldl (fun l nowNs => l.dirtyRate 10086 10001 nowNs) r.limiter
        = { r.limiter with bucket := ⟨1024, 4096, 0, 4000000000⟩ } := by
  intro r times
  have hr : machine.Reachable r := ⟨start, _, rfl, rfl⟩
  have hsleeps : r.limiter.bucket.FullSleeps times := fun _ => ⟨by decide, fun _ => ⟨by decide,
    fun _ => ⟨by decide, fun _ => ⟨by decide, trivial⟩⟩⟩⟩
  obtain ⟨k, -, found, -, htaken, -, -, hsections⟩ :=
    (wait_ends hr (by decide)).2 0 _ (by decide) hsleeps (by decide)
  have hvalue : r.limiter.bucket.takePage times = some (4, ⟨1024, 4096, 0, 4000000000⟩) := by
    decide
  obtain ⟨rfl, hfound⟩ := Prod.mk.inj (Option.some.inj (htaken.symm.trans hvalue))
  refine ⟨hvalue, ?_⟩
  rw [← hfound]
  exact hsections 10086 10001 (by decide) (by decide)

end LimiterRun
