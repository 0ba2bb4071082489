import SmartIo.ModelFp32Error
import SmartIo.ModelInput
import SmartIo.ThrottleInstall

/-!
# What the predictor answers

`smart_io_model_fp32_predict_timed` checks and converts a snapshot, runs the network
where vector registers may be used, and checks what comes out: the number of the
action, and that each value is finite.

The last check never fails. Inputs that were converted are ratios below `2 ^ 24`,
on such inputs all values are finite, and the action is one of the twelve. So a
snapshot is answered unless it is refused before anything is computed
(`answeredBy_predictTimed`), and the answer is the action of the exact network, or one
that is as good but for a thirty-second.

In a run of the throttling, this leaves three reasons for a decision without an
answer (`reachable_snapshot_predicted`): more requests are issued than the queue is
deep, the mean latency is `2 ^ 24` times the threshold, or vector registers may not
be used at that moment.
-/

/-! ## The prediction -/

/-- The error numbers of `smart_io_model_fp32_predict_timed`. -/
inductive PredictErrno where
  | einval
  | erange
  | ebusy
deriving DecidableEq, Repr

/-- The error number of a snapshot that is refused. -/
def PredictError.errno : PredictError → PredictErrno
  | .einval => .einval
  | .erange => .erange

/-- What a prediction leaves: the error it returns, if any, and the `*action_id` it
has written, if it did. -/
structure Prediction where
  /-- The error number, none for a return of zero. -/
  ret : Option PredictErrno
  /-- The action that was written. -/
  actionId : Option ℕ
deriving DecidableEq, Repr

/-- `smart_io_model_q_bits_finite`. -/
def qBitsFinite (bits : U32) : Bool := decide (bits.val &&& 0x7f800000 ≠ 0x7f800000)

/-- `smart_io_model_fp32_predict_timed`, less the times it takes. `mayUseSimd` is what
`may_use_simd` says; the call of `smart_io_fp32_infer` leaves the action and the
values of the network. -/
def predictTimed (u : FpUnit U32) (mayUseSimd : Bool) (s : StateSnapshot) : Prediction :=
  match predictInput s with
  | .error e => { ret := some e.errno, actionId := none }
  | .ok inputBits =>
    if !mayUseSimd then { ret := some .ebusy, actionId := none }
    else
      let input := tableVector inputBits
      let actionId := fp32Action u smartIoFp32Model smartIoFp32Scaler input
      let qBits := fp32Values u smartIoFp32Model smartIoFp32Scaler input
      { ret :=
          if modelFp32Actions ≤ actionId
              ∨ (List.range modelFp32Actions).any (fun i => !qBitsFinite (qBits i)) then
            some .erange
          else none
        actionId := some actionId }

/-- `smart_io_throttle_model_fp32_action`: the level and the policy of an action. -/
def modelFp32Action (u : FpUnit U32) (mayUseSimd : Bool) (s : StateSnapshot)
    (action : ThrottleAction) : Except PredictErrno ThrottleAction :=
  match predictTimed u mayUseSimd s with
  | { ret := some e, .. } => .error e
  | { ret := none, actionId } =>
    .ok { action with
      level := .ofCode (actionId.getD 0 / dispatchPolicyCount)
      policy := .ofCode (actionId.getD 0 % dispatchPolicyCount) }

/-! ## The checks -/

/-- The mask of the exponent. -/
theorem and_exponent_mask (n : ℕ) :
    n &&& 0x7f800000 = n / 2 ^ 23 % 2 ^ 8 * 2 ^ 23 := by
  have hmask : (0x7f800000 : ℕ) = (2 ^ 8 - 1) <<< 23 := by decide
  have hshift : n &&& (2 ^ 8 - 1) <<< 23 = ((n >>> 23) &&& (2 ^ 8 - 1)) <<< 23 := by
    refine Nat.eq_of_testBit_eq fun i => ?_
    rw [Nat.testBit_and, Nat.testBit_shiftLeft, Nat.testBit_shiftLeft, Nat.testBit_and,
      Nat.testBit_shiftRight]
    by_cases hi : 23 ≤ i
    · rw [Nat.add_sub_cancel' hi, decide_eq_true hi, Bool.true_and, Bool.true_and]
    · rw [decide_eq_false hi, Bool.false_and, Bool.false_and, Bool.and_false]
  rw [hmask, hshift, Nat.and_two_pow_sub_one_eq_mod, Nat.shiftRight_eq_div_pow,
    Nat.shiftLeft_eq]

/-- **The check of a value** finds the words that stand for numbers. -/
theorem qBitsFinite_iff (w : U32) : qBitsFinite w = true ↔ Fp32Finite w := by
  unfold qBitsFinite Fp32Finite BinaryFormat.Finite
  rw [decide_eq_true_iff, and_exponent_mask]
  show w.val / 2 ^ 23 % 2 ^ 8 * 2 ^ 23 ≠ 0x7f800000 ↔ w.val % 2 ^ 31 < (2 ^ 8 - 1) * 2 ^ 23
  omega

/-! ## The inputs -/

/-- A snapshot whose fields that are compared with nothing fit into 32 bits, as they
do in C. -/
structure StateSnapshot.IsU32 (s : StateSnapshot) : Prop where
  queueMax : s.queueMax ≤ u32Max
  mean : s.windowMeanDevUs ≤ u32Max
  threshold : s.devLatThresholdUs ≤ u32Max
  waiting : s.waitingTotalCount ≤ u32Max

/-- The bits of a ratio are those of a finite number of `2 ^ 24` at most. -/
theorem input_of_ratioBits {n d bits : ℕ} (hn : n ≤ u32Max) (hd : d ≤ u32Max)
    (h : ratioBits n d = some bits) :
    Fp32Finite (Fin.ofNat (2 ^ 32) bits) ∧ |fp32Real (Fin.ofNat (2 ^ 32) bits)| ≤ 2 ^ 24 := by
  have hd0 : d ≠ 0 := by
    rintro rfl
    exact absurd h (by simp [ratioBits])
  have hlt : n < 2 ^ 24 * d := (ratioBits_isSome hd0 hn hd).mp (by rw [h]; rfl)
  have hrounds := ratioBits_rounds (hn.trans (by decide)) (hd.trans (by decide)) h
  have hfin : bits < 255 * 2 ^ 23 := hrounds.finite
  have hmag : binary32.mag (Fin.ofNat (2 ^ 32) bits) = bits := by
    show bits % 2 ^ 32 % 2 ^ 31 = bits
    omega
  refine ⟨?_, ?_⟩
  · show binary32.mag (Fin.ofNat (2 ^ 32) bits) < 255 * 2 ^ 23
    rw [hmag]
    exact hfin
  · -- the rounding is monotone, and `2 ^ 24` is its own rounding
    have hpow : binary32.value (151 * 2 ^ 23) = 2 ^ 24 := by
      refine (BinaryFormat.value_pow (F := binary32) (e := 151) (by decide)).trans ?_
      rw [bias_binary32]
      norm_num
    have hratio : (n : ℚ) / d ≤ binary32.value (151 * 2 ^ 23) := by
      rw [hpow, div_le_iff₀ (by exact_mod_cast Nat.pos_of_ne_zero hd0)]
      exact_mod_cast hlt.le
    have hle : bits ≤ 151 * 2 ^ 23 := hrounds.mono (binary32.rounds_value (by decide)) hratio
    refine (binary32.abs_real _).trans_le ?_
    rw [hmag, ← hpow]
    exact binary32.value_strictMono.monotone hle

/-- The results of conversions that all succeed, by their place. -/
theorem getD_of_mapM {α : Type} {f : α → Option ℕ} {l : List α} {bits : List ℕ}
    (h : l.mapM f = some bits) : ∀ i < l.length, ∃ a ∈ l, f a = some (bits.getD i 0) := by
  induction l generalizing bits with
  | nil => exact fun i hi => absurd hi i.not_lt_zero
  | cons a l ih =>
    rw [List.mapM_cons] at h
    cases ha : f a with
    | none => simp [ha] at h
    | some b =>
      cases hl : l.mapM f with
      | none => simp [ha, hl] at h
      | some rest =>
        obtain rfl : b :: rest = bits := by simpa [ha, hl] using h
        intro i hi
        cases i with
        | zero => exact ⟨a, List.mem_cons_self, ha⟩
        | succ i =>
          obtain ⟨a', ha', hf⟩ := ih hl i (Nat.lt_of_succ_lt_succ hi)
          exact ⟨a', List.mem_cons_of_mem a ha', hf⟩

/-- The numbers that are converted fit into 32 bits. -/
theorem inputRatios_le {s : StateSnapshot} (hs : s.IsU32) (hvalid : inputValid s = true) :
    ∀ p ∈ inputRatios s, p.1 ≤ u32Max ∧ p.2 ≤ u32Max := by
  have hqueue := hs.queueMax
  have hmean := hs.mean
  have hthr := hs.threshold
  have hwaiting := hs.waiting
  unfold inputValid at hvalid
  simp only [Bool.not_eq_true', Bool.or_eq_false_iff, decide_eq_false_iff_not, not_lt,
    not_not] at hvalid
  obtain ⟨⟨⟨⟨⟨⟨⟨⟨⟨⟨⟨⟨-, -⟩, hc⟩, hspan⟩, h1⟩, h2⟩, h3⟩, h4⟩, h5⟩, h6⟩, h7⟩, h8⟩, h9⟩ := hvalid
  unfold u32Max devLatWindowMaxUs devLatWindowSize at *
  unfold inputRatios devLatWindowMaxUs
  intro p hp
  simp only [List.mem_cons, List.not_mem_nil, or_false] at hp
  rcases hp with rfl | rfl | rfl | rfl | rfl | rfl | rfl | rfl | rfl | rfl | rfl <;>
    dsimp only <;> omega

/-- **What is converted can be computed on.** -/
theorem inputWithin_of_predictInput {s : StateSnapshot} (hs : s.IsU32) {bits : List ℕ}
    (h : predictInput s = .ok bits) : InputWithin (tableVector bits) := by
  unfold predictInput at h
  by_cases hvalid : inputValid s = true
  · rw [hvalid, if_neg (by decide)] at h
    cases hbits : (inputRatios s).mapM (fun p => ratioBits p.1 p.2) with
    | none => rw [hbits] at h; exact absurd h (by simp)
    | some l =>
      rw [hbits] at h
      obtain rfl := Except.ok.inj h
      intro i hi
      obtain ⟨p, hp, hbits⟩ := getD_of_mapM hbits i hi
      obtain ⟨h1, h2⟩ := inputRatios_le hs hvalid p hp
      exact input_of_ratioBits h1 h2 hbits
  · rw [Bool.not_eq_true] at hvalid
    rw [hvalid, if_pos (by rfl)] at h
    exact absurd h (by simp)

/-! ## The answer -/

/-- **An answer**: one of the twelve actions, near-optimal for the exact network on
the inputs that the bits stand for. -/
structure Answers (inputBits : List ℕ) (p : Prediction) (action : ℕ) : Prop where
  ret : p.ret = none
  actionId : p.actionId = some action
  lt : action < modelFp32Actions
  nearOptimal : NearOptimal (exactValues (tableVector inputBits)) modelFp32Actions action

/-- **What a snapshot is answered with**: the error of the validation or the
conversion, or that vector registers may not be used, or an action. -/
def AnsweredBy (s : StateSnapshot) (mayUseSimd : Bool) (p : Prediction) : Prop :=
  match predictInput s with
  | .error e => p = { ret := some e.errno, actionId := none }
  | .ok inputBits =>
    if mayUseSimd then ∃ action, Answers inputBits p action
    else p = { ret := some .ebusy, actionId := none }

/-- **A snapshot is answered unless it is refused before anything is computed.** The
errors of a prediction are those of the validation and the conversion, and that
vector registers may not be used; the check of what the network gives never
fails. -/
theorem answeredBy_predictTimed {s : StateSnapshot} (hs : s.IsU32) (mayUseSimd : Bool) :
    AnsweredBy s mayUseSimd (predictTimed fp32Unit mayUseSimd s) := by
  unfold AnsweredBy predictTimed
  cases hinput : predictInput s with
  | error e => rfl
  | ok bits =>
    cases mayUseSimd with
    | false => rfl
    | true =>
      have hwithin := inputWithin_of_predictInput hs hinput
      have hbest := bestOf_fp32Action hwithin
      have hcheck : ¬ (modelFp32Actions
          ≤ fp32Action fp32Unit smartIoFp32Model smartIoFp32Scaler (tableVector bits)
          ∨ (List.range modelFp32Actions).any (fun i => !qBitsFinite (fp32Values fp32Unit
            smartIoFp32Model smartIoFp32Scaler (tableVector bits) i)) = true) := by
        rw [not_or, not_le, List.any_eq_true]
        refine ⟨hbest.lt, ?_⟩
        rintro ⟨i, hi, hbad⟩
        rw [(qBitsFinite_iff _).mpr (fp32Values_finite hwithin i (List.mem_range.mp hi))] at hbad
        exact Bool.false_ne_true hbad
      dsimp only
      rw [if_neg (show ¬ (!true) = true by decide), if_neg hcheck, if_pos rfl]
      exact ⟨_, rfl, rfl, hbest.lt, nearOptimal_fp32Action hwithin⟩

/-- The snapshot is answered, or refused for one of three reasons, by the source's
error numbers. -/
structure SnapshotPredicted (c : ThrottleCtx) (queueMax thr : ℕ) (mayUseSimd : Bool)
    (s : StateSnapshot) (action : ThrottleAction) : Prop where
  /-- More requests are issued than the queue is deep. -/
  einval : queueMax < c.issuedDepth →
    modelFp32Action fp32Unit mayUseSimd s action = .error .einval
  /-- The mean latency is far above the threshold. -/
  erange : c.issuedDepth ≤ queueMax → 2 ^ 24 * thr ≤ s.windowMeanDevUs →
    modelFp32Action fp32Unit mayUseSimd s action = .error .erange
  /-- Vector registers may not be used. -/
  ebusy : c.issuedDepth ≤ queueMax → s.windowMeanDevUs < 2 ^ 24 * thr → mayUseSimd = false →
    modelFp32Action fp32Unit mayUseSimd s action = .error .ebusy
  /-- In any other case the level and the policy are those of an action that is
  near-optimal, and they pass the check of the inference. -/
  answered : c.issuedDepth ≤ queueMax → s.windowMeanDevUs < 2 ^ 24 * thr → mayUseSimd = true →
    ∃ inputBits a, predictInput s = .ok inputBits
      ∧ modelFp32Action fp32Unit mayUseSimd s action = .ok a ∧ Throttle.actionValid a = true
      ∧ NearOptimal (exactValues (tableVector inputBits)) modelFp32Actions
        (a.level.code * dispatchPolicyCount + a.policy.code)

/-- A snapshot that was taken fits into 32 bits. -/
theorem SnapshotTaken.isU32 {c : ThrottleCtx} {queueMax thr : ℕ} {s : StateSnapshot}
    (h : SnapshotTaken c queueMax thr s) (hmax : queueMax ≤ u32Max) (hthr : thr ≤ u32Max) :
    s.IsU32 where
  queueMax := h.queueMax.trans_le hmax
  mean := h.mean
  threshold := h.threshold.trans_le hthr
  waiting := h.total_le

/-- The level and the policy of one of the twelve actions. -/
theorem modelFp32Action_of_answers {s : StateSnapshot} {bits : List ℕ} {id : ℕ}
    {mayUseSimd : Bool} (h : Answers bits (predictTimed fp32Unit mayUseSimd s) id)
    (action : ThrottleAction) :
    ∃ a, modelFp32Action fp32Unit mayUseSimd s action = .ok a ∧ Throttle.actionValid a = true
      ∧ a.level.code * dispatchPolicyCount + a.policy.code = id := by
  have hlt := h.lt
  unfold modelFp32Actions at hlt
  have hpred : predictTimed fp32Unit mayUseSimd s = { ret := none, actionId := some id } := by
    rw [← h.ret, ← h.actionId]
  unfold modelFp32Action
  rw [hpred]
  refine ⟨_, rfl, ?_, ?_⟩
  · unfold Throttle.actionValid
    rw [decide_eq_true (ThrottleLevel.code_lt _), decide_eq_true (DispatchPolicy.code_lt _)]
    rfl
  · dsimp only [Option.getD_some]
    rw [ThrottleLevel.code_ofCode, DispatchPolicy.code_ofCode]
    · exact Nat.div_add_mod' id _
    · exact Nat.mod_lt _ (by decide)
    · unfold dispatchPolicyCount throttleLevelCount
      omega

namespace Throttle

/-- **The predictor in a run.** In every reachable state, a snapshot that is taken is
answered with an action that is near-optimal for the exact network, unless more
requests are issued than the queue is deep, the mean latency is `2 ^ 24` thresholds or
more, or vector registers may not be used; each of these has its own error number. -/
theorem reachable_snapshot_predicted {w : Throttle} (h : machine.Reachable w)
    {nowNs queueMax thr : ℕ} (hmax : queueMax ≤ u32Max)
    (hthr : ∃ g g' : Globals, g.setDevLatThreshold thr = .ok g') {s : StateSnapshot}
    (hs : (w.ctx.snapshotStateLocked nowNs queueMax thr).2 = some s) (mayUseSimd : Bool)
    (action : ThrottleAction) : SnapshotPredicted w.ctx queueMax thr mayUseSimd s action := by
  obtain ⟨hne, hle⟩ : thr ≠ 0 ∧ thr ≤ intMax := by
    obtain ⟨g, g', hg⟩ := hthr
    unfold Globals.setDevLatThreshold at hg
    split at hg
    · exact absurd hg (by simp)
    · rename_i hc
      rwa [not_or, not_lt] at hc
  have htaken := snapshotTaken (accounted_of_reachable h).books (fits_of_reachable h) hs
  have hu32 := htaken.isU32 hmax (hle.trans (by decide))
  have hvalid := inputValid_iff htaken hne
  have hratios := inputRatios_iff htaken hmax hne (hle.trans (by decide))
  have hinput : w.ctx.issuedDepth ≤ queueMax → s.windowMeanDevUs < 2 ^ 24 * thr →
      ∃ bits, predictInput s = .ok bits := by
    intro hdepth hmean
    obtain ⟨bits, hbits⟩ := Option.isSome_iff_exists.mp
      ((mapM_isSome _ _).mpr ((hratios hdepth).mpr hmean))
    refine ⟨bits, ?_⟩
    unfold predictInput
    rw [hvalid.mpr hdepth, if_neg (by decide), hbits]
  have hcase := answeredBy_predictTimed hu32 mayUseSimd
  refine ⟨fun hdepth => ?_, fun hdepth hmean => ?_, fun hdepth hmean hsimd => ?_,
    fun hdepth hmean hsimd => ?_⟩
  · have hbad : inputValid s = false := by
      rw [Bool.eq_false_iff]
      exact fun hv => absurd (hvalid.mp hv) (not_le.mpr hdepth)
    have herr : predictInput s = .error .einval := by
      unfold predictInput
      rw [hbad, if_pos (by rfl)]
    unfold modelFp32Action predictTimed
    rw [herr]
    rfl
  · have hnone : (inputRatios s).mapM (fun p => ratioBits p.1 p.2) = none := by
      rw [← Option.not_isSome_iff_eq_none, mapM_isSome, hratios hdepth]
      exact not_lt.mpr hmean
    have herr : predictInput s = .error .erange := by
      unfold predictInput
      rw [hvalid.mpr hdepth, if_neg (by decide), hnone]
    unfold modelFp32Action predictTimed
    rw [herr]
    rfl
  · obtain ⟨bits, hbits⟩ := hinput hdepth hmean
    unfold modelFp32Action predictTimed
    rw [hbits, hsimd]
    rfl
  · obtain ⟨bits, hbits⟩ := hinput hdepth hmean
    unfold AnsweredBy at hcase
    rw [hbits, hsimd] at hcase
    obtain ⟨id, hans⟩ := hcase
    rw [← hsimd] at hans
    obtain ⟨a, ha, hav, hid⟩ := modelFp32Action_of_answers hans action
    exact ⟨bits, a, hbits, ha, hav, hid ▸ hans.nearOptimal⟩

/-- A snapshot of a queue with five requests of a millisecond is answered. -/
theorem reachable_snapshot_predicted_overissued :
    ∃ s, (overissuedQueue.ctx.snapshotStateLocked 3000000 2 600).2 = some s
      ∧ SnapshotPredicted overissuedQueue.ctx 2 600 true s .baseline := by
  have hsome : (overissuedQueue.ctx.snapshotStateLocked 3000000 2 600).2.isSome = true := by
    decide +kernel
  obtain ⟨s, hs⟩ := Option.isSome_iff_exists.mp hsome
  exact ⟨s, hs, reachable_snapshot_predicted (reachable_attach _ _) (by decide)
    ⟨.initial, _, rfl⟩ hs true _⟩

end Throttle
