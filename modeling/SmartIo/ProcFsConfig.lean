import SmartIo.ProcFsSettings

/-!
# Settings read and written back

What a file of procfs shows is meant to be written to one again: a script saves the settings of
the module and restores them later. Does that work? The text of a setting always fits the buffer
and the parser of its handler, for the variables keep to their ranges whatever is written
(`ProcState.valid_of_reachable`). What can go wrong is the rest, and `ProcState.Carries` names
it: two settings are refused while throttling is enabled, the model needs its thread, and two
numbers are printed with a sign from `2 ^ 31` on.

So a file that is read and written back is left as it is exactly if nothing of this is in the
way, and the file is not `debug_on` with the raw trace set otherwise
(`ProcState.written_back_iff`). And the settings of one state can be written to any other, in any
order that has `debug_on` before `rawdata_trace`, and `throttle_enable` after the two settings it
protects (`ProcState.restored`). The order of the directory is no such order.
-/

open KernelText

/-! ## Texts that a handler copies -/

namespace ProcState

/-- A line of words that can be read. -/
def lineBuf (words : List (List Char)) : UserBuf := ⟨line words, true⟩

theorem copyText_line {size : ℕ} {tooLong : ProcError} {words : List (List Char)}
    (hwords : ∀ w ∈ words, Word w) (hfits : (line words).length ≤ size - 1) :
    copyText size tooLong (lineBuf words) = .ok (unwords words) := by
  have hshort : ¬ size - 1 < (lineBuf words).chars.length := Nat.not_lt.mpr hfits
  unfold copyText
  rw [if_neg hshort]
  exact congrArg Except.ok (strstrip_line hwords)

theorem copyText_word {size : ℕ} {tooLong : ProcError} {w : List Char} (hw : Word w)
    (hfits : w.length + 1 ≤ size - 1) : copyText size tooLong (lineBuf [w]) = .ok w := by
  rw [← length_line_singleton] at hfits
  exact copyText_line (fun _ h => List.mem_singleton.mp h ▸ hw) hfits

theorem procParseInt_line {z : ℤ} (hz : IsInt z) :
    procParseInt (lineBuf [printD z]) = .ok z := by
  have hlen := length_printD_le hz
  have hread : procParseInt (lineBuf [printD z]) = ProcError.ofParse (kstrtoint (printD z)) :=
    ok_bind (copyText_word (word_printD z) (by omega))
  rw [hread, kstrtoint_printD hz]
  rfl

theorem procParseU32_word {w : List Char} (hw : Word w) (hlen : w.length ≤ 30) :
    procParseU32 (lineBuf [w]) = ProcError.ofParse (kstrtou32 w) :=
  ok_bind (copyText_word hw (by omega))

theorem procParseU32_line {n : ℕ} (hn : n ≤ u32Max) :
    procParseU32 (lineBuf [printU n]) = .ok n := by
  have hlen := length_printU_le (hn.trans (by decide))
  rw [procParseU32_word (word_printU n) (by omega), kstrtou32_printU hn]
  rfl

theorem procParseU64_line {n : ℕ} (hn : n ≤ u64Max) :
    procParseU64 (lineBuf [printU n]) = .ok n := by
  have hlen := length_printU_le hn
  have hread : procParseU64 (lineBuf [printU n]) = ProcError.ofParse (kstrtoull (printU n)) :=
    ok_bind (copyText_word (word_printU n) (by omega))
  rw [hread, kstrtoull_printU hn]
  rfl

theorem parseFlag_line (b : Bool) : parseFlag (lineBuf [printFlag b]) = .ok b := by
  cases b <;> decide

theorem parseSwitch_line (b : Bool) : parseSwitch (lineBuf [printFlag b]) = .ok (some b) := by
  cases b <;> decide

/-! ## What a text of a file does -/

/-- **Nothing stands in the way** of the setting of a file in `s` that is written in `t`. -/
def Carries (threadEnsured : Bool) (s t : ProcState) : ProcEntry → Prop
  | .actionSource => s.globals.config.source = .model → threadEnsured = true
  | .devLat => t.globals.throttleEnabled = false
  | .backgroundDeadlineMs => t.globals.throttleEnabled = false
  | .renderAvgLat => s.cachedRenderAvgLat < 2 ^ 31
  | .jank => s.cachedJankCnt < 2 ^ 31
  | _ => True

variable {s t : ProcState} {threadEnsured : Bool} {nowNs : ℕ} {e : ProcEntry}
  {words : List (List Char)}

/-- The words that stand for the setting of a file: those it shows, and for the three files that
show nothing the numbers they are written with. -/
def text (s : ProcState) : ProcEntry → List (List Char)
  | .policy =>
    [printU s.currentPolicy.sampleRatePct, printD s.currentPolicy.matchUid,
      printFlag s.currentPolicy.onlySync, printU s.currentPolicy.captureSceneMask]
  | .sceneTag => [printU s.scene]
  | .loadavg1mX100 => [printU s.cachedLoadavg1mX100]
  | e => (s.shown e).getD []

theorem text_of_shown (h : s.shown e = some words) : s.text e = words := by
  cases e <;> cases h <;> rfl

/-- A handler that takes the text of `s` and then holds the setting of `s`. -/
def Takes (s t : ProcState) (threadEnsured : Bool) (nowNs : ℕ) (e : ProcEntry) : Prop :=
  ∃ t' calls, t.handler threadEnsured nowNs e (lineBuf (s.text e)) = .ok (t', calls)
    ∧ t'.value e = s.value e

theorem Takes.intro {t' : ProcState} {calls : List ProcCall}
    (h : t.handler threadEnsured nowNs e (lineBuf (s.text e)) = .ok (t', calls))
    (hvalue : t'.value e = s.value e) : Takes s t threadEnsured nowNs e :=
  ⟨t', calls, h, hvalue⟩

/-! ### Flags and numbers -/

theorem storeFlag_line (op : Bool → ConfigOp) (on : Bool) :
    t.storeFlag op (lineBuf [printFlag on])
      = .ok ({ t with globals := t.globals.configure (op on) }, []) :=
  ok_bind (parseFlag_line on)

theorem storeNumber_line {n : ℕ} (store : ℕ → ProcState) (hn : n ≤ u32Max) :
    storeNumber store (lineBuf [printU n]) = .ok (store n, []) :=
  ok_bind (procParseU32_line hn)

theorem printD_natCast (n : ℕ) : printD n = printU n := by
  unfold printD printU
  rw [if_neg (Int.not_lt.mpr (Int.natCast_nonneg n)), Int.natAbs_natCast]

/-- A `u32` printed with `%d` is read back if it is less than `2 ^ 31`. -/
theorem printD_asInt {n : ℕ} (hn : n < 2 ^ 31) : printD (asInt n) = printU n := by
  have hint : IsInt n := ⟨by omega, by omega⟩
  rw [asInt_of_isInt hint, printD_natCast]

/-- And it is refused if it is not. -/
theorem storeNumber_asInt {n : ℕ} (store : ℕ → ProcState) (hn : n ≤ u32Max)
    (hbig : ¬ n < 2 ^ 31) :
    storeNumber store (lineBuf [printD (asInt n)]) = .error .einval := by
  have hlt : n < 2 ^ 32 := Nat.lt_of_le_of_lt hn (by decide)
  have hneg : asInt n < 0 := by
    unfold asInt
    rw [Int.bmod_def]
    split <;> omega
  have hlen := length_printD_le (isInt_asInt n)
  have hparse : procParseU32 (lineBuf [printD (asInt n)]) = .error .einval := by
    rw [procParseU32_word (word_printD _) (by omega), kstrtou32_printD_of_neg hneg]
    rfl
  unfold storeNumber
  rw [hparse]
  rfl

theorem setFgUid_value (t : ProcState) (uid : ℤ) :
    (t.setFgUid uid).1.value .fgUid = .integer uid := by
  unfold setFgUid
  split
  next hsame => exact congrArg ProcValue.integer hsame.symm
  · rfl

theorem setFgMainPid_value (t : ProcState) (pid : ℤ) :
    (t.setFgMainPid pid).value .fgMainPid = .integer pid := by
  unfold setFgMainPid
  split
  next hsame => exact congrArg ProcValue.integer hsame.symm
  · rfl

theorem setThrottleEnabled_value (t : ProcState) (enabled : Bool) :
    (t.setThrottleEnabled enabled).1.value .throttleEnable = .flag enabled := by
  unfold setThrottleEnabled
  split
  next hsame => exact congrArg ProcValue.flag hsame.symm
  · rfl

/-! ### The rate of the limiter -/

/-- A rate that was accepted is shown as the number that was written. -/
theorem setWkbps_getWkbps (h : s.Valid) :
    s.limiter.getWkbps ≤ u64Max ∧ setWkbps s.limiter.getWkbps = some s.limiter.configWbps := by
  obtain ⟨wkbps, hset⟩ := h.wbps
  have hshape := hset
  unfold setWkbps at hshape
  split at hshape
  · cases hshape
  next hfits =>
  have hget : s.limiter.getWkbps = wkbps := by
    unfold DirtyrateLimiter.getWkbps
    rw [← Option.some.inj hshape]
    exact Nat.mul_div_cancel _ (by decide)
  rw [hget]
  exact ⟨(Nat.not_lt.mp hfits).trans (Nat.div_le_self _ _), hset⟩

/-! ### Settings of several words -/

/-- The three ratios are read back. -/
theorem scanRatios_unwords {l m k : ℕ} (hl : l ≤ u32Max) (hm : m ≤ u32Max) (hk : k ≤ u32Max) :
    scanRatios (unwords [printU l, printU m, printU k]) = some (l, m, k) := by
  have htext : unwords [printU l, printU m, printU k]
      = printU l ++ ' ' :: (printU m ++ ' ' :: (printU k ++ [])) := by
    rw [List.append_nil]
    rfl
  have hspace (n : ℕ) (rest : List Char) : scanU (' ' :: (printU n ++ rest))
      = scanU (printU n ++ rest) := by
    unfold scanU
    rw [skipSpaces_space]
  unfold scanRatios
  rw [htext, scanU_printU hl (noDigit_space _)]
  show (scanU (' ' :: (printU m ++ ' ' :: (printU k ++ []))) >>= _) = _
  rw [hspace, scanU_printU hm (noDigit_space _)]
  show (scanU (' ' :: (printU k ++ [])) >>= _) = _
  rw [hspace, scanU_printU hk noDigit_nil]
  rfl

/-- Ratios in order fit the buffer. -/
theorem throttleRatiosWrite_line {l m k : ℕ} (h : RatiosOrdered l m k) (t : ProcState) :
    t.throttleRatiosWrite (lineBuf [printU l, printU m, printU k])
      = t.storeGlobals (t.globals.setRatios l m k) := by
  have hle : l ≤ 100 ∧ m ≤ 100 ∧ k ≤ 100 := by
    have hlight := h.light_le
    have hlm := h.light
    have hmk := h.medium
    omega
  have hshort {n : ℕ} (hn : n ≤ 100) : (printU n).length ≤ 3 :=
    length_toDigits_le (by decide) (by omega)
  have hwords : ∀ w ∈ [printU l, printU m, printU k], Word w := by
    simp only [List.forall_mem_cons, List.not_mem_nil, false_implies, implies_true, and_true]
    exact ⟨word_printU l, word_printU m, word_printU k⟩
  have hfits : (line [printU l, printU m, printU k]).length ≤ 31 := by
    have hl := hshort hle.1
    have hm := hshort hle.2.1
    have hk := hshort hle.2.2
    simp only [line, unwords, List.length_append, List.length_cons, List.length_nil]
    omega
  have hu32 {n : ℕ} (hn : n ≤ 100) : n ≤ u32Max := hn.trans (by decide)
  refine (ok_bind (copyText_line hwords hfits)).trans ?_
  rw [scanRatios_unwords (hu32 hle.1) (hu32 hle.2.1) (hu32 hle.2.2)]

theorem word_throttleLevelName (level : ThrottleLevel) : Word (throttleLevelName level) := by
  cases level <;> exact word_of_all (by decide) (by decide)

theorem word_dispatchPolicyName (policy : DispatchPolicy) :
    Word (dispatchPolicyName policy) := by
  cases policy <;> exact word_of_all (by decide) (by decide)

/-- **Every name fits the field it is scanned into**, and stands for one level or policy. -/
theorem length_throttleLevelName_le (level : ThrottleLevel) :
    (throttleLevelName level).length ≤ 7 := by
  cases level <;> decide

theorem length_dispatchPolicyName_le (policy : DispatchPolicy) :
    (dispatchPolicyName policy).length ≤ 11 := by
  cases policy <;> decide

theorem fixedActionParseLevel_name (level : ThrottleLevel) :
    fixedActionParseLevel (throttleLevelName level) = .ok level := by
  cases level <;> rfl

theorem fixedActionParsePolicy_name (policy : DispatchPolicy) :
    fixedActionParsePolicy (dispatchPolicyName policy) = .ok policy := by
  cases policy <;> rfl

theorem fixedActionWrite_line (t : ProcState) (level : ThrottleLevel) (policy : DispatchPolicy) :
    t.fixedActionWrite (lineBuf [throttleLevelName level, dispatchPolicyName policy])
      = t.storeGlobals (t.globals.setFixedAction level.code policy.code) := by
  have hlevel := word_throttleLevelName level
  have hpolicy := word_dispatchPolicyName policy
  have hlevelLen := length_throttleLevelName_le level
  have hpolicyLen := length_dispatchPolicyName_le policy
  have hwords : ∀ w ∈ [throttleLevelName level, dispatchPolicyName policy], Word w := by
    simp only [List.forall_mem_cons, List.not_mem_nil, false_implies, implies_true, and_true]
    exact ⟨hlevel, hpolicy⟩
  have hfits : (line [throttleLevelName level, dispatchPolicyName policy]).length ≤ 31 := by
    simp only [line, unwords, List.length_append, List.length_cons, List.length_nil]
    omega
  have hscan : scanAction (unwords [throttleLevelName level, dispatchPolicyName policy])
      = some (throttleLevelName level, dispatchPolicyName policy) := by
    have hsecond := scanS_word hpolicy hpolicyLen (.inl rfl)
    rw [List.append_nil] at hsecond
    have hskip := skipSpaces_word_append hpolicy []
    rw [List.append_nil] at hskip
    unfold scanAction
    rw [unwords_cons_cons, scanS_word hlevel hlevelLen (.inr ⟨_, rfl⟩)]
    show (scanS 11 (skipSpaces (' ' :: dispatchPolicyName policy)) >>= _) = _
    rw [skipSpaces_space, hskip, hsecond]
    rfl
  refine (ok_bind (copyText_line hwords hfits)).trans ?_
  rw [hscan]
  refine (ok_bind (fixedActionParseLevel_name level)).trans ?_
  exact ok_bind (fixedActionParsePolicy_name policy)

theorem actionSourceWrite_line (t : ProcState) (threadEnsured : Bool) (source : ActionSource) :
    t.actionSourceWrite threadEnsured (lineBuf [actionSourceName source])
      = if source = .model ∧ threadEnsured = false then .error .thread
        else .ok ({ t with
          globals := { t.globals with
            config := { t.globals.config with source := source } } }, []) := by
  cases source <;> cases threadEnsured <;> rfl

/-! ### What a file that is in range sets -/

theorem setRatios_of_ordered {l m k : ℕ} (h : RatiosOrdered l m k) (g : Globals) :
    g.setRatios l m k
      = .ok { g with
        config := { g.config with lightPct := l, mediumPct := m, heavyPct := k } } := by
  have hheavy := h.heavy
  have hmedium := h.medium
  have hlight := h.light
  have hle := h.light_le
  exact if_neg (by omega)

theorem setFixedAction_code (g : Globals) (level : ThrottleLevel) (policy : DispatchPolicy) :
    g.setFixedAction level.code policy.code
      = .ok { g with
        config := { g.config with
          fixedAction := { g.config.fixedAction with level := level, policy := policy } } } := by
  cases level <;> cases policy <;> rfl

theorem setDevLatThreshold_of_range {n : ℕ} (hn : n ≠ 0 ∧ n ≤ intMax) (g : Globals) :
    g.setDevLatThreshold n
      = if g.throttleEnabled then .error .ebusy else .ok { g with devLatThresholdUs := n } :=
  if_neg (by omega)

theorem setBackgroundDeadlineMs_of_range {n : ℕ} (hn : n ≠ 0 ∧ n ≤ intMax) (g : Globals) :
    g.setBackgroundDeadlineMs n
      = if g.throttleEnabled then .error .ebusy else .ok { g with backgroundDeadlineMs := n } :=
  if_neg (by omega)

theorem le_u32Max_of_le_intMax {n : ℕ} (h : n ≤ intMax) : n ≤ u32Max := h.trans (by decide)

/-- A file whose number is refused while throttling is enabled. -/
theorem devLatWrite_line (hs : s.Valid) (t : ProcState) :
    t.devLatWrite (lineBuf [printU s.globals.devLatThresholdUs])
      = if t.globals.throttleEnabled then .error .ebusy
        else .ok ({ t with
          globals := { t.globals with
            devLatThresholdUs := s.globals.devLatThresholdUs } }, []) := by
  refine (ok_bind (procParseU32_line (le_u32Max_of_le_intMax hs.devLat.2))).trans ?_
  rw [setDevLatThreshold_of_range hs.devLat]
  split <;> rfl

theorem backgroundDeadlineWrite_line (hs : s.Valid) (t : ProcState) :
    t.backgroundDeadlineWrite (lineBuf [printU s.globals.backgroundDeadlineMs])
      = if t.globals.throttleEnabled then .error .ebusy
        else .ok ({ t with
          globals := { t.globals with
            backgroundDeadlineMs := s.globals.backgroundDeadlineMs } }, []) := by
  refine (ok_bind (procParseU32_line (le_u32Max_of_le_intMax hs.backgroundDeadline.2))).trans ?_
  rw [setBackgroundDeadlineMs_of_range hs.backgroundDeadline]
  split <;> rfl

theorem dirtyrateWkbpsWrite_line (hs : s.Valid) (t : ProcState) (nowNs : ℕ) :
    t.dirtyrateWkbpsWrite nowNs (lineBuf [printU s.limiter.getWkbps])
      = .ok ({ t with limiter := t.limiter.setWkbpsLocked s.limiter.configWbps nowNs }, []) := by
  obtain ⟨hle, hset⟩ := setWkbps_getWkbps hs
  refine (ok_bind (procParseU64_line hle)).trans ?_
  rw [hset]

/-- The four numbers of a policy are read back. -/
theorem scanPolicy_unwords {rate mask : ℕ} {uid : ℤ} (syncOnly : Bool) (hrate : rate ≤ u32Max)
    (huid : IsInt uid) (hmask : mask < 256) :
    scanPolicy (unwords [printU rate, printD uid, printFlag syncOnly, printU mask])
      = some (rate, uid, (if syncOnly then 1 else 0 : ℤ), (mask : ℤ)) := by
  have htext : unwords [printU rate, printD uid, printFlag syncOnly, printU mask]
      = printU rate ++ ' ' :: (printD uid ++ ' ' :: (printFlag syncOnly
        ++ ' ' :: (printD mask ++ []))) := by
    rw [List.append_nil, printD_natCast]
    rfl
  have hspace {z : ℤ} {rest : List Char} (hz : IsInt z) (hrest : NoDigit rest) :
      scanD (' ' :: (printD z ++ rest)) = some (z, rest) := by
    rw [← scanD_printD hz hrest]
    unfold scanD
    rw [skipSpaces_space]
  have hflag : IsInt (if syncOnly then 1 else 0) := by cases syncOnly <;> decide
  have hbyte : IsInt mask := ⟨by omega, by omega⟩
  unfold scanPolicy
  rw [htext, scanU_printU hrate (noDigit_space _)]
  show (scanD (' ' :: (printD uid ++ _)) >>= _) = _
  rw [hspace huid (noDigit_space _)]
  show (scanD (' ' :: (printD (if syncOnly then 1 else 0) ++ _)) >>= _) = _
  rw [hspace hflag (noDigit_space _)]
  show (scanD (' ' :: (printD mask ++ [])) >>= _) = _
  rw [hspace hbyte noDigit_nil]
  rfl

theorem policyWrite_line (hs : s.Valid) (t : ProcState) :
    t.policyWrite (lineBuf (s.text .policy))
      = .ok ({ t with
          currentPolicy := { s.currentPolicy with enabled := t.currentPolicy.enabled } }, []) := by
  have hrate := hs.sampleRate
  have hmask := hs.sceneMask
  have hwords : ∀ w ∈ s.text .policy, Word w := by
    simp only [text, List.forall_mem_cons, List.not_mem_nil, false_implies, implies_true, and_true]
    exact ⟨word_printU _, word_printD _, word_printD _, word_printU _⟩
  have hfits : (line (s.text .policy)).length ≤ 63 := by
    have hrateLen : (printU s.currentPolicy.sampleRatePct).length ≤ 3 :=
      length_toDigits_le (by decide) (by omega)
    have huidLen := length_printD_le hs.matchUid
    have hflagLen : (printFlag s.currentPolicy.onlySync).length ≤ 1 := by
      cases s.currentPolicy.onlySync <;> decide
    have hmaskLen : (printU s.currentPolicy.captureSceneMask).length ≤ 3 :=
      length_toDigits_le (by decide) (by omega)
    simp only [text, line, unwords, List.length_append, List.length_cons, List.length_nil]
    omega
  have hscan := scanPolicy_unwords s.currentPolicy.onlySync (hrate.trans (by decide)) hs.matchUid
    hmask
  have hsync : decide ((if s.currentPolicy.onlySync then (1 : ℤ) else 0) ≠ 0)
      = s.currentPolicy.onlySync := by cases s.currentPolicy.onlySync <;> rfl
  have hbyte : ((s.currentPolicy.captureSceneMask : ℤ) % 256).toNat
      = s.currentPolicy.captureSceneMask := by omega
  refine (ok_bind (copyText_line hwords hfits)).trans ?_
  rw [text, hscan]
  dsimp only
  rw [hsync, hbyte]
  unfold policySet
  rw [if_neg (Nat.not_lt.mpr hrate)]

/-- **The text of a file is taken**, if nothing stands in the way. -/
theorem takes (nowNs : ℕ) (hs : s.Valid) (hcarries : Carries threadEnsured s t e) :
    Takes s t threadEnsured nowNs e := by
  cases e
  case dirtyrateEnable => exact .intro (ok_bind (parseFlag_line _)) rfl
  case dirtyrateWkbps => exact .intro (dirtyrateWkbpsWrite_line hs t nowNs) rfl
  case enable => exact .intro (ok_bind (parseSwitch_line _)) rfl
  case policy => exact .intro (policyWrite_line hs t) rfl
  case fgUid => exact .intro (ok_bind (procParseInt_line hs.fgUid)) (setFgUid_value t _)
  case fgMainPid =>
    exact .intro (ok_bind (procParseInt_line hs.fgMainPid)) (setFgMainPid_value t _)
  case throttleEnable =>
    exact .intro (ok_bind (parseFlag_line _)) (setThrottleEnabled_value t _)
  case uxHpEnable => exact .intro (storeFlag_line _ _) rfl
  case rtReadHpEnable => exact .intro (storeFlag_line _ _) rfl
  case queueRqThrottleDemo => exact .intro (storeFlag_line _ _) rfl
  case throttleRatios =>
    have hwrite := throttleRatiosWrite_line hs.ratios t
    rw [setRatios_of_ordered hs.ratios] at hwrite
    exact .intro hwrite rfl
  case actionSource =>
    have hthread : ¬(s.globals.config.source = .model ∧ threadEnsured = false) := by
      rintro ⟨hmodel, hnone⟩
      exact absurd ((hcarries hmodel).symm.trans hnone) (by decide)
    have hwrite := (actionSourceWrite_line t threadEnsured _).trans (if_neg hthread)
    exact .intro hwrite rfl
  case fixedAction =>
    have hwrite := fixedActionWrite_line t s.globals.config.fixedAction.level
      s.globals.config.fixedAction.policy
    rw [setFixedAction_code] at hwrite
    exact .intro hwrite rfl
  case devLat =>
    have hwrite := devLatWrite_line hs t
    rw [show t.globals.throttleEnabled = false from hcarries] at hwrite
    exact .intro hwrite rfl
  case backgroundDeadlineMs =>
    have hwrite := backgroundDeadlineWrite_line hs t
    rw [show t.globals.throttleEnabled = false from hcarries] at hwrite
    exact .intro hwrite rfl
  case sceneTag => exact .intro (storeNumber_line _ hs.scene) rfl
  case loadavg1mX100 => exact .intro (storeNumber_line _ hs.loadavg) rfl
  case renderAvgLat =>
    have htext : s.text .renderAvgLat = [printU s.cachedRenderAvgLat] :=
      congrArg (fun w => [w]) (printD_asInt hcarries)
    have hwrite := storeNumber_line (fun n => { t with cachedRenderAvgLat := n }) hs.renderAvgLat
    rw [← htext] at hwrite
    exact .intro hwrite rfl
  case jank =>
    have htext : s.text .jank = [printU s.cachedJankCnt] :=
      congrArg (fun w => [w]) (printD_asInt hcarries)
    have hwrite := storeNumber_line (fun n => { t with cachedJankCnt := n }) hs.jank
    rw [← htext] at hwrite
    exact .intro hwrite rfl
  case windowSzMs => exact .intro (storeNumber_line _ hs.windowSz) rfl
  case rawdataTrace => exact .intro (ok_bind (parseSwitch_line _)) rfl
  case debugOn => exact .intro (ok_bind (parseSwitch_line _)) rfl
  case pagecacheDemo => exact .intro (ok_bind (parseSwitch_line _)) rfl
  case pagecacheDemoObserve => exact .intro (ok_bind (parseSwitch_line _)) rfl

/-- **And it is refused otherwise.** -/
theorem refuses (nowNs : ℕ) (hs : s.Valid) (hcarries : ¬ Carries threadEnsured s t e) :
    ∃ error, t.handler threadEnsured nowNs e (lineBuf (s.text e)) = .error error := by
  cases e
  case actionSource =>
    obtain ⟨hsource, hthread⟩ := Classical.not_imp.mp hcarries
    refine ⟨.thread, (actionSourceWrite_line t threadEnsured _).trans ?_⟩
    exact if_pos ⟨hsource, Bool.eq_false_of_not_eq_true hthread⟩
  case devLat =>
    refine ⟨.ebusy, (devLatWrite_line hs t).trans ?_⟩
    exact if_pos (Bool.eq_true_of_not_eq_false hcarries)
  case backgroundDeadlineMs =>
    refine ⟨.ebusy, (backgroundDeadlineWrite_line hs t).trans ?_⟩
    exact if_pos (Bool.eq_true_of_not_eq_false hcarries)
  case renderAvgLat => exact ⟨.einval, storeNumber_asInt _ hs.renderAvgLat hcarries⟩
  case jank => exact ⟨.einval, storeNumber_asInt _ hs.jank hcarries⟩
  all_goals exact absurd trivial hcarries

/-! ## A file read and written back -/

theorem write_of_handler {t' : ProcState} {calls : List ProcCall} {ub : UserBuf}
    (h : t.handler threadEnsured nowNs e ub = .ok (t', calls)) :
    t.write threadEnsured nowNs e ub = (.ok ub.chars.length, t', calls) := by
  unfold write
  rw [h]

/-- `debug_on` takes the raw trace with it. -/
theorem handler_debugOn (t : ProcState) (threadEnsured : Bool) (nowNs : ℕ) (on : Bool) :
    t.handler threadEnsured nowNs .debugOn (lineBuf [printFlag on])
      = .ok ({ t with debugEnabled := on, rawdataTraceEnabled := on }, []) :=
  ok_bind (parseSwitch_line on)

/-- **A file that is read and written back is left as it is** – the write is accepted, and every
file has the setting it had – exactly if throttling is disabled, where the file is one of the two
that are refused otherwise; if the thread of the model can be had, where the model is the source;
if the number is less than `2 ^ 31`, where it is printed with a sign; and if the raw trace is
set as `debug_on` is, where the file is that. -/
theorem written_back_iff (h : machine.Reachable s) (threadEnsured : Bool) (nowNs : ℕ)
    (hshown : s.shown e = some words) :
    ((s.write threadEnsured nowNs e (lineBuf words)).1 = .ok (line words).length
        ∧ ∀ e', (s.write threadEnsured nowNs e (lineBuf words)).2.1.value e' = s.value e')
      ↔ Carries threadEnsured s s e
        ∧ (e = .debugOn → s.rawdataTraceEnabled = s.debugEnabled) := by
  have hs := valid_of_reachable h
  constructor
  · rintro ⟨hok, hsame⟩
    constructor
    · by_contra hcarries
      obtain ⟨error, herror⟩ := refuses nowNs hs hcarries
      rw [text_of_shown hshown] at herror
      unfold write at hok
      rw [herror] at hok
      cases hok
    · rintro rfl
      cases hshown
      have htrace := hsame .rawdataTrace
      rw [write_of_handler (handler_debugOn s threadEnsured nowNs _)] at htrace
      exact (ProcValue.flag.inj htrace).symm
  · rintro ⟨hcarries, hdebug⟩
    obtain ⟨t', calls, hhandler, hvalue⟩ := takes nowNs hs hcarries
    rw [text_of_shown hshown] at hhandler
    rw [write_of_handler hhandler]
    refine ⟨rfl, fun e' => ?_⟩
    by_cases heq : e' = e
    · rw [heq]
      exact hvalue
    by_cases htrace : e = .debugOn ∧ e' = .rawdataTrace
    · obtain ⟨rfl, rfl⟩ := htrace
      cases hshown
      rw [handler_debugOn] at hhandler
      rw [stored_inj hhandler]
      exact congrArg ProcValue.flag (hdebug rfl).symm
    · exact value_of_handler hhandler heq htrace

/-- A count of `2 ^ 31` is accepted, and shown with a sign: it cannot be written back. The
threshold of latencies can, as long as throttling is disabled. -/
theorem written_back_iff_jank :
    let s := machine.run initial
      [.write .jank (lineBuf [printU (2 ^ 31)]) true 0,
        .write .devLat (lineBuf [printU 500]) true 0]
    (s.value .jank = .number (2 ^ 31)
      ∧ ¬((s.write true 0 .jank (lineBuf [printD (-2 ^ 31)])).1 = .ok 12
        ∧ ∀ e', (s.write true 0 .jank (lineBuf [printD (-2 ^ 31)])).2.1.value e' = s.value e'))
      ∧ s.value .devLat = .number 500
      ∧ (s.write true 0 .devLat (lineBuf [printU 500])).1 = .ok 4 := by
  intro s
  have hreach : machine.Reachable s := (StepMachine.Reachable.of_init rfl).run _
  have hjank : s.shown .jank = some [printD (-2 ^ 31)] := by decide +kernel
  have hdevLat : s.shown .devLat = some [printU 500] := by decide +kernel
  refine ⟨⟨by decide +kernel, fun hsame => ?_⟩, by decide +kernel, ?_⟩
  · have hcarries := ((written_back_iff hreach true 0 hjank).mp hsame).1
    exact absurd hcarries (by decide +kernel : ¬ s.cachedJankCnt < 2 ^ 31)
  · have hoff : s.globals.throttleEnabled = false := by decide +kernel
    exact ((written_back_iff hreach true 0 hdevLat).mpr ⟨hoff, fun h => by cases h⟩).1

/-! ## Settings saved and restored -/

/-- A file whose text may be written before that of another. -/
def MayPrecede (e e' : ProcEntry) : Prop :=
  ¬(e = .rawdataTrace ∧ e' = .debugOn)
    ∧ ¬(e = .throttleEnable ∧ (e' = .devLat ∨ e' = .backgroundDeadlineMs))

instance decidableMayPrecede (e e' : ProcEntry) : Decidable (MayPrecede e e') :=
  inferInstanceAs (Decidable (¬(e = .rawdataTrace ∧ e' = .debugOn)
    ∧ ¬(e = .throttleEnable ∧ (e' = .devLat ∨ e' = .backgroundDeadlineMs))))

/-- The writes that restore files of a saved state, each at its time. -/
def restoring (threadEnsured : Bool) (s : ProcState) (es : List (ProcEntry × ℕ)) :
    List ProcOp :=
  es.map fun p => .write p.1 (lineBuf (s.text p.1)) threadEnsured p.2

/-- What a file shows is its setting, and nothing else. -/
theorem shown_congr (h : s.value e = t.value e) : s.shown e = t.shown e := by
  cases e <;> injection h <;> simp only [shown, DirtyrateLimiter.getWkbps, *]

/-- A write of a file that may come before another does not get in the way of the other. -/
theorem Carries.of_write {t' : ProcState} {calls : List ProcCall} {ub : UserBuf}
    {e' : ProcEntry} (hcarries : Carries threadEnsured s t e')
    (h : t.handler threadEnsured nowNs e ub = .ok (t', calls)) (horder : MayPrecede e e') :
    Carries threadEnsured s t' e' := by
  have hoff (hprotected : e' = .devLat ∨ e' = .backgroundDeadlineMs)
      (hwas : t.globals.throttleEnabled = false) : t'.globals.throttleEnabled = false := by
    have hne : e ≠ .throttleEnable := fun heq => horder.2 ⟨heq, hprotected⟩
    have hvalue := value_of_handler h hne.symm (fun htrace => absurd htrace.2 (by decide))
    exact (ProcValue.flag.inj hvalue).trans hwas
  cases e'
  case devLat => exact hoff (.inl rfl) hcarries
  case backgroundDeadlineMs => exact hoff (.inr rfl) hcarries
  all_goals exact hcarries

/-- The run that restores, after its first write. -/
theorem restoring_cons {t' : ProcState} {calls : List ProcCall} {es : List (ProcEntry × ℕ)}
    (h : t.handler threadEnsured nowNs e (lineBuf (s.text e)) = .ok (t', calls)) :
    machine.run t (restoring threadEnsured s ((e, nowNs) :: es))
        = machine.run t' (restoring threadEnsured s es)
      ∧ machine.outs t (restoring threadEnsured s ((e, nowNs) :: es))
        = some (.ok (line (s.text e)).length)
          :: machine.outs t' (restoring threadEnsured s es) := by
  have hstep : machine.step t (.write e (lineBuf (s.text e)) threadEnsured nowNs)
      = (t', some (.ok (line (s.text e)).length)) := by
    show ((t.write threadEnsured nowNs e (lineBuf (s.text e))).2.1,
      some (t.write threadEnsured nowNs e (lineBuf (s.text e))).1) = _
    rw [write_of_handler h]
    rfl
  constructor
  · exact congrArg (fun r => machine.run r.1 (restoring threadEnsured s es)) hstep
  · exact congrArg (fun r => r.2 :: machine.outs r.1 (restoring threadEnsured s es)) hstep

/-- A file that is not among those restored is spared. -/
theorem spares_restoring {es : List (ProcEntry × ℕ)} (hnot : ∀ p ∈ es, p.1 ≠ e)
    (htrace : ¬(e = .rawdataTrace ∧ ∃ p ∈ es, p.1 = .debugOn)) :
    ∀ op ∈ restoring threadEnsured s es, Spares e op := by
  intro op hop
  obtain ⟨p, hp, rfl⟩ := List.mem_map.mp hop
  exact ⟨hnot p hp, fun hboth => htrace ⟨hboth.2, p, hp, hboth.1⟩⟩

/-- Every write that restores is accepted: after each, what is left can still be taken. -/
theorem outs_restoring (hs : s.Valid) {es : List (ProcEntry × ℕ)}
    (hcarries : ∀ p ∈ es, Carries threadEnsured s t p.1)
    (horder : es.Pairwise (fun p q => MayPrecede p.1 q.1)) :
    ∀ out ∈ machine.outs t (restoring threadEnsured s es), ∃ n, out = some (.ok n) := by
  induction es generalizing t with
  | nil => exact fun _ hout => absurd hout List.not_mem_nil
  | cons p es ih =>
    obtain ⟨hfirst, hrest⟩ := List.pairwise_cons.mp horder
    obtain ⟨t', calls, hhandler, -⟩ :=
      takes p.2 hs (hcarries p List.mem_cons_self)
    rw [(restoring_cons hhandler).2]
    intro out hout
    rcases List.mem_cons.mp hout with rfl | hout
    · exact ⟨_, rfl⟩
    · have hcarries' : ∀ q ∈ es, Carries threadEnsured s t' q.1 := fun q hq =>
        (hcarries q (List.mem_cons_of_mem p hq)).of_write hhandler (hfirst q hq)
      exact ih hcarries' hrest out hout

/-- And every file that is restored has its setting in the end: it is written, and if it is not
written again, the writes that follow spare it. -/
theorem value_restoring (hs : s.Valid) {es : List (ProcEntry × ℕ)}
    (hcarries : ∀ p ∈ es, Carries threadEnsured s t p.1)
    (horder : es.Pairwise (fun p q => MayPrecede p.1 q.1)) :
    ∀ p ∈ es, (machine.run t (restoring threadEnsured s es)).value p.1 = s.value p.1 := by
  induction es generalizing t with
  | nil => exact fun _ hp => absurd hp List.not_mem_nil
  | cons p es ih =>
    obtain ⟨hfirst, hrest⟩ := List.pairwise_cons.mp horder
    obtain ⟨t', calls, hhandler, hvalue⟩ :=
      takes p.2 hs (hcarries p List.mem_cons_self)
    have hcarries' : ∀ q ∈ es, Carries threadEnsured s t' q.1 := fun q hq =>
      (hcarries q (List.mem_cons_of_mem p hq)).of_write hhandler (hfirst q hq)
    have hlater := ih hcarries' hrest
    rw [(restoring_cons hhandler).1]
    intro q hq
    by_cases hagain : ∃ r ∈ es, r.1 = q.1
    · obtain ⟨r, hr, hrq⟩ := hagain
      rw [← hrq]
      exact hlater r hr
    · have hqp : q = p := by
        rcases List.mem_cons.mp hq with hqp | hq
        · exact hqp
        · exact absurd ⟨q, hq, rfl⟩ hagain
      rw [hqp] at hagain ⊢
      have hspared : ∀ op ∈ restoring threadEnsured s es, Spares p.1 op := by
        refine spares_restoring (fun r hr heq => hagain ⟨r, hr, heq⟩) ?_
        rintro ⟨htrace, r, hr, hdebug⟩
        exact (hfirst r hr).1 ⟨htrace, hdebug⟩
      exact (value_run hspared t').trans hvalue

/-- **Settings that have been saved can be restored.** Save the settings of any files in a
reachable state, as the texts they show, and write these in any other state, in an order that has
`debug_on` before `rawdata_trace` and `throttle_enable` after the two settings it protects. If
nothing stands in the way of any of them, every write is accepted, afterwards each of these files
has the setting and shows the text it had when it was saved, and every other file is left as it
was; only the raw trace goes with `debug_on`. -/
theorem restored (h : machine.Reachable s) (t : ProcState) {es : List (ProcEntry × ℕ)}
    (hcarries : ∀ p ∈ es, Carries threadEnsured s t p.1)
    (horder : es.Pairwise (fun p q => MayPrecede p.1 q.1)) :
    (∀ out ∈ machine.outs t (restoring threadEnsured s es), ∃ n, out = some (.ok n))
      ∧ (∀ p ∈ es,
        (machine.run t (restoring threadEnsured s es)).value p.1 = s.value p.1
          ∧ (machine.run t (restoring threadEnsured s es)).shown p.1 = s.shown p.1)
      ∧ ∀ e, (∀ p ∈ es, p.1 ≠ e) → ¬(e = .rawdataTrace ∧ ∃ p ∈ es, p.1 = .debugOn) →
        (machine.run t (restoring threadEnsured s es)).value e = t.value e := by
  have hs := valid_of_reachable h
  have hvalues := value_restoring hs hcarries horder
  exact ⟨outs_restoring hs hcarries horder,
    fun p hp => ⟨hvalues p hp, shown_congr (hvalues p hp)⟩,
    fun e hnot htrace => value_run (spares_restoring hnot htrace) t⟩

/-- Seven settings saved while throttling is enabled, and restored after the variables have been
reset. -/
theorem restored_session :
    let s := machine.run initial
      [.write .debugOn (lineBuf [printU 1]) true 0,
        .write .rawdataTrace (lineBuf [printU 0]) true 0,
        .write .throttleRatios (lineBuf [printU 80, printU 40, printU 10]) true 0,
        .write .actionSource (lineBuf [actionSourceName .model]) true 0,
        .write .fixedAction (lineBuf [throttleLevelName .heavy, dispatchPolicyName .small]) true 0,
        .write .devLat (lineBuf [printU 500]) true 0,
        .write .throttleEnable (lineBuf [printU 1]) true 0]
    let es := [(ProcEntry.debugOn, 0), (.rawdataTrace, 0), (.throttleRatios, 0), (.actionSource, 0),
      (.fixedAction, 0), (.devLat, 0), (.throttleEnable, 0)]
    (∀ p ∈ es, (machine.run initial (restoring true s es)).value p.1 = s.value p.1)
      ∧ (s.value .debugOn, s.value .rawdataTrace) = (.flag true, .flag false)
      ∧ s.value .fixedAction = .action .heavy .small := by
  intro s es
  have hreach : machine.Reachable s := (StepMachine.Reachable.of_init rfl).run _
  have hcarries : ∀ p ∈ es, Carries true s initial p.1 := by
    simp only [es, List.forall_mem_cons, List.not_mem_nil, false_implies, implies_true, and_true]
    exact ⟨trivial, trivial, trivial, fun _ => rfl, trivial, rfl, trivial⟩
  have hrestored := restored hreach initial hcarries (by decide)
  exact ⟨fun p hp => (hrestored.2.1 p hp).1, by decide +kernel, by decide +kernel⟩

/-- The directory lists `throttle_enable` before `dev_lat`. In that order the second is refused. -/
example :
    let s := machine.run initial
      [.write .devLat (lineBuf [printU 500]) true 0,
        .write .throttleEnable (lineBuf [printU 1]) true 0]
    machine.outs initial (restoring true s [(.throttleEnable, 0), (.devLat, 0)])
      = [some (.ok 2), some (.error .ebusy)] := by
  decide +kernel

end ProcState
