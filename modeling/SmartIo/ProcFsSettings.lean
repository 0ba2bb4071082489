import SmartIo.ProcFs
import SmartIo.StepMachine
import SmartIo.ThrottleGate

/-!
# What a write to a file may store

Whatever is written to the files of procfs, by whoever may write to them, the settings of the
module have to be ones that it can work with. A handler either stores nothing, or what
`Stores` allows for its file, which is the handler read backwards (`stores_of_handler`). From
this relation come the two facts about all texts: the settings keep to their ranges
(`ProcState.Valid`), and a write to one file leaves the setting of any other file as it was –
`debug_on`, which takes the raw trace with it, excepted.

Both hold in every state that is reachable by writes, one after another, and by what the poll
thread and the tasks that dirty pages do to the limiter in between. A handler is one step here:
of two writes at the same time one is done before the other.
-/

open KernelText

/-! ## The setting of a file -/

/-- What a file of procfs sets. -/
inductive ProcValue where
  | flag (on : Bool)
  | number (n : ℕ)
  | integer (z : ℤ)
  | ratios (lightPct mediumPct heavyPct : ℕ)
  | source (source : ActionSource)
  | action (level : ThrottleLevel) (policy : DispatchPolicy)
  | capture (sampleRatePct : ℕ) (matchUid : ℤ) (onlySync : Bool) (captureSceneMask : ℕ)
deriving DecidableEq, Repr

namespace ProcState

/-- The setting of a file. -/
def value (s : ProcState) : ProcEntry → ProcValue
  | .dirtyrateEnable => .flag s.limiter.enabled
  | .dirtyrateWkbps => .number s.limiter.configWbps
  | .enable => .flag s.smartIoEnabled
  | .policy =>
    .capture s.currentPolicy.sampleRatePct s.currentPolicy.matchUid s.currentPolicy.onlySync
      s.currentPolicy.captureSceneMask
  | .fgUid => .integer s.globals.fgUid
  | .fgMainPid => .integer s.globals.fgMainPid
  | .throttleEnable => .flag s.globals.throttleEnabled
  | .uxHpEnable => .flag s.globals.uxHpEnabled
  | .rtReadHpEnable => .flag s.globals.rtReadHpEnabled
  | .queueRqThrottleDemo => .flag s.globals.queueRqThrottleDemo
  | .throttleRatios =>
    .ratios s.globals.config.lightPct s.globals.config.mediumPct s.globals.config.heavyPct
  | .actionSource => .source s.globals.config.source
  | .fixedAction =>
    .action s.globals.config.fixedAction.level s.globals.config.fixedAction.policy
  | .devLat => .number s.globals.devLatThresholdUs
  | .backgroundDeadlineMs => .number s.globals.backgroundDeadlineMs
  | .sceneTag => .number s.scene
  | .loadavg1mX100 => .number s.cachedLoadavg1mX100
  | .renderAvgLat => .number s.cachedRenderAvgLat
  | .jank => .number s.cachedJankCnt
  | .windowSzMs => .number s.windowSzMs
  | .rawdataTrace => .flag s.rawdataTraceEnabled
  | .debugOn => .flag s.debugEnabled
  | .pagecacheDemo => .flag s.pagecacheDemoOn
  | .pagecacheDemoObserve => .flag s.pagecacheDemoObserveOn

/-- **The settings are in their ranges.** -/
structure Valid (s : ProcState) : Prop where
  ratios : s.globals.config.Ordered
  devLat : s.globals.devLatThresholdUs ≠ 0 ∧ s.globals.devLatThresholdUs ≤ intMax
  backgroundDeadline :
    s.globals.backgroundDeadlineMs ≠ 0 ∧ s.globals.backgroundDeadlineMs ≤ intMax
  fgUid : IsInt s.globals.fgUid
  fgMainPid : IsInt s.globals.fgMainPid
  wbps : ∃ wkbps, setWkbps wkbps = some s.limiter.configWbps
  enabled : s.currentPolicy.enabled = s.smartIoEnabled
  sampleRate : s.currentPolicy.sampleRatePct ≤ 100
  matchUid : IsInt s.currentPolicy.matchUid
  sceneMask : s.currentPolicy.captureSceneMask < 256
  scene : s.scene ≤ u32Max
  windowSz : s.windowSzMs ≤ u32Max
  loadavg : s.cachedLoadavg1mX100 ≤ u32Max
  renderAvgLat : s.cachedRenderAvgLat ≤ u32Max
  jank : s.cachedJankCnt ≤ u32Max

end ProcState

/-! ## The settings that may be refused -/

namespace Globals

variable {g g' : Globals}

theorem setDevLatThreshold_eq_ok {n : ℕ} (h : g.setDevLatThreshold n = .ok g') :
    (n ≠ 0 ∧ n ≤ intMax) ∧ g.throttleEnabled = false
      ∧ g' = { g with devLatThresholdUs := n } := by
  unfold setDevLatThreshold at h
  split at h
  · cases h
  next hrange =>
  split at h
  · cases h
  next hoff =>
  rw [not_or, Nat.not_lt] at hrange
  exact ⟨hrange, Bool.eq_false_of_not_eq_true hoff, (Except.ok.inj h).symm⟩

theorem setBackgroundDeadlineMs_eq_ok {n : ℕ} (h : g.setBackgroundDeadlineMs n = .ok g') :
    (n ≠ 0 ∧ n ≤ intMax) ∧ g.throttleEnabled = false
      ∧ g' = { g with backgroundDeadlineMs := n } := by
  unfold setBackgroundDeadlineMs at h
  split at h
  · cases h
  next hrange =>
  split at h
  · cases h
  next hoff =>
  rw [not_or, Nat.not_lt] at hrange
  exact ⟨hrange, Bool.eq_false_of_not_eq_true hoff, (Except.ok.inj h).symm⟩

theorem setRatios_eq_ok {l m k : ℕ} (h : g.setRatios l m k = .ok g') :
    RatiosOrdered l m k
      ∧ g' = { g with
        config := { g.config with lightPct := l, mediumPct := m, heavyPct := k } } := by
  unfold setRatios at h
  split at h
  · cases h
  next hc =>
  simp only [not_or, not_lt, not_le] at hc
  obtain ⟨hl, -, hml, -, hkm, hk⟩ := hc
  exact ⟨⟨hk, hkm, hml, hl⟩, (Except.ok.inj h).symm⟩

theorem setActionSource_eq_ok {source : ℕ} {threadEnsured : Bool}
    (h : g.setActionSource source threadEnsured = .ok g') :
    ∃ a, g' = { g with config := { g.config with source := a } } := by
  unfold setActionSource at h
  split at h
  · exact ⟨.fixed, (Except.ok.inj h).symm⟩
  · split at h
    · exact ⟨.model, (Except.ok.inj h).symm⟩
    · cases h
  · cases h

theorem setFixedAction_eq_ok {level policy : ℕ} (h : g.setFixedAction level policy = .ok g') :
    (level < throttleLevelCount ∧ policy < dispatchPolicyCount)
      ∧ g' = { g with
        config := { g.config with
          fixedAction := { g.config.fixedAction with
            level := .ofCode level, policy := .ofCode policy } } } := by
  unfold setFixedAction at h
  split at h
  · cases h
  next hrange =>
  rw [not_or, Nat.not_le, Nat.not_le] at hrange
  exact ⟨hrange, (Except.ok.inj h).symm⟩

end Globals

namespace ProcState

/-! ## A handler read backwards -/

/-- **What a write to a file may store**, one case a file. -/
inductive Stores (s : ProcState) : ProcEntry → ProcState → Prop
  | dirtyrateEnable (enabled : Bool) (nowNs : ℕ) :
    Stores s .dirtyrateEnable { s with limiter := s.limiter.setEnabled enabled nowNs }
  | dirtyrateWkbps {wkbps wbps : ℕ} (h : setWkbps wkbps = some wbps) (nowNs : ℕ) :
    Stores s .dirtyrateWkbps { s with limiter := s.limiter.setWkbpsLocked wbps nowNs }
  | enable (on : Bool) :
    Stores s .enable
      { s with smartIoEnabled := on, currentPolicy := { s.currentPolicy with enabled := on } }
  | policy {rate mask : ℕ} {uid : ℤ} (syncOnly : Bool) (hrate : rate ≤ 100) (huid : IsInt uid)
    (hmask : mask < 256) :
    Stores s .policy
      { s with
        currentPolicy := ⟨s.currentPolicy.enabled, rate, uid, syncOnly, mask⟩ }
  | fgUid {uid : ℤ} (h : IsInt uid) :
    Stores s .fgUid { s with globals := s.globals.configure (.setFgUid uid) }
  | fgMainPid {pid : ℤ} (h : IsInt pid) :
    Stores s .fgMainPid { s with globals := s.globals.configure (.setFgMainPid pid) }
  | throttleEnable (enabled : Bool) :
    Stores s .throttleEnable
      { s with globals := s.globals.configure (.setThrottleEnabled enabled) }
  | uxHpEnable (enabled : Bool) :
    Stores s .uxHpEnable { s with globals := s.globals.configure (.setUxHpEnable enabled) }
  | rtReadHpEnable (enabled : Bool) :
    Stores s .rtReadHpEnable
      { s with globals := s.globals.configure (.setRtReadHpEnable enabled) }
  | queueRqThrottleDemo (enabled : Bool) :
    Stores s .queueRqThrottleDemo
      { s with globals := s.globals.configure (.setQueueRqDemo enabled) }
  | throttleRatios {l m k : ℕ} {g : Globals} (h : s.globals.setRatios l m k = .ok g) :
    Stores s .throttleRatios { s with globals := g }
  | actionSource {source : ℕ} {threadEnsured : Bool} {g : Globals}
    (h : s.globals.setActionSource source threadEnsured = .ok g) :
    Stores s .actionSource { s with globals := g }
  | fixedAction {level policy : ℕ} {g : Globals}
    (h : s.globals.setFixedAction level policy = .ok g) :
    Stores s .fixedAction { s with globals := g }
  | devLat {n : ℕ} {g : Globals} (h : s.globals.setDevLatThreshold n = .ok g) :
    Stores s .devLat { s with globals := g }
  | backgroundDeadlineMs {n : ℕ} {g : Globals}
    (h : s.globals.setBackgroundDeadlineMs n = .ok g) :
    Stores s .backgroundDeadlineMs { s with globals := g }
  | sceneTag {n : ℕ} (h : n ≤ u32Max) : Stores s .sceneTag { s with scene := n }
  | loadavg1mX100 {n : ℕ} (h : n ≤ u32Max) :
    Stores s .loadavg1mX100 { s with cachedLoadavg1mX100 := n }
  | renderAvgLat {n : ℕ} (h : n ≤ u32Max) :
    Stores s .renderAvgLat { s with cachedRenderAvgLat := n }
  | jank {n : ℕ} (h : n ≤ u32Max) : Stores s .jank { s with cachedJankCnt := n }
  | windowSzMs {n : ℕ} (h : n ≤ u32Max) : Stores s .windowSzMs { s with windowSzMs := n }
  | rawdataTrace (on : Bool) : Stores s .rawdataTrace { s with rawdataTraceEnabled := on }
  | debugOn (on : Bool) :
    Stores s .debugOn { s with debugEnabled := on, rawdataTraceEnabled := on }
  | pagecacheDemo (on : Bool) : Stores s .pagecacheDemo { s with pagecacheDemoOn := on }
  | pagecacheDemoObserve (on : Bool) :
    Stores s .pagecacheDemoObserve { s with pagecacheDemoObserveOn := on }

/-- A computation that succeeds is one that succeeds, and then another. -/
theorem bind_eq_ok {α β : Type} {x : Except ProcError α} {f : α → Except ProcError β} {b : β}
    (h : x >>= f = .ok b) : ∃ a, x = .ok a ∧ f a = .ok b := by
  cases x with
  | error e => cases h
  | ok a => exact ⟨a, rfl, h⟩

/-- A computation that goes on with what it has read. -/
theorem ok_bind {α β : Type} {x : Except ProcError α} {a : α} {f : α → Except ProcError β}
    (h : x = .ok a) : x >>= f = f a := by
  rw [h]
  rfl

variable {s s' : ProcState} {calls : List ProcCall} {ub : UserBuf}

theorem ofParse_eq_ok {α : Type} {x : Except ParseError α} {a : α}
    (h : ProcError.ofParse x = .ok a) : x = .ok a := by
  match x with
  | .ok b => exact congrArg Except.ok (Except.ok.inj h)
  | .error .einval => cases h
  | .error .erange => cases h

theorem isInt_of_procParseInt {z : ℤ} (h : procParseInt ub = .ok z) : IsInt z := by
  obtain ⟨text, -, htext⟩ := bind_eq_ok h
  exact isInt_of_kstrtoint (ofParse_eq_ok htext)

theorem le_of_procParseU32 {n : ℕ} (h : procParseU32 ub = .ok n) : n ≤ u32Max := by
  obtain ⟨text, -, htext⟩ := bind_eq_ok h
  exact le_of_kstrtou32 (ofParse_eq_ok htext)

/-- The uid of a capture policy is read into an `int`. -/
theorem isInt_of_scanPolicy {text : List Char} {rate : ℕ} {uid syncOnly mask : ℤ}
    (h : scanPolicy text = some (rate, uid, syncOnly, mask)) : IsInt uid := by
  unfold scanPolicy at h
  obtain ⟨p, -, h⟩ := Option.bind_eq_some_iff.mp h
  obtain ⟨q, hq, h⟩ := Option.bind_eq_some_iff.mp h
  obtain ⟨r, -, h⟩ := Option.bind_eq_some_iff.mp h
  obtain ⟨u, -, h⟩ := Option.bind_eq_some_iff.mp h
  have huid : q.1 = uid := by
    injection h with h
    injection h with _ h
    injection h with h _
  exact huid ▸ isInt_of_scanD hq

theorem stored_inj {a : ProcState} {cs : List ProcCall}
    (h : (.ok (a, cs) : Stored) = .ok (s', calls)) : s' = a :=
  (Prod.mk.inj (Except.ok.inj h)).1.symm

/-- A variable that takes any `u32` holds one. -/
theorem storeNumber_eq_ok {store : ℕ → ProcState}
    (h : storeNumber store ub = .ok (s', calls)) : ∃ n ≤ u32Max, s' = store n := by
  obtain ⟨n, hn, h⟩ := bind_eq_ok h
  exact ⟨n, le_of_procParseU32 hn, stored_inj h⟩

theorem storeFlag_eq_ok {op : Bool → ConfigOp} (h : s.storeFlag op ub = .ok (s', calls)) :
    ∃ on, s' = { s with globals := s.globals.configure (op on) } := by
  obtain ⟨on, -, h⟩ := bind_eq_ok h
  exact ⟨on, stored_inj h⟩

theorem storeGlobals_eq_ok {r : Except Errno Globals} (h : s.storeGlobals r = .ok (s', calls)) :
    ∃ g, r = .ok g ∧ s' = { s with globals := g } := by
  match r with
  | .ok g => exact ⟨g, rfl, stored_inj h⟩
  | .error .einval => cases h
  | .error .ebusy => cases h
  | .error .thread => cases h

theorem setFgUid_eq {uid : ℤ} (h : s.setFgUid uid = (s', calls)) :
    s' = s ∨ s' = { s with globals := s.globals.configure (.setFgUid uid) } := by
  unfold setFgUid at h
  split at h
  · exact .inl (Prod.mk.inj h).1.symm
  · exact .inr (Prod.mk.inj h).1.symm

theorem setFgMainPid_eq (s : ProcState) (pid : ℤ) :
    s.setFgMainPid pid = s
      ∨ s.setFgMainPid pid = { s with globals := s.globals.configure (.setFgMainPid pid) } := by
  unfold setFgMainPid
  split
  · exact .inl rfl
  · exact .inr rfl

theorem setThrottleEnabled_eq {enabled : Bool} (h : s.setThrottleEnabled enabled = (s', calls)) :
    s' = s ∨ s' = { s with globals := s.globals.configure (.setThrottleEnabled enabled) } := by
  unfold setThrottleEnabled at h
  split at h
  · exact .inl (Prod.mk.inj h).1.symm
  · exact .inr (Prod.mk.inj h).1.symm

/-- `policy_write` leaves everything alone if it cannot read four numbers, or if the rate is
more than 100 per cent. -/
theorem policyWrite_eq_ok (h : s.policyWrite ub = .ok (s', calls)) :
    s' = s ∨ s.Stores .policy s' := by
  obtain ⟨text, -, h⟩ := bind_eq_ok h
  split at h
  next rate uid syncOnly mask hscan =>
    split at h
    next p hset =>
      unfold policySet at hset
      split at hset
      · cases hset
      next hrate =>
      have hmask : (mask % 256).toNat < 256 := by omega
      rw [← Option.some.inj hset] at h
      rw [stored_inj h]
      exact .inr (.policy _ (Nat.not_lt.mp hrate) (isInt_of_scanPolicy hscan) hmask)
    · exact .inl (stored_inj h)
  · exact .inl (stored_inj h)

theorem throttleRatiosWrite_eq_ok (h : s.throttleRatiosWrite ub = .ok (s', calls)) :
    s.Stores .throttleRatios s' := by
  obtain ⟨text, -, h⟩ := bind_eq_ok h
  split at h
  · obtain ⟨g, hg, rfl⟩ := storeGlobals_eq_ok h
    exact .throttleRatios hg
  · cases h

theorem actionSourceWrite_eq_ok {threadEnsured : Bool}
    (h : s.actionSourceWrite threadEnsured ub = .ok (s', calls)) :
    s.Stores .actionSource s' := by
  obtain ⟨text, -, h⟩ := bind_eq_ok h
  split at h
  · obtain ⟨g, hg, rfl⟩ := storeGlobals_eq_ok h
    exact .actionSource hg
  · split at h
    · obtain ⟨g, hg, rfl⟩ := storeGlobals_eq_ok h
      exact .actionSource hg
    · cases h

theorem fixedActionWrite_eq_ok (h : s.fixedActionWrite ub = .ok (s', calls)) :
    s.Stores .fixedAction s' := by
  obtain ⟨text, -, h⟩ := bind_eq_ok h
  split at h
  · obtain ⟨level, -, h⟩ := bind_eq_ok h
    obtain ⟨policy, -, h⟩ := bind_eq_ok h
    obtain ⟨g, hg, rfl⟩ := storeGlobals_eq_ok h
    exact .fixedAction hg
  · cases h

/-- A switch is stored, or a text that is no number leaves everything alone. -/
theorem switch_eq_ok {store : Bool → ProcState} {called : Bool → List ProcCall}
    (h : (do match ← parseSwitch ub with
      | some on => .ok (store on, called on)
      | none => .ok (s, []) : Stored) = .ok (s', calls)) : s' = s ∨ ∃ on, s' = store on := by
  obtain ⟨v, -, h⟩ := bind_eq_ok h
  match v with
  | some on => exact .inr ⟨on, stored_inj h⟩
  | none => exact .inl (stored_inj h)

/-- The same for the two files that refuse such a text. -/
theorem strictSwitch_eq_ok {store : Bool → ProcState} {called : Bool → List ProcCall}
    (h : (do match ← parseSwitch ub with
      | some on => .ok (store on, called on)
      | none => .error .einval : Stored) = .ok (s', calls)) : ∃ on, s' = store on := by
  obtain ⟨v, -, h⟩ := bind_eq_ok h
  match v with
  | some on => exact ⟨on, stored_inj h⟩
  | none => cases h

/-- **A handler stores nothing, or what its file may store.** -/
theorem stores_of_handler {threadEnsured : Bool} {nowNs : ℕ} {e : ProcEntry}
    (h : s.handler threadEnsured nowNs e ub = .ok (s', calls)) : s' = s ∨ s.Stores e s' := by
  cases e with
  | dirtyrateEnable =>
    obtain ⟨enabled, -, h⟩ := bind_eq_ok h
    exact .inr (stored_inj h ▸ .dirtyrateEnable enabled nowNs)
  | dirtyrateWkbps =>
    obtain ⟨wkbps, -, h⟩ := bind_eq_ok h
    split at h
    next wbps hset => exact .inr (stored_inj h ▸ .dirtyrateWkbps hset nowNs)
    · cases h
  | enable =>
    rcases switch_eq_ok h with rfl | ⟨on, rfl⟩
    · exact .inl rfl
    · exact .inr (.enable on)
  | policy => exact policyWrite_eq_ok h
  | fgUid =>
    obtain ⟨uid, huid, h⟩ := bind_eq_ok h
    rcases setFgUid_eq (Except.ok.inj h) with rfl | rfl
    · exact .inl rfl
    · exact .inr (.fgUid (isInt_of_procParseInt huid))
  | fgMainPid =>
    obtain ⟨pid, hpid, h⟩ := bind_eq_ok h
    rw [stored_inj h]
    rcases s.setFgMainPid_eq pid with hsame | hset
    · exact .inl hsame
    · exact .inr (hset ▸ .fgMainPid (isInt_of_procParseInt hpid))
  | throttleEnable =>
    obtain ⟨enabled, -, h⟩ := bind_eq_ok h
    rcases setThrottleEnabled_eq (Except.ok.inj h) with rfl | rfl
    · exact .inl rfl
    · exact .inr (.throttleEnable enabled)
  | uxHpEnable =>
    obtain ⟨on, rfl⟩ := storeFlag_eq_ok h
    exact .inr (.uxHpEnable on)
  | rtReadHpEnable =>
    obtain ⟨on, rfl⟩ := storeFlag_eq_ok h
    exact .inr (.rtReadHpEnable on)
  | queueRqThrottleDemo =>
    obtain ⟨on, rfl⟩ := storeFlag_eq_ok h
    exact .inr (.queueRqThrottleDemo on)
  | throttleRatios => exact .inr (throttleRatiosWrite_eq_ok h)
  | actionSource => exact .inr (actionSourceWrite_eq_ok h)
  | fixedAction => exact .inr (fixedActionWrite_eq_ok h)
  | devLat =>
    obtain ⟨n, -, h⟩ := bind_eq_ok h
    obtain ⟨g, hg, rfl⟩ := storeGlobals_eq_ok h
    exact .inr (.devLat hg)
  | backgroundDeadlineMs =>
    obtain ⟨n, -, h⟩ := bind_eq_ok h
    obtain ⟨g, hg, rfl⟩ := storeGlobals_eq_ok h
    exact .inr (.backgroundDeadlineMs hg)
  | sceneTag =>
    obtain ⟨n, hn, rfl⟩ := storeNumber_eq_ok h
    exact .inr (.sceneTag hn)
  | loadavg1mX100 =>
    obtain ⟨n, hn, rfl⟩ := storeNumber_eq_ok h
    exact .inr (.loadavg1mX100 hn)
  | renderAvgLat =>
    obtain ⟨n, hn, rfl⟩ := storeNumber_eq_ok h
    exact .inr (.renderAvgLat hn)
  | jank =>
    obtain ⟨n, hn, rfl⟩ := storeNumber_eq_ok h
    exact .inr (.jank hn)
  | windowSzMs =>
    obtain ⟨n, hn, rfl⟩ := storeNumber_eq_ok h
    exact .inr (.windowSzMs hn)
  | rawdataTrace =>
    rcases switch_eq_ok h with rfl | ⟨on, rfl⟩
    · exact .inl rfl
    · exact .inr (.rawdataTrace on)
  | debugOn =>
    rcases switch_eq_ok h with rfl | ⟨on, rfl⟩
    · exact .inl rfl
    · exact .inr (.debugOn on)
  | pagecacheDemo =>
    obtain ⟨on, rfl⟩ := strictSwitch_eq_ok h
    exact .inr (.pagecacheDemo on)
  | pagecacheDemoObserve =>
    obtain ⟨on, rfl⟩ := strictSwitch_eq_ok h
    exact .inr (.pagecacheDemoObserve on)

/-! ## The ranges are kept -/

theorem valid_initial : initial.Valid where
  ratios := Globals.ordered_initial
  devLat := by decide
  backgroundDeadline := by decide
  fgUid := by decide
  fgMainPid := by decide
  wbps := ⟨0, by decide⟩
  enabled := rfl
  sampleRate := le_rfl
  matchUid := by decide
  sceneMask := by decide
  scene := Nat.zero_le _
  windowSz := by decide
  loadavg := Nat.zero_le _
  renderAvgLat := Nat.zero_le _
  jank := Nat.zero_le _

/-- **What a write may store is in range.** -/
theorem Valid.of_stores {e : ProcEntry} (h : s.Valid) (hstores : s.Stores e s') :
    s'.Valid := by
  cases hstores with
  | dirtyrateEnable enabled nowNs => exact { h with }
  | dirtyrateWkbps hset nowNs => exact { h with wbps := ⟨_, hset⟩ }
  | enable on => exact { h with enabled := rfl }
  | policy syncOnly hrate huid hmask =>
    exact { h with sampleRate := hrate, matchUid := huid, sceneMask := hmask }
  | fgUid huid => exact { h with fgUid := huid }
  | fgMainPid hpid => exact { h with fgMainPid := hpid }
  | throttleEnable enabled => exact { h with }
  | uxHpEnable enabled => exact { h with }
  | rtReadHpEnable enabled => exact { h with }
  | queueRqThrottleDemo enabled => exact { h with }
  | throttleRatios hset =>
    obtain ⟨hratios, rfl⟩ := Globals.setRatios_eq_ok hset
    exact { h with ratios := hratios }
  | actionSource hset =>
    obtain ⟨source, rfl⟩ := Globals.setActionSource_eq_ok hset
    exact { h with }
  | fixedAction hset =>
    obtain ⟨-, rfl⟩ := Globals.setFixedAction_eq_ok hset
    exact { h with }
  | devLat hset =>
    obtain ⟨hrange, -, rfl⟩ := Globals.setDevLatThreshold_eq_ok hset
    exact { h with devLat := hrange }
  | backgroundDeadlineMs hset =>
    obtain ⟨hrange, -, rfl⟩ := Globals.setBackgroundDeadlineMs_eq_ok hset
    exact { h with backgroundDeadline := hrange }
  | sceneTag hn => exact { h with scene := hn }
  | loadavg1mX100 hn => exact { h with loadavg := hn }
  | renderAvgLat hn => exact { h with renderAvgLat := hn }
  | jank hn => exact { h with jank := hn }
  | windowSzMs hn => exact { h with windowSz := hn }
  | rawdataTrace on => exact { h with }
  | debugOn on => exact { h with }
  | pagecacheDemo on => exact { h with }
  | pagecacheDemoObserve on => exact { h with }

/-- **A write keeps every other setting.** -/
theorem Stores.value_eq {e e' : ProcEntry} (h : s.Stores e s') (hne : e' ≠ e)
    (htrace : ¬(e = .debugOn ∧ e' = .rawdataTrace)) : s'.value e' = s.value e' := by
  cases h
  case throttleRatios hset =>
    obtain ⟨-, rfl⟩ := Globals.setRatios_eq_ok hset
    cases e' <;> first | rfl | exact absurd rfl hne
  case actionSource hset =>
    obtain ⟨source, rfl⟩ := Globals.setActionSource_eq_ok hset
    cases e' <;> first | rfl | exact absurd rfl hne
  case fixedAction hset =>
    obtain ⟨-, rfl⟩ := Globals.setFixedAction_eq_ok hset
    cases e' <;> first | rfl | exact absurd rfl hne
  case devLat hset =>
    obtain ⟨-, -, rfl⟩ := Globals.setDevLatThreshold_eq_ok hset
    cases e' <;> first | rfl | exact absurd rfl hne
  case backgroundDeadlineMs hset =>
    obtain ⟨-, -, rfl⟩ := Globals.setBackgroundDeadlineMs_eq_ok hset
    cases e' <;> first | rfl | exact absurd rfl hne
  case debugOn on =>
    cases e' <;> first | rfl | exact absurd rfl hne | exact absurd ⟨rfl, rfl⟩ htrace
  all_goals cases e' <;> first | rfl | exact absurd rfl hne

/-! ## Every write of every run -/

/-- What happens to the variables: a write to a file, and what other code of the module does to
those of the limiter and to the queue depth. -/
inductive ProcOp where
  | write (e : ProcEntry) (ub : UserBuf) (threadEnsured : Bool) (nowNs : ℕ)
  /-- `smart_io_dirtyrate_set_active`, called by the poll thread. -/
  | setActive (active : Bool) (nowNs : ℕ)
  /-- `smart_io_dirtyrate_dirty_rate`, of a task that read the foreground uid before. -/
  | dirtyRate (uid : Fin (2 ^ 32)) (fgUid : ℤ) (nowNs : ℕ)
  | setQueueDepth (depth : ℕ)
deriving DecidableEq, Repr

/-- **The variables of procfs as a machine.** It answers a write with what the handler returns. -/
def machine : StepMachine ProcState ProcOp (Option (Except ProcError ℕ)) where
  init s := s = initial
  step s op :=
    match op with
    | .write e ub threadEnsured nowNs =>
      let r := s.write threadEnsured nowNs e ub
      (r.2.1, some r.1)
    | .setActive active nowNs => ({ s with limiter := s.limiter.setActive active nowNs }, none)
    | .dirtyRate uid fgUid nowNs =>
      ({ s with limiter := s.limiter.dirtyRate uid fgUid nowNs }, none)
    | .setQueueDepth depth =>
      ({ s with globals := s.globals.configure (.setQueueDepth depth) }, none)

/-- **A write fails and does nothing, or it stores what its file may store.** -/
theorem write_cases (s : ProcState) (threadEnsured : Bool) (nowNs : ℕ) (e : ProcEntry)
    (ub : UserBuf) :
    (∃ error, s.write threadEnsured nowNs e ub = (.error error, s, []))
      ∨ ∃ s' calls, s.write threadEnsured nowNs e ub = (.ok ub.chars.length, s', calls)
        ∧ (s' = s ∨ s.Stores e s') := by
  unfold write
  split
  next s' calls h => exact .inr ⟨s', calls, rfl, stores_of_handler h⟩
  next error _ => exact .inl ⟨error, rfl⟩

/-- The poll thread leaves the two settings of the limiter alone. -/
theorem setActive_settings (l : DirtyrateLimiter) (active : Bool) (nowNs : ℕ) :
    (l.setActive active nowNs).enabled = l.enabled
      ∧ (l.setActive active nowNs).configWbps = l.configWbps := by
  unfold DirtyrateLimiter.setActive
  dsimp only
  split <;> exact ⟨rfl, rfl⟩

/-- And so does a task that dirties pages. -/
theorem dirtyRate_settings (l : DirtyrateLimiter) (uid : Fin (2 ^ 32)) (fgUid : ℤ)
    (nowNs : ℕ) :
    (l.dirtyRate uid fgUid nowNs).enabled = l.enabled
      ∧ (l.dirtyRate uid fgUid nowNs).configWbps = l.configWbps := by
  unfold DirtyrateLimiter.dirtyRate
  dsimp only
  split
  · exact ⟨rfl, rfl⟩
  · split
    · exact ⟨rfl, rfl⟩
    · split <;> exact ⟨rfl, rfl⟩

/-- **One step** keeps the ranges. -/
theorem valid_next (s : ProcState) (op : ProcOp) (h : s.Valid) : (machine.next s op).Valid := by
  cases op with
  | write e ub threadEnsured nowNs =>
    show (s.write threadEnsured nowNs e ub).2.1.Valid
    rcases s.write_cases threadEnsured nowNs e ub with ⟨error, hw⟩ | ⟨s', calls, hw, hs'⟩
    · rw [hw]
      exact h
    · rw [hw]
      rcases hs' with rfl | hstores
      · exact h
      · exact h.of_stores hstores
  | setActive active nowNs =>
    exact { h with wbps := (setActive_settings s.limiter active nowNs).2.symm ▸ h.wbps }
  | dirtyRate uid fgUid nowNs =>
    exact { h with wbps := (dirtyRate_settings s.limiter uid fgUid nowNs).2.symm ▸ h.wbps }
  | setQueueDepth depth => exact { h with }

/-- **The ranges hold in every reachable state.** -/
theorem valid_of_reachable (h : machine.Reachable s) : s.Valid :=
  h.invariant (fun _ hinit => hinit ▸ valid_initial) valid_next

/-- A write keeps every other setting, whatever the text. -/
theorem value_of_handler {threadEnsured : Bool} {nowNs : ℕ} {e e' : ProcEntry}
    (h : s.handler threadEnsured nowNs e ub = .ok (s', calls)) (hne : e' ≠ e)
    (htrace : ¬(e = .debugOn ∧ e' = .rawdataTrace)) : s'.value e' = s.value e' := by
  rcases stores_of_handler h with rfl | hstores
  · rfl
  · exact hstores.value_eq hne htrace

/-- An operation that does not write the setting of a file. -/
def Spares (e : ProcEntry) : ProcOp → Prop
  | .write e' _ _ _ => e' ≠ e ∧ ¬(e' = .debugOn ∧ e = .rawdataTrace)
  | _ => True

/-- What the limiter works with is no setting. -/
theorem value_withLimiter {l : DirtyrateLimiter} {e : ProcEntry}
    (henabled : l.enabled = s.limiter.enabled) (hrate : l.configWbps = s.limiter.configWbps) :
    ({ s with limiter := l } : ProcState).value e = s.value e := by
  cases e
  case dirtyrateEnable => exact congrArg ProcValue.flag henabled
  case dirtyrateWkbps => exact congrArg ProcValue.number hrate
  all_goals rfl

theorem value_next {e : ProcEntry} {op : ProcOp} (h : Spares e op) (s : ProcState) :
    (machine.next s op).value e = s.value e := by
  cases op with
  | write e' ub threadEnsured nowNs =>
    show (s.write threadEnsured nowNs e' ub).2.1.value e = s.value e
    unfold write
    split
    next s' calls hhandler => exact value_of_handler hhandler h.1.symm h.2
    · rfl
  | setActive active nowNs =>
    obtain ⟨henabled, hrate⟩ := setActive_settings s.limiter active nowNs
    exact value_withLimiter henabled hrate
  | dirtyRate uid fgUid nowNs =>
    obtain ⟨henabled, hrate⟩ := dirtyRate_settings s.limiter uid fgUid nowNs
    exact value_withLimiter henabled hrate
  | setQueueDepth depth => cases e <;> rfl

/-- **A setting stays as it is until its file is written**, in every run. -/
theorem value_run {e : ProcEntry} {ops : List ProcOp} (h : ∀ op ∈ ops, Spares e op)
    (s : ProcState) : (machine.run s ops).value e = s.value e := by
  induction ops generalizing s with
  | nil => rfl
  | cons op ops ih =>
    refine (ih (fun op' hop' => h op' (List.mem_cons_of_mem op hop')) _).trans ?_
    exact value_next (h op List.mem_cons_self) s

/-- **Whatever is written to a file, it is contained.** In every reachable state the settings
are in their ranges. A write to a file either fails – then it has changed nothing and called
nobody – or returns the number of bytes, and has changed the setting of that file alone, with
the raw trace if the file is `debug_on`; and what it has set is in range again. -/
theorem write_contained (h : machine.Reachable s) (threadEnsured : Bool) (nowNs : ℕ)
    (e : ProcEntry) (ub : UserBuf) :
    s.Valid
      ∧ ((∃ error, s.write threadEnsured nowNs e ub = (.error error, s, []))
        ∨ ∃ s' calls, s.write threadEnsured nowNs e ub = (.ok ub.chars.length, s', calls)
          ∧ s'.Valid
          ∧ ∀ e' ≠ e, ¬(e = .debugOn ∧ e' = .rawdataTrace) → s'.value e' = s.value e') := by
  have hvalid := valid_of_reachable h
  refine ⟨hvalid, ?_⟩
  rcases s.write_cases threadEnsured nowNs e ub with hfails | ⟨s', calls, hw, hs'⟩
  · exact .inl hfails
  · refine .inr ⟨s', calls, hw, ?_⟩
    rcases hs' with rfl | hstores
    · exact ⟨hvalid, fun _ _ _ => rfl⟩
    · exact ⟨hvalid.of_stores hstores, fun e' hne htrace => hstores.value_eq hne htrace⟩

/-- The case of a policy with a mask of more than eight bits, after throttling has been enabled:
the mask is cut, and nothing else changes. -/
theorem write_contained_policy :
    let s := machine.run initial [.write .throttleEnable ⟨['1', newline], true⟩ true 0]
    let text := ['5', '0', ' ', '-', '1', ' ', '1', ' ', '2', '5', '8', newline]
    ∃ s' calls, s.write true 0 .policy ⟨text, true⟩ = (.ok 12, s', calls)
      ∧ s'.Valid ∧ s'.value .policy = .capture 50 (-1) true 2
      ∧ ∀ e' ≠ ProcEntry.policy, s'.value e' = s.value e' := by
  intro s text
  have hreach : machine.Reachable s := (StepMachine.Reachable.of_init rfl).run _
  have hfine : (s.write true 0 .policy ⟨text, true⟩).1 = .ok 12 := by decide +kernel
  have hvalue : (s.write true 0 .policy ⟨text, true⟩).2.1.value .policy
      = .capture 50 (-1) true 2 := by decide +kernel
  rcases (write_contained hreach true 0 .policy ⟨text, true⟩).2 with ⟨error, herr⟩ | hok
  · rw [herr] at hfine
    cases hfine
  · obtain ⟨s', calls, hw, hvalid, hkeeps⟩ := hok
    rw [hw] at hvalue
    refine ⟨s', calls, hw, hvalid, hvalue, fun e' hne => hkeeps e' hne ?_⟩
    exact fun hdebug => absurd hdebug.1 (by decide)

end ProcState
