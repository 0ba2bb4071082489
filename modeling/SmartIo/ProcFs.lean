import SmartIo.KernelText
import SmartIo.ThrottleMachine
import SmartIo.DirtyrateLimiter

/-!
# The files under `/proc/smart_io_sched`

Every setting of the module has a file: what is written to it is copied, stripped and
parsed, checked, and stored in a static variable; what is read from it is that variable
printed. Here are the handlers of the files that can be written, over the variables they
share. Where a handler goes on to call into another part of the module – a switch that
resets the contexts, a new foreground uid that wakes the tasks that wait – the call is
noted (`ProcCall`); the limiter of dirty pages, whose two settings lie under its own lock,
is there as a whole.

A handler fails before it stores anything, or it stores and returns the number of bytes.
Four files take a text they cannot parse without a complaint: `enable`, `policy`,
`rawdata_trace` and `debug_on` only warn in the log.
-/

open KernelText

/-! ## The settings -/

/-- `struct smart_io_policy`, with its flags as booleans. -/
structure CapturePolicy where
  enabled : Bool
  sampleRatePct : ℕ
  matchUid : ℤ
  onlySync : Bool
  captureSceneMask : ℕ
deriving DecidableEq, Repr

/-- The static variables that the files of procfs set. -/
structure ProcState where
  /-- Those of `smart_io_throttle.c`, `fg_uid` and `fg_main_pid`. -/
  globals : Globals
  limiter : DirtyrateLimiter
  smartIoEnabled : Bool
  currentPolicy : CapturePolicy
  scene : ℕ
  windowSzMs : ℕ
  cachedLoadavg1mX100 : ℕ
  cachedRenderAvgLat : ℕ
  cachedJankCnt : ℕ
  rawdataTraceEnabled : Bool
  debugEnabled : Bool
  pagecacheDemoOn : Bool
  pagecacheDemoObserveOn : Bool
deriving DecidableEq, Repr

/-- What a handler goes on to call. -/
inductive ProcCall where
  /-- `smart_io_clear_remap_state`. -/
  | clearRemapState
  /-- `smart_io_dirtyrate_fg_uid_changed`. -/
  | dirtyrateFgUidChanged
  /-- `smart_io_throttle_reset_context` on every queue. -/
  | resetContexts (newSession : Bool)
  /-- The reset of the page budgets of all inodes. -/
  | clearInodeBudgets
deriving DecidableEq, Repr

/-- Why a write fails. -/
inductive ProcError where
  | einval
  | e2big
  | efault
  | erange
  | ebusy
  /-- What `smart_io_throttle_model_thread_ensure` returned. -/
  | thread
deriving DecidableEq, Repr

namespace ProcError

/-- A number that does not parse. -/
def ofParse {α : Type} : Except ParseError α → Except ProcError α
  | .ok a => .ok a
  | .error .einval => .error .einval
  | .error .erange => .error .erange

/-- A setting that `smart_io_throttle.c` refuses. -/
def ofErrno {α : Type} : Except Errno α → Except ProcError α
  | .ok a => .ok a
  | .error .einval => .error .einval
  | .error .ebusy => .error .ebusy
  | .error .thread => .error .thread

end ProcError

/-- A buffer of user space, and whether it can be read. -/
structure UserBuf where
  chars : List Char
  readable : Bool
deriving DecidableEq, Repr

/-- The files that can be written. -/
inductive ProcEntry where
  | dirtyrateEnable
  | dirtyrateWkbps
  | enable
  | policy
  | fgUid
  | fgMainPid
  | throttleEnable
  | uxHpEnable
  | rtReadHpEnable
  | queueRqThrottleDemo
  | throttleRatios
  | actionSource
  | fixedAction
  | devLat
  | backgroundDeadlineMs
  | sceneTag
  | loadavg1mX100
  | renderAvgLat
  | jank
  | windowSzMs
  | rawdataTrace
  | debugOn
  | pagecacheDemo
  | pagecacheDemoObserve
deriving DecidableEq, Repr

namespace ProcState

/-- The initialisers of the variables. -/
def initial : ProcState where
  globals := .initial
  limiter := .zero
  smartIoEnabled := false
  currentPolicy := ⟨false, 100, -1, false, 0⟩
  scene := 0
  windowSzMs := 100
  cachedLoadavg1mX100 := 0
  cachedRenderAvgLat := 0
  cachedJankCnt := 0
  rawdataTraceEnabled := false
  debugEnabled := false
  pagecacheDemoOn := false
  pagecacheDemoObserveOn := false

/-! ## Text from user space -/

/-- The beginning of every handler: `char buf[size]`, and the text in it stripped. -/
def copyText (size : ℕ) (tooLong : ProcError) (ub : UserBuf) : Except ProcError (List Char) :=
  if size - 1 < ub.chars.length then .error tooLong
  else if ub.readable then .ok (strstrip (cString ub.chars))
  else .error .efault

/-- `proc_parse_int`. -/
def procParseInt (ub : UserBuf) : Except ProcError ℤ := do
  let s ← copyText 32 .e2big ub
  ProcError.ofParse (kstrtoint s)

/-- `proc_parse_u32`. -/
def procParseU32 (ub : UserBuf) : Except ProcError ℕ := do
  let s ← copyText 32 .e2big ub
  ProcError.ofParse (kstrtou32 s)

/-- `proc_parse_u64`. -/
def procParseU64 (ub : UserBuf) : Except ProcError ℕ := do
  let s ← copyText 32 .e2big ub
  ProcError.ofParse (kstrtoull s)

/-- A flag that has to be zero or one. -/
def parseFlag (ub : UserBuf) : Except ProcError Bool := do
  let z ← procParseInt ub
  if z = 0 then .ok false else if z = 1 then .ok true else .error .einval

/-- A switch with a buffer of eight bytes, which any number other than zero sets; nothing, if
the text is no number. -/
def parseSwitch (ub : UserBuf) : Except ProcError (Option Bool) := do
  let s ← copyText 8 .einval ub
  match kstrtoint s with
  | .ok z => .ok (some (decide (z ≠ 0)))
  | .error _ => .ok none

/-! ## The handlers -/

/-- What a handler stores, and whom it calls. -/
abbrev Stored := Except ProcError (ProcState × List ProcCall)

variable (s : ProcState)

/-- `dirtyrate_enable_write`. -/
def dirtyrateEnableWrite (nowNs : ℕ) (ub : UserBuf) : Stored := do
  let enabled ← parseFlag ub
  .ok ({ s with limiter := s.limiter.setEnabled enabled nowNs }, [])

/-- `dirtyrate_wkbps_write`. -/
def dirtyrateWkbpsWrite (nowNs : ℕ) (ub : UserBuf) : Stored := do
  let wkbps ← procParseU64 ub
  match setWkbps wkbps with
  | some wbps => .ok ({ s with limiter := s.limiter.setWkbpsLocked wbps nowNs }, [])
  | none => .error .erange

/-- `enable_write`. -/
def enableWrite (ub : UserBuf) : Stored := do
  match ← parseSwitch ub with
  | some on =>
    .ok ({ s with
      smartIoEnabled := on
      currentPolicy := { s.currentPolicy with enabled := on } },
      if on then [] else [.clearRemapState])
  | none => .ok (s, [])

/-- `smart_io_policy_set`. -/
def policySet (p : CapturePolicy) (rate : ℕ) (uid : ℤ) (syncOnly : Bool) (mask : ℕ) :
    Option CapturePolicy :=
  if 100 < rate then none
  else some { p with
    sampleRatePct := rate
    matchUid := uid
    onlySync := syncOnly
    captureSceneMask := mask }

/-- The four numbers that `policy_write` reads with `sscanf`. -/
def scanPolicy (text : List Char) : Option (ℕ × ℤ × ℤ × ℤ) := do
  let (rate, text) ← scanU text
  let (uid, text) ← scanD text
  let (syncOnly, text) ← scanD text
  let (mask, _) ← scanD text
  some (rate, uid, syncOnly, mask)

/-- `policy_write`. -/
def policyWrite (ub : UserBuf) : Stored := do
  let text ← copyText 64 .einval ub
  match scanPolicy text with
  | some (rate, uid, syncOnly, mask) =>
    match policySet s.currentPolicy rate uid (decide (syncOnly ≠ 0)) (mask % 256).toNat with
    | some p => .ok ({ s with currentPolicy := p }, [])
    | none => .ok (s, [])
  | none => .ok (s, [])

/-- `smart_io_set_fg_uid`. -/
def setFgUid (uid : ℤ) : ProcState × List ProcCall :=
  if uid = s.globals.fgUid then (s, [])
  else ({ s with globals := s.globals.configure (.setFgUid uid) }, [.dirtyrateFgUidChanged])

/-- `fg_uid_write`. -/
def fgUidWrite (ub : UserBuf) : Stored := do
  let uid ← procParseInt ub
  .ok (s.setFgUid uid)

/-- `smart_io_set_fg_main_pid`. -/
def setFgMainPid (pid : ℤ) : ProcState :=
  if pid = s.globals.fgMainPid then s
  else { s with globals := s.globals.configure (.setFgMainPid pid) }

/-- `fg_main_pid_write`. -/
def fgMainPidWrite (ub : UserBuf) : Stored := do
  let pid ← procParseInt ub
  .ok (s.setFgMainPid pid, [])

/-- `smart_io_throttle_set_enabled`. -/
def setThrottleEnabled (enabled : Bool) : ProcState × List ProcCall :=
  if enabled = s.globals.throttleEnabled then (s, [])
  else ({ s with globals := s.globals.configure (.setThrottleEnabled enabled) },
    [.resetContexts enabled])

/-- `throttle_enable_write`. -/
def throttleEnableWrite (ub : UserBuf) : Stored := do
  let enabled ← parseFlag ub
  .ok (s.setThrottleEnabled enabled)

/-- A flag of `smart_io_throttle.c` that is only stored. -/
def storeFlag (op : Bool → ConfigOp) (ub : UserBuf) : Stored := do
  let enabled ← parseFlag ub
  .ok ({ s with globals := s.globals.configure (op enabled) }, [])

/-- `ux_hp_enable_write`. -/
def uxHpEnableWrite (ub : UserBuf) : Stored := s.storeFlag .setUxHpEnable ub

/-- `rt_read_hp_enable_write`. -/
def rtReadHpEnableWrite (ub : UserBuf) : Stored := s.storeFlag .setRtReadHpEnable ub

/-- `queue_rq_throttle_demo_write`. -/
def queueRqThrottleDemoWrite (ub : UserBuf) : Stored := s.storeFlag .setQueueRqDemo ub

/-- A setting of `smart_io_throttle.c` that may be refused. -/
def storeGlobals (g : Except Errno Globals) : Stored := do
  let g ← ProcError.ofErrno g
  .ok ({ s with globals := g }, [])

/-- The three numbers that `throttle_ratios_write` reads with `sscanf`. -/
def scanRatios (text : List Char) : Option (ℕ × ℕ × ℕ) := do
  let (lightPct, text) ← scanU text
  let (mediumPct, text) ← scanU text
  let (heavyPct, _) ← scanU text
  some (lightPct, mediumPct, heavyPct)

/-- `throttle_ratios_write`. -/
def throttleRatiosWrite (ub : UserBuf) : Stored := do
  let text ← copyText 32 .e2big ub
  match scanRatios text with
  | some (lightPct, mediumPct, heavyPct) =>
    s.storeGlobals (s.globals.setRatios lightPct mediumPct heavyPct)
  | none => .error .einval

/-- `smart_io_action_source_name`. -/
def actionSourceName : ActionSource → List Char
  | .fixed => ['f', 'i', 'x', 'e', 'd']
  | .model => ['m', 'o', 'd', 'e', 'l']

/-- `action_source_write`. -/
def actionSourceWrite (threadEnsured : Bool) (ub : UserBuf) : Stored := do
  let text ← copyText 16 .e2big ub
  if text = actionSourceName .fixed then s.storeGlobals (s.globals.setActionSource 0 threadEnsured)
  else if text = actionSourceName .model then
    s.storeGlobals (s.globals.setActionSource 1 threadEnsured)
  else .error .einval

/-- `smart_io_throttle_level_name`. -/
def throttleLevelName : ThrottleLevel → List Char
  | .no => ['N', 'O']
  | .light => ['L', 'I', 'G', 'H', 'T']
  | .medium => ['M', 'E', 'D', 'I', 'U', 'M']
  | .heavy => ['H', 'E', 'A', 'V', 'Y']

/-- `smart_io_dispatch_policy_name`. -/
def dispatchPolicyName : DispatchPolicy → List Char
  | .baseline => ['B', 'A', 'S', 'E', 'L', 'I', 'N', 'E']
  | .seq => ['S', 'E', 'Q']
  | .small => ['S', 'M', 'A', 'L', 'L']

/-- `fixed_action_parse_level`. -/
def fixedActionParseLevel (name : List Char) : Except ProcError ThrottleLevel :=
  if name = throttleLevelName .no then .ok .no
  else if name = throttleLevelName .light then .ok .light
  else if name = throttleLevelName .medium then .ok .medium
  else if name = throttleLevelName .heavy then .ok .heavy
  else .error .einval

/-- `fixed_action_parse_policy`. -/
def fixedActionParsePolicy (name : List Char) : Except ProcError DispatchPolicy :=
  if name = dispatchPolicyName .baseline then .ok .baseline
  else if name = dispatchPolicyName .seq then .ok .seq
  else if name = dispatchPolicyName .small then .ok .small
  else .error .einval

/-- The two words that `fixed_action_write` reads with `sscanf`. -/
def scanAction (text : List Char) : Option (List Char × List Char) := do
  let (levelName, text) ← scanS 7 text
  let (policyName, _) ← scanS 11 (skipSpaces text)
  some (levelName, policyName)

/-- `fixed_action_write`. -/
def fixedActionWrite (ub : UserBuf) : Stored := do
  let text ← copyText 32 .e2big ub
  match scanAction text with
  | some (levelName, policyName) =>
    let level ← fixedActionParseLevel levelName
    let policy ← fixedActionParsePolicy policyName
    s.storeGlobals (s.globals.setFixedAction level.code policy.code)
  | none => .error .einval

/-- `dev_lat_write`. -/
def devLatWrite (ub : UserBuf) : Stored := do
  let thresholdUs ← procParseU32 ub
  s.storeGlobals (s.globals.setDevLatThreshold thresholdUs)

/-- `background_deadline_write`. -/
def backgroundDeadlineWrite (ub : UserBuf) : Stored := do
  let deadlineMs ← procParseU32 ub
  s.storeGlobals (s.globals.setBackgroundDeadlineMs deadlineMs)

/-- A variable that takes any `u32`. -/
def storeNumber (store : ℕ → ProcState) (ub : UserBuf) : Stored := do
  let n ← procParseU32 ub
  .ok (store n, [])

/-- `scene_tag_write`. -/
def sceneTagWrite (ub : UserBuf) : Stored := storeNumber (fun n => { s with scene := n }) ub

/-- `loadavg_1m_x100_write`. -/
def loadavg1mX100Write (ub : UserBuf) : Stored :=
  storeNumber (fun n => { s with cachedLoadavg1mX100 := n }) ub

/-- `render_avg_lat_write`. -/
def renderAvgLatWrite (ub : UserBuf) : Stored :=
  storeNumber (fun n => { s with cachedRenderAvgLat := n }) ub

/-- `jank_write`. -/
def jankWrite (ub : UserBuf) : Stored := storeNumber (fun n => { s with cachedJankCnt := n }) ub

/-- `window_sz_ms_write`. -/
def windowSzMsWrite (ub : UserBuf) : Stored :=
  storeNumber (fun n => { s with windowSzMs := n }) ub

/-- `rawdata_trace_write`. -/
def rawdataTraceWrite (ub : UserBuf) : Stored := do
  match ← parseSwitch ub with
  | some on => .ok ({ s with rawdataTraceEnabled := on }, [])
  | none => .ok (s, [])

/-- `debug_write`. It switches the raw trace with it. -/
def debugWrite (ub : UserBuf) : Stored := do
  match ← parseSwitch ub with
  | some on => .ok ({ s with debugEnabled := on, rawdataTraceEnabled := on }, [])
  | none => .ok (s, [])

/-- `pagecache_demo_write`, with `smart_io_pagecache_demo_set_enabled`. -/
def pagecacheDemoWrite (ub : UserBuf) : Stored := do
  match ← parseSwitch ub with
  | some on => .ok ({ s with pagecacheDemoOn := on }, if on then [] else [.clearInodeBudgets])
  | none => .error .einval

/-- `pagecache_demo_observe_write`. -/
def pagecacheDemoObserveWrite (ub : UserBuf) : Stored := do
  match ← parseSwitch ub with
  | some on => .ok ({ s with pagecacheDemoObserveOn := on }, [])
  | none => .error .einval

/-- The handler of a file. -/
def handler (threadEnsured : Bool) (nowNs : ℕ) : ProcEntry → UserBuf → Stored
  | .dirtyrateEnable => s.dirtyrateEnableWrite nowNs
  | .dirtyrateWkbps => s.dirtyrateWkbpsWrite nowNs
  | .enable => s.enableWrite
  | .policy => s.policyWrite
  | .fgUid => s.fgUidWrite
  | .fgMainPid => s.fgMainPidWrite
  | .throttleEnable => s.throttleEnableWrite
  | .uxHpEnable => s.uxHpEnableWrite
  | .rtReadHpEnable => s.rtReadHpEnableWrite
  | .queueRqThrottleDemo => s.queueRqThrottleDemoWrite
  | .throttleRatios => s.throttleRatiosWrite
  | .actionSource => s.actionSourceWrite threadEnsured
  | .fixedAction => s.fixedActionWrite
  | .devLat => s.devLatWrite
  | .backgroundDeadlineMs => s.backgroundDeadlineWrite
  | .sceneTag => s.sceneTagWrite
  | .loadavg1mX100 => s.loadavg1mX100Write
  | .renderAvgLat => s.renderAvgLatWrite
  | .jank => s.jankWrite
  | .windowSzMs => s.windowSzMsWrite
  | .rawdataTrace => s.rawdataTraceWrite
  | .debugOn => s.debugWrite
  | .pagecacheDemo => s.pagecacheDemoWrite
  | .pagecacheDemoObserve => s.pagecacheDemoObserveWrite

/-! ## What is read -/

/-- A flag as `%d` prints it. -/
def printFlag (b : Bool) : List Char := printD (if b then 1 else 0)

/-- The words that the `show` function of a file prints; none for the three files that can
only be written. `render_avg_lat` and `jank` print a `u32` with `%d`. -/
def shown : ProcEntry → Option (List (List Char))
  | .dirtyrateEnable => some [printFlag s.limiter.enabled]
  | .dirtyrateWkbps => some [printU s.limiter.getWkbps]
  | .enable => some [printFlag s.smartIoEnabled]
  | .policy => none
  | .fgUid => some [printD s.globals.fgUid]
  | .fgMainPid => some [printD s.globals.fgMainPid]
  | .throttleEnable => some [printFlag s.globals.throttleEnabled]
  | .uxHpEnable => some [printFlag s.globals.uxHpEnabled]
  | .rtReadHpEnable => some [printFlag s.globals.rtReadHpEnabled]
  | .queueRqThrottleDemo => some [printFlag s.globals.queueRqThrottleDemo]
  | .throttleRatios =>
    some [printU s.globals.config.lightPct, printU s.globals.config.mediumPct,
      printU s.globals.config.heavyPct]
  | .actionSource => some [actionSourceName s.globals.config.source]
  | .fixedAction =>
    some [throttleLevelName s.globals.config.fixedAction.level,
      dispatchPolicyName s.globals.config.fixedAction.policy]
  | .devLat => some [printU s.globals.devLatThresholdUs]
  | .backgroundDeadlineMs => some [printU s.globals.backgroundDeadlineMs]
  | .sceneTag => none
  | .loadavg1mX100 => none
  | .renderAvgLat => some [printD (asInt s.cachedRenderAvgLat)]
  | .jank => some [printD (asInt s.cachedJankCnt)]
  | .windowSzMs => some [printU s.windowSzMs]
  | .rawdataTrace => some [printFlag s.rawdataTraceEnabled]
  | .debugOn => some [printFlag s.debugEnabled]
  | .pagecacheDemo => some [printFlag s.pagecacheDemoOn]
  | .pagecacheDemoObserve => some [printFlag s.pagecacheDemoObserveOn]

end ProcState

/-- A write to a file: what it returns, what it leaves, and whom it calls. -/
def ProcState.write (s : ProcState) (threadEnsured : Bool) (nowNs : ℕ) (e : ProcEntry)
    (ub : UserBuf) : Except ProcError ℕ × ProcState × List ProcCall :=
  match s.handler threadEnsured nowNs e ub with
  | .ok (s', calls) => (.ok ub.chars.length, s', calls)
  | .error error => (.error error, s, [])
