import Mathlib.Data.Finset.Dedup
import SmartIo.KernelInt
import SmartIo.SlotScan
import SmartIo.StepMachine

/-!
# The budget of protected pages

Reclaim is kept from pages of hot inodes, but not from more of them than a budget: for
each application and inode, 256 KiB in a window of half a second that its first page
opens. There are 64 entries. A pair without one takes the first that was never used, or
else the one whose window was opened first – also if that window has not ended. Whoever
loses its entry in this way gets a new window, and a new budget, with its next page.

Every call is seen here as an event, which says what was granted, whether it opened a
window, and whose entry it took.
-/

/-- `PAGECACHE_DEMO_BUDGET_WINDOW_NS`. -/
def budgetWindowNs : ℕ := 50 * 1000 * 1000 * 10

/-- `PAGECACHE_DEMO_BUDGET_BYTES`. -/
def budgetBytes : ℕ := 256 * 1024

/-- `PAGECACHE_DEMO_BUDGET_INODES`. -/
abbrev budgetInodes : ℕ := 64

/-- `PAGECACHE_DEMO_LOG_BUDGET`. -/
def logBudget : ℕ := 64

/-- An application and an inode. -/
abbrev BudgetPair := ℕ × ℕ

/-- `struct pagecache_demo_inode_budget`. -/
structure InodeBudget where
  uid : ℕ
  inodeHash : ℕ
  windowStartNs : ℕ
  usedBytes : ℕ
deriving DecidableEq, Repr

/-- `pagecache_demo_inode_budgets`, and the window of the log. -/
structure PageBudget where
  inodeBudgets : Fin budgetInodes → InodeBudget
  logWindowStart : ℕ
  logCount : ℕ

/-- A call of `pagecache_demo_take_budget`. -/
structure BudgetCall where
  uid : ℕ
  inodeHash : ℕ
  nowNs : U64
  bytes : ℕ
deriving DecidableEq, Repr

/-- What a call does. -/
structure BudgetEvent where
  pair : BudgetPair
  nowNs : ℕ
  granted : ℕ
  /-- It opens the window of its pair. -/
  opens : Bool
  /-- The pair whose entry it takes over. -/
  evicts : Option BudgetPair
deriving DecidableEq, Repr

namespace InodeBudget

def zero : InodeBudget := ⟨0, 0, 0, 0⟩

/-- Whose entry it is. -/
def pair (b : InodeBudget) : BudgetPair := (b.uid, b.inodeHash)

/-- An entry that is some pair's. -/
def Used (b : InodeBudget) : Prop := b.uid ≠ 0

instance (b : InodeBudget) : Decidable b.Used := inferInstanceAs (Decidable (_ ≠ _))

/-- Whether a window is to be opened, for want of one. -/
def Stale (b : InodeBudget) (p : BudgetPair) (nowNs : ℕ) : Prop :=
  b.uid ≠ p.1 ∨ b.inodeHash ≠ p.2 ∨ b.windowStartNs = 0 ∨ nowNs < b.windowStartNs
    ∨ budgetWindowNs ≤ nowNs - b.windowStartNs

instance (b : InodeBudget) (p : BudgetPair) (nowNs : ℕ) : Decidable (b.Stale p nowNs) :=
  inferInstanceAs (Decidable (_ ∨ _))

/-- The entry with a window. -/
def inWindow (b : InodeBudget) (p : BudgetPair) (nowNs : ℕ) : InodeBudget :=
  if b.Stale p nowNs then ⟨p.1, p.2, nowNs, 0⟩ else b

/-- Whether some bytes are granted. -/
def Allows (b : InodeBudget) (bytes : ℕ) : Prop := b.usedBytes ≤ budgetBytes - bytes

instance (b : InodeBudget) (bytes : ℕ) : Decidable (b.Allows bytes) :=
  inferInstanceAs (Decidable (_ ≤ _))

/-- The entry after some bytes are asked for. -/
def take (b : InodeBudget) (bytes : ℕ) : InodeBudget :=
  if b.Allows bytes then { b with usedBytes := b.usedBytes + bytes } else b

end InodeBudget

namespace BudgetCall

/-- Whose pages it is about. -/
def pair (c : BudgetCall) : BudgetPair := (c.uid, c.inodeHash)

/-- A call that is not refused at once. -/
def Valid (c : BudgetCall) : Prop :=
  c.uid ≠ 0 ∧ c.inodeHash ≠ 0 ∧ c.bytes ≠ 0 ∧ c.bytes ≤ budgetBytes

instance (c : BudgetCall) : Decidable c.Valid := inferInstanceAs (Decidable (_ ∧ _))

end BudgetCall

namespace PageBudget

/-- Protection is off. -/
def zero : PageBudget := ⟨fun _ => .zero, 0, 0⟩

/-- The window of the log. -/
def logWindow (s : PageBudget) (nowNs : ℕ) : PageBudget :=
  if s.logWindowStart = 0 ∨ nowNs < s.logWindowStart
      ∨ budgetWindowNs ≤ nowNs - s.logWindowStart then
    { s with logWindowStart := nowNs, logCount := 0 }
  else s

/-- The pass over the entries. -/
def scan (s : PageBudget) (p : BudgetPair) : SlotScan (Fin budgetInodes) :=
  (SlotScan.start u64Max).scan (fun b => b.uid == p.1 && b.inodeHash == p.2) (·.uid == 0)
    InodeBudget.windowStartNs s.inodeBudgets (List.finRange budgetInodes)

/-- The entry that the pass comes to, if any. -/
def budget (s : PageBudget) (p : BudgetPair) : Option (Fin budgetInodes) :=
  let r := s.scan p
  r.hit.or (r.free.or r.oldest)

/-- `pagecache_demo_take_budget`: the entries after it, whether the bytes are granted,
and `log_action`. -/
def takeBudget (s : PageBudget) (c : BudgetCall) : PageBudget × Bool × Bool :=
  if c.Valid then
    let s := s.logWindow c.nowNs
    match s.budget c.pair with
    | none => (s, false, false)
    | some i =>
      let b := (s.inodeBudgets i).inWindow c.pair c.nowNs
      let allowed := decide (b.Allows c.bytes)
      let logAction := allowed && decide (s.logCount < logBudget)
      ({ s with
          inodeBudgets := Function.update s.inodeBudgets i (b.take c.bytes)
          logCount := if logAction then s.logCount + 1 else s.logCount }, allowed, logAction)
  else (s, false, false)

/-- What a call does, as an event. -/
def event (s : PageBudget) (c : BudgetCall) : BudgetEvent where
  pair := c.pair
  nowNs := c.nowNs
  granted := if (s.takeBudget c).2.1 then c.bytes else 0
  opens := decide (c.Valid ∧ ∃ i ∈ s.budget c.pair, (s.inodeBudgets i).Stale c.pair c.nowNs)
  evicts :=
    if c.Valid then
      ((s.budget c.pair).map s.inodeBudgets).bind fun b =>
        if b.Used ∧ b.pair ≠ c.pair then some b.pair else none
    else none

/-- The machine. -/
def machine : StepMachine PageBudget BudgetCall BudgetEvent where
  init s := s = zero
  step s c := ((s.takeBudget c).1, s.event c)

/-! ## What is claimed of the budgets -/

/-- The calls of a run come in order, and none at time zero. -/
def InOrder (calls : List BudgetCall) : Prop :=
  (∀ c ∈ calls, c.nowNs ≠ 0) ∧ (calls.map BudgetCall.nowNs).Pairwise (· ≤ ·)

instance (calls : List BudgetCall) : Decidable (InOrder calls) :=
  inferInstanceAs (Decidable (_ ∧ List.Pairwise _ _))

/-- Whether an event is in the half second from some instant on. -/
def Within (startNs : ℕ) (e : BudgetEvent) : Prop :=
  startNs ≤ e.nowNs ∧ e.nowNs < startNs + budgetWindowNs

instance (startNs : ℕ) : DecidablePred (Within startNs) :=
  fun _ => inferInstanceAs (Decidable (_ ∧ _))

/-- **The bytes granted** to a pair in the half second from some instant on. -/
def grantedIn (es : List BudgetEvent) (p : BudgetPair) (startNs : ℕ) : ℕ :=
  ((es.filter fun e => e.pair = p ∧ Within startNs e).map BudgetEvent.granted).sum

/-- **How often the entry of a pair is taken over** in that time. -/
def takeovers (es : List BudgetEvent) (p : BudgetPair) (startNs : ℕ) : ℕ :=
  es.countP fun e => e.evicts = some p ∧ Within startNs e

/-- **The pairs that open windows** from one instant to another. -/
def openers (es : List BudgetEvent) (fromNs toNs : ℕ) : Finset BudgetPair :=
  ((es.filter fun e => e.opens ∧ fromNs ≤ e.nowNs ∧ e.nowNs ≤ toNs).map
    BudgetEvent.pair).toFinset

/-- No two entries in use carry the same pair. -/
def Unique (s : PageBudget) : Prop :=
  UniqueKeys InodeBudget.pair InodeBudget.Used s.inodeBudgets

end PageBudget
