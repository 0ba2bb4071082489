import Mathlib.Algebra.Group.Fin.Basic
import Mathlib.Data.List.FinRange
import SmartIo.Chronicle
import SmartIo.IoRecords
import SmartIo.KernelInt
import SmartIo.KeyedChains

/-!
# The volume of a uid

How much every uid reads and writes is kept for each processor, in a hash table of
entries under a lock of its own (`uid_io_curr`). Once in a window the tables are
emptied, one processor after another, into a table for all of them (`uid_io_prev`),
whose old entries are freed first. This module is the two functions that do it,
`uid_io_curr_add` and `uid_io_swap_buckets`, cut where they give up a lock.

A call of the first may take the lock twice. It walks the chain of its uid; if the
uid has no entry, it lets go, allocates one, and starts anew – on the processor it
is on by then, where the uid may have an entry after all. The second is under the
lock of `uid_io_prev` from beginning to end, so there is one run of it at a time,
and it takes the lock of a processor for as long as it empties its table.

The number of processors is any, and so is the hash function `hash_32`, which
belongs to the kernel.
-/

/-- `struct uid_io_entry`. -/
structure UidIoEntry where
  uid : U32
  readKb : U32
  writeKb : U32
deriving DecidableEq, Repr

/-- The arguments of `uid_io_curr_add`. -/
structure UidAdd where
  uid : U32
  kb : U32
  op : SmartIoOp
deriving DecidableEq, Repr

/-- The `hlist_head` array of a bucket, of `1 << SMART_IO_UID_HASH_BITS` chains. -/
abbrev UidHash := Chains (Fin (2 ^ 8)) UidIoEntry

/-- A table of empty chains. -/
def UidHash.empty : UidHash := fun _ => []

/-- Where a call of `uid_io_curr_add` is. -/
inductive AddPhase where
  /-- Before its first lock section. -/
  | lookup
  /-- Between the lock sections, about to allocate. -/
  | alloc
  /-- With a new entry, before its second lock section. -/
  | retry
deriving DecidableEq, Repr

/-- A call of `uid_io_curr_add` under way. -/
structure AddCall where
  args : UidAdd
  phase : AddPhase
deriving DecidableEq, Repr

/-- The state, with `n` processors. -/
structure UidIo (n : ℕ) where
  /-- `uid_io_curr`. -/
  uidIoCurr : Fin n → UidHash
  /-- `uid_io_prev`. -/
  uidIoPrev : UidHash
  calls : List AddCall
  /-- The processors a run of `uid_io_swap_buckets` has still to empty. -/
  swap : Option (List (Fin n))

/-- What can happen. -/
inductive UidIoOp (n : ℕ) where
  /-- `uid_io_curr_add` is called. -/
  | call (a : UidAdd)
  /-- A call takes the lock of the processor it is on. -/
  | locked (i : ℕ) (cpu : Fin n)
  /-- `kmem_cache_zalloc` of a call, which may fail. -/
  | zalloc (i : ℕ) (ok : Bool)
  /-- `uid_io_swap_buckets` takes the lock of `uid_io_prev` and frees what is there. -/
  | swapBegin
  /-- It empties the next processor, or ends. -/
  | swapNext
deriving DecidableEq, Repr

/-- What has happened. -/
inductive UidIoEvent (n : ℕ) where
  | called (a : UidAdd)
  /-- The KB of a call are in an entry of a processor. -/
  | counted (cpu : Fin n) (a : UidAdd)
  /-- A call ends without memory for its entry. -/
  | dropped (a : UidAdd)
  /-- A window is over and freed. -/
  | freed (w : UidHash)
  /-- A processor has been emptied into the present window. -/
  | drained (cpu : Fin n)

namespace UidIoEntry

/-- `entry->write_kb += kb`, or `entry->read_kb += kb`. -/
def addKb (e : UidIoEntry) (a : UidAdd) : UidIoEntry :=
  if a.op.isWrite then { e with writeKb := e.writeKb + a.kb }
  else { e with readKb := e.readKb + a.kb }

/-- The new entry of a call. -/
def new (a : UidAdd) : UidIoEntry :=
  if a.op.isWrite then { uid := a.uid, readKb := 0, writeKb := a.kb }
  else { uid := a.uid, readKb := a.kb, writeKb := 0 }

/-- `prev->read_kb += entry->read_kb` and `prev->write_kb += entry->write_kb`. -/
def merge (p e : UidIoEntry) : UidIoEntry :=
  { p with readKb := p.readKb + e.readKb, writeKb := p.writeKb + e.writeKb }

@[simp] theorem uid_addKb (e : UidIoEntry) (a : UidAdd) : (e.addKb a).uid = e.uid := by
  unfold addKb
  split <;> rfl

@[simp] theorem uid_new (a : UidAdd) : (new a).uid = a.uid := by
  unfold new
  split <;> rfl

@[simp] theorem uid_merge (p e : UidIoEntry) : (p.merge e).uid = p.uid := rfl

end UidIoEntry

namespace UidHash

variable (uidHashIdx : U32 → Fin (2 ^ 8))

/-- A lock section of `uid_io_curr_add`, on the table of the processor. If the uid
has no entry and there is no new one yet, nothing is done. -/
def addLocked (bucket : UidHash) (a : UidAdd) (newEntry : Bool) : Option UidHash :=
  match updateFirst (Chains.hasKey UidIoEntry.uid a.uid) (fun e => e.addKb a)
    (bucket (uidHashIdx a.uid)) with
  | some chain => some (Function.update bucket (uidHashIdx a.uid) chain)
  | none =>
    if newEntry then
      some (Function.update bucket (uidHashIdx a.uid)
        (UidIoEntry.new a :: bucket (uidHashIdx a.uid)))
    else none

/-- One entry of a processor is merged into the entry of its uid in `uid_io_prev`, or
moved there. -/
def drainEntry (prev : UidHash) (e : UidIoEntry) : UidHash :=
  Chains.upsert UidIoEntry.uid uidHashIdx (fun p => p.merge e) e prev

/-- The entries of a table, in the order in which it is emptied. -/
def all (t : UidHash) : List UidIoEntry := (List.finRange (2 ^ 8)).flatMap t

/-- A processor is emptied into `uid_io_prev`, which this is then. -/
def drain (bucket prev : UidHash) : UidHash := bucket.all.foldl (drainEntry uidHashIdx) prev

end UidHash

namespace UidIo

variable {n : ℕ} (uidHashIdx : U32 → Fin (2 ^ 8))

/-- The module just loaded. -/
def zero : UidIo n where
  uidIoCurr _ := .empty
  uidIoPrev := .empty
  calls := []
  swap := none

/-- A lock section of a call. -/
def addLocked (s : UidIo n) (i : ℕ) (c : AddCall) (cpu : Fin n) : UidIo n × List (UidIoEvent n) :=
  match (s.uidIoCurr cpu).addLocked uidHashIdx c.args (c.phase = .retry) with
  | some bucket =>
    ({ s with uidIoCurr := Function.update s.uidIoCurr cpu bucket, calls := s.calls.eraseIdx i },
      [.counted cpu c.args])
  | none => ({ s with calls := s.calls.set i { c with phase := .alloc } }, [])

/-- The allocation of a call. -/
def zalloc (s : UidIo n) (i : ℕ) (c : AddCall) (ok : Bool) : UidIo n × List (UidIoEvent n) :=
  if ok then ({ s with calls := s.calls.set i { c with phase := .retry } }, [])
  else ({ s with calls := s.calls.eraseIdx i }, [.dropped c.args])

/-- `uid_io_swap_buckets`, up to its loop. -/
def swapBegin (s : UidIo n) : UidIo n × List (UidIoEvent n) :=
  match s.swap with
  | some _ => (s, [])
  | none =>
    ({ s with uidIoPrev := .empty, swap := some (List.finRange n) }, [.freed s.uidIoPrev])

/-- One round of its loop, or its end. -/
def swapNext (s : UidIo n) : UidIo n × List (UidIoEvent n) :=
  match s.swap with
  | none => (s, [])
  | some [] => ({ s with swap := none }, [])
  | some (cpu :: cpus) =>
    ({ s with
        uidIoCurr := Function.update s.uidIoCurr cpu .empty
        uidIoPrev := (s.uidIoCurr cpu).drain uidHashIdx s.uidIoPrev
        swap := some cpus },
      [.drained cpu])

/-- One step, and what has happened in it. -/
def step (s : UidIo n) : UidIoOp n → UidIo n × List (UidIoEvent n)
  | .call a => ({ s with calls := s.calls ++ [⟨a, .lookup⟩] }, [.called a])
  | .locked i cpu =>
    match s.calls[i]? with
    | none => (s, [])
    | some c => if c.phase = .alloc then (s, []) else s.addLocked uidHashIdx i c cpu
  | .zalloc i ok =>
    match s.calls[i]? with
    | none => (s, [])
    | some c => if c.phase = .alloc then s.zalloc i c ok else (s, [])
  | .swapBegin => s.swapBegin
  | .swapNext => s.swapNext uidHashIdx

/-- The machine, from the start. -/
def machine (n : ℕ) : StepMachine (UidIo n) (UidIoOp n) (List (UidIoEvent n)) where
  init s := s = zero
  step := step uidHashIdx

end UidIo
