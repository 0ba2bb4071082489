import Mathlib.Data.List.FinRange
import Mathlib.Data.Multiset.Basic
import SmartIo.Chronicle
import SmartIo.KeyedChains
import SmartIo.PageCache

/-!
# The filemap aggregator

The hooks of the page cache see a page brought up to date, deleted or faulted in again
far too often for a line of the log each. So `filemap_agg_record` keeps entries, by
event, inode and user: a call whose pages overlap or touch those of an entry of its key
goes into that entry, and any other gets an entry of its own. If the table is full, the
call goes into an entry of its key all the same, which is then marked: its pages may
have holes. `smart_io_filemap_agg_flush` empties the table and writes a line for
each entry.

Calls run on all processors at once. One that needs an entry gives up the lock to
allocate it, and starts anew; a flush gives it up once the entries are on a list of its
own. This module is the two functions, cut where they give up the lock, and a switch of
tracing or the loss of the trace instance may come between any two of the pieces.

An entry is an object of `filemap_agg_cache`. Objects are numbered here as they are
allocated, so a number tells an object from all others, also from those that had its
memory before it.

The hash functions belong to the kernel and are any; `hash_ptr` hashes the address of a
string, which stands here for the event.
-/

/-- The strings that the hooks pass, told apart by their addresses. -/
inductive FilemapEvent where
  /-- `"filemap_update_page"`. -/
  | updatePage
  /-- `"filemap_delete_page_cache"`. -/
  | deletePageCache
  /-- `"filemap_refault"`. -/
  | refault
deriving DecidableEq, Repr

/-- `FILEMAP_AGG_MAX_ENTRIES`. -/
def filemapAggMaxEntries : ℕ := 1024

/-- `SMART_IO_FS_TYPE_LEN`. -/
def smartIoFsTypeLen : ℕ := 16

/-- The hash functions of the kernel, with `FILEMAP_AGG_HASH_BITS` bits. -/
structure KernelHash where
  hashPtr : FilemapEvent → Fin (2 ^ 8)
  hash64 : ℕ → Fin (2 ^ 8)
  hash32 : U32 → Fin (2 ^ 8)

/-- What a call of `filemap_agg_record` looks for and adds, once it has computed the
identity of the inode. The hooks pass the pages of one folio. -/
structure FilemapSample where
  event : FilemapEvent
  uid : U32
  inodeHash : ℕ
  fs : List Char
  index : ℕ
  lastIndex : ℕ
  pages : U32
  ts : ℕ
  pages_pos : 0 < pages.val
  lastIndex_eq : lastIndex + 1 = index + pages.val
deriving DecidableEq, Repr

/-- `struct filemap_agg_entry`. -/
structure FilemapAggEntry where
  /-- The number of the object. -/
  addr : ℕ
  event : FilemapEvent
  uid : U32
  inodeHash : ℕ
  fs : List Char
  index : ℕ
  lastIndex : ℕ
  pages : U64
  samples : U64
  tsFirst : ℕ
  tsLast : ℕ
  overflow : Bool
deriving DecidableEq, Repr

/-- `filemap_agg_hash`. -/
abbrev FilemapAggHash := Chains (Fin (2 ^ 8)) FilemapAggEntry

/-- `filemap_inode`. -/
def filemapInode (mapping file : Option Inode) (folio : Folio) : Option Inode :=
  file.or (mapping.or folio.host)

/-- `filemap_fill_identity`: the file system, the device and the number. -/
def filemapFillIdentity : Option Inode → List Char × U32 × U64
  | none => (strscpy smartIoFsTypeLen "unknown".toList, 0, 0)
  | some inode =>
    match inode.iSb with
    | none => (strscpy smartIoFsTypeLen "unknown".toList, 0, inode.iIno)
    | some sb => (strscpy smartIoFsTypeLen (sb.typeName.getD "unknown".toList), sb.sDev, inode.iIno)

/-- `filemap_agg_key`. -/
def filemapAggKey (H : KernelHash) (event : FilemapEvent) (inodeHash : ℕ) (uid : U32) : U32 :=
  Fin.ofNat (2 ^ 32) ((H.hashPtr event).val ^^^ (H.hash64 inodeHash).val ^^^ (H.hash32 uid).val)

/-- `filemap_ranges_overlap_or_touch`. -/
def filemapRangesOverlapOrTouch (leftFirst leftLast rightFirst rightLast : ℕ) : Bool :=
  if leftLast < rightFirst then decide (rightFirst - leftLast ≤ 1)
  else if rightLast < leftFirst then decide (leftFirst - rightLast ≤ 1)
  else true

namespace FilemapSample

/-- The sample of a folio, as the hooks have it recorded. -/
def ofFolio (event : FilemapEvent) (mapping file : Option Inode) (folio : Folio) (uid : U32)
    (ts : ℕ) : FilemapSample where
  event := event
  uid := uid
  inodeHash :=
    let identity := filemapFillIdentity (filemapInode mapping file folio)
    inodeHashOf identity.2.2 identity.2.1
  fs := (filemapFillIdentity (filemapInode mapping file folio)).1
  index := folio.index
  lastIndex := folio.index + folio.pages - 1
  pages := ⟨folio.pages, folio.pages_lt⟩
  ts := ts
  pages_pos := folio.pages_pos
  lastIndex_eq := Nat.sub_add_cancel (Nat.le_add_left_of_le folio.pages_pos)

/-- The chain of the sample. `hash_add` hashes the key, which is a `u32`, once more. -/
def bucket (H : KernelHash) (c : FilemapSample) : Fin (2 ^ 8) :=
  H.hash32 (filemapAggKey H c.event c.inodeHash c.uid)

end FilemapSample

namespace FilemapAggEntry

/-- `filemap_agg_same_key`. -/
def sameKey (e : FilemapAggEntry) (c : FilemapSample) : Bool :=
  e.event == c.event && e.inodeHash == c.inodeHash && e.uid == c.uid

/-- The pages of the sample overlap or touch those of the entry. -/
def touches (e : FilemapAggEntry) (c : FilemapSample) : Bool :=
  filemapRangesOverlapOrTouch e.index e.lastIndex c.index c.lastIndex

/-- `filemap_agg_merge`. -/
def merge (e : FilemapAggEntry) (c : FilemapSample) (overflow : Bool) : FilemapAggEntry :=
  { e with
      index := if c.index < e.index then c.index else e.index
      lastIndex := if e.lastIndex < c.lastIndex then c.lastIndex else e.lastIndex
      pages := e.pages + Fin.ofNat (2 ^ 64) c.pages.val
      samples := e.samples + 1
      tsLast := c.ts
      overflow := e.overflow || overflow }

/-- The new entry of a call, in the object it has allocated. -/
def new (addr : ℕ) (c : FilemapSample) : FilemapAggEntry where
  addr := addr
  event := c.event
  uid := c.uid
  inodeHash := c.inodeHash
  fs := strscpy smartIoFsTypeLen c.fs
  index := c.index
  lastIndex := c.lastIndex
  pages := Fin.ofNat (2 ^ 64) c.pages.val
  samples := 1
  tsFirst := c.ts
  tsLast := c.ts
  overflow := false

end FilemapAggEntry

/-- Where a call of `filemap_agg_record` is. -/
inductive RecordPhase where
  /-- Before its first lock section. -/
  | lookup
  /-- Between the lock sections, about to allocate. -/
  | alloc
  /-- With an object for a new entry, before its next lock section. -/
  | retry (newEntry : ℕ)
deriving DecidableEq, Repr

/-- A call of `filemap_agg_record` under way. -/
structure RecordCall where
  sample : FilemapSample
  phase : RecordPhase
deriving DecidableEq, Repr

/-- Where a call of `smart_io_filemap_agg_flush` is. -/
inductive FlushPhase where
  /-- It has seen that there are entries. -/
  | counted
  /-- It has seen that tracing is off. -/
  | discard
  /-- It has seen that tracing is on. -/
  | collect
  /-- It writes its list, and has come to the entries `todo`. -/
  | writing (said todo : List FilemapAggEntry)
  /-- It frees its list. -/
  | freeing (flushList : List FilemapAggEntry)
deriving DecidableEq, Repr

/-- The state. -/
structure FilemapAgg where
  filemapAggHash : FilemapAggHash
  filemapAggEntries : ℕ
  /-- `filemap_agg_cache` is there. -/
  filemapAggCache : Bool
  rawdataTraceEnabled : Bool
  /-- `smart_io_trace_array` is there. -/
  traceArray : Bool
  calls : List RecordCall
  flushes : List FlushPhase
  /-- How many objects `filemap_agg_cache` has given out. -/
  allocations : ℕ

/-- What can happen. -/
inductive FilemapAggOp where
  /-- `filemap_agg_record` is called, by a task of `uid` and at `ts`. -/
  | record (event : FilemapEvent) (mapping file : Option Inode) (folio : Folio) (uid : U32)
      (ts : ℕ)
  /-- A call takes the lock. -/
  | locked (i : ℕ)
  /-- A call allocates, which may fail. -/
  | zalloc (i : ℕ) (ok : Bool)
  /-- `smart_io_filemap_agg_flush` is called. -/
  | flush
  /-- A flush does its next piece of work. -/
  | flushNext (i : ℕ)
  /-- `rawdata_trace_enabled` is written. -/
  | traceEnabled (on : Bool)
  /-- `smart_io_trace_array` is set or cleared. -/
  | traceArray (there : Bool)
  /-- `filemap_agg_cache` is created or destroyed. -/
  | cache (there : Bool)
deriving DecidableEq, Repr

/-- What has happened. -/
inductive FilemapAggNote where
  /-- A call has found tracing on. -/
  | called (c : FilemapSample)
  /-- A call ends with its sample in an entry. -/
  | sampled (c : FilemapSample)
  /-- A call ends without memory for its entry. -/
  | dropped (c : FilemapSample)
  | allocated (addr : ℕ)
  | freed (addr : ℕ)
  /-- The line of an entry is written. -/
  | written (e : FilemapAggEntry)
  /-- The line of an entry is held back by `smart_io_raw_emit`. -/
  | lost (e : FilemapAggEntry)
  /-- An entry is freed by a flush with tracing off. -/
  | discarded (e : FilemapAggEntry)
deriving DecidableEq, Repr

/-- A call frees the object it does not need. -/
def RecordPhase.release : RecordPhase → List FilemapAggNote
  | .retry newEntry => [.freed newEntry]
  | _ => []

namespace FilemapAggHash

/-- A table of empty chains. -/
def empty : FilemapAggHash := fun _ => []

/-- The entries of a table, in the order in which it is emptied. -/
def all (t : FilemapAggHash) : List FilemapAggEntry := (List.finRange (2 ^ 8)).flatMap t

variable (H : KernelHash)

/-- The first entry of the key whose pages overlap or touch those of the sample takes the
sample in. -/
def mergeTouching (t : FilemapAggHash) (c : FilemapSample) : Option (List FilemapAggEntry) :=
  updateFirst (fun e => e.sameKey c && e.touches c) (fun e => e.merge c false) (t (c.bucket H))

/-- The first entry of the key takes the sample in, and is marked. -/
def mergeFallback (t : FilemapAggHash) (c : FilemapSample) : Option (List FilemapAggEntry) :=
  updateFirst (fun e => e.sameKey c) (fun e => e.merge c true) (t (c.bucket H))

/-- What a lock section of `filemap_agg_record` does to the table when it puts the sample
into an entry that is there. The fallback is for a full table. -/
def mergeLocked (t : FilemapAggHash) (entries : ℕ) (c : FilemapSample) : Option FilemapAggHash :=
  match t.mergeTouching H c with
  | some chain => some (Function.update t (c.bucket H) chain)
  | none =>
    if filemapAggMaxEntries ≤ entries then
      (t.mergeFallback H c).map (Function.update t (c.bucket H))
    else none

/-- `hash_add`, of the new entry of a call. -/
def add (t : FilemapAggHash) (newEntry : ℕ) (c : FilemapSample) : FilemapAggHash :=
  Function.update t (c.bucket H) (FilemapAggEntry.new newEntry c :: t (c.bucket H))

end FilemapAggHash

namespace FilemapAgg

variable (H : KernelHash)

/-- The module just loaded. -/
def zero : FilemapAgg where
  filemapAggHash := .empty
  filemapAggEntries := 0
  filemapAggCache := false
  rawdataTraceEnabled := false
  traceArray := false
  calls := []
  flushes := []
  allocations := 0

/-- A lock section of a call. -/
def recordLocked (s : FilemapAgg) (i : ℕ) (c : RecordCall) : FilemapAgg × List FilemapAggNote :=
  match s.filemapAggHash.mergeLocked H s.filemapAggEntries c.sample with
  | some t =>
    ({ s with filemapAggHash := t, calls := s.calls.eraseIdx i },
      .sampled c.sample :: RecordPhase.release c.phase)
  | none =>
    match c.phase with
    | .retry newEntry =>
      if filemapAggMaxEntries ≤ s.filemapAggEntries then
        ({ s with calls := s.calls.eraseIdx i }, [.dropped c.sample, .freed newEntry])
      else
        ({ s with
            filemapAggHash := s.filemapAggHash.add H newEntry c.sample
            filemapAggEntries := s.filemapAggEntries + 1
            calls := s.calls.eraseIdx i },
          [.sampled c.sample])
    | _ => ({ s with calls := s.calls.set i { c with phase := .alloc } }, [])

/-- The allocation of a call. -/
def zalloc (s : FilemapAgg) (i : ℕ) (c : RecordCall) (ok : Bool) :
    FilemapAgg × List FilemapAggNote :=
  if s.filemapAggCache && ok then
    ({ s with
        calls := s.calls.set i { c with phase := .retry s.allocations }
        allocations := s.allocations + 1 },
      [.allocated s.allocations])
  else ({ s with calls := s.calls.eraseIdx i }, [.dropped c.sample])

/-- What becomes of a line in `smart_io_raw_emit`. -/
def rawEmit (s : FilemapAgg) (e : FilemapAggEntry) : FilemapAggNote :=
  if s.rawdataTraceEnabled && s.traceArray then .written e else .lost e

/-- The next piece of a flush. -/
def flushNext (s : FilemapAgg) (i : ℕ) : FlushPhase → FilemapAgg × List FilemapAggNote
  | .counted =>
    ({ s with
        flushes := s.flushes.set i (if s.rawdataTraceEnabled then .collect else .discard) }, [])
  | .discard =>
    ({ s with
        filemapAggHash := .empty
        filemapAggEntries := 0
        flushes := s.flushes.eraseIdx i },
      s.filemapAggHash.all.flatMap fun e => [.discarded e, .freed e.addr])
  | .collect =>
    -- `hlist_add_head` reverses the entries
    ({ s with
        filemapAggHash := .empty
        filemapAggEntries := 0
        flushes := s.flushes.set i (.writing [] s.filemapAggHash.all.reverse) }, [])
  | .writing said [] => ({ s with flushes := s.flushes.set i (.freeing said) }, [])
  | .writing said (e :: todo) =>
    ({ s with flushes := s.flushes.set i (.writing (said ++ [e]) todo) }, [s.rawEmit e])
  | .freeing [] => ({ s with flushes := s.flushes.eraseIdx i }, [])
  | .freeing (e :: flushList) =>
    ({ s with flushes := s.flushes.set i (.freeing flushList) }, [.freed e.addr])

/-- One step, and what has happened in it. -/
def step (s : FilemapAgg) : FilemapAggOp → FilemapAgg × List FilemapAggNote
  | .record event mapping file folio uid ts =>
    if s.rawdataTraceEnabled then
      let c := FilemapSample.ofFolio event mapping file folio uid ts
      ({ s with calls := s.calls ++ [⟨c, .lookup⟩] }, [.called c])
    else (s, [])
  | .locked i =>
    match s.calls[i]? with
    | none => (s, [])
    | some c => if c.phase = .alloc then (s, []) else s.recordLocked H i c
  | .zalloc i ok =>
    match s.calls[i]? with
    | none => (s, [])
    | some c => if c.phase = .alloc then s.zalloc i c ok else (s, [])
  | .flush =>
    if s.filemapAggEntries = 0 then (s, []) else ({ s with flushes := s.flushes ++ [.counted] }, [])
  | .flushNext i =>
    match s.flushes[i]? with
    | none => (s, [])
    | some p => s.flushNext i p
  | .traceEnabled on => ({ s with rawdataTraceEnabled := on }, [])
  | .traceArray there => ({ s with traceArray := there }, [])
  | .cache there => ({ s with filemapAggCache := there }, [])

/-- The machine, from the start. -/
def machine : StepMachine FilemapAgg FilemapAggOp (List FilemapAggNote) where
  init s := s = zero
  step := step H

/-- **What has happened in a run**, in order. -/
def notes (ops : List FilemapAggOp) : List FilemapAggNote :=
  (machine H).chronicle (machine H).out zero ops

/-- The state after a run. -/
def after (ops : List FilemapAggOp) : FilemapAgg := (machine H).run zero ops

end FilemapAgg
