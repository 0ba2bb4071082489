import SmartIo.IoLifetime

/-!
# Remapped bios

A bio that is sent to another device than it was made for is announced with the
device it comes from, and the module keeps that in a table by the address of the bio
until the bio is part of a request. It then takes the entries of all bios of the
request off the table, and the record of the request gets the device
(`smart_io_record_bio_remap`, `consume_request_remap`). It does so at an insertion,
and at the issue of a request it has no record of.

The life of a bio ends with the request it is part of, and its address is used again;
a life in which the bio is remapped several times is known by the first device.
`RemapTrace` puts the table next to the bios and to what the block layer knows of
them. The requests are those of `BlkTrace`, and so are the records: a record stays in
the table for as long as it does there, which may be longer than its request lives.

A run is one of remaps of bios that are in no request, insertions and direct issues of
new requests, merges of single bios into queued requests, issues and final
completions. Requests are not remapped themselves, so the table of request remaps,
which is looked up first, is there but stays empty.
-/

/-- The address of a bio. -/
abbrev Bio := ℕ

/-- `struct remap_info`. -/
structure RemapInfo where
  firstDev : ℕ
  found : Bool
  mixed : Bool
deriving DecidableEq, Repr

/-- `remap_from` and `remap_mixed` of the event of a record. No device is `"none"`. -/
structure EventRemap where
  remapFrom : Option ℕ
  remapMixed : Bool
deriving DecidableEq, Repr

/-- `bio_remap_hash` and `rq_remap_hash`. An address is in one bucket, and every
lookup compares the address. -/
structure RemapTables where
  bioRemapHash : AList fun _ : Bio => ℕ
  rqRemapHash : AList fun _ : Rq => ℕ

/-- Who inserts or issues a request: the time, whether raw mode is on, and whether
the thread has `ROLE_FIO`. -/
structure Submitter where
  nowNs : ℕ
  raw : Bool
  fio : Bool
deriving DecidableEq, Repr

/-- The module, the block layer, and the bios. -/
structure RemapTrace where
  blk : BlkTrace
  tables : RemapTables
  /-- The remap of a record that is in `rq_shards`. -/
  remap : Rq → EventRemap
  /-- The bios of a request, in order. -/
  bios : Rq → List Bio
  /-- Those that the module has not looked up since they are in it. -/
  unseen : Rq → List Bio
  /-- The request a bio is in. -/
  home : Bio → Option Rq
  /-- The device a bio has been remapped from first, in its present life. -/
  life : Bio → Option ℕ
  /-- The remap that the record of a request should have. -/
  due : Rq → EventRemap

/-- What happens. -/
inductive RemapOp where
  | bioRemap (bio : Bio) (oldDev : ℕ)
  | insert (rq : Rq) (c : Submitter) (bytes : Fin (2 ^ 32)) (ioOp : SmartIoOp) (bios : List Bio)
  | merge (rq : Rq) (bytes : ℕ) (bio : Bio)
  /-- An issue – a direct one, if the request is new, which is what the bytes, the
  operation and the bios describe. -/
  | issue (rq : Rq) (c : Submitter) (bytes : Fin (2 ^ 32)) (ioOp : SmartIoOp) (bios : List Bio)
  /-- The completion of all that is left of a request. -/
  | complete (rq : Rq) (nowNs : ℕ) (raw : Bool)
deriving DecidableEq, Repr

namespace RemapInfo

/-- `memset(info, 0, sizeof(*info))`. -/
def zero : RemapInfo := ⟨0, false, false⟩

/-- `remap_info_consider`. -/
def consider (info : RemapInfo) (oldDev : ℕ) : RemapInfo :=
  if oldDev = 0 then info
  else if !info.found then { info with firstDev := oldDev, found := true }
  else if info.firstDev ≠ oldDev then { info with mixed := true }
  else info

/-- What several devices come to. -/
def ofDevs (devs : List ℕ) : RemapInfo := devs.foldl consider zero

/-- `apply_remap_info`, in `fill_record_from_current`, which leaves it out for a
thread of `ROLE_FIO`. -/
def apply (info : RemapInfo) (fio : Bool) : EventRemap :=
  if fio then ⟨none, false⟩
  else if info.found then ⟨some info.firstDev, info.mixed⟩
  else ⟨none, false⟩

end RemapInfo

namespace RemapTables

/-- `smart_io_record_bio_remap`. An entry that is there stays. -/
def recordBioRemap (t : RemapTables) (bio : Bio) (oldDev : ℕ) : RemapTables :=
  match t.bioRemapHash.lookup bio with
  | some _ => t
  -- with the new entry at hand the second lookup finds nothing either
  | none => { t with bioRemapHash := t.bioRemapHash.insert bio oldDev }

/-- `consume_rq_remap`. -/
def consumeRqRemap (t : RemapTables) (rq : Rq) (info : RemapInfo) : RemapTables × RemapInfo :=
  match t.rqRemapHash.lookup rq with
  | some oldDev => ({ t with rqRemapHash := t.rqRemapHash.erase rq }, info.consider oldDev)
  | none => (t, info)

/-- `consume_bio_remaps`, over the bios of the request. -/
def consumeBioRemaps (t : RemapTables) (info : RemapInfo) : List Bio → RemapTables × RemapInfo
  | [] => (t, info)
  | bio :: bios =>
    match t.bioRemapHash.lookup bio with
    | some oldDev =>
      consumeBioRemaps { t with bioRemapHash := t.bioRemapHash.erase bio } (info.consider oldDev)
        bios
    | none => consumeBioRemaps t info bios

/-- `consume_request_remap`. -/
def consumeRequestRemap (t : RemapTables) (rq : Rq) (bios : List Bio) : RemapTables × RemapInfo :=
  let p := t.consumeRqRemap rq .zero
  p.1.consumeBioRemaps p.2 bios

end RemapTables

namespace RemapTrace

/-- Nothing has happened yet. -/
def zero : RemapTrace where
  blk := .start
  tables := ⟨∅, ∅⟩
  remap _ := ⟨none, false⟩
  bios _ := []
  unseen _ := []
  home _ := none
  life _ := none
  due _ := ⟨none, false⟩

/-- Whether there can be a new request of some bios: its address is not in use, and
none of them is in a request. -/
def Fresh (s : RemapTrace) (rq : Rq) (bios : List Bio) : Prop :=
  s.blk.requests rq = none ∧ bios.Nodup ∧ ∀ b ∈ bios, s.home b = none

instance (s : RemapTrace) (rq : Rq) (bios : List Bio) : Decidable (s.Fresh rq bios) :=
  inferInstanceAs (Decidable (_ ∧ _ ∧ _))

/-- The remap that the record of a new request of some bios should have. -/
def dueOf (s : RemapTrace) (fio : Bool) (bios : List Bio) : EventRemap :=
  (RemapInfo.ofDevs (bios.filterMap s.life)).apply fio

/-- A request starts. -/
def start (s : RemapTrace) (rq : Rq) (fio : Bool) (bios : List Bio) : RemapTrace :=
  { s with
    bios := Function.update s.bios rq bios
    unseen := Function.update s.unseen rq bios
    home := fun b => if b ∈ bios then some rq else s.home b
    due := Function.update s.due rq (s.dueOf fio bios) }

/-- The module looks up the remaps of a request, and makes a record with them. -/
def tell (s : RemapTrace) (rq : Rq) (fio : Bool) : RemapTrace :=
  let p := s.tables.consumeRequestRemap rq (s.bios rq)
  { s with
    tables := p.1
    remap := Function.update s.remap rq (p.2.apply fio)
    unseen := Function.update s.unseen rq [] }

/-- A bio joins a request. -/
def join (s : RemapTrace) (rq : Rq) (bio : Bio) : RemapTrace :=
  { s with
    bios := Function.update s.bios rq (s.bios rq ++ [bio])
    unseen := Function.update s.unseen rq (s.unseen rq ++ [bio])
    home := Function.update s.home bio (some rq) }

/-- A request ends, and with it the lives of its bios. -/
def finish (s : RemapTrace) (rq : Rq) : RemapTrace :=
  { s with
    bios := Function.update s.bios rq []
    unseen := Function.update s.unseen rq []
    home := fun b => if s.home b = some rq then none else s.home b
    life := fun b => if s.home b = some rq then none else s.life b }

/-- `smart_io_record_insert`. -/
def recordInsert (s : RemapTrace) (rq : Rq) (c : Submitter) (bytes : Fin (2 ^ 32))
    (ioOp : SmartIoOp) : RemapTrace :=
  { s.tell rq c.fio with blk := s.blk.event ⟨rq, c.nowNs, c.raw, .insert bytes ioOp⟩ }

/-- `smart_io_record_issue`. The remaps of a request that has a record are not looked
up. -/
def recordIssue (s : RemapTrace) (rq : Rq) (c : Submitter) (bytes : Fin (2 ^ 32))
    (ioOp : SmartIoOp) : RemapTrace :=
  let told :=
    match s.blk.io.rqShards.lookup rq with
    | none => s.tell rq c.fio
    | some _ => s
  { told with blk := s.blk.event ⟨rq, c.nowNs, c.raw, .issue bytes ioOp⟩ }

/-- One step. What cannot happen leaves the state alone. -/
def step (s : RemapTrace) : RemapOp → RemapTrace
  | .bioRemap bio oldDev =>
    match s.home bio with
    | some _ => s
    | none =>
      { s with
        tables := s.tables.recordBioRemap bio oldDev
        life := Function.update s.life bio (some ((s.life bio).getD oldDev)) }
  | .insert rq c bytes ioOp bios =>
    if s.Fresh rq bios then (s.start rq c.fio bios).recordInsert rq c bytes ioOp else s
  | .merge rq bytes bio =>
    match s.blk.requests rq with
    | none => s
    | some r =>
      if r.queued ∧ r.size + bytes < 2 ^ 32 ∧ s.home bio = none then
        { s.join rq bio with blk := s.blk.step (.bioMerge rq bytes) }
      else s
  | .issue rq c bytes ioOp bios =>
    match s.blk.requests rq with
    | some _ => s.recordIssue rq c bytes ioOp
    | none =>
      if s.Fresh rq bios then (s.start rq c.fio bios).recordIssue rq c bytes ioOp else s
  | .complete rq nowNs raw =>
    match s.blk.requests rq with
    | none => s
    | some r => { s.finish rq with blk := s.blk.event ⟨rq, nowNs, raw, .complete r.dataLen⟩ }

/-- The machine. -/
def machine : StepMachine RemapTrace RemapOp Unit where
  init s := s = zero
  step s op := (s.step op, ())

end RemapTrace
