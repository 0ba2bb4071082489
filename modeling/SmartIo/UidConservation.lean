import Mathlib.Data.List.Induction
import SmartIo.Placings
import SmartIo.UidIo

/-!
# No volume is lost

Every call of `uid_io_curr_add` is counted once, and what it adds stays counted: it
is in the table of one processor, or in one of the windows. To follow it there, the
events of a run are written up in a ledger – a placing of the calls that have been
counted, and the windows that have been freed (`UidLedger`). An entry of a table is
then the sum of the calls of its uid in the place of the table, as a `u32`
(`UidHash.Describes`), and this is what every step preserves, also in the middle of
a swap.

A call that is under way does not stay so: it is counted in its first lock section, or
in its second, whatever processor that is on (`UidIo.Proceeds`). Once no call is under
way and none has been given up, the tables have all that was added.
-/

/-! ## What an entry says -/

namespace UidAdd

/-- The KB of a call, if it reads for a uid. -/
def readShare (uid : U32) (a : UidAdd) : U32 := if a.uid = uid ∧ ¬ a.op.isWrite then a.kb else 0

/-- The KB of a call, if it writes for a uid. -/
def writeShare (uid : U32) (a : UidAdd) : U32 := if a.uid = uid ∧ a.op.isWrite then a.kb else 0

theorem readShare_of_ne {uid : U32} {a : UidAdd} (h : a.uid ≠ uid) : a.readShare uid = 0 :=
  if_neg fun hc => h hc.1

theorem writeShare_of_ne {uid : U32} {a : UidAdd} (h : a.uid ≠ uid) : a.writeShare uid = 0 :=
  if_neg fun hc => h hc.1

end UidAdd

namespace UidIoEntry

/-- **The entry of a uid**, of several calls: none, if no call is of the uid. -/
def of (l : List UidAdd) (uid : U32) : Option UidIoEntry :=
  if ∃ a ∈ l, a.uid = uid then
    some { uid := uid,
           readKb := (l.map (UidAdd.readShare uid)).sum
           writeKb := (l.map (UidAdd.writeShare uid)).sum }
  else none

variable {l m : List UidAdd} {uid : U32}

@[simp] theorem of_nil : of [] uid = none := if_neg (by simp)

theorem of_eq_none (h : ∀ a ∈ l, a.uid ≠ uid) : of l uid = none :=
  if_neg fun ⟨a, ha, hau⟩ => h a ha hau

theorem of_perm (h : l.Perm m) : of l uid = of m uid := by
  unfold of
  rw [(h.map _).sum_eq, (h.map _).sum_eq]
  refine if_congr (exists_congr fun a => and_congr_left fun _ => h.mem_iff) rfl rfl

/-- A uid without calls has no KB. -/
theorem sum_share_eq_zero {share : UidAdd → U32} (hshare : ∀ a, a.uid ≠ uid → share a = 0)
    (h : of l uid = none) : (l.map share).sum = 0 := by
  refine List.sum_eq_zero fun x hx => ?_
  obtain ⟨a, ha, rfl⟩ := List.mem_map.mp hx
  refine hshare a fun hau => ?_
  unfold of at h
  rw [if_pos ⟨a, ha, hau⟩] at h
  exact Option.some_ne_none _ h

theorem eq_of_of_eq_some {e : UidIoEntry} (h : of l uid = some e) :
    e = { uid := uid,
          readKb := (l.map (UidAdd.readShare uid)).sum
          writeKb := (l.map (UidAdd.writeShare uid)).sum } := by
  unfold of at h
  split at h
  · exact (Option.some.inj h).symm
  · exact absurd h.symm (Option.some_ne_none e)

/-- **The entries of two lists** of calls are merged. -/
theorem of_append : of (l ++ m) uid = Option.merge merge (of l uid) (of m uid) := by
  have hex : (∃ a ∈ l ++ m, a.uid = uid) ↔ (∃ a ∈ l, a.uid = uid) ∨ ∃ a ∈ m, a.uid = uid := by
    constructor
    · rintro ⟨a, ha, hau⟩
      exact (List.mem_append.mp ha).imp (fun h => ⟨a, h, hau⟩) fun h => ⟨a, h, hau⟩
    · rintro (⟨a, ha, hau⟩ | ⟨a, ha, hau⟩)
      · exact ⟨a, List.mem_append_left m ha, hau⟩
      · exact ⟨a, List.mem_append_right l ha, hau⟩
  by_cases hl : ∃ a ∈ l, a.uid = uid
  · have hol : of l uid = some _ := if_pos hl
    have hlm : of (l ++ m) uid = some _ := if_pos (hex.mpr (Or.inl hl))
    by_cases hm : ∃ a ∈ m, a.uid = uid
    · have hom : of m uid = some _ := if_pos hm
      rw [hol, hlm, hom, List.map_append, List.map_append, List.sum_append, List.sum_append]
      rfl
    · have hom : of m uid = none := if_neg hm
      rw [hol, hlm, hom, List.map_append, List.map_append, List.sum_append, List.sum_append,
        sum_share_eq_zero (fun _ => UidAdd.readShare_of_ne) hom,
        sum_share_eq_zero (fun _ => UidAdd.writeShare_of_ne) hom, add_zero, add_zero]
      rfl
  · have hol : of l uid = none := if_neg hl
    rw [hol]
    by_cases hm : ∃ a ∈ m, a.uid = uid
    · have hlm : of (l ++ m) uid = some _ := if_pos (hex.mpr (Or.inr hm))
      have hom : of m uid = some _ := if_pos hm
      rw [hlm, hom, List.map_append, List.map_append, List.sum_append, List.sum_append,
        sum_share_eq_zero (fun _ => UidAdd.readShare_of_ne) hol,
        sum_share_eq_zero (fun _ => UidAdd.writeShare_of_ne) hol, zero_add, zero_add]
      rfl
    · have hom : of m uid = none := if_neg hm
      have hlm : of (l ++ m) uid = none := if_neg fun h => (hex.mp h).elim hl hm
      rw [hom, hlm]
      rfl

/-- One call makes a new entry. -/
theorem of_singleton (a : UidAdd) : of [a] a.uid = some (new a) := by
  unfold of new
  rw [if_pos ⟨a, List.mem_singleton_self a, rfl⟩]
  simp only [List.map_cons, List.map_nil, List.sum_cons, List.sum_nil, add_zero,
    UidAdd.readShare, UidAdd.writeShare, true_and]
  cases a.op.isWrite <;> rfl

/-- Merging a new entry is adding its KB. -/
theorem merge_new {e : UidIoEntry} {a : UidAdd} : e.merge (new a) = e.addKb a := by
  unfold merge new addKb
  cases a.op.isWrite
  · simp
  · simp

/-- **One call more** changes the entry of its uid. -/
theorem of_snoc (l : List UidAdd) (a : UidAdd) :
    of (l ++ [a]) = Function.update (of l) a.uid
      (some ((of l a.uid).elim (new a) fun e => e.addKb a)) := by
  funext uid
  rw [of_append]
  by_cases huid : uid = a.uid
  · rw [huid, Function.update_self, of_singleton]
    cases of l a.uid with
    | none => rfl
    | some e => exact congrArg some merge_new
  · rw [Function.update_of_ne huid, of_eq_none (l := [a])]
    · cases of l uid <;> rfl
    · intro b hb
      rw [List.mem_singleton.mp hb]
      exact Ne.symm huid

end UidIoEntry

namespace UidHash

variable {uidHashIdx : U32 → Fin (2 ^ 8)} {t t' u : UidHash} {l m : List UidAdd}

/-- **A table describes some calls**: its entry of a uid, if there is one, is alone,
in the right chain, and the sum of the calls of the uid. -/
def Describes (uidHashIdx : U32 → Fin (2 ^ 8)) (t : UidHash) (l : List UidAdd) : Prop :=
  Chains.Represents UidIoEntry.uid uidHashIdx (UidIoEntry.of l) t

namespace Describes

theorem empty : Describes uidHashIdx .empty [] :=
  Chains.Represents.empty.congr fun _ => UidIoEntry.of_nil

theorem perm (h : Describes uidHashIdx t l) (hp : m.Perm l) : Describes uidHashIdx t m :=
  h.congr fun _ => UidIoEntry.of_perm hp

/-- **A lock section that counts** makes the table describe one call more. -/
theorem addLocked (h : Describes uidHashIdx t l) {a : UidAdd} {newEntry : Bool}
    (hadd : t.addLocked uidHashIdx a newEntry = some t') :
    Describes uidHashIdx t' (l ++ [a]) := by
  unfold Describes
  rw [UidIoEntry.of_snoc]
  unfold UidHash.addLocked at hadd
  split at hadd
  · rename_i chain hchain
    obtain ⟨e, he, hnew⟩ := h.update_of_some
      (fun e he => (UidIoEntry.uid_addKb e a).trans he) hchain
    rw [he, ← Option.some.inj hadd]
    exact hnew
  · rename_i hchain
    split at hadd
    · obtain ⟨hnone, hnew⟩ := h.update_of_none (UidIoEntry.uid_new a) hchain
      rw [hnone, ← Option.some.inj hadd]
      exact hnew
    · exact absurd hadd.symm (Option.some_ne_none t')

/-- **A table emptied into another** makes it describe the calls of both. -/
theorem drain (h : Describes uidHashIdx t l) (hu : Describes uidHashIdx u m) :
    Describes uidHashIdx (u.drain uidHashIdx t) (l ++ m) :=
  (Chains.Represents.absorb h hu UidIoEntry.uid_merge (List.nodup_finRange _)
    List.mem_finRange).congr fun _ => UidIoEntry.of_append

end Describes

/-- **A lock section with a new entry** counts. -/
theorem exists_addLocked (uidHashIdx : U32 → Fin (2 ^ 8)) (t : UidHash) (a : UidAdd) :
    ∃ bucket, t.addLocked uidHashIdx a true = some bucket := by
  unfold UidHash.addLocked
  split
  · exact ⟨_, rfl⟩
  · rw [if_pos rfl]
    exact ⟨_, rfl⟩

/-- The entries of a uid in a whole table. -/
def entriesOf (t : UidHash) (uid : U32) : List UidIoEntry :=
  t.all.filter fun e => e.uid = uid

/-- The KB a uid has read, by a table. -/
def readKb (t : UidHash) (uid : U32) : U32 := ((t.entriesOf uid).map UidIoEntry.readKb).sum

/-- The KB a uid has written, by a table. -/
def writeKb (t : UidHash) (uid : U32) : U32 := ((t.entriesOf uid).map UidIoEntry.writeKb).sum

namespace Describes

/-- **The entries of a uid** are at most one, and it is the sum of its calls. -/
theorem entriesOf_eq (h : Describes uidHashIdx t l) (uid : U32) :
    t.entriesOf uid = (UidIoEntry.of l uid).toList :=
  h.filter_flatMap (List.nodup_finRange _) (List.mem_finRange _)

theorem length_entriesOf_le (h : Describes uidHashIdx t l) (uid : U32) :
    (t.entriesOf uid).length ≤ 1 := by
  rw [h.entriesOf_eq]
  cases UidIoEntry.of l uid with
  | none => exact Nat.zero_le 1
  | some e => exact Nat.le_refl 1

/-- A field summed over the entries of a uid is the sum over its calls. -/
theorem sum_entriesOf (h : Describes uidHashIdx t l) {uid : U32} {field : UidIoEntry → U32}
    {share : UidAdd → U32} (hshare : ∀ a, a.uid ≠ uid → share a = 0)
    (hfield : ∀ e, UidIoEntry.of l uid = some e → field e = (l.map share).sum) :
    ((t.entriesOf uid).map field).sum = (l.map share).sum := by
  rw [h.entriesOf_eq]
  cases he : UidIoEntry.of l uid with
  | none => exact (UidIoEntry.sum_share_eq_zero hshare he).symm
  | some e => exact (add_zero _).trans (hfield e he)

theorem readKb_eq (h : Describes uidHashIdx t l) (uid : U32) :
    t.readKb uid = (l.map (UidAdd.readShare uid)).sum :=
  h.sum_entriesOf (fun _ => UidAdd.readShare_of_ne) fun e he => by
    rw [UidIoEntry.eq_of_of_eq_some he]

theorem writeKb_eq (h : Describes uidHashIdx t l) (uid : U32) :
    t.writeKb uid = (l.map (UidAdd.writeShare uid)).sum :=
  h.sum_entriesOf (fun _ => UidAdd.writeShare_of_ne) fun e he => by
    rw [UidIoEntry.eq_of_of_eq_some he]

end Describes

end UidHash

/-! ## The ledger of a run -/

/-- Where the KB of a call are. -/
inductive UidPlace (n : ℕ) where
  /-- In the table of a processor. -/
  | bucket (cpu : Fin n)
  /-- In a window, by its number. -/
  | window (k : ℕ)
deriving DecidableEq, Repr

/-- **The ledger of a run**: where the calls are that have been counted, and the
windows that have been freed. -/
structure UidLedger (n : ℕ) where
  placed : Placing (UidPlace n) UidAdd
  freed : List UidHash

namespace UidLedger

variable {n : ℕ}

/-- An event is written up. -/
def note (L : UidLedger n) : UidIoEvent n → UidLedger n
  | .called _ => L
  | .dropped _ => L
  | .counted cpu a => { L with placed := L.placed.put (.bucket cpu) a }
  | .freed w => { L with freed := L.freed ++ [w] }
  | .drained cpu => { L with placed := L.placed.pour (.bucket cpu) (.window L.freed.length) }

/-- The ledger of some events. -/
def ofEvents (h : List (UidIoEvent n)) : UidLedger n := h.foldl note ⟨[], []⟩

/-- The places of a ledger: the processors, the freed windows and the present one. -/
def places (L : UidLedger n) : List (UidPlace n) :=
  (List.range (L.freed.length + 1)).map .window ++ (List.finRange n).map .bucket

theorem ofEvents_snoc (h : List (UidIoEvent n)) (e : UidIoEvent n) :
    ofEvents (h ++ [e]) = (ofEvents h).note e := List.foldl_append

theorem bucket_mem_places (L : UidLedger n) (cpu : Fin n) : .bucket cpu ∈ L.places :=
  List.mem_append_right _ (List.mem_map_of_mem (List.mem_finRange cpu))

theorem window_mem_places {L : UidLedger n} {k : ℕ} :
    .window k ∈ L.places ↔ k ≤ L.freed.length := by
  unfold places
  rw [List.mem_append, List.mem_map, List.mem_map]
  constructor
  · rintro (⟨j, hj, hjk⟩ | ⟨cpu, -, hcpu⟩)
    · rw [UidPlace.window.injEq] at hjk
      rw [← hjk]
      exact Nat.le_of_lt_succ (List.mem_range.mp hj)
    · exact absurd hcpu (by simp)
  · intro hk
    exact Or.inl ⟨k, List.mem_range.mpr (Nat.lt_succ_of_le hk), rfl⟩

theorem nodup_places (L : UidLedger n) : L.places.Nodup := by
  refine List.Nodup.append ?_ ?_ ?_
  · exact List.nodup_range.map fun _ _ h => UidPlace.window.inj h
  · exact (List.nodup_finRange n).map fun _ _ h => UidPlace.bucket.inj h
  · intro p hp hq
    obtain ⟨k, -, rfl⟩ := List.mem_map.mp hp
    obtain ⟨cpu, -, hcpu⟩ := List.mem_map.mp hq
    exact absurd hcpu (by simp)

end UidLedger

namespace UidIoEvent

variable {n : ℕ}

/-- The call that begins. -/
def call? : UidIoEvent n → Option UidAdd
  | .called a => some a
  | _ => none

/-- The call that is counted. -/
def add? : UidIoEvent n → Option UidAdd
  | .counted _ a => some a
  | _ => none

/-- The call that is given up. -/
def drop? : UidIoEvent n → Option UidAdd
  | .dropped a => some a
  | _ => none

end UidIoEvent

namespace UidLedger

variable {n : ℕ}

/-- **A ledger has all calls that were counted**, each in one place of it. -/
theorem sound (h : List (UidIoEvent n)) :
    (ofEvents h).placed.items = h.filterMap UidIoEvent.add?
      ∧ ∀ e ∈ (ofEvents h).placed, e.1 ∈ (ofEvents h).places := by
  induction h using List.reverseRecOn with
  | nil => exact ⟨rfl, fun e he => absurd he List.not_mem_nil⟩
  | append_singleton h e ih =>
    rw [ofEvents_snoc, List.filterMap_append]
    generalize ofEvents h = L at ih
    obtain ⟨hitems, hplaces⟩ := ih
    cases e with
    | called a => exact ⟨hitems.trans (List.append_nil _).symm, hplaces⟩
    | dropped a => exact ⟨hitems.trans (List.append_nil _).symm, hplaces⟩
    | counted cpu a =>
      refine ⟨?_, fun e he => ?_⟩
      · rw [← hitems]
        exact Placing.items_put L.placed _ a
      · rcases List.mem_append.mp he with he | he
        · exact hplaces e he
        · rw [List.mem_singleton.mp he]
          exact L.bucket_mem_places cpu
    | freed w =>
      refine ⟨hitems.trans (List.append_nil _).symm, fun e he => ?_⟩
      obtain ⟨p, a⟩ := e
      cases p with
      | bucket cpu => exact bucket_mem_places _ cpu
      | window k =>
        refine window_mem_places.mpr ?_
        show k ≤ (L.freed ++ [w]).length
        rw [List.length_append]
        exact Nat.le_add_right_of_le (window_mem_places.mp (hplaces _ he))
    | drained cpu =>
      refine ⟨?_, fun e he => ?_⟩
      · rw [← hitems]
        exact (Placing.items_pour L.placed _ _).trans (List.append_nil _).symm
      · obtain ⟨⟨p, a⟩, hp, rfl⟩ := List.mem_map.mp he
        dsimp only
        split
        · exact window_mem_places.mpr (Nat.le_refl _)
        · exact hplaces _ hp

end UidLedger

/-! ## The tables follow the ledger -/

namespace UidIo

variable {n : ℕ} {uidHashIdx : U32 → Fin (2 ^ 8)}

/-- **What a step does** to the tables and the calls, whatever else it does. -/
inductive Does (uidHashIdx : U32 → Fin (2 ^ 8)) (s : UidIo n) :
    List (UidIoEvent n) → UidIo n → Prop
  | idle {s' : UidIo n} (hcurr : s'.uidIoCurr = s.uidIoCurr) (hprev : s'.uidIoPrev = s.uidIoPrev)
      (hcalls : s'.calls.map AddCall.args = s.calls.map AddCall.args) : Does uidHashIdx s [] s'
  | called (a : UidAdd) {s' : UidIo n} (hcurr : s'.uidIoCurr = s.uidIoCurr)
      (hprev : s'.uidIoPrev = s.uidIoPrev)
      (hcalls : s'.calls.map AddCall.args = s.calls.map AddCall.args ++ [a]) :
      Does uidHashIdx s [.called a] s'
  | counted (cpu : Fin n) (a : UidAdd) {s' : UidIo n} {newEntry : Bool} {bucket : UidHash}
      (hadd : (s.uidIoCurr cpu).addLocked uidHashIdx a newEntry = some bucket)
      (hcurr : s'.uidIoCurr = Function.update s.uidIoCurr cpu bucket)
      (hprev : s'.uidIoPrev = s.uidIoPrev)
      (hcalls : (s.calls.map AddCall.args).Perm (a :: s'.calls.map AddCall.args)) :
      Does uidHashIdx s [.counted cpu a] s'
  | dropped (a : UidAdd) {s' : UidIo n} (hcurr : s'.uidIoCurr = s.uidIoCurr)
      (hprev : s'.uidIoPrev = s.uidIoPrev)
      (hcalls : (s.calls.map AddCall.args).Perm (a :: s'.calls.map AddCall.args)) :
      Does uidHashIdx s [.dropped a] s'
  | freed {s' : UidIo n} (hcurr : s'.uidIoCurr = s.uidIoCurr) (hprev : s'.uidIoPrev = .empty)
      (hcalls : s'.calls = s.calls) : Does uidHashIdx s [.freed s.uidIoPrev] s'
  | drained (cpu : Fin n) {s' : UidIo n}
      (hcurr : s'.uidIoCurr = Function.update s.uidIoCurr cpu .empty)
      (hprev : s'.uidIoPrev = (s.uidIoCurr cpu).drain uidHashIdx s.uidIoPrev)
      (hcalls : s'.calls = s.calls) : Does uidHashIdx s [.drained cpu] s'

/-- A call that ends is taken off the calls. -/
theorem perm_eraseIdx {calls : List AddCall} {i : ℕ} {c : AddCall} (h : calls[i]? = some c) :
    (calls.map AddCall.args).Perm (c.args :: (calls.eraseIdx i).map AddCall.args) := by
  obtain ⟨hi, rfl⟩ := List.getElem?_eq_some_iff.mp h
  exact ((List.getElem_cons_eraseIdx_perm hi).map AddCall.args).symm

/-- A call that goes on is the call it was. -/
theorem args_set {calls : List AddCall} {i : ℕ} {c : AddCall} (h : calls[i]? = some c)
    (phase : AddPhase) :
    (calls.set i { c with phase := phase }).map AddCall.args = calls.map AddCall.args := by
  refine List.ext_getElem? fun j => ?_
  rw [List.getElem?_map, List.getElem?_map, List.getElem?_set]
  split
  · rename_i hij
    rw [← hij, if_pos (List.getElem?_eq_some_iff.mp h).1, h]
    rfl
  · rfl

/-- **Every step does one of these.** -/
theorem does_step (s : UidIo n) (op : UidIoOp n) :
    Does uidHashIdx s (s.step uidHashIdx op).2 (s.step uidHashIdx op).1 := by
  have hidle : Does uidHashIdx s [] s := .idle rfl rfl rfl
  cases op with
  | call a => exact .called a rfl rfl List.map_append
  | locked i cpu =>
    simp only [step]
    cases hc : s.calls[i]? with
    | none => exact hidle
    | some c =>
      dsimp only
      split
      · exact hidle
      · unfold addLocked
        split
        · rename_i bucket hadd
          exact .counted cpu c.args hadd rfl rfl (perm_eraseIdx hc)
        · exact .idle rfl rfl (args_set hc _)
  | zalloc i ok =>
    simp only [step]
    cases hc : s.calls[i]? with
    | none => exact hidle
    | some c =>
      dsimp only
      split
      · unfold zalloc
        cases ok with
        | true => exact .idle rfl rfl (args_set hc _)
        | false => exact .dropped c.args rfl rfl (perm_eraseIdx hc)
      · exact hidle
  | swapBegin =>
    simp only [step, swapBegin]
    split
    · exact hidle
    · exact .freed rfl rfl rfl
  | swapNext =>
    simp only [step, swapNext]
    split
    · exact hidle
    · exact .idle rfl rfl rfl
    · exact .drained _ rfl rfl rfl

/-- The windows of a run: those that have been freed, and the present one. -/
def windows (h : List (UidIoEvent n)) (s : UidIo n) : List UidHash :=
  (UidLedger.ofEvents h).freed ++ [s.uidIoPrev]

/-- **The tables follow the ledger**: each describes what is placed in it. -/
structure Follows (uidHashIdx : U32 → Fin (2 ^ 8)) (L : UidLedger n) (s : UidIo n) : Prop where
  curr : ∀ cpu, (s.uidIoCurr cpu).Describes uidHashIdx (L.placed.content (.bucket cpu))
  prev : s.uidIoPrev.Describes uidHashIdx (L.placed.content (.window L.freed.length))
  freed : ∀ k (w : UidHash), L.freed[k]? = some w →
    w.Describes uidHashIdx (L.placed.content (.window k))

namespace Follows

variable {L : UidLedger n} {s s' : UidIo n}

/-- Nothing has happened yet. -/
theorem zero : Follows uidHashIdx ⟨[], []⟩ (UidIo.zero : UidIo n) where
  curr _ := UidHash.Describes.empty
  prev := UidHash.Describes.empty
  freed _ _ hw := absurd hw (by simp)

theorem same (h : Follows uidHashIdx L s) (hcurr : s'.uidIoCurr = s.uidIoCurr)
    (hprev : s'.uidIoPrev = s.uidIoPrev) : Follows uidHashIdx L s' where
  curr cpu := hcurr ▸ h.curr cpu
  prev := hprev ▸ h.prev
  freed := h.freed

/-- A call is counted. -/
theorem counted (h : Follows uidHashIdx L s) {cpu : Fin n} {a : UidAdd} {newEntry : Bool}
    {bucket : UidHash} (hadd : (s.uidIoCurr cpu).addLocked uidHashIdx a newEntry = some bucket)
    (hcurr : s'.uidIoCurr = Function.update s.uidIoCurr cpu bucket)
    (hprev : s'.uidIoPrev = s.uidIoPrev) :
    Follows uidHashIdx (L.note (.counted cpu a)) s' := by
  have hwindow : ∀ k, (L.placed.put (.bucket cpu) a).content (.window k)
      = L.placed.content (.window k) :=
    fun k => Placing.content_put_of_ne L.placed (by simp) a
  refine ⟨fun c => ?_, ?_, fun k w hw => ?_⟩
  · rw [hcurr]
    by_cases hc : c = cpu
    · rw [hc, Function.update_self]
      exact ((h.curr cpu).addLocked hadd).perm (.of_eq (Placing.content_put_self _ _ _))
    · rw [Function.update_of_ne hc]
      exact (h.curr c).perm (.of_eq (Placing.content_put_of_ne _
        (fun hp => hc (UidPlace.bucket.inj hp).symm) a))
  · rw [hprev]
    exact h.prev.perm (.of_eq (hwindow _))
  · exact (h.freed k w hw).perm (.of_eq (hwindow k))

/-- Every window describes what is placed in it. -/
theorem windows (h : Follows uidHashIdx L s) {k : ℕ} {w : UidHash}
    (hw : (L.freed ++ [s.uidIoPrev])[k]? = some w) :
    w.Describes uidHashIdx (L.placed.content (.window k)) := by
  rcases Nat.lt_or_ge k L.freed.length with hk | hk
  · rw [List.getElem?_append_left hk] at hw
    exact h.freed k w hw
  · have hlen := (List.getElem?_eq_some_iff.mp hw).1
    rw [List.length_append, List.length_singleton] at hlen
    obtain rfl : k = L.freed.length := Nat.le_antisymm (Nat.le_of_lt_succ hlen) hk
    rw [List.getElem?_append_right hk, Nat.sub_self] at hw
    rw [← Option.some.inj hw]
    exact h.prev

/-- A window is freed, and a new one begins. -/
theorem freed_snoc (h : Follows uidHashIdx L s) (hplaces : ∀ e ∈ L.placed, e.1 ∈ L.places)
    (hcurr : s'.uidIoCurr = s.uidIoCurr) (hprev : s'.uidIoPrev = .empty) :
    Follows uidHashIdx (L.note (.freed s.uidIoPrev)) s' := by
  have hnew : L.placed.content (.window (L.freed ++ [s.uidIoPrev]).length) = [] := by
    refine Placing.content_eq_nil fun e he hp => ?_
    have hk := UidLedger.window_mem_places.mp (hp ▸ hplaces e he)
    rw [List.length_append, List.length_singleton] at hk
    exact Nat.not_succ_le_self _ hk
  refine ⟨fun c => hcurr ▸ h.curr c, ?_, fun k w hw => h.windows hw⟩
  rw [hprev]
  exact UidHash.Describes.empty.perm (.of_eq hnew)

/-- A processor is emptied into the present window. -/
theorem drained (h : Follows uidHashIdx L s) {cpu : Fin n}
    (hcurr : s'.uidIoCurr = Function.update s.uidIoCurr cpu .empty)
    (hprev : s'.uidIoPrev = (s.uidIoCurr cpu).drain uidHashIdx s.uidIoPrev) :
    Follows uidHashIdx (L.note (.drained cpu)) s' := by
  have hne : UidPlace.bucket cpu ≠ .window L.freed.length := by simp
  refine ⟨fun c => ?_, ?_, fun k w hw => ?_⟩
  · rw [hcurr]
    by_cases hc : c = cpu
    · rw [hc, Function.update_self]
      exact UidHash.Describes.empty.perm (.of_eq (Placing.content_pour_self _ hne))
    · rw [Function.update_of_ne hc]
      exact (h.curr c).perm (.of_eq (Placing.content_pour_of_ne _
        (fun hp => hc (UidPlace.bucket.inj hp)) (by simp)))
  · rw [hprev]
    exact (h.prev.drain (h.curr cpu)).perm (Placing.content_pour_into _ hne)
  · refine (h.freed k w hw).perm (.of_eq (Placing.content_pour_of_ne _ (by simp) ?_))
    intro hp
    replace hw : L.freed[k]? = some w := hw
    rw [UidPlace.window.inj hp, List.getElem?_eq_none (Nat.le_refl _)] at hw
    exact Option.some_ne_none w hw.symm

end Follows

/-! ## Calls come to their end -/

/-- **Where a call goes** in its next piece. -/
structure Proceeds (uidHashIdx : U32 → Fin (2 ^ 8)) (s : UidIo n) : Prop where
  /-- Its first lock section counts it, or sends it to allocate an entry, -/
  lookup : ∀ i a cpu, s.calls[i]? = some ⟨a, .lookup⟩ →
    ((s.step uidHashIdx (.locked i cpu)).2 = [.counted cpu a] ∧
        (s.step uidHashIdx (.locked i cpu)).1.calls = s.calls.eraseIdx i) ∨
      ((s.step uidHashIdx (.locked i cpu)).2 = [] ∧
        (s.step uidHashIdx (.locked i cpu)).1.calls = s.calls.set i ⟨a, .alloc⟩)
  /-- the allocation sends it to its second lock section, -/
  alloc : ∀ i a, s.calls[i]? = some ⟨a, .alloc⟩ →
    (s.step uidHashIdx (.zalloc i true)).2 = [] ∧
      (s.step uidHashIdx (.zalloc i true)).1.calls = s.calls.set i ⟨a, .retry⟩
  /-- and that one counts it, on whatever processor. -/
  retry : ∀ i a cpu, s.calls[i]? = some ⟨a, .retry⟩ →
    (s.step uidHashIdx (.locked i cpu)).2 = [.counted cpu a] ∧
      (s.step uidHashIdx (.locked i cpu)).1.calls = s.calls.eraseIdx i

/-- **Every call proceeds**, in every state. -/
theorem proceeds (s : UidIo n) : Proceeds uidHashIdx s where
  lookup i a cpu hc := by
    simp only [step, hc, reduceCtorEq, if_false, addLocked]
    split
    · exact Or.inl ⟨rfl, rfl⟩
    · exact Or.inr ⟨rfl, rfl⟩
  alloc i a hc := by
    simp only [step, hc, if_true, zalloc]
    exact ⟨trivial, trivial⟩
  retry i a cpu hc := by
    obtain ⟨bucket, hbucket⟩ := UidHash.exists_addLocked uidHashIdx (s.uidIoCurr cpu) a
    simp only [step, hc, reduceCtorEq, if_false, addLocked, decide_true, hbucket]
    exact ⟨trivial, trivial⟩

/-! ## Conservation -/

/-- **What is conserved**, by the events of a run and the state they have led to. -/
structure Conserved (uidHashIdx : U32 → Fin (2 ^ 8)) (h : List (UidIoEvent n)) (s : UidIo n) :
    Prop where
  /-- Every call has been counted, or has been given up for want of memory, or is
  under way. -/
  calls : (h.filterMap UidIoEvent.call?).Perm
    (h.filterMap UidIoEvent.add? ++ h.filterMap UidIoEvent.drop? ++ s.calls.map AddCall.args)
  /-- Every call that has been counted is in one place, -/
  placed : (UidLedger.ofEvents h).placed.items = h.filterMap UidIoEvent.add?
  /-- which is a processor or a window, -/
  places : ∀ e ∈ (UidLedger.ofEvents h).placed, e.1 ∈ (UidLedger.ofEvents h).places
  /-- and is in the entry of its uid there. -/
  follows : Follows uidHashIdx (UidLedger.ofEvents h) s
  readKb : ∀ uid, ((windows h s).map fun w => w.readKb uid).sum
      + ((List.finRange n).map fun cpu => (s.uidIoCurr cpu).readKb uid).sum
    = ((h.filterMap UidIoEvent.add?).map (UidAdd.readShare uid)).sum
  writeKb : ∀ uid, ((windows h s).map fun w => w.writeKb uid).sum
      + ((List.finRange n).map fun cpu => (s.uidIoCurr cpu).writeKb uid).sum
    = ((h.filterMap UidIoEvent.add?).map (UidAdd.writeShare uid)).sum
  /-- With what is given up and what is under way, this is what the calls add: -/
  readAdded : ∀ uid, ((windows h s).map fun w => w.readKb uid).sum
      + ((List.finRange n).map fun cpu => (s.uidIoCurr cpu).readKb uid).sum
      + ((h.filterMap UidIoEvent.drop? ++ s.calls.map AddCall.args).map
          (UidAdd.readShare uid)).sum
    = ((h.filterMap UidIoEvent.call?).map (UidAdd.readShare uid)).sum
  writeAdded : ∀ uid, ((windows h s).map fun w => w.writeKb uid).sum
      + ((List.finRange n).map fun cpu => (s.uidIoCurr cpu).writeKb uid).sum
      + ((h.filterMap UidIoEvent.drop? ++ s.calls.map AddCall.args).map
          (UidAdd.writeShare uid)).sum
    = ((h.filterMap UidIoEvent.call?).map (UidAdd.writeShare uid)).sum
  /-- all of it, once every call has had its memory and come to its end, -/
  readAll : h.filterMap UidIoEvent.drop? = [] → s.calls = [] → ∀ uid,
    ((windows h s).map fun w => w.readKb uid).sum
      + ((List.finRange n).map fun cpu => (s.uidIoCurr cpu).readKb uid).sum
    = ((h.filterMap UidIoEvent.call?).map (UidAdd.readShare uid)).sum
  writeAll : h.filterMap UidIoEvent.drop? = [] → s.calls = [] → ∀ uid,
    ((windows h s).map fun w => w.writeKb uid).sum
      + ((List.finRange n).map fun cpu => (s.uidIoCurr cpu).writeKb uid).sum
    = ((h.filterMap UidIoEvent.call?).map (UidAdd.writeShare uid)).sum
  /-- as every call does. -/
  proceeds : Proceeds uidHashIdx s
  prevSingle : ∀ uid, (s.uidIoPrev.entriesOf uid).length ≤ 1
  currSingle : ∀ cpu uid, ((s.uidIoCurr cpu).entriesOf uid).length ≤ 1

/-- Summing up tables that follow the ledger sums up all that is placed. -/
theorem Follows.sum_tables {L : UidLedger n} {s : UidIo n} (h : Follows uidHashIdx L s)
    (hplaces : ∀ e ∈ L.placed, e.1 ∈ L.places) {field : UidHash → U32} {share : UidAdd → U32}
    (hfield : ∀ t l, UidHash.Describes uidHashIdx t l → field t = (l.map share).sum) :
    ((L.freed ++ [s.uidIoPrev]).map field).sum
        + ((List.finRange n).map fun cpu => field (s.uidIoCurr cpu)).sum
      = (L.placed.items.map share).sum := by
  have hwindows : (L.freed ++ [s.uidIoPrev]).map field
      = (List.range (L.freed.length + 1)).map fun k =>
        ((L.placed.content (.window k)).map share).sum := by
    refine List.ext_getElem? fun k => ?_
    rw [List.getElem?_map, List.getElem?_map]
    rcases Nat.lt_or_ge k (L.freed.length + 1) with hk | hk
    · have hlen : k < (L.freed ++ [s.uidIoPrev]).length := by
        rwa [List.length_append, List.length_singleton]
      have hget := List.getElem?_eq_getElem hlen
      rw [hget, List.getElem?_range hk]
      exact congrArg some (hfield _ _ (h.windows hget))
    · rw [List.getElem?_eq_none (by rwa [List.length_append, List.length_singleton]),
        List.getElem?_eq_none (by rwa [List.length_range])]
      rfl
  have hbuckets : ((List.finRange n).map fun cpu => field (s.uidIoCurr cpu))
      = (List.finRange n).map fun cpu => ((L.placed.content (.bucket cpu)).map share).sum :=
    List.map_congr_left fun cpu _ => hfield _ _ (h.curr cpu)
  rw [hwindows, hbuckets, ← Placing.sum_content L.nodup_places hplaces share]
  unfold UidLedger.places
  rw [List.map_append, List.sum_append, List.map_map, List.map_map]
  rfl

/-- The part of the events that a run has to preserve. -/
def Kept (uidHashIdx : U32 → Fin (2 ^ 8)) (h : List (UidIoEvent n)) (s : UidIo n) : Prop :=
  (h.filterMap UidIoEvent.call?).Perm
      (h.filterMap UidIoEvent.add? ++ h.filterMap UidIoEvent.drop? ++ s.calls.map AddCall.args)
    ∧ Follows uidHashIdx (UidLedger.ofEvents h) s

section Sums

variable {h : List (UidIoEvent n)} {s : UidIo n} (hk : Kept uidHashIdx h s)
  {field : UidHash → U32} {share : UidAdd → U32}
  (hfield : ∀ t l, UidHash.Describes uidHashIdx t l → field t = (l.map share).sum)
include hk hfield

/-- The tables have what the counted calls add. -/
theorem Kept.sum_counted :
    ((windows h s).map field).sum + ((List.finRange n).map fun cpu => field (s.uidIoCurr cpu)).sum
      = ((h.filterMap UidIoEvent.add?).map share).sum := by
  rw [← (UidLedger.sound h).1]
  exact hk.2.sum_tables (UidLedger.sound h).2 hfield

/-- **The tables, and the calls that are given up or under way**, have what all calls add. -/
theorem Kept.sum_called :
    ((windows h s).map field).sum + ((List.finRange n).map fun cpu => field (s.uidIoCurr cpu)).sum
        + ((h.filterMap UidIoEvent.drop? ++ s.calls.map AddCall.args).map share).sum
      = ((h.filterMap UidIoEvent.call?).map share).sum := by
  rw [hk.sum_counted hfield, ← List.sum_append, ← List.map_append, ← List.append_assoc]
  exact (hk.1.map share).sum_eq.symm

/-- **The tables have what all calls add**, if none is given up and none under way. -/
theorem Kept.sum_all (hdrop : h.filterMap UidIoEvent.drop? = []) (hcalls : s.calls = []) :
    ((windows h s).map field).sum + ((List.finRange n).map fun cpu => field (s.uidIoCurr cpu)).sum
      = ((h.filterMap UidIoEvent.call?).map share).sum := by
  have hsum := hk.sum_called hfield
  rw [hdrop, hcalls] at hsum
  exact (add_zero _).symm.trans hsum

end Sums

theorem Kept.conserved {h : List (UidIoEvent n)} {s : UidIo n} (hk : Kept uidHashIdx h s) :
    Conserved uidHashIdx h s where
  calls := hk.1
  placed := (UidLedger.sound h).1
  places := (UidLedger.sound h).2
  follows := hk.2
  readKb uid := hk.sum_counted fun _ _ ht => ht.readKb_eq uid
  writeKb uid := hk.sum_counted fun _ _ ht => ht.writeKb_eq uid
  readAdded uid := hk.sum_called fun _ _ ht => ht.readKb_eq uid
  writeAdded uid := hk.sum_called fun _ _ ht => ht.writeKb_eq uid
  readAll hdrop hcalls uid := hk.sum_all (fun _ _ ht => ht.readKb_eq uid) hdrop hcalls
  writeAll hdrop hcalls uid := hk.sum_all (fun _ _ ht => ht.writeKb_eq uid) hdrop hcalls
  proceeds := proceeds s
  prevSingle := hk.2.prev.length_entriesOf_le
  currSingle cpu := (hk.2.curr cpu).length_entriesOf_le

/-- **Every step keeps it.** -/
theorem Kept.step {h : List (UidIoEvent n)} {s s' : UidIo n} {es : List (UidIoEvent n)}
    (hk : Kept uidHashIdx h s) (hs : Does uidHashIdx s es s') : Kept uidHashIdx (h ++ es) s' := by
  obtain ⟨hcalls, hfollows⟩ := hk
  unfold Kept
  rw [List.filterMap_append, List.filterMap_append, List.filterMap_append]
  -- an ended call goes from the calls under way to the counted or dropped ones
  have hmiddle : ∀ {a : UidAdd} {l₁ l₂ l₃ : List UidAdd},
      (l₁ ++ l₂ ++ a :: l₃).Perm (l₁ ++ [a] ++ l₂ ++ l₃) := by
    intro a l₁ l₂ l₃
    rw [List.append_assoc, List.append_assoc, List.append_assoc]
    exact List.perm_middle.append_left l₁
  cases hs with
  | idle hcurr hprev hargs =>
    refine ⟨?_, ?_⟩
    · rw [List.filterMap_nil, List.filterMap_nil, List.filterMap_nil, List.append_nil,
        List.append_nil, List.append_nil, hargs]
      exact hcalls
    · rw [List.append_nil]
      exact hfollows.same hcurr hprev
  | called a hcurr hprev hargs =>
    refine ⟨?_, ?_⟩
    · rw [hargs, ← List.append_assoc]
      show (_ ++ [a]).Perm (_ ++ [] ++ (_ ++ []) ++ _ ++ [a])
      rw [List.append_nil, List.append_nil]
      exact hcalls.append_right [a]
    · rw [UidLedger.ofEvents_snoc]
      exact hfollows.same hcurr hprev
  | counted cpu a hadd hcurr hprev hargs =>
    refine ⟨?_, ?_⟩
    · show (_ ++ []).Perm (_ ++ [a] ++ (_ ++ []) ++ _)
      rw [List.append_nil, List.append_nil]
      exact (hcalls.trans (hargs.append_left _)).trans hmiddle
    · rw [UidLedger.ofEvents_snoc]
      exact hfollows.counted hadd hcurr hprev
  | dropped a hcurr hprev hargs =>
    refine ⟨?_, ?_⟩
    · show (_ ++ []).Perm (_ ++ [] ++ (_ ++ [a]) ++ _)
      rw [List.append_nil, List.append_nil, ← List.append_assoc, List.append_assoc _ [a]]
      exact hcalls.trans (hargs.append_left _)
    · rw [UidLedger.ofEvents_snoc]
      exact hfollows.same hcurr hprev
  | freed hcurr hprev hargs =>
    refine ⟨?_, ?_⟩
    · rw [hargs]
      show (_ ++ []).Perm (_ ++ [] ++ (_ ++ []) ++ _)
      rw [List.append_nil, List.append_nil, List.append_nil]
      exact hcalls
    · rw [UidLedger.ofEvents_snoc]
      exact hfollows.freed_snoc (UidLedger.sound h).2 hcurr hprev
  | drained cpu hcurr hprev hargs =>
    refine ⟨?_, ?_⟩
    · rw [hargs]
      show (_ ++ []).Perm (_ ++ [] ++ (_ ++ []) ++ _)
      rw [List.append_nil, List.append_nil, List.append_nil]
      exact hcalls
    · rw [UidLedger.ofEvents_snoc]
      exact hfollows.drained hcurr hprev

/-- The events of a run from the start. -/
def events (uidHashIdx : U32 → Fin (2 ^ 8)) (ops : List (UidIoOp n)) : List (UidIoEvent n) :=
  (machine uidHashIdx n).chronicle (machine uidHashIdx n).out zero ops

/-- **Volume is conserved.** Whatever the calls, the processors they are on at each
of their lock sections, and the swaps between and across them, what is added is in the
tables once, and no call is kept from adding it. -/
theorem kb_conserved (uidHashIdx : U32 → Fin (2 ^ 8)) (n : ℕ) (ops : List (UidIoOp n)) :
    Conserved uidHashIdx (events uidHashIdx ops) ((machine uidHashIdx n).run zero ops) := by
  have hzero : Kept uidHashIdx [] (zero : UidIo n) := ⟨.refl [], .zero⟩
  exact (StepMachine.chronicle_invariant (M := machine uidHashIdx n) (I := Kept uidHashIdx)
    (fun h s op hk => hk.step (does_step s op)) hzero ops).conserved

/-- Two processors. The first call finds no entry on the one, and by its second lock
section is on the other, where there is an entry now. A third is counted on a processor
already emptied by a swap, and a fourth after the swap wraps what its uid has written. -/
theorem kb_conserved_of_migrated :
    let hash : U32 → Fin (2 ^ 8) := fun uid => Fin.ofNat (2 ^ 8) uid.val
    let ops : List (UidIoOp 2) :=
      [.call ⟨10, 5, .write⟩, .locked 0 0, .call ⟨10, 3, .read⟩, .locked 1 1, .zalloc 1 true,
        .locked 1 1, .zalloc 0 true, .locked 0 1, .swapBegin, .swapNext, .call ⟨266, 7, .fsync⟩,
        .locked 0 0, .zalloc 0 true, .locked 0 0, .swapNext, .swapNext,
        .call ⟨10, 2 ^ 32 - 1, .write⟩, .locked 0 0, .zalloc 0 true, .locked 0 1]
    let s := (machine hash 2).run zero ops
    ((windows (events hash ops) s).map fun w => (w.readKb 10, w.writeKb 10)) = [(0, 0), (3, 5)] ∧
      ((List.finRange 2).map fun cpu => ((s.uidIoCurr cpu).writeKb 266,
        (s.uidIoCurr cpu).writeKb 10)) = [(7, 0), (0, 2 ^ 32 - 1)] ∧
      ((windows (events hash ops) s).map fun w => w.writeKb 10).sum
          + ((List.finRange 2).map fun cpu => (s.uidIoCurr cpu).writeKb 10).sum
        = (([⟨10, 5, .write⟩, ⟨10, 3, .read⟩, ⟨266, 7, .fsync⟩, ⟨10, 2 ^ 32 - 1, .write⟩] :
            List UidAdd).map (UidAdd.writeShare 10)).sum := by
  intro hash ops s
  have hconserved : Conserved hash (events hash ops) s := kb_conserved hash 2 ops
  have hadded : (events hash ops).filterMap UidIoEvent.call? = [⟨10, 5, .write⟩,
      ⟨10, 3, .read⟩, ⟨266, 7, .fsync⟩, ⟨10, 2 ^ 32 - 1, .write⟩] := by decide +kernel
  have hdropped : (events hash ops).filterMap UidIoEvent.drop? = [] := by decide +kernel
  have hcalls : s.calls = [] := by decide +kernel
  refine ⟨by decide +kernel, by decide +kernel, ?_⟩
  rw [← hadded]
  exact hconserved.writeAll hdropped hcalls 10

end UidIo
