import SmartIo.KernelInt
import SmartIo.SlotHistory
import SmartIo.StepMachine

/-!
# Hot inodes

The module keeps the inodes that a foreground application has read from its packages of
late, with the kinds of the files. There are 64 slots, and an entry that has not been
marked for half a second has expired. A mark refreshes the entry of its inode; else it
takes the first slot that is empty or has expired, or the oldest if there is none. A
lookup empties the slot of an entry that has expired.

So the table is what its marks make of it (`HotInodes.table_exact`): an inode is found
as it was last marked for as long as that is not half a second ago and fewer than 64
others have been marked since.
-/

/-- `enum smart_io_file_ext`. -/
inductive SmartIoFileExt where
  | unknown
  | db
  | so
  | dex
  | apk
  | log
  | vdex
  | odex
deriving DecidableEq, Repr

/-- `struct hot_inode_entry`. -/
structure HotInodeEntry where
  inodeHash : ℕ
  lastSeenNs : ℕ
  fileExt : SmartIoFileExt
deriving DecidableEq, Repr

/-- `HOT_INODE_MAX`. -/
abbrev hotInodeMax : ℕ := 64

/-- `HOT_INODE_TTL_NS`. -/
def hotInodeTtlNs : ℕ := 500 * 1000 * 1000

/-- `hot_inodes`. -/
abbrev HotInodes := Fin hotInodeMax → HotInodeEntry

/-- A call of `smart_io_mark_hot_inode` or `smart_io_hot_inode_ext`. -/
inductive HotInodeOp where
  | mark (inodeHash : ℕ) (fileExt : SmartIoFileExt)
  | ext (inodeHash : ℕ)
deriving DecidableEq, Repr

/-- A call, at a time. -/
structure HotInodeCall where
  nowNs : U64
  op : HotInodeOp
deriving DecidableEq, Repr

namespace HotInodeEntry

/-- An empty slot. -/
def zero : HotInodeEntry := ⟨0, 0, .unknown⟩

/-- `hot_inode_entry_expired`. -/
def expired (e : HotInodeEntry) (nowNs : ℕ) : Bool :=
  e.inodeHash == 0 || (e.lastSeenNs ≤ nowNs && hotInodeTtlNs ≤ nowNs - e.lastSeenNs)

/-- What `smart_io_mark_hot_inode` accepts. -/
def Accepted (inodeHash : ℕ) (fileExt : SmartIoFileExt) : Prop :=
  inodeHash ≠ 0 ∧ (fileExt = .apk ∨ fileExt = .odex ∨ fileExt = .vdex)

instance (inodeHash : ℕ) (fileExt : SmartIoFileExt) : Decidable (Accepted inodeHash fileExt) :=
  inferInstanceAs (Decidable (_ ∧ _))

/-- A slot that is not empty. -/
def Used (e : HotInodeEntry) : Prop := e.inodeHash ≠ 0

/-- An entry that has not expired. -/
def Live (nowNs : ℕ) (e : HotInodeEntry) : Prop := nowNs - e.lastSeenNs < hotInodeTtlNs

end HotInodeEntry

namespace HotInodes

/-- The module just loaded. -/
def zero : HotInodes := fun _ => .zero

/-- The pass of `smart_io_mark_hot_inode` over the slots. -/
def scan (s : HotInodes) (inodeHash nowNs : ℕ) : SlotScan (Fin hotInodeMax) :=
  (SlotScan.start u64Max).scan (·.inodeHash == inodeHash) (·.expired nowNs)
    HotInodeEntry.lastSeenNs s (List.finRange hotInodeMax)

/-- `smart_io_mark_hot_inode`. -/
def markHotInode (s : HotInodes) (inodeHash : ℕ) (fileExt : SmartIoFileExt) (nowNs : ℕ) :
    HotInodes :=
  if HotInodeEntry.Accepted inodeHash fileExt then
    let r := s.scan inodeHash nowNs
    match r.hit with
    | some i => Function.update s i { s i with lastSeenNs := nowNs, fileExt := fileExt }
    -- `oldest_idx` is 0 to start with
    | none => Function.update s ((r.free.or r.oldest).getD 0) ⟨inodeHash, nowNs, fileExt⟩
  else s

/-- `smart_io_hot_inode_ext`. -/
def hotInodeExt (s : HotInodes) (inodeHash nowNs : ℕ) : HotInodes × SmartIoFileExt :=
  if inodeHash = 0 then (s, .unknown)
  else
    match (List.finRange hotInodeMax).find? fun i => (s i).inodeHash == inodeHash with
    | none => (s, .unknown)
    | some i =>
      if !(s i).expired nowNs then (s, (s i).fileExt)
      else (Function.update s i .zero, .unknown)

/-- A call, and what it returns. -/
def call (s : HotInodes) (c : HotInodeCall) : HotInodes × Option SmartIoFileExt :=
  match c.op with
  | .mark inodeHash fileExt => (s.markHotInode inodeHash fileExt c.nowNs, none)
  | .ext inodeHash =>
    let p := s.hotInodeExt inodeHash c.nowNs
    (p.1, some p.2)

/-- The machine. -/
def machine : StepMachine HotInodes HotInodeCall (Option SmartIoFileExt) where
  init s := s = zero
  step := call

/-! ## What is claimed of the table -/

/-- The entry that an accepted mark makes. -/
def mark? (c : HotInodeCall) : Option HotInodeEntry :=
  match c.op with
  | .mark inodeHash fileExt =>
    if HotInodeEntry.Accepted inodeHash fileExt then some ⟨inodeHash, c.nowNs, fileExt⟩ else none
  | .ext _ => none

/-- **The accepted marks**, newest first. -/
def marks (calls : List HotInodeCall) : List HotInodeEntry := calls.reverse.filterMap mark?

/-- The calls of a run come at strictly increasing times. -/
def InOrder (calls : List HotInodeCall) : Prop :=
  (calls.map HotInodeCall.nowNs).Pairwise (· < ·)

instance (calls : List HotInodeCall) : Decidable (InOrder calls) :=
  inferInstanceAs (Decidable (List.Pairwise _ _))

/-- No two slots that are not empty hold the same inode. -/
def Unique (s : HotInodes) : Prop := UniqueKeys HotInodeEntry.inodeHash HotInodeEntry.Used s

/-! ## Calls -/

/-- **What the slots hold**: the newest marks, all from before the present. -/
structure Holds (s : HotInodes) (l : List HotInodeEntry) (nowNs : ℕ) : Prop where
  keeps : Keeps HotInodeEntry.inodeHash HotInodeEntry.lastSeenNs HotInodeEntry.Used
    (HotInodeEntry.Live nowNs) s l
  past : ∀ m ∈ l, m.lastSeenNs < nowNs

variable {s : HotInodes} {l : List HotInodeEntry} {nowNs laterNs inodeHash : ℕ}
  {fileExt : SmartIoFileExt} {i : Fin hotInodeMax}

theorem holds_zero (nowNs : ℕ) : Holds zero [] nowNs :=
  ⟨.nil fun _ hused => hused rfl, fun _ hm => absurd hm List.not_mem_nil⟩

/-- Time goes by. -/
theorem Holds.mono (h : Holds s l nowNs) (hle : nowNs ≤ laterNs) : Holds s l laterNs where
  keeps := h.keeps.mono fun _ hlive =>
    Nat.lt_of_le_of_lt (Nat.sub_le_sub_right hle _) hlive
  past m hm := Nat.lt_of_lt_of_le (h.past m hm) hle

/-- An entry is of the past. -/
theorem Holds.slot_lt (h : Holds s l nowNs) (hi : (s i).Used) : (s i).lastSeenNs < nowNs :=
  h.past _ (mem_of_newest (h.keeps.latest i hi))

/-- **An entry has expired** if it is empty, or not live. -/
theorem Holds.expired_iff (h : Holds s l nowNs) (i : Fin hotInodeMax) :
    (s i).expired nowNs = true ↔ ¬ ((s i).Used ∧ (s i).Live nowNs) := by
  unfold HotInodeEntry.expired
  rw [Bool.or_eq_true, beq_iff_eq, Bool.and_eq_true, decide_eq_true_eq, decide_eq_true_eq]
  constructor
  · rintro (hzero | ⟨-, hold⟩) ⟨hused, hlive⟩
    · exact hused hzero
    · exact absurd hlive (Nat.not_lt.mpr hold)
  · intro hno
    by_cases hzero : (s i).inodeHash = 0
    · exact Or.inl hzero
    · exact Or.inr ⟨(h.slot_lt hzero).le, Nat.not_lt.mp fun hlive => hno ⟨hzero, hlive⟩⟩

/-- An entry that has not expired is in use. -/
theorem Holds.used_of_not_expired (h : Holds s l nowNs) (hi : (s i).expired nowNs = false) :
    (s i).Used := by
  by_contra hno
  have hexpired := (h.expired_iff i).mpr fun hand => hno hand.1
  rw [hi] at hexpired
  exact Bool.false_ne_true hexpired

/-- **A mark** goes where a new entry goes. -/
theorem Holds.markHotInode_eq (h : Holds s l nowNs) (hnow : nowNs ≤ u64Max)
    (haccepted : HotInodeEntry.Accepted inodeHash fileExt) :
    ∃ i, s.markHotInode inodeHash fileExt nowNs
        = Function.update s i ⟨inodeHash, nowNs, fileExt⟩
      ∧ Takes HotInodeEntry.inodeHash HotInodeEntry.lastSeenNs HotInodeEntry.Used
        (HotInodeEntry.Live nowNs) s inodeHash i := by
  unfold markHotInode
  rw [if_pos haccepted]
  dsimp only
  have hmiss : (∀ j, ((s j).inodeHash == inodeHash) = false) →
      ∀ j, (s j).Used → (s j).inodeHash ≠ inodeHash :=
    fun hno j _ => ne_of_beq_false (hno j)
  have houtcome : SlotScan.Outcome (·.inodeHash == inodeHash) (·.expired nowNs)
      HotInodeEntry.lastSeenNs s u64Max (s.scan inodeHash nowNs) :=
    SlotScan.outcome (fun i => List.mem_finRange i) u64Max
  cases houtcome with
  | hit i hhit hslot =>
    have hkey : (s i).inodeHash = inodeHash := eq_of_beq hslot
    refine ⟨i, ?_, .same (hkey.trans_ne haccepted.1) hkey⟩
    rw [hhit, ← hkey]
  | free i hhit hfree hno hslot =>
    refine ⟨i, ?_, .free (hmiss hno) ((h.expired_iff i).mp hslot)⟩
    rw [hhit, hfree]
    rfl
  | oldest i hhit hfree holdest hno hfull hmin =>
    refine ⟨i, ?_, .oldest (hmiss hno) (fun j => h.used_of_not_expired (hfull j)) hmin⟩
    rw [hhit, hfree, holdest]
    rfl
  | none hhit hfree holdest hno hfull hlimit =>
    -- every entry is of the past, which is below the limit
    have hpast := h.slot_lt (h.used_of_not_expired (hfull 0))
    have hlate := hlimit 0
    omega

/-- **A lookup** leaves the marks that are live, and returns that of its inode. -/
theorem Holds.hotInodeExt (h : Holds s l nowNs) (inodeHash : ℕ) :
    Holds (s.hotInodeExt inodeHash nowNs).1 l nowNs
      ∧ (∀ m, newest HotInodeEntry.inodeHash inodeHash l = some m → m.Live nowNs →
          (newerKeys HotInodeEntry.inodeHash inodeHash l).card < hotInodeMax →
          (s.hotInodeExt inodeHash nowNs).2 = m.fileExt)
      ∧ ((∀ m ∈ l, m.inodeHash = inodeHash → ¬ m.Live nowNs) →
          (s.hotInodeExt inodeHash nowNs).2 = .unknown) := by
  unfold HotInodes.hotInodeExt
  split
  · next hzero =>
    refine ⟨h, fun m hm => ?_, fun _ => rfl⟩
    exact absurd ((key_of_newest hm).trans hzero) (h.keeps.entries m (mem_of_newest hm))
  · next hne =>
    split
    · next hfind =>
      have hno : ∀ i, (s i).inodeHash ≠ inodeHash := by
        intro i hi
        have hnone := List.find?_eq_none.mp hfind i (List.mem_finRange i)
        exact hnone (beq_iff_eq.mpr hi)
      refine ⟨h, fun m hm hlive hcard => ?_, fun _ => rfl⟩
      obtain ⟨i, rfl⟩ := h.keeps.kept inodeHash m hm hlive
        (by rwa [Fintype.card_fin])
      exact absurd (key_of_newest hm) (hno i)
    · next i hfind =>
      have hkey : (s i).inodeHash = inodeHash :=
        eq_of_beq (List.find?_some (p := fun i => (s i).inodeHash == inodeHash) hfind)
      have hused : (s i).Used := hkey.trans_ne hne
      have hlatest := h.keeps.latest i hused
      rw [hkey] at hlatest
      split
      · next hlive =>
        rw [Bool.not_eq_true'] at hlive
        refine ⟨h, fun m hm _ _ => ?_, fun hall => ?_⟩
        · rw [Option.some.inj (hlatest.symm.trans hm)]
        · have hexpired := (h.expired_iff i).mpr fun hand =>
            hall _ (mem_of_newest hlatest) hkey hand.2
          rw [hlive] at hexpired
          exact absurd hexpired Bool.false_ne_true
      · next hexpired =>
        rw [Bool.not_eq_true', Bool.not_eq_false] at hexpired
        have hdead : ¬ (s i).Live nowNs := fun hlive =>
          (h.expired_iff i).mp hexpired ⟨hused, hlive⟩
        refine ⟨⟨h.keeps.clear hdead fun hzero => hzero rfl, h.past⟩, fun m hm hlive _ => ?_,
          fun _ => rfl⟩
        rw [← Option.some.inj (hlatest.symm.trans hm)] at hlive
        exact absurd hlive hdead

/-- **A call.** -/
theorem Holds.call {c : HotInodeCall} (h : Holds s l c.nowNs) (hlater : (c.nowNs : ℕ) < laterNs) :
    Holds (s.call c).1 ((mark? c).toList ++ l) laterNs := by
  unfold HotInodes.call mark?
  cases c.op with
  | mark inodeHash fileExt =>
    dsimp only
    by_cases haccepted : HotInodeEntry.Accepted inodeHash fileExt
    · obtain ⟨i, hmark, htakes⟩ := h.markHotInode_eq (Nat.le_sub_one_of_lt c.nowNs.isLt) haccepted
      rw [if_pos haccepted, hmark]
      have hused : HotInodeEntry.Used ⟨inodeHash, c.nowNs, fileExt⟩ := haccepted.1
      have hput := h.keeps.put hused h.past htakes
      refine ⟨(hput.mono fun _ hlive => ?_), fun m hm => ?_⟩
      · exact Nat.lt_of_le_of_lt (Nat.sub_le_sub_right hlater.le _) hlive
      · rcases List.mem_cons.mp hm with rfl | hm
        · exact hlater
        · exact (h.past m hm).trans hlater
    · rw [if_neg haccepted]
      unfold markHotInode
      rw [if_neg haccepted]
      exact h.mono hlater.le
  | ext inodeHash => exact (h.hotInodeExt inodeHash).1.mono hlater.le

/-! ## Runs -/

/-- **A run** holds its newest marks. -/
theorem run_holds {calls : List HotInodeCall} (h : InOrder calls)
    (hnow : ∀ c ∈ calls, (c.nowNs : ℕ) < nowNs) :
    Holds (machine.run zero calls) (marks calls) nowNs := by
  induction calls using List.reverseRecOn generalizing nowNs with
  | nil => exact holds_zero nowNs
  | append_singleton calls c ih =>
    unfold InOrder at h
    rw [List.map_append, List.map_singleton, List.pairwise_append] at h
    have hbefore : ∀ d ∈ calls, (d.nowNs : ℕ) < c.nowNs := fun d hd =>
      h.2.2 d.nowNs (List.mem_map_of_mem hd) c.nowNs (List.mem_singleton_self _)
    have hmarks : marks (calls ++ [c]) = (mark? c).toList ++ marks calls := by
      unfold marks
      rw [List.reverse_append, List.reverse_singleton, List.filterMap_append]
      rfl
    rw [machine.run_append, hmarks]
    exact (ih h.1 hbefore).call (hnow c (List.mem_append_right _ (List.mem_singleton_self c)))

/-- **The table is exact**: no inode is in two slots; a lookup returns what its inode
was last marked as, if that is not half a second ago and fewer than 64 others have been
marked since; and it returns nothing if the inode was not marked for half a second. -/
theorem table_exact {calls : List HotInodeCall} (h : InOrder calls) :
    let s := machine.run zero calls
    Unique s
      ∧ ∀ nowNs : U64, (∀ c ∈ calls, c.nowNs < nowNs) → ∀ inodeHash,
        (∀ m, newest HotInodeEntry.inodeHash inodeHash (marks calls) = some m →
          (nowNs : ℕ) - m.lastSeenNs < hotInodeTtlNs →
          (newerKeys HotInodeEntry.inodeHash inodeHash (marks calls)).card < 64 →
          (s.hotInodeExt inodeHash nowNs).2 = m.fileExt)
        ∧ ((∀ m ∈ marks calls, m.inodeHash = inodeHash →
            hotInodeTtlNs ≤ (nowNs : ℕ) - m.lastSeenNs) →
          (s.hotInodeExt inodeHash nowNs).2 = .unknown) := by
  refine ⟨(run_holds h fun c _ => c.nowNs.isLt).keeps.unique, fun nowNs hnow inodeHash => ?_⟩
  obtain ⟨-, hmarked, hold⟩ := (run_holds h hnow).hotInodeExt inodeHash
  refine ⟨fun m hm hlive hcard => hmarked m hm hlive hcard, fun hall => hold fun m hm hkey => ?_⟩
  exact Nat.not_lt.mpr (hall m hm hkey)

/-- An inode is marked twice, and another in between. -/
theorem table_exact_remarked :
    ((machine.run zero [⟨10, .mark 7 .apk⟩, ⟨20, .mark 8 .vdex⟩,
      ⟨30, .mark 7 .odex⟩]).hotInodeExt 7 40).2 = .odex := by
  refine ((table_exact ?_).2 40 ?_ 7).1 ⟨7, 30, .odex⟩ ?_ ?_ ?_
  · decide
  · decide
  · decide
  · decide
  · decide

end HotInodes
