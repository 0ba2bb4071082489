import SmartIo.IoRemap

/-!
# Remaps and the lives of bios

An entry of the table of bio remaps should be of the present life of its bio, and a
record should have the remaps of the present lives of its bios. A bio that is in no
request has its entry, and a bio the module has looked up has none (`Kept.table`); so
what matters is the bios that the module has not looked up when their request ends.
There are two ways for a bio to be one: it was merged into a request whose record was
there already, or its request was issued directly at an address at which the record
of an old request was left. If such a bio has been remapped, its entry is still there
after its life, and is taken for one of the next.
-/

namespace RemapTables

/-- The entries that are left after the first of several bios, and after all of them. -/
theorem ite_mem_cons {bio : Bio} {bios : List Bio} (L L' : Bio → Option ℕ)
    (hself : L' bio = none) (hother : ∀ b, b ≠ bio → L' b = L b) (b : Bio) :
    (if b ∈ bios then none else L' b) = if b ∈ bio :: bios then none else L b := by
  by_cases hb : b ∈ bios
  · rw [if_pos hb, if_pos (List.mem_cons_of_mem bio hb)]
  · rw [if_neg hb]
    by_cases heq : b = bio
    · rw [heq, if_pos List.mem_cons_self]
      exact hself
    · rw [if_neg (fun hmem => (List.mem_cons.mp hmem).elim heq hb)]
      exact hother b heq

/-- **Looking up the bios of a request** takes their entries off the table, and
considers the devices in order. -/
theorem consumeBioRemaps_spec {bios : List Bio} (hbios : bios.Nodup) (t : RemapTables)
    (info : RemapInfo) :
    (t.consumeBioRemaps info bios).2
        = (bios.filterMap fun b => t.bioRemapHash.lookup b).foldl RemapInfo.consider info
      ∧ (t.consumeBioRemaps info bios).1.rqRemapHash = t.rqRemapHash
      ∧ ∀ b, (t.consumeBioRemaps info bios).1.bioRemapHash.lookup b
        = if b ∈ bios then none else t.bioRemapHash.lookup b := by
  induction bios generalizing t info with
  | nil => exact ⟨rfl, rfl, fun b => (if_neg List.not_mem_nil).symm⟩
  | cons bio bios ih =>
    obtain ⟨hbio, hbios⟩ := List.nodup_cons.mp hbios
    unfold consumeBioRemaps
    split
    · rename_i oldDev hlookup
      obtain ⟨hinfo, hrq, hrest⟩ := ih hbios
        { t with bioRemapHash := t.bioRemapHash.erase bio } (info.consider oldDev)
      refine ⟨?_, hrq, fun b => ?_⟩
      · rw [hinfo, List.filterMap_cons_some (f := fun b => t.bioRemapHash.lookup b) hlookup,
          List.foldl_cons]
        refine congrArg _ (List.filterMap_congr fun b hb => AList.lookup_erase_ne ?_)
        rintro rfl
        exact hbio hb
      · rw [hrest]
        exact ite_mem_cons (fun b => t.bioRemapHash.lookup b)
          (fun b => (t.bioRemapHash.erase bio).lookup b) (AList.lookup_erase bio t.bioRemapHash)
          (fun b hb => AList.lookup_erase_ne hb) b
    · rename_i hlookup
      obtain ⟨hinfo, hrq, hrest⟩ := ih hbios t info
      refine ⟨?_, hrq, fun b => ?_⟩
      · rw [hinfo, List.filterMap_cons_none (f := fun b => t.bioRemapHash.lookup b) hlookup]
      · rw [hrest]
        exact ite_mem_cons (fun b => t.bioRemapHash.lookup b) (fun b => t.bioRemapHash.lookup b)
          hlookup (fun _ _ => rfl) b

/-- Without request remaps only the bios are looked up. -/
theorem consumeRequestRemap_eq {t : RemapTables} (ht : t.rqRemapHash = ∅) (rq : Rq)
    (bios : List Bio) : t.consumeRequestRemap rq bios = t.consumeBioRemaps .zero bios := by
  unfold consumeRequestRemap consumeRqRemap
  rw [ht, AList.lookup_empty]

end RemapTables

namespace RemapTrace

/-! ## What is claimed of the remaps -/

/-- **Remaps are of present lives.** -/
structure Present (s : RemapTrace) : Prop where
  /-- An entry of the table is of the present life of its bio; when its request has
  completed, a bio has none. -/
  table : ∀ b oldDev, s.tables.bioRemapHash.lookup b = some oldDev → s.life b = some oldDev
  /-- The record of a request has the remap of the present lives of its bios. -/
  attached : ∀ rq, (s.blk.requests rq).isSome → s.remap rq = s.due rq

/-- **A step that does no harm.** A request completes only if the bios of it that the
module has not looked up were not remapped. A request is issued directly at an
address with a record only if the record has the remap of the request. -/
def Harmless (s : RemapTrace) : RemapOp → Prop
  | .complete rq _ _ => ∀ b ∈ s.unseen rq, s.life b = none
  | .issue rq c _ _ bios => s.Fresh rq bios → (s.blk.io.rqShards.lookup rq).isSome →
      s.remap rq = s.dueOf c.fio bios
  | _ => True

/-! ## Bios and requests -/

/-- **The table has the entries** of the bios that are still to be looked up, and the
bios of a request are those in it. -/
structure Kept (s : RemapTrace) : Prop where
  free : ∀ b, s.home b = none → s.tables.bioRemapHash.lookup b = s.life b
  waiting : ∀ rq, ∀ b ∈ s.unseen rq, s.tables.bioRemapHash.lookup b = s.life b
  seen : ∀ b rq, s.home b = some rq → b ∉ s.unseen rq → s.tables.bioRemapHash.lookup b = none
  rqTable : s.tables.rqRemapHash = ∅
  home : ∀ b rq, b ∈ s.bios rq ↔ s.home b = some rq
  nodup : ∀ rq, (s.bios rq).Nodup
  unseen : ∀ rq, ∀ b ∈ s.unseen rq, b ∈ s.bios rq

namespace Kept

variable {s : RemapTrace} {bio : Bio} {rq : Rq} {bios : List Bio}

theorem zero : Kept RemapTrace.zero where
  free b _ := AList.lookup_empty b
  waiting _ _ hb := absurd hb List.not_mem_nil
  seen b _ _ _ := AList.lookup_empty b
  rqTable := rfl
  home _ rq := ⟨fun h => absurd h List.not_mem_nil, fun h => absurd h.symm (Option.some_ne_none rq)⟩
  nodup _ := List.nodup_nil
  unseen _ _ hb := absurd hb List.not_mem_nil

/-- The block layer goes its own way. -/
theorem blk (h : Kept s) (t : BlkTrace) : Kept { s with blk := t } :=
  ⟨h.free, h.waiting, h.seen, h.rqTable, h.home, h.nodup, h.unseen⟩

/-- **A remap** makes the first entry of a life. -/
theorem bioRemap (h : Kept s) (hfree : s.home bio = none) (oldDev : ℕ) :
    Kept { s with
      tables := s.tables.recordBioRemap bio oldDev
      life := Function.update s.life bio (some ((s.life bio).getD oldDev)) } := by
  have hlookup : ∀ b, (s.tables.recordBioRemap bio oldDev).bioRemapHash.lookup b
      = Function.update (fun b => s.tables.bioRemapHash.lookup b) bio
        (some ((s.life bio).getD oldDev)) b := by
    intro b
    unfold RemapTables.recordBioRemap
    rw [← h.free bio hfree]
    split
    · rename_i d hd
      rw [hd, Option.getD_some, ← hd, Function.update_eq_self]
    · rename_i hnone
      rw [hnone, Option.getD_none]
      by_cases hb : b = bio
      · rw [hb, Function.update_self]
        exact AList.lookup_insert s.tables.bioRemapHash
      · rw [Function.update_of_ne hb]
        exact AList.lookup_insert_ne hb
  have hsame : ∀ b, s.tables.bioRemapHash.lookup b = s.life b →
      (s.tables.recordBioRemap bio oldDev).bioRemapHash.lookup b
        = Function.update s.life bio (some ((s.life bio).getD oldDev)) b := by
    intro b hb
    rw [hlookup]
    by_cases hbio : b = bio
    · rw [hbio, Function.update_self, Function.update_self]
    · rw [Function.update_of_ne hbio, Function.update_of_ne hbio]
      exact hb
  refine ⟨fun b hb => hsame b (h.free b hb), fun k b hb => hsame b (h.waiting k b hb),
    fun b k hb hunseen => ?_, ?_, h.home, h.nodup, h.unseen⟩
  · have hbio : b ≠ bio := by
      rintro rfl
      exact Option.some_ne_none k (hb.symm.trans hfree)
    refine (hlookup b).trans ?_
    rw [Function.update_of_ne hbio]
    exact h.seen b k hb hunseen
  · refine Eq.trans ?_ h.rqTable
    show (s.tables.recordBioRemap bio oldDev).rqRemapHash = s.tables.rqRemapHash
    unfold RemapTables.recordBioRemap
    split <;> rfl

/-- No bio is in a request that has none. -/
theorem home_ne (h : Kept s) (hempty : s.bios rq = []) (b : Bio) : s.home b ≠ some rq := by
  intro hb
  have hmem := (h.home b rq).mpr hb
  rw [hempty] at hmem
  exact List.not_mem_nil hmem

/-- **A request that starts** has none of its bios looked up. -/
theorem start (h : Kept s) (hempty : s.bios rq = []) (hbios : bios.Nodup)
    (hfree : ∀ b ∈ bios, s.home b = none) (fio : Bool) : Kept (s.start rq fio bios) := by
  have hhome : ∀ b, (s.start rq fio bios).home b = if b ∈ bios then some rq else s.home b :=
    fun _ => rfl
  refine ⟨fun b hb => ?_, fun k b hb => ?_, fun b k hb hunseen => ?_, h.rqTable, fun b k => ?_,
    fun k => ?_, fun k b hb => ?_⟩
  · rw [hhome] at hb
    split at hb
    · exact absurd hb (Option.some_ne_none rq)
    · exact h.free b hb
  · replace hb : b ∈ Function.update s.unseen rq bios k := hb
    by_cases hk : k = rq
    · rw [hk, Function.update_self] at hb
      exact h.free b (hfree b hb)
    · rw [Function.update_of_ne hk] at hb
      exact h.waiting k b hb
  · replace hunseen : b ∉ Function.update s.unseen rq bios k := hunseen
    rw [hhome] at hb
    split at hb
    · rename_i hmem
      rw [← Option.some.inj hb, Function.update_self] at hunseen
      exact absurd hmem hunseen
    · have hk : k ≠ rq := by
        rintro rfl
        exact h.home_ne hempty b hb
      rw [Function.update_of_ne hk] at hunseen
      exact h.seen b k hb hunseen
  · rw [hhome]
    show b ∈ Function.update s.bios rq bios k ↔ _
    by_cases hk : k = rq
    · rw [hk, Function.update_self]
      split
      · rename_i hb
        exact ⟨fun _ => rfl, fun _ => hb⟩
      · rename_i hb
        exact ⟨fun hmem => absurd hmem hb, fun hmem => absurd hmem (h.home_ne hempty b)⟩
    · rw [Function.update_of_ne hk, h.home]
      split
      · rename_i hb
        rw [hfree b hb]
        exact ⟨fun hn => absurd hn.symm (Option.some_ne_none k),
          fun he => absurd (Option.some.inj he).symm hk⟩
      · exact Iff.rfl
  · show (Function.update s.bios rq bios k).Nodup
    by_cases hk : k = rq
    · rw [hk, Function.update_self]
      exact hbios
    · rw [Function.update_of_ne hk]
      exact h.nodup k
  · replace hb : b ∈ Function.update s.unseen rq bios k := hb
    show b ∈ Function.update s.bios rq bios k
    by_cases hk : k = rq
    · rw [hk, Function.update_self] at hb ⊢
      exact hb
    · rw [Function.update_of_ne hk] at hb ⊢
      exact h.unseen k b hb

/-- **The bios of a request are looked up.** -/
theorem tell (h : Kept s) (hunseen : s.unseen rq = s.bios rq) (fio : Bool) :
    Kept (s.tell rq fio) ∧ (s.tell rq fio).remap
      = Function.update s.remap rq (s.dueOf fio (s.bios rq)) := by
  obtain ⟨hinfo, hrq, hlookup⟩ := RemapTables.consumeBioRemaps_spec (h.nodup rq) s.tables .zero
  rw [← RemapTables.consumeRequestRemap_eq h.rqTable rq] at hinfo hrq hlookup
  have hoff : ∀ b, s.home b ≠ some rq →
      (s.tables.consumeRequestRemap rq (s.bios rq)).1.bioRemapHash.lookup b
        = s.tables.bioRemapHash.lookup b := by
    intro b hb
    rw [hlookup, if_neg (mt (h.home b rq).mp hb)]
  refine ⟨⟨fun b hb => ?_, fun k b hb => ?_, fun b k hb hseen => ?_, hrq.trans h.rqTable, h.home,
    h.nodup, fun k b hb => ?_⟩, ?_⟩
  · exact (hoff b (fun hk => Option.some_ne_none rq (hk.symm.trans hb))).trans (h.free b hb)
  · replace hb : b ∈ Function.update s.unseen rq [] k := hb
    by_cases hk : k = rq
    · rw [hk, Function.update_self] at hb
      exact absurd hb List.not_mem_nil
    · rw [Function.update_of_ne hk] at hb
      refine (hoff b fun hhome => hk ?_).trans (h.waiting k b hb)
      exact Option.some.inj (((h.home b k).mp (h.unseen k b hb)).symm.trans hhome)
  · replace hseen : b ∉ Function.update s.unseen rq [] k := hseen
    by_cases hk : k = rq
    · rw [hk] at hb
      exact (hlookup b).trans (if_pos ((h.home b rq).mpr hb))
    · rw [Function.update_of_ne hk] at hseen
      refine (hoff b fun hhome => hk ?_).trans (h.seen b k hb hseen)
      exact Option.some.inj (hb.symm.trans hhome)
  · replace hb : b ∈ Function.update s.unseen rq [] k := hb
    by_cases hk : k = rq
    · rw [hk, Function.update_self] at hb
      exact absurd hb List.not_mem_nil
    · rw [Function.update_of_ne hk] at hb
      exact h.unseen k b hb
  · show Function.update s.remap rq
      ((s.tables.consumeRequestRemap rq (s.bios rq)).2.apply fio) = _
    rw [hinfo, List.filterMap_congr fun b hb => h.waiting rq b (by rwa [hunseen])]
    rfl

/-- **A bio joins a request**, and is not looked up. -/
theorem join (h : Kept s) (hfree : s.home bio = none) : Kept (s.join rq bio) := by
  have hnot : ∀ k, bio ∉ s.bios k := fun k hmem =>
    Option.some_ne_none k (((h.home bio k).mp hmem).symm.trans hfree)
  have hunseen : ∀ k b, b ∈ (s.join rq bio).unseen k → b ∈ s.unseen k ∨ b = bio ∧ k = rq := by
    intro k b hb
    replace hb : b ∈ Function.update s.unseen rq (s.unseen rq ++ [bio]) k := hb
    by_cases hk : k = rq
    · rw [hk, Function.update_self, List.mem_append, List.mem_singleton] at hb
      rw [hk]
      exact hb.imp_right fun he => ⟨he, rfl⟩
    · rw [Function.update_of_ne hk] at hb
      exact Or.inl hb
  have hhome : ∀ b, b ≠ bio → (s.join rq bio).home b = s.home b :=
    fun b hb => Function.update_of_ne hb _ _
  have hself : (s.join rq bio).home bio = some rq := Function.update_self _ _ _
  refine ⟨fun b hb => ?_, fun k b hb => ?_, fun b k hb hseen => ?_, h.rqTable, fun b k => ?_,
    fun k => ?_, fun k b hb => ?_⟩
  · have hbio : b ≠ bio := by
      rintro rfl
      exact Option.some_ne_none rq (hself.symm.trans hb)
    exact h.free b ((hhome b hbio).symm.trans hb)
  · rcases hunseen k b hb with hb | ⟨rfl, -⟩
    · exact h.waiting k b hb
    · exact h.free b hfree
  · replace hseen : b ∉ Function.update s.unseen rq (s.unseen rq ++ [bio]) k := hseen
    by_cases hbio : b = bio
    · rw [hbio] at hb hseen
      rw [← Option.some.inj (hself.symm.trans hb), Function.update_self] at hseen
      exact absurd (List.mem_append_right _ (List.mem_singleton_self bio)) hseen
    · refine h.seen b k ((hhome b hbio).symm.trans hb) fun hmem => hseen ?_
      by_cases hk : k = rq
      · rw [hk] at hmem
        rw [hk, Function.update_self]
        exact List.mem_append_left _ hmem
      · rwa [Function.update_of_ne hk]
  · show b ∈ Function.update s.bios rq (s.bios rq ++ [bio]) k ↔ _
    by_cases hbio : b = bio
    · rw [hbio, hself]
      by_cases hk : k = rq
      · rw [hk, Function.update_self]
        exact ⟨fun _ => rfl, fun _ => List.mem_append_right _ (List.mem_singleton_self bio)⟩
      · rw [Function.update_of_ne hk]
        exact ⟨fun hmem => absurd hmem (hnot k), fun he => absurd (Option.some.inj he).symm hk⟩
    · rw [hhome b hbio, ← h.home]
      by_cases hk : k = rq
      · rw [hk, Function.update_self, List.mem_append, List.mem_singleton]
        exact ⟨fun hmem => hmem.resolve_right hbio, Or.inl⟩
      · rw [Function.update_of_ne hk]
  · show (Function.update s.bios rq (s.bios rq ++ [bio]) k).Nodup
    by_cases hk : k = rq
    · rw [hk, Function.update_self]
      exact List.nodup_append.mpr ⟨h.nodup rq, List.nodup_singleton bio, fun x hx y hy hxy =>
        hnot rq (List.mem_singleton.mp hy ▸ hxy ▸ hx)⟩
    · rw [Function.update_of_ne hk]
      exact h.nodup k
  · show b ∈ Function.update s.bios rq (s.bios rq ++ [bio]) k
    rcases hunseen k b hb with hb | ⟨rfl, rfl⟩
    · by_cases hk : k = rq
      · rw [hk, Function.update_self]
        exact List.mem_append_left _ (h.unseen rq b (hk ▸ hb))
      · rw [Function.update_of_ne hk]
        exact h.unseen k b hb
    · rw [Function.update_self]
      exact List.mem_append_right _ (List.mem_singleton_self b)

/-- **A request ends** well if no bio of it was remapped that was not looked up. -/
theorem finish (h : Kept s) (hseen : ∀ b ∈ s.unseen rq, s.life b = none) : Kept (s.finish rq) := by
  have hhome : ∀ b, (s.finish rq).home b = if s.home b = some rq then none else s.home b :=
    fun _ => rfl
  have hlife : ∀ b, (s.finish rq).life b = if s.home b = some rq then none else s.life b :=
    fun _ => rfl
  have hunseen : ∀ k b, b ∈ (s.finish rq).unseen k → b ∈ s.unseen k ∧ k ≠ rq := by
    intro k b hb
    replace hb : b ∈ Function.update s.unseen rq [] k := hb
    by_cases hk : k = rq
    · rw [hk, Function.update_self] at hb
      exact absurd hb List.not_mem_nil
    · rw [Function.update_of_ne hk] at hb
      exact ⟨hb, hk⟩
  have hother : ∀ {b k}, s.home b = some k → k ≠ rq → (s.finish rq).life b = s.life b := by
    intro b k hb hk
    rw [hlife, if_neg fun he => hk (Option.some.inj (hb.symm.trans he))]
  refine ⟨fun b hb => ?_, fun k b hb => ?_, fun b k hb hmem => ?_, h.rqTable, fun b k => ?_,
    fun k => ?_, fun k b hb => ?_⟩
  · rw [hlife]
    split
    · rename_i hrq
      by_cases hmem : b ∈ s.unseen rq
      · exact (h.waiting rq b hmem).trans (hseen b hmem)
      · exact h.seen b rq hrq hmem
    · rename_i hrq
      rw [hhome, if_neg hrq] at hb
      exact h.free b hb
  · obtain ⟨hb, hk⟩ := hunseen k b hb
    rw [hother ((h.home b k).mp (h.unseen k b hb)) hk]
    exact h.waiting k b hb
  · rw [hhome] at hb
    split at hb
    · exact absurd hb.symm (Option.some_ne_none k)
    · rename_i hrq
      have hk : k ≠ rq := by
        rintro rfl
        exact hrq hb
      refine h.seen b k hb fun hin => hmem ?_
      show b ∈ Function.update s.unseen rq [] k
      rwa [Function.update_of_ne hk]
  · rw [hhome]
    show b ∈ Function.update s.bios rq [] k ↔ _
    by_cases hk : k = rq
    · rw [hk, Function.update_self]
      refine ⟨fun hmem => absurd hmem List.not_mem_nil, fun he => ?_⟩
      split at he
      · exact absurd he.symm (Option.some_ne_none rq)
      · rename_i hrq
        exact absurd he hrq
    · rw [Function.update_of_ne hk, h.home]
      split
      · rename_i hrq
        rw [hrq]
        exact ⟨fun he => absurd (Option.some.inj he).symm hk,
          fun he => absurd he.symm (Option.some_ne_none k)⟩
      · exact Iff.rfl
  · show (Function.update s.bios rq [] k).Nodup
    by_cases hk : k = rq
    · rw [hk, Function.update_self]
      exact List.nodup_nil
    · rw [Function.update_of_ne hk]
      exact h.nodup k
  · obtain ⟨hb, hk⟩ := hunseen k b hb
    show b ∈ Function.update s.bios rq [] k
    rw [Function.update_of_ne hk]
    exact h.unseen k b hb

end Kept

end RemapTrace

/-! ## Requests and records -/

namespace BlkTrace

variable {s t : BlkTrace} {rq : Rq}

/-- **An event of a request** leaves the other requests and records alone. -/
def SameBut (rq : Rq) (s t : BlkTrace) : Prop :=
  ∀ k, k ≠ rq → t.requests k = s.requests k ∧ t.io.rqShards.lookup k = s.io.rqShards.lookup k

/-- A request that lives, and has a record. -/
def Recorded (s : BlkTrace) (rq : Rq) : Prop :=
  (s.requests rq).isSome ∧ (s.io.rqShards.lookup rq).isSome

/-- One request and one record are stored. -/
theorem sameBut_store {io : IoSemantics} {rec : RqRecord} {r : Option BlkRequest}
    (hio : io.rqShards = s.io.rqShards.insert rq rec) (due : List BucketAdd) :
    SameBut rq s ⟨io, Function.update s.requests rq r, due⟩ := by
  intro k hk
  refine ⟨Function.update_of_ne hk _ _, ?_⟩
  show io.rqShards.lookup k = _
  rw [hio, AList.lookup_insert_ne hk]

theorem recorded_store {io : IoSemantics} {rec : RqRecord} {r : BlkRequest}
    (hio : io.rqShards = s.io.rqShards.insert rq rec) (due : List BucketAdd) :
    Recorded ⟨io, Function.update s.requests rq (some r), due⟩ rq := by
  refine ⟨?_, ?_⟩
  · show (Function.update s.requests rq (some r) rq).isSome
    rw [Function.update_self]
    rfl
  · show (io.rqShards.lookup rq).isSome
    rw [hio, AList.lookup_insert]
    rfl

theorem insert_recorded (s : BlkTrace) (rq : Rq) (nowNs : ℕ) (raw : Bool) (bytes : Fin (2 ^ 32))
    (ioOp : SmartIoOp) :
    SameBut rq s (s.event ⟨rq, nowNs, raw, .insert bytes ioOp⟩)
      ∧ Recorded (s.event ⟨rq, nowNs, raw, .insert bytes ioOp⟩) rq :=
  ⟨sameBut_store rfl _, recorded_store rfl _⟩

theorem issue_recorded (s : BlkTrace) (rq : Rq) (nowNs : ℕ) (raw : Bool) (bytes : Fin (2 ^ 32))
    (ioOp : SmartIoOp) :
    SameBut rq s (s.event ⟨rq, nowNs, raw, .issue bytes ioOp⟩)
      ∧ Recorded (s.event ⟨rq, nowNs, raw, .issue bytes ioOp⟩) rq := by
  have hstore : ∀ v, ∃ rec, (s.io.recordIssue rq v).rqShards = s.io.rqShards.insert rq rec := by
    intro v
    unfold IoSemantics.recordIssue
    split
    · exact ⟨_, rfl⟩
    · exact ⟨_, rfl⟩
  obtain ⟨rec, hrec⟩ := hstore
    (((s.requests rq).getD (.start false bytes nowNs ioOp)).view nowNs raw)
  exact ⟨sameBut_store hrec _, recorded_store hrec _⟩

theorem bioMerge_recorded {r : BlkRequest} (hr : s.requests rq = some r) {bytes : ℕ}
    (hfits : r.queued = true ∧ r.size + bytes < 2 ^ 32)
    (hrec : (s.io.rqShards.lookup rq).isSome) :
    SameBut rq s (s.step (.bioMerge rq bytes)) ∧ Recorded (s.step (.bioMerge rq bytes)) rq := by
  unfold step
  dsimp only
  rw [hr]
  dsimp only
  rw [if_pos hfits]
  refine ⟨fun k hk => ⟨Function.update_of_ne hk _ _, rfl⟩, ?_, hrec⟩
  dsimp only
  rw [Function.update_self]
  rfl

theorem complete_ends {r : BlkRequest} (hr : s.requests rq = some r) (nowNs : ℕ) (raw : Bool) :
    SameBut rq s (s.event ⟨rq, nowNs, raw, .complete r.dataLen⟩)
      ∧ (s.event ⟨rq, nowNs, raw, .complete r.dataLen⟩).requests rq = none := by
  rw [event_last hr]
  refine ⟨fun k hk => ⟨Function.update_of_ne hk _ _, ?_⟩, Function.update_self _ _ _⟩
  dsimp only
  cases hrec : s.io.rqShards.lookup rq with
  | none =>
    unfold IoSemantics.recordComplete
    rw [hrec]
  | some rec =>
    rw [IoSemantics.recordComplete_of_some _ _ hrec]
    dsimp only
    split
    · rw [AList.lookup_erase_ne hk, AList.lookup_insert_ne hk]
    · rw [AList.lookup_insert_ne hk]

end BlkTrace

/-! ## Steps and runs -/

namespace RemapTrace

section DirectIssue

variable {s : RemapTrace} {rq : Rq} {bios : List Bio} {c : Submitter} {bytes : Fin (2 ^ 32)}
  {ioOp : SmartIoOp}

/-- A direct issue at an address with no record looks the bios up. -/
theorem recordIssue_start_of_none (hlookup : s.blk.io.rqShards.lookup rq = none) :
    (s.start rq c.fio bios).recordIssue rq c bytes ioOp
      = { (s.start rq c.fio bios).tell rq c.fio with
          blk := s.blk.event ⟨rq, c.nowNs, c.raw, .issue bytes ioOp⟩ } := by
  unfold recordIssue
  rw [show (s.start rq c.fio bios).blk.io.rqShards.lookup rq = none from hlookup]
  rfl

/-- A direct issue at an address with a record does not. -/
theorem recordIssue_start_of_some {rec : RqRecord}
    (hlookup : s.blk.io.rqShards.lookup rq = some rec) :
    (s.start rq c.fio bios).recordIssue rq c bytes ioOp
      = { s.start rq c.fio bios with
          blk := s.blk.event ⟨rq, c.nowNs, c.raw, .issue bytes ioOp⟩ } := by
  unfold recordIssue
  rw [show (s.start rq c.fio bios).blk.io.rqShards.lookup rq = some rec from hlookup]
  rfl

end DirectIssue

/-- **The remaps follow the bios**: the table is kept, a request that lives has a
record with the remap it should have, and no bio is in one that does not. -/
structure Follows (s : RemapTrace) : Prop where
  kept : Kept s
  record : ∀ rq, (s.blk.requests rq).isSome → (s.blk.io.rqShards.lookup rq).isSome
  empty : ∀ rq, s.blk.requests rq = none → s.bios rq = []
  attached : ∀ rq, (s.blk.requests rq).isSome → s.remap rq = s.due rq

namespace Follows

variable {s t : RemapTrace} {rq : Rq} {bios : List Bio}

theorem zero : Follows RemapTrace.zero where
  kept := .zero
  record _ h := absurd h Bool.false_ne_true
  empty _ _ := rfl
  attached _ _ := rfl

/-- What follows is of present lives. -/
theorem present (h : Follows s) : Present s where
  table b oldDev hb := by
    cases hhome : s.home b with
    | none => exact (h.kept.free b hhome).symm.trans hb
    | some rq =>
      by_cases hmem : b ∈ s.unseen rq
      · exact (h.kept.waiting rq b hmem).symm.trans hb
      · rw [h.kept.seen b rq hhome hmem] at hb
        exact absurd hb.symm (Option.some_ne_none oldDev)
  attached := h.attached

/-- **A step about one request** that lives after it. -/
theorem serve (h : Follows s) (hkept : Kept t) (hblk : BlkTrace.SameBut rq s.blk t.blk)
    (hrec : t.blk.Recorded rq) (hbios : ∀ k, k ≠ rq → t.bios k = s.bios k)
    (hattached : t.remap rq = t.due rq) (hremap : ∀ k, k ≠ rq → t.remap k = s.remap k)
    (hdue : ∀ k, k ≠ rq → t.due k = s.due k) : Follows t where
  kept := hkept
  record k hk := by
    by_cases hkrq : k = rq
    · rw [hkrq]
      exact hrec.2
    · rw [(hblk k hkrq).2]
      rw [(hblk k hkrq).1] at hk
      exact h.record k hk
  empty k hk := by
    by_cases hkrq : k = rq
    · rw [hkrq] at hk
      have hsome := hrec.1
      rw [hk] at hsome
      exact absurd hsome Bool.false_ne_true
    · rw [hbios k hkrq]
      rw [(hblk k hkrq).1] at hk
      exact h.empty k hk
  attached k hk := by
    by_cases hkrq : k = rq
    · rw [hkrq]
      exact hattached
    · rw [(hblk k hkrq).1] at hk
      rw [hremap k hkrq, hdue k hkrq]
      exact h.attached k hk

/-- **A new request that is told** has the remap it should have. -/
theorem told (h : Follows s) (hfresh : s.Fresh rq bios) (fio : Bool) :
    Kept ((s.start rq fio bios).tell rq fio)
      ∧ ((s.start rq fio bios).tell rq fio).remap
        = Function.update s.remap rq (s.dueOf fio bios) := by
  have hstart := h.kept.start (h.empty rq hfresh.1) hfresh.2.1 hfresh.2.2 fio
  have hbios : (s.start rq fio bios).bios rq = bios := Function.update_self _ _ _
  have hunseen : (s.start rq fio bios).unseen rq = bios := Function.update_self _ _ _
  have htell := hstart.tell (hunseen.trans hbios.symm) fio
  rw [hbios] at htell
  exact htell

theorem insert (h : Follows s) (hfresh : s.Fresh rq bios) (c : Submitter)
    (bytes : Fin (2 ^ 32)) (ioOp : SmartIoOp) :
    Follows ((s.start rq c.fio bios).recordInsert rq c bytes ioOp) := by
  obtain ⟨hkept, hremap⟩ := h.told hfresh c.fio
  obtain ⟨hblk, hrec⟩ := s.blk.insert_recorded rq c.nowNs c.raw bytes ioOp
  refine h.serve (hkept.blk _) hblk hrec (fun k hk => Function.update_of_ne hk _ _) ?_
    (fun k hk => ?_) (fun k hk => Function.update_of_ne hk _ _)
  · show ((s.start rq c.fio bios).tell rq c.fio).remap rq
      = Function.update s.due rq (s.dueOf c.fio bios) rq
    rw [hremap, Function.update_self, Function.update_self]
  · show ((s.start rq c.fio bios).tell rq c.fio).remap k = s.remap k
    rw [hremap, Function.update_of_ne hk]

/-- **A direct issue** without a record, or with one that has the right remap. -/
theorem direct (h : Follows s) (hfresh : s.Fresh rq bios) (c : Submitter)
    (bytes : Fin (2 ^ 32)) (ioOp : SmartIoOp)
    (hleft : (s.blk.io.rqShards.lookup rq).isSome → s.remap rq = s.dueOf c.fio bios) :
    Follows ((s.start rq c.fio bios).recordIssue rq c bytes ioOp) := by
  obtain ⟨hblk, hrec⟩ := s.blk.issue_recorded rq c.nowNs c.raw bytes ioOp
  have hdue : ∀ k, k ≠ rq → Function.update s.due rq (s.dueOf c.fio bios) k = s.due k :=
    fun k hk => Function.update_of_ne hk _ _
  have hbios : ∀ k, k ≠ rq → Function.update s.bios rq bios k = s.bios k :=
    fun k hk => Function.update_of_ne hk _ _
  cases hlookup : s.blk.io.rqShards.lookup rq with
  | none =>
    obtain ⟨hkept, hremap⟩ := h.told hfresh c.fio
    rw [recordIssue_start_of_none hlookup]
    refine h.serve (hkept.blk _) hblk hrec hbios ?_ (fun k hk => ?_) hdue
    · show ((s.start rq c.fio bios).tell rq c.fio).remap rq
        = Function.update s.due rq (s.dueOf c.fio bios) rq
      rw [hremap, Function.update_self, Function.update_self]
    · show ((s.start rq c.fio bios).tell rq c.fio).remap k = s.remap k
      rw [hremap, Function.update_of_ne hk]
  | some rec =>
    rw [recordIssue_start_of_some hlookup]
    have hstart := h.kept.start (h.empty rq hfresh.1) hfresh.2.1 hfresh.2.2 c.fio
    refine h.serve (hstart.blk _) hblk hrec hbios ?_ (fun k hk => rfl) hdue
    show s.remap rq = Function.update s.due rq (s.dueOf c.fio bios) rq
    rw [Function.update_self]
    exact hleft (by rw [hlookup]; rfl)

/-- The issue of a request that lives finds its record. -/
theorem issue (h : Follows s) (hlives : (s.blk.requests rq).isSome) (c : Submitter)
    (bytes : Fin (2 ^ 32)) (ioOp : SmartIoOp) : Follows (s.recordIssue rq c bytes ioOp) := by
  obtain ⟨hblk, hrec⟩ := s.blk.issue_recorded rq c.nowNs c.raw bytes ioOp
  obtain ⟨rec, hlookup⟩ := Option.isSome_iff_exists.mp (h.record rq hlives)
  have hstep : s.recordIssue rq c bytes ioOp
      = { s with blk := s.blk.event ⟨rq, c.nowNs, c.raw, .issue bytes ioOp⟩ } := by
    unfold recordIssue
    rw [hlookup]
  rw [hstep]
  exact h.serve (h.kept.blk _) hblk hrec (fun _ _ => rfl) (h.attached rq hlives) (fun _ _ => rfl)
    fun _ _ => rfl

/-- **A merge** leaves the record as it is. -/
theorem merge (h : Follows s) {r : BlkRequest} (hr : s.blk.requests rq = some r) {bytes : ℕ}
    (hfits : r.queued = true ∧ r.size + bytes < 2 ^ 32) {bio : Bio} (hfree : s.home bio = none) :
    Follows { s.join rq bio with blk := s.blk.step (.bioMerge rq bytes) } := by
  have hlives : (s.blk.requests rq).isSome := by
    rw [hr]
    rfl
  obtain ⟨hblk, hrec⟩ := BlkTrace.bioMerge_recorded hr hfits (h.record rq hlives)
  exact h.serve ((h.kept.join hfree).blk _) hblk hrec (fun k hk => Function.update_of_ne hk _ _)
    (h.attached rq hlives) (fun _ _ => rfl) fun _ _ => rfl

/-- **A completion** of a request with no remapped bio that was not looked up. -/
theorem complete (h : Follows s) {r : BlkRequest} (hr : s.blk.requests rq = some r)
    (hseen : ∀ b ∈ s.unseen rq, s.life b = none) (nowNs : ℕ) (raw : Bool) :
    Follows { s.finish rq with blk := s.blk.event ⟨rq, nowNs, raw, .complete r.dataLen⟩ } := by
  obtain ⟨hblk, hends⟩ := BlkTrace.complete_ends hr nowNs raw
  have hother : ∀ k, ((s.blk.event ⟨rq, nowNs, raw, .complete r.dataLen⟩).requests k).isSome →
      k ≠ rq := by
    rintro k hk rfl
    rw [hends] at hk
    exact Bool.false_ne_true hk
  refine ⟨(h.kept.finish hseen).blk _, fun k hk => ?_, fun k hk => ?_, fun k hk => ?_⟩
  · rw [(hblk k (hother k hk)).2]
    rw [(hblk k (hother k hk)).1] at hk
    exact h.record k hk
  · show Function.update s.bios rq [] k = []
    by_cases hkrq : k = rq
    · rw [hkrq, Function.update_self]
    · rw [Function.update_of_ne hkrq]
      rw [(hblk k hkrq).1] at hk
      exact h.empty k hk
  · rw [(hblk k (hother k hk)).1] at hk
    exact h.attached k hk

/-- **A step that does no harm** keeps the remaps with the bios. -/
theorem step (h : Follows s) {op : RemapOp} (hop : Harmless s op) : Follows (s.step op) := by
  cases op with
  | bioRemap bio oldDev =>
    unfold RemapTrace.step
    dsimp only
    split
    · exact h
    · next hfree => exact ⟨h.kept.bioRemap hfree oldDev, h.record, h.empty, h.attached⟩
  | insert rq c bytes ioOp bios =>
    unfold RemapTrace.step
    dsimp only
    split
    · next hfresh => exact h.insert hfresh c bytes ioOp
    · exact h
  | merge rq bytes bio =>
    unfold RemapTrace.step
    dsimp only
    split
    · exact h
    · next r hr =>
      split
      · next hfits => exact h.merge hr ⟨hfits.1, hfits.2.1⟩ hfits.2.2
      · exact h
  | issue rq c bytes ioOp bios =>
    unfold RemapTrace.step
    dsimp only
    split
    · next r hr => exact h.issue (Option.isSome_of_eq_some hr) c bytes ioOp
    · split
      · next hfresh => exact h.direct hfresh c bytes ioOp (hop hfresh)
      · exact h
  | complete rq nowNs raw =>
    unfold RemapTrace.step
    dsimp only
    split
    · exact h
    · next r hr => exact h.complete hr hop nowNs raw

/-- **A completion that leaves an entry** of a bio behind. -/
theorem not_present_complete (h : Follows s) {nowNs : ℕ} {raw : Bool}
    (hop : ¬ Harmless s (.complete rq nowNs raw)) :
    ¬ Present (s.step (.complete rq nowNs raw)) := by
  intro hpresent
  obtain ⟨b, hmem, hlife⟩ : ∃ b ∈ s.unseen rq, s.life b ≠ none := by
    by_contra hno
    push Not at hno
    exact hop hno
  obtain ⟨oldDev, hdev⟩ := Option.ne_none_iff_exists'.mp hlife
  have hhome : s.home b = some rq := (h.kept.home b rq).mp (h.kept.unseen rq b hmem)
  have hentry : s.tables.bioRemapHash.lookup b = some oldDev :=
    (h.kept.waiting rq b hmem).trans hdev
  cases hr : s.blk.requests rq with
  | none =>
    have hbios := h.kept.unseen rq b hmem
    rw [h.empty rq hr] at hbios
    exact List.not_mem_nil hbios
  | some r =>
    have hstep : s.step (.complete rq nowNs raw)
        = { s.finish rq with blk := s.blk.event ⟨rq, nowNs, raw, .complete r.dataLen⟩ } := by
      unfold RemapTrace.step
      dsimp only
      rw [hr]
    rw [hstep] at hpresent
    have hgone : (if s.home b = some rq then none else s.life b) = some oldDev :=
      hpresent.table b oldDev hentry
    rw [if_pos hhome] at hgone
    exact Option.some_ne_none oldDev hgone.symm

/-- **A direct issue that takes an old record** with the remap of another request. -/
theorem not_present_issue {c : Submitter} {bytes : Fin (2 ^ 32)} {ioOp : SmartIoOp}
    (hop : ¬ Harmless s (.issue rq c bytes ioOp bios)) :
    ¬ Present (s.step (.issue rq c bytes ioOp bios)) := by
  intro hpresent
  obtain ⟨hfresh, hleft, hne⟩ : s.Fresh rq bios ∧ (s.blk.io.rqShards.lookup rq).isSome
      ∧ s.remap rq ≠ s.dueOf c.fio bios := by
    by_contra hno
    exact hop fun hfresh hleft => by_contra fun hne => hno ⟨hfresh, hleft, hne⟩
  obtain ⟨rec, hlookup⟩ := Option.isSome_iff_exists.mp hleft
  have hstep : s.step (.issue rq c bytes ioOp bios)
      = { s.start rq c.fio bios with
          blk := s.blk.event ⟨rq, c.nowNs, c.raw, .issue bytes ioOp⟩ } := by
    unfold RemapTrace.step
    dsimp only
    rw [hfresh.1]
    dsimp only
    rw [if_pos hfresh, recordIssue_start_of_some hlookup]
  rw [hstep] at hpresent
  have hattached : s.remap rq = Function.update s.due rq (s.dueOf c.fio bios) rq :=
    hpresent.attached rq (s.blk.issue_recorded rq c.nowNs c.raw bytes ioOp).2.1
  rw [Function.update_self] at hattached
  exact hne hattached

/-- **Any other step** breaks it. -/
theorem not_present (h : Follows s) {op : RemapOp} (hop : ¬ Harmless s op) :
    ¬ Present (s.step op) := by
  cases op with
  | bioRemap bio oldDev => exact absurd trivial hop
  | insert rq c bytes ioOp bios => exact absurd trivial hop
  | merge rq bytes bio => exact absurd trivial hop
  | issue rq c bytes ioOp bios => exact not_present_issue hop
  | complete rq nowNs raw => exact h.not_present_complete hop

end Follows

/-- **Remaps are of present lives** in all states of exactly the runs whose steps do
no harm. -/
theorem present_iff_harmless (ops : List RemapOp) :
    machine.StatesMeet Present zero ops ↔ machine.StepsMeet Harmless zero ops :=
  machine.statesMeet_iff_stepsMeet (I := Follows) (fun _ h => h.present)
    (fun _ _ h hop => h.step hop) (fun _ _ h hop => h.not_present hop) .zero ops

/-- A bio remapped from device 7 is merged into a request, and the request completes.
The bio is then remapped from device 9, for another request, which gets device 7. -/
theorem merged_bio_outlived : ¬ machine.StatesMeet Present zero
    [.bioRemap 100 7, .insert 1 ⟨10, false, false⟩ 4096 .write [50], .merge 1 4096 100,
      .complete 1 20 false, .bioRemap 100 9, .insert 2 ⟨30, false, false⟩ 4096 .write [100]] := by
  rintro ⟨-, -, -, -, -, -, hpresent⟩
  exact absurd (hpresent.attached 2 (by decide)) (by decide)

end RemapTrace
