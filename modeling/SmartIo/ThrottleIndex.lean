import SmartIo.ThrottleCards
import SmartIo.ThrottleIssues

/-!
# The in-flight index

`smart_io_throttle_contiguous_locked` asks whether a request in the device touches
a waiting one, and `smart_io_throttle_seq_match` whether one ends where a request
starts. Neither walks the records: each looks a sector up in a hash table, whose
keys were computed from fields of the records when these were issued. The tables
answer like a full scan (`IndexExact`) because of two things. A record is in them
exactly while it is counted as issued and reads or writes
(`IssueView.Indexed.exact`), since whatever clears the one takes it off the other
in the same section. And the fields a key was computed from stay, since
`smart_io_throttle_update_request` leaves an issued record alone.

The one field that a second issue of an issued request writes is its operation. So
the tables are exact as long as a request keeps its operation while it is issued
(`OpKept`).
-/

open ThrottleCtx

/-! ## The second lookup -/

/-- `smart_io_throttle_scan_budget`. -/
def ThrottleCtx.scanBudget (c : ThrottleCtx) : ℕ := max 1 c.metaCapacity

/-- `smart_io_throttle_seq_match`. -/
def Throttle.seqMatch (w : Throttle) (rq : RqAddr) : Bool :=
  let r := w.rqs rq
  if rqClassOf w.ctx.metaPool r ≠ .background then false
  else if !(r.op = .read || r.op = .write) then false
  else
    (w.ctx.inflight.scan hashMin (inflightKey r.op r.pos) w.ctx.scanBudget (fun m =>
      decide ((w.ctx.metaPool m).op = r.op)
        && decide ((w.ctx.metaPool m).endSector = r.pos))).isSome

/-! ## Exact tables -/

namespace IssueView

variable {V : IssueView} {m : MetaId}

/-- A record is on the index. -/
def indexed (V : IssueView) (m : MetaId) : Prop := (V.card m).inflightIndexed = true

/-- The key of the end of a record. -/
def endKey (V : IssueView) (m : MetaId) : ℕ := inflightKey (V.card m).op (V.card m).endSector

/-- The key of its start. -/
def startKey (V : IssueView) (m : MetaId) : ℕ :=
  inflightKey (V.card m).op (V.card m).startSector

/-- **The tables file the indexed records**, under the ends and the starts that
their records have now. -/
structure Filed (V : IssueView) : Prop where
  byEnd : V.inflight.Files V.indexed V.endKey
  byStart : V.inflightStart.Files V.indexed V.startKey

/-- **The index is exact**: the records on it are those that are issued and read
or write. -/
structure Indexed (V : IssueView) : Prop extends Filed V where
  exact : ∀ m, V.indexed m ↔ m ∈ V.live ∧ (V.card m).issuedAccounted = true
    ∧ (V.card m).op.readOrWrite = true

/-- The request of an issued record has the operation it was issued with. -/
def Agrees (ops : RqAddr → ReqOp) (V : IssueView) : Prop :=
  ∀ m ∈ V.live, (V.card m).issuedAccounted = true →
    ∀ rq, (V.card m).rq = some rq → ops rq = (V.card m).op

/-- A card that is rewritten with the same keys is filed where it was. -/
theorem Filed.setCard (h : V.Filed) {k : IssueCard}
    (hindexed : k.inflightIndexed = (V.card m).inflightIndexed)
    (hkeys : k.inflightIndexed = true → k.op = (V.card m).op
      ∧ k.startSector = (V.card m).startSector ∧ k.endSector = (V.card m).endSector) :
    (V.setCard m k).Filed := by
  have hset : ∀ n, (V.setCard m k).indexed n ↔ V.indexed n := by
    intro n
    unfold indexed
    by_cases hn : n = m
    · rw [hn, setCard_card, hindexed]
    · rw [setCard_card_of_ne V hn]
  have hkey : ∀ n, V.indexed n → ((V.setCard m k).card n).op = (V.card n).op
      ∧ ((V.setCard m k).card n).startSector = (V.card n).startSector
      ∧ ((V.setCard m k).card n).endSector = (V.card n).endSector := by
    intro n hn
    by_cases hnm : n = m
    · subst hnm
      rw [setCard_card]
      exact hkeys (hindexed.trans hn)
    · rw [setCard_card_of_ne V hnm]
      exact ⟨rfl, rfl, rfl⟩
  refine ⟨h.byEnd.congr hset fun n hn => ?_, h.byStart.congr hset fun n hn => ?_⟩
  · show inflightKey _ _ = inflightKey _ _
    rw [(hkey n hn).1, (hkey n hn).2.2]
  · show inflightKey _ _ = inflightKey _ _
    rw [(hkey n hn).1, (hkey n hn).2.1]

/-- A record that is taken off the index is in neither table. -/
theorem Filed.unlink (h : V.Filed) (m : MetaId) : (V.unlink m).Filed := by
  have hcard : ∀ n, n ≠ m → (V.unlink m).card n = V.card n := by
    intro n hn
    rw [V.unlink_card, Function.update_of_ne hn]
  have hset : ∀ n, (V.unlink m).indexed n ↔ V.indexed n ∧ n ≠ m := by
    intro n
    unfold indexed
    by_cases hn : n = m
    · rw [V.unlink_card, hn, Function.update_self]
      exact iff_of_false Bool.false_ne_true fun hne => hne.2 rfl
    · rw [hcard n hn]
      exact (and_iff_left hn).symm
  by_cases hm : (V.card m).inflightIndexed = true
  · have hunlink : V.unlink m = { V with
        inflight := V.inflight.del m
        inflightStart := V.inflightStart.del m }.setCard m
          { V.card m with inflightIndexed := false } := by
      unfold IssueView.unlink
      rw [if_neg (by rw [hm]; exact Bool.false_ne_true)]
    have hinflight : (V.unlink m).inflight = V.inflight.del m := by rw [hunlink]; rfl
    have hstart : (V.unlink m).inflightStart = V.inflightStart.del m := by rw [hunlink]; rfl
    refine ⟨?_, ?_⟩
    · rw [hinflight]
      refine h.byEnd.del hset fun n hn => ?_
      unfold endKey
      rw [hcard n ((hset n).mp hn).2]
    · rw [hstart]
      refine h.byStart.del hset fun n hn => ?_
      unfold startKey
      rw [hcard n ((hset n).mp hn).2]
  · have hunlink : V.unlink m = V := by
      unfold IssueView.unlink
      rw [if_pos (by simpa using hm)]
    rw [hunlink]
    exact h

/-- A record that is put on the index is filed under the place of its request. -/
theorem Filed.link (h : V.Filed) (hm : ¬ V.indexed m) (hop : (V.card m).op.readOrWrite = true)
    (r : Request) : (V.link m r).Filed ∧ (V.link m r).card = Function.update V.card m
      { V.card m with
        startSector := r.pos
        endSector := r.pos + r.sectors
        inflightIndexed := true } := by
  have hlink : V.link m r = { V with
      inflight := V.inflight.add (inflightKey (V.card m).op (r.pos + r.sectors)) m
      inflightStart := V.inflightStart.add (inflightKey (V.card m).op r.pos) m }.setCard m
        { V.card m with
          startSector := r.pos
          endSector := r.pos + r.sectors
          inflightIndexed := true } := by
    unfold IssueView.link
    rw [if_neg (by rw [hop, Bool.not_true, Bool.or_false]; exact hm)]
  have hself : (V.link m r).card m = { V.card m with
      startSector := r.pos
      endSector := r.pos + r.sectors
      inflightIndexed := true } := by rw [hlink, setCard_card]
  have hne : ∀ n, n ≠ m → (V.link m r).card n = V.card n := by
    intro n hn
    rw [hlink, setCard_card_of_ne _ hn]
  have hset : ∀ n, (V.link m r).indexed n ↔ n = m ∨ V.indexed n := by
    intro n
    unfold indexed
    by_cases hn : n = m
    · rw [hn, hself]
      exact iff_of_true rfl (Or.inl rfl)
    · rw [hne n hn]
      exact (or_iff_right hn).symm
  have hother : ∀ n, V.indexed n → (V.link m r).card n = V.card n := by
    intro n hn
    refine hne n ?_
    rintro rfl
    exact hm hn
  have hend : (V.link m r).inflight = V.inflight.add ((V.link m r).endKey m) m := by
    unfold endKey
    rw [hself, hlink]
    rfl
  have hstart : (V.link m r).inflightStart = V.inflightStart.add ((V.link m r).startKey m) m := by
    unfold startKey
    rw [hself, hlink]
    rfl
  refine ⟨⟨?_, ?_⟩, ?_⟩
  · rw [hend]
    refine h.byEnd.add hm hset fun n hn => ?_
    unfold endKey
    rw [hother n hn]
  · rw [hstart]
    refine h.byStart.add hm hset fun n hn => ?_
    unfold startKey
    rw [hother n hn]
  · rw [hlink]
    rfl

/-! ## Moves keep the index exact -/

/-- A card that is rewritten without any change to what the index depends on. -/
theorem Indexed.setCard (h : V.Indexed) {k : IssueCard} (hop : k.op = (V.card m).op)
    (hstart : k.startSector = (V.card m).startSector) (hend : k.endSector = (V.card m).endSector)
    (hissued : k.issuedAccounted = (V.card m).issuedAccounted)
    (hindexed : k.inflightIndexed = (V.card m).inflightIndexed) : (V.setCard m k).Indexed := by
  refine ⟨h.toFiled.setCard hindexed fun _ => ⟨hop, hstart, hend⟩, fun n => ?_⟩
  unfold indexed
  by_cases hn : n = m
  · rw [hn, setCard_card, hindexed, hissued, hop]
    exact h.exact m
  · rw [setCard_card_of_ne V hn]
    exact h.exact n

/-- A card that is not on the index, and is rewritten to one that should not be. -/
theorem Indexed.setCard_off (h : V.Filed) (hexact : ∀ n, n ≠ m → (V.indexed n ↔ n ∈ V.live
      ∧ (V.card n).issuedAccounted = true ∧ (V.card n).op.readOrWrite = true))
    (hm : ¬ V.indexed m) {k : IssueCard} (hindexed : k.inflightIndexed = false)
    (hissued : k.issuedAccounted = false) : (V.setCard m k).Indexed := by
  have hfiled : (V.setCard m k).Filed := by
    refine h.setCard (hindexed.trans ?_) fun hk => ?_
    · exact (Bool.not_eq_true _ ▸ hm).symm
    · exact absurd (hk.symm.trans hindexed) Bool.false_ne_true.symm
  refine ⟨hfiled, fun n => ?_⟩
  unfold indexed
  by_cases hn : n = m
  · rw [hn, setCard_card, hindexed, hissued]
    simp
  · rw [setCard_card_of_ne V hn]
    exact hexact n hn

/-- An unlinked record is not on the index. -/
theorem not_indexed_unlink (V : IssueView) (m : MetaId) : ¬ (V.unlink m).indexed m := by
  unfold indexed
  rw [V.unlink_card, Function.update_self]
  exact Bool.false_ne_true

theorem unlink_live (V : IssueView) (m : MetaId) : (V.unlink m).live = V.live := by
  unfold unlink
  split <;> rfl

/-- Unlinking one record leaves the others exact. -/
theorem Indexed.exact_unlink (h : V.Indexed) {n : MetaId} (hn : n ≠ m) :
    (V.unlink m).indexed n ↔ n ∈ (V.unlink m).live
      ∧ ((V.unlink m).card n).issuedAccounted = true
      ∧ ((V.unlink m).card n).op.readOrWrite = true := by
  unfold indexed
  rw [V.unlink_card, V.unlink_live, Function.update_of_ne hn]
  exact h.exact n

/-- **An issue puts a record on the index**, if it reads or writes; a record that is
issued again is where it belongs already. -/
theorem Indexed.issue (h : V.Indexed) (hm : m ∈ V.live) {r : Request}
    (hop : (V.card m).issuedAccounted = true → (V.card m).op = r.op) :
    ((V.setCard m { V.card m with issuedAccounted := true, op := r.op }).link m r).Indexed := by
  set k : IssueCard := { V.card m with issuedAccounted := true, op := r.op } with hk
  by_cases hissued : (V.card m).issuedAccounted = true
  · have hself : k = V.card m := by
      rw [hk, ← hop hissued, ← hissued]
    rw [hself, V.setCard_self]
    unfold link
    rw [if_pos]
    · exact h
    -- on the index, or neither a read nor a write
    · have hexact := h.exact m
      unfold indexed at hexact
      cases hindexed : (V.card m).inflightIndexed with
      | true => rfl
      | false =>
        rw [Bool.false_or, Bool.not_eq_true', ← Bool.not_eq_true]
        intro hrw
        rw [hindexed] at hexact
        exact Bool.false_ne_true (hexact.mpr ⟨hm, hissued, hrw⟩)
  · have hoff : ¬ V.indexed m := fun hon => hissued ((h.exact m).mp hon).2.1
    have hcard : (V.setCard m k).card m = k := V.setCard_card m k
    have hoff' : ¬ (V.setCard m k).indexed m := by
      unfold indexed
      rw [hcard]
      exact hoff
    have hfiled : (V.setCard m k).Filed :=
      h.toFiled.setCard rfl fun hon => absurd hon hoff
    have hother : ∀ n, n ≠ m → ((V.setCard m k).indexed n ↔ n ∈ (V.setCard m k).live
        ∧ ((V.setCard m k).card n).issuedAccounted = true
        ∧ ((V.setCard m k).card n).op.readOrWrite = true) := by
      intro n hn
      unfold indexed
      rw [setCard_card_of_ne V hn]
      exact h.exact n
    cases hrw : r.op.readOrWrite with
    | true =>
      obtain ⟨hlinked, hcards⟩ := hfiled.link hoff' (by rw [hcard]; exact hrw) r
      have hlive : ((V.setCard m k).link m r).live = V.live := by
        unfold link
        split <;> rfl
      refine ⟨hlinked, fun n => ?_⟩
      unfold indexed
      rw [hcards, hlive]
      by_cases hn : n = m
      · rw [hn, Function.update_self, hcard]
        exact iff_of_true rfl ⟨hm, rfl, hrw⟩
      · rw [Function.update_of_ne hn]
        exact hother n hn
    | false =>
      have hlink : (V.setCard m k).link m r = V.setCard m k := by
        unfold link
        rw [hcard, if_pos (by rw [show k.op = r.op from rfl, hrw, Bool.not_false, Bool.or_true])]
      rw [hlink]
      refine ⟨hfiled, fun n => ?_⟩
      by_cases hn : n = m
      · rw [hn]
        refine iff_of_false hoff' fun hon => ?_
        rw [hcard, show k.op = r.op from rfl, hrw] at hon
        exact Bool.false_ne_true hon.2.2
      · exact hother n hn

/-- What a move must find to keep the index exact. -/
def Admits (ops : RqAddr → ReqOp) (V : IssueView) : IssueMove → Prop
  | .enter m k => m ∉ V.live ∧ k.inflightIndexed = false ∧ k.issuedAccounted = false
  | .restate m _ => (V.card m).issuedAccounted = false
  | .issue m r _ _ => m ∈ V.live ∧ ∃ rq, (V.card m).rq = some rq ∧ ops rq = r.op
  | _ => True

/-- **One move** keeps the index exact. -/
theorem Indexed.make {ops : RqAddr → ReqOp} (h : V.Indexed) (hops : V.Agrees ops) {mv : IssueMove}
    (hmv : V.Admits ops mv) : (V.make mv).Indexed := by
  cases mv with
  | enter m k =>
    obtain ⟨hm, hindexed, hissued⟩ := hmv
    have hoff : ¬ V.indexed m := fun hon => hm ((h.exact m).mp hon).1
    refine Indexed.setCard_off (V := { V with live := m :: V.live }) ⟨h.byEnd, h.byStart⟩
      (fun n hn => ?_) hoff hindexed hissued
    show V.indexed n ↔ n ∈ m :: V.live ∧ _
    rw [List.mem_cons, or_iff_right hn]
    exact h.exact n
  | restate m r =>
    have hoff : ¬ V.indexed m := fun hon =>
      Bool.false_ne_true (hmv.symm.trans ((h.exact m).mp hon).2.1)
    exact Indexed.setCard_off h.toFiled (fun n _ => h.exact n) hoff
      (Bool.not_eq_true _ ▸ hoff) hmv
  | issue m r enabled nowNs =>
    obtain ⟨hm, rq, hrq, hop⟩ := hmv
    have hissue := h.issue hm (r := r) fun hissued => (hops m hm hissued rq hrq).symm.trans hop
    show (IssueView.stamp _ m enabled nowNs).Indexed
    unfold IssueView.stamp
    split
    · exact hissue
    · exact hissue.setCard rfl rfl rfl rfl rfl
  | release m =>
    exact Indexed.setCard_off (h.toFiled.unlink m) (fun n hn => h.exact_unlink hn)
      (V.not_indexed_unlink m) (Bool.not_eq_true _ ▸ V.not_indexed_unlink m) rfl
  | unstamp m => exact h.setCard rfl rfl rfl rfl rfl
  | mark m => exact h.setCard rfl rfl rfl rfl rfl
  | sample m x =>
    exact Indexed.setCard (V := { V with window := V.window.push x })
      ⟨⟨h.byEnd, h.byStart⟩, h.exact⟩ rfl rfl rfl rfl rfl
  | reset => exact ⟨⟨h.byEnd, h.byStart⟩, h.exact⟩
  | newSession => exact ⟨⟨h.byEnd, h.byStart⟩, h.exact⟩
  | leave m =>
    have hfiled := h.toFiled.unlink m
    refine Indexed.setCard_off (V := { V.unlink m with live := V.live.filter (fun n => n ≠ m) })
      ⟨hfiled.byEnd, hfiled.byStart⟩ (fun n hn => ?_) (V.not_indexed_unlink m) rfl rfl
    show (V.unlink m).indexed n ↔ n ∈ V.live.filter (fun n => n ≠ m) ∧ _
    rw [List.mem_filter, decide_eq_true_eq, and_iff_left hn, ← V.unlink_live m]
    exact h.exact_unlink hn

/-- Only the request, the operation and the issue of a live record matter. -/
theorem Agrees.of_cards {ops : RqAddr → ReqOp} {U : IssueView} (hops : V.Agrees ops)
    (hlive : ∀ n ∈ U.live, n ∈ V.live) (hcard : ∀ n ∈ U.live, (U.card n).rq = (V.card n).rq
      ∧ (U.card n).op = (V.card n).op
      ∧ (U.card n).issuedAccounted = (V.card n).issuedAccounted) : U.Agrees ops := by
  intro n hn hissued rq hrq
  obtain ⟨hrq', hop', hissued'⟩ := hcard n hn
  rw [hop']
  exact hops n (hlive n hn) (hissued' ▸ hissued) rq (hrq' ▸ hrq)

theorem Agrees.setCard {ops : RqAddr → ReqOp} (hops : V.Agrees ops) {k : IssueCard}
    (hk : k.issuedAccounted = true → ∀ rq, k.rq = some rq → ops rq = k.op) :
    (V.setCard m k).Agrees ops := by
  intro n hn hissued rq hrq
  by_cases hnm : n = m
  · subst hnm
    rw [setCard_card] at hissued hrq ⊢
    exact hk hissued rq hrq
  · rw [setCard_card_of_ne V hnm] at hissued hrq ⊢
    exact hops n hn hissued rq hrq

/-- A card that keeps its request, its operation and its issue. -/
theorem Agrees.setCard_same {ops : RqAddr → ReqOp} (hops : V.Agrees ops) {k : IssueCard}
    (hrq : k.rq = (V.card m).rq) (hop : k.op = (V.card m).op)
    (hissued : k.issuedAccounted = (V.card m).issuedAccounted) : (V.setCard m k).Agrees ops := by
  refine hops.of_cards (fun _ hn => hn) fun n _ => ?_
  by_cases hn : n = m
  · rw [hn, setCard_card]
    exact ⟨hrq, hop, hissued⟩
  · rw [setCard_card_of_ne V hn]
    exact ⟨rfl, rfl, rfl⟩

theorem Agrees.unlink {ops : RqAddr → ReqOp} (hops : V.Agrees ops) (m : MetaId) :
    (V.unlink m).Agrees ops := by
  unfold IssueView.unlink
  split
  · exact hops
  · exact Agrees.setCard_same (V := { V with
      inflight := V.inflight.del m, inflightStart := V.inflightStart.del m }) hops rfl rfl rfl

theorem Agrees.link {ops : RqAddr → ReqOp} (hops : V.Agrees ops) (m : MetaId) (r : Request) :
    (V.link m r).Agrees ops := by
  unfold IssueView.link
  split
  · exact hops
  · exact Agrees.setCard_same (V := { V with
      inflight := V.inflight.add (inflightKey (V.card m).op (r.pos + r.sectors)) m
      inflightStart := V.inflightStart.add (inflightKey (V.card m).op r.pos) m }) hops rfl rfl rfl

/-- **One move** keeps the operations of issued requests. -/
theorem Agrees.make {ops : RqAddr → ReqOp} (hops : V.Agrees ops) {mv : IssueMove}
    (hmv : V.Admits ops mv) : (V.make mv).Agrees ops := by
  cases mv with
  | enter m k =>
    intro n hn hissued rq hrq
    by_cases hnm : n = m
    · subst hnm
      rw [show (V.make (.enter n k)).card n = k from setCard_card _ n k, hmv.2.2] at hissued
      exact absurd hissued Bool.false_ne_true
    · have hcard : (V.make (.enter m k)).card n = V.card n := setCard_card_of_ne _ hnm k
      rw [hcard] at hissued hrq ⊢
      exact hops n ((List.mem_cons.mp hn).resolve_left hnm) hissued rq hrq
  | restate m r =>
    refine hops.setCard fun hissued => ?_
    exact absurd (hmv.symm.trans hissued) Bool.false_ne_true
  | issue m r enabled nowNs =>
    obtain ⟨-, rq, hrq, hop⟩ := hmv
    have hissue : ((V.setCard m { V.card m with issuedAccounted := true, op := r.op }).link
        m r).Agrees ops := by
      refine Agrees.link (hops.setCard fun _ rq' hrq' => ?_) m r
      have heq : rq' = rq := Option.some.inj (hrq'.symm.trans hrq)
      rw [heq]
      exact hop
    show (IssueView.stamp _ m enabled nowNs).Agrees ops
    unfold IssueView.stamp
    split
    · exact hissue
    · exact hissue.setCard_same rfl rfl rfl
  | release m =>
    exact (hops.unlink m).setCard fun hissued => absurd hissued Bool.false_ne_true
  | unstamp m => exact hops.setCard_same rfl rfl rfl
  | mark m => exact hops.setCard_same rfl rfl rfl
  | sample m x =>
    exact Agrees.setCard_same (V := { V with window := V.window.push x }) hops rfl rfl rfl
  | reset => exact hops
  | newSession => exact hops
  | leave m =>
    refine Agrees.setCard (V := { V.unlink m with live := V.live.filter (fun n => n ≠ m) })
      ?_ fun hissued => absurd hissued Bool.false_ne_true
    refine (hops.unlink m).of_cards (fun n hn => ?_) fun n _ => ⟨rfl, rfl, rfl⟩
    rw [V.unlink_live m]
    exact (List.mem_filter.mp hn).1

/-! ## Sections keep the index exact -/

/-- Every move of a list finds what it must. -/
def AdmitsAll (ops : RqAddr → ReqOp) : IssueView → List IssueMove → Prop
  | _, [] => True
  | V, mv :: mvs => V.Admits ops mv ∧ AdmitsAll ops (V.make mv) mvs

/-- **All moves of a section** keep the index exact. -/
theorem Indexed.makeMoves {ops : RqAddr → ReqOp} {mvs : List IssueMove} (h : V.Indexed)
    (hops : V.Agrees ops) (hmvs : V.AdmitsAll ops mvs) :
    (Throttle.makeMoves V mvs).Indexed ∧ (Throttle.makeMoves V mvs).Agrees ops := by
  induction mvs generalizing V with
  | nil => exact ⟨h, hops⟩
  | cons mv mvs ih => exact ih (h.make hops hmvs.1) (hops.make hmvs.1) hmvs.2

end IssueView

namespace Throttle

/-- The operation of every request. -/
def ops (w : Throttle) (rq : RqAddr) : ReqOp := (w.rqs rq).op

/-- **A request keeps its operation while it is issued.** -/
def OpKept (w : Throttle) (op : ThrottleOp) : Prop :=
  ∀ m ∈ w.ctx.activeMetas, (w.ctx.metaPool m).issuedAccounted = true →
    ∀ rq, (w.ctx.metaPool m).rq = some rq → (w.step op).1.ops rq = w.ops rq

instance (w : Throttle) (op : ThrottleOp) : Decidable (OpKept w op) :=
  inferInstanceAs (Decidable (∀ m ∈ w.ctx.activeMetas, (w.ctx.metaPool m).issuedAccounted = true →
    ∀ rq ∈ (w.ctx.metaPool m).rq, (w.step op).1.ops rq = w.ops rq))

/-- An issue leaves the operations of the requests alone. -/
theorem ops_recordIssue (w : Throttle) (rq : RqAddr) (t : TaskCtx) (nowNs : ℕ) :
    (w.step (.recordIssue rq t nowNs)).1.ops rq = w.ops rq := by
  show ((w.recordIssue rq t nowNs).1.rqs rq).op = (w.rqs rq).op
  unfold recordIssue allocMetaLocked
  cases w.ctx.findMetaLocked rq with
  | some m => rfl
  | none =>
    cases w.ctx.freeMeta with
    | nil => rfl
    | cons m rest =>
      show ((w.allocTaken rq _ m rest).rqs rq).op = _
      unfold allocTaken
      dsimp only
      split
      · simp [setRqMeta, withCtx]
      · rfl

/-- A free record is not in use. -/
theorem notMem_activeMetas {w : Throttle} (h : Accounted w) {m : MetaId} {rest : List MetaId}
    (hfree : w.ctx.freeMeta = m :: rest) : m ∉ w.ctx.activeMetas := by
  refine h.books.balanced.notMem_live ?_
  show m ∈ w.ctx.freeMeta
  rw [hfree]
  exact List.mem_cons_self

theorem admitsAll_of_plain {ops : RqAddr → ReqOp} {mvs : List IssueMove}
    (hmvs : ∀ mv ∈ mvs, mv.Plain) (V : IssueView) : V.AdmitsAll ops mvs := by
  induction mvs generalizing V with
  | nil => trivial
  | cons mv mvs ih =>
    obtain ⟨hmv, hrest⟩ := List.forall_mem_cons.mp hmvs
    refine ⟨?_, ih hrest _⟩
    cases mv with
    | enter m k => exact absurd hmv id
    | restate m r => exact absurd hmv id
    | issue m r enabled nowNs => exact absurd hmv id
    | _ => trivial

/-- **A section finds what its moves must find.** -/
theorem admits_issueMoves {w : Throttle} (h : Accounted w) (op : ThrottleOp) :
    w.ctx.issues.AdmitsAll (w.step op).1.ops (w.issueMoves op) := by
  have hkind := w.sectionMoves op
  generalize w.issueMoves op = mvs at hkind
  cases hkind with
  | plain hmvs => exact admitsAll_of_plain hmvs _
  | enter hfree => exact ⟨⟨notMem_activeMetas h hfree, rfl, rfl⟩, trivial⟩
  | restate hissued => exact ⟨hissued, trivial⟩
  | @issue rq t nowNs m enabled hfind =>
    obtain ⟨hm, hrq⟩ := findMetaLocked_some hfind
    exact ⟨⟨hm, rq, hrq, w.ops_recordIssue rq t nowNs⟩, trivial⟩
  | @enterIssue rq t nowNs m rest enabled hfree =>
    refine ⟨⟨notMem_activeMetas h hfree, rfl, rfl⟩, ⟨List.mem_cons_self, rq, ?_,
      w.ops_recordIssue rq t nowNs⟩, trivial⟩
    exact congrArg IssueCard.rq (IssueView.setCard_card _ m (w.enterCard rq))
  | sample hissued hsampled hsession hmvs => exact ⟨trivial, admitsAll_of_plain hmvs _⟩

/-- **The invariant of a run**: books that balance, an index that is exact, and
issued requests that have the operation they were issued with. -/
structure IndexSound (w : Throttle) : Prop where
  accounted : Accounted w
  indexed : w.ctx.issues.Indexed
  agrees : w.ctx.issues.Agrees w.ops

theorem indexSound_step {w : Throttle} {op : ThrottleOp} (h : IndexSound w) (hop : OpKept w op) :
    IndexSound (w.step op).1 := by
  have hagrees : w.ctx.issues.Agrees (w.step op).1.ops := by
    intro m hm hissued rq hrq
    rw [hop m hm hissued rq hrq]
    exact h.agrees m hm hissued rq hrq
  obtain ⟨hindexed, hagrees'⟩ :=
    h.indexed.makeMoves hagrees (admits_issueMoves h.accounted op)
  rw [← issues_step h.accounted op] at hindexed hagrees'
  exact ⟨h.accounted.step op, hindexed, hagrees'⟩

theorem indexSound_of_attached {w : Throttle} (h : Attached w) : IndexSound w := by
  obtain ⟨q, n, -, hctx⟩ := h.ctx
  refine ⟨accounted_of_attached h, ?_, ?_⟩
  · rw [hctx]
    refine ⟨⟨.nil fun m hm => ?_, .nil fun m hm => ?_⟩, fun m => ?_⟩
    · exact absurd hm Bool.false_ne_true
    · exact absurd hm Bool.false_ne_true
    · exact iff_of_false Bool.false_ne_true fun hm => absurd hm.1 List.not_mem_nil
  · rw [hctx]
    exact fun m hm => absurd hm List.not_mem_nil

/-! ## What the lookups answer -/

/-- **A full scan**: whether a request in the device touches a waiting one. -/
def Touched (w : Throttle) (waiting : MetaId) : Prop :=
  (w.ctx.metaPool waiting).op.readOrWrite = true
    ∧ ∃ m ∈ w.ctx.activeMetas, (w.ctx.metaPool m).issuedAccounted = true
      ∧ (w.ctx.metaPool m).op = (w.ctx.metaPool waiting).op
      ∧ ((w.ctx.metaPool m).endSector = (w.ctx.metaPool waiting).startSector
        ∨ (w.ctx.metaPool m).startSector = (w.ctx.metaPool waiting).endSector)

/-- **The tables answer like a full scan**, and no budget cuts a lookup short. -/
structure IndexExact (w : Throttle) : Prop where
  contiguous : ∀ waiting, w.ctx.contiguousLocked waiting = true ↔ w.Touched waiting
  seqMatch : ∀ rq, rqClassOf w.ctx.metaPool (w.rqs rq) = .background →
    (w.rqs rq).op.readOrWrite = true →
    (w.seqMatch rq = true ↔ ∃ m, (w.ctx.metaPool m).inflightIndexed = true
      ∧ (w.ctx.metaPool m).op = (w.rqs rq).op
      ∧ (w.ctx.metaPool m).endSector = (w.rqs rq).pos)
  budget : ∀ key, (w.ctx.inflight.possible hashMin key).length ≤ w.ctx.metaCapacity
    ∧ (w.ctx.inflightStart.possible hashMin key).length ≤ w.ctx.metaCapacity
    ∧ (w.ctx.inflight.possible hashMin key).length ≤ w.ctx.scanBudget

/-- No table is longer than the pool. -/
theorem IndexSound.length_le {w : Throttle} (h : IndexSound w) {t : ChainTable ℕ MetaId}
    {key : MetaId → ℕ} (ht : t.Files w.ctx.issues.indexed key) :
    t.all.length ≤ w.ctx.metaCapacity := by
  have hsub : t.all ⊆ w.ctx.activeMetas :=
    fun m hm => ((h.indexed.exact m).mp (ht.mem_all.mp hm)).1
  have hpool := h.accounted.books.balanced.length_add_length
  rw [List.length_range] at hpool
  calc t.all.length
      ≤ w.ctx.activeMetas.length := (List.subperm_of_subset ht.nodup hsub).length_le
    _ ≤ w.ctx.metaCapacity := le_of_le_of_eq (Nat.le_add_right _ _) hpool

/-- **One lookup** of `smart_io_throttle_contiguous_locked`: it finds a record that
touches the waiting one at a sector, if there is one in the device. -/
theorem IndexSound.isSome_scan {w : Throttle} (h : IndexSound w) {t : ChainTable ℕ MetaId}
    (edge : RqMeta → ℕ)
    (ht : t.Files w.ctx.issues.indexed
      fun m => inflightKey (w.ctx.metaPool m).op (edge (w.ctx.metaPool m)))
    {x : RqMeta} (hop : x.op.readOrWrite = true) (sector : ℕ) :
    (t.scan hashMin (inflightKey x.op sector) w.ctx.metaCapacity
        (w.ctx.touchesAt edge x sector)).isSome = true
      ↔ ∃ m ∈ w.ctx.activeMetas, (w.ctx.metaPool m).issuedAccounted = true
        ∧ (w.ctx.metaPool m).op = x.op ∧ edge (w.ctx.metaPool m) = sector := by
  have htest : ∀ m, w.ctx.touchesAt edge x sector m = true
      ↔ (w.ctx.metaPool m).issuedAccounted = true ∧ (w.ctx.metaPool m).op = x.op
        ∧ edge (w.ctx.metaPool m) = sector := by
    intro m
    unfold touchesAt
    rw [Bool.and_eq_true, Bool.and_eq_true, decide_eq_true_eq, decide_eq_true_eq, and_assoc]
  rw [ht.isSome_scan hashMin (h.length_le ht) fun m _ hm => by
    rw [((htest m).mp hm).2.1, ((htest m).mp hm).2.2]]
  constructor
  · rintro ⟨m, hm, hmt⟩
    exact ⟨m, ((h.indexed.exact m).mp hm).1, (htest m).mp hmt⟩
  · rintro ⟨m, hm, hissued, hmop, hedge⟩
    refine ⟨m, (h.indexed.exact m).mpr ⟨hm, hissued, ?_⟩, (htest m).mpr ⟨hissued, hmop, hedge⟩⟩
    show (w.ctx.metaPool m).op.readOrWrite = true
    rw [hmop]
    exact hop

/-- **In a sound state the index is exact.** -/
theorem IndexSound.exact {w : Throttle} (h : IndexSound w) : IndexExact w where
  contiguous waiting := by
    unfold contiguousLocked Touched
    dsimp only
    by_cases hop : (w.ctx.metaPool waiting).op.readOrWrite = true
    · have hrw : ((w.ctx.metaPool waiting).op = .read || (w.ctx.metaPool waiting).op = .write)
          = true := hop
      simp only [hrw, Bool.not_true, Bool.false_eq_true, if_false]
      rw [Bool.or_eq_true]
      refine Iff.trans ?_ (and_iff_right hop).symm
      refine (or_congr (h.isSome_scan RqMeta.endSector h.indexed.byEnd hop _)
        (h.isSome_scan RqMeta.startSector h.indexed.byStart hop _)).trans ?_
      constructor
      · rintro (⟨m, hm, hissued, hmop, hedge⟩ | ⟨m, hm, hissued, hmop, hedge⟩)
        · exact ⟨m, hm, hissued, hmop, Or.inl hedge⟩
        · exact ⟨m, hm, hissued, hmop, Or.inr hedge⟩
      · rintro ⟨m, hm, hissued, hmop, hedge | hedge⟩
        · exact Or.inl ⟨m, hm, hissued, hmop, hedge⟩
        · exact Or.inr ⟨m, hm, hissued, hmop, hedge⟩
    · have hrw : ((w.ctx.metaPool waiting).op = .read || (w.ctx.metaPool waiting).op = .write)
          = false := Bool.eq_false_iff.mpr hop
      rw [hrw, Bool.not_false, if_pos rfl]
      exact iff_of_false Bool.false_ne_true fun htouched => hop htouched.1
  seqMatch rq hcls hop := by
    have htest : ∀ m, (decide ((w.ctx.metaPool m).op = (w.rqs rq).op)
        && decide ((w.ctx.metaPool m).endSector = (w.rqs rq).pos)) = true
        ↔ (w.ctx.metaPool m).op = (w.rqs rq).op
          ∧ (w.ctx.metaPool m).endSector = (w.rqs rq).pos := by
      intro m
      rw [Bool.and_eq_true, decide_eq_true_eq, decide_eq_true_eq]
    have hbudget : w.ctx.inflight.all.length ≤ w.ctx.scanBudget :=
      (h.length_le h.indexed.byEnd).trans (le_max_right _ _)
    have hrw : ((w.rqs rq).op = .read || (w.rqs rq).op = .write) = true := hop
    unfold Throttle.seqMatch
    dsimp only
    rw [if_neg (not_not.mpr hcls), hrw, Bool.not_true, if_neg Bool.false_ne_true]
    refine (h.indexed.byEnd.isSome_scan hashMin hbudget fun m _ hm => ?_).trans
      (exists_congr fun m => and_congr Iff.rfl (htest m))
    obtain ⟨hmop, hend⟩ := (htest m).mp hm
    rw [← hmop, ← hend]
    rfl
  budget key := by
    have hend := (ChainTable.length_possible_le hashMin key w.ctx.inflight).trans
      (h.length_le h.indexed.byEnd)
    exact ⟨hend, (ChainTable.length_possible_le hashMin key w.ctx.inflightStart).trans
      (h.length_le h.indexed.byStart), hend.trans (le_max_right _ _)⟩

/-- **The in-flight index agrees with a full scan**, in every state of a run in which
requests keep their operations while they are issued. -/
theorem index_exact {w : Throttle} (h : Attached w) {ops : List ThrottleOp}
    (hops : machine.StepsMeet OpKept w ops) : machine.StatesMeet IndexExact w ops := by
  refine StepMachine.StatesMeet.mono (P := IndexSound) (fun _ hs => hs.exact) ?_
  exact StepMachine.statesMeet_of_stepsMeet (M := machine) (C := OpKept)
    (fun _ _ hs hop => indexSound_step hs hop)
    (indexSound_of_attached h) hops

/-- A write in the device, and one that waits right behind it. -/
theorem index_exact_two :
    machine.StatesMeet IndexExact (attach 2 [])
      [.prepareRequest 1 { Request.zero with useSched := true, op := .write, sectors := 8 },
       .recordIssue 1 { uid := 0, pid := 0, comm := [] } 1,
       .prepareRequest 2 { Request.zero with useSched := true, op := .write, pos := 8 },
       .classifyRequest 2 { uid := 0, pid := 0, comm := [] } 2] := by
  refine index_exact (attached_attach Nat.one_ne_zero Nat.one_ne_zero (by decide) []) ?_
  decide +kernel

end Throttle
