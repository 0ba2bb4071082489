import Mathlib.Data.List.Induction
import SmartIo.Placings
import SmartIo.WindowStats

/-!
# Percentiles of a window

What is published of the latencies is said here about the latencies themselves, which
the code does not keep. The ledger of a run places each of them in the bucket of a
processor, and then in a roll (`WindowLedger`); the histograms of a bucket and of a
roll are those of the latencies placed there, whatever has happened on the other
processors (`WindowStats.Follows`). A published percentile is then the bucket of an
order statistic of the latencies of its roll (`Percentiles`).

That a latency is not rolled up twice is in the notion of a placing. That it is rolled
up at all is a matter of the order in which the processors are visited: a roll that
has begun after a latency was recorded finds it on one of the processors it has still
to visit, until it has it (`WindowStats.Collects`).
-/

/-! ## Percentiles -/

/-- **The percentiles of some latencies**: the bucket of the order statistic whose
rank is the percentage of their number, rounded up. -/
structure Percentiles (l : List U64) (x : LatSummary) : Prop where
  p50 : ∃ v, orderStatistic l (50 * l.length ⌈/⌉ 100) = some v ∧
    x.p50.val = 2 ^ min 20 (Nat.log 2 (max v.val 1))
  p99 : ∃ v, orderStatistic l (99 * l.length ⌈/⌉ 100) = some v ∧
    x.p99.val = 2 ^ min 20 (Nat.log 2 (max v.val 1))
  p50_le_p99 : x.p50 ≤ x.p99
  ratio_le : x.ratio.val ≤ 100

/-- **A summary of a histogram** has the percentiles of its latencies. -/
theorem LatHist.percentiles_summary {l : List U64} (hl : 0 < l.length) (hl' : l.length < 2 ^ 56) :
    Percentiles l (of l).summary := by
  have htotal : (of l).total ≠ 0 := by
    intro h
    have hval := total_of_val (hl'.trans (by decide))
    rw [h] at hval
    exact absurd hval hl.ne
  have hsummary : (of l).summary = _ := if_neg htotal
  obtain ⟨u, hu, h50⟩ := percentile_of (by decide : 0 < 50) (by decide) hl hl'
  obtain ⟨v, hv, h99⟩ := percentile_of (by decide : 0 < 99) (by decide) hl hl'
  have hrank : 0 < 50 * l.length ⌈/⌉ 100 ∧ 50 * l.length ⌈/⌉ 100 ≤ 99 * l.length ⌈/⌉ 100 := by
    rw [Nat.ceilDiv_eq_add_pred_div, Nat.ceilDiv_eq_add_pred_div]
    omega
  have huv : u ≤ v := orderStatistic_mono hrank.1 hrank.2 hu hv
  have hle : ((of l).percentile 50).val ≤ ((of l).percentile 99).val := by
    rw [h50, h99]
    exact Nat.pow_le_pow_right (by decide)
      (min_le_min_left 20 (Nat.log_mono_right (max_le_max_right 1 huv)))
  refine ⟨⟨u, hu, ?_⟩, ⟨v, hv, ?_⟩, ?_, ?_⟩
  · rw [hsummary]
    exact h50
  · rw [hsummary]
    exact h99
  · rw [hsummary]
    exact hle
  · rw [hsummary]
    dsimp only
    split
    · have hbound : ((of l).percentile 50).val ≤ 2 ^ 20 := by
        rw [h50]
        exact Nat.pow_le_pow_right (by decide) (min_le_left 20 _)
      have hmul : ((of l).percentile 50 * 100).val = ((of l).percentile 50).val * 100 :=
        Nat.mod_eq_of_lt (by
          show ((of l).percentile 50).val * 100 < 2 ^ 32
          omega)
      show ((of l).percentile 50 * 100).val / ((of l).percentile 99).val ≤ 100
      rw [hmul]
      exact Nat.div_le_of_le_mul (Nat.mul_le_mul_right 100 hle)
    · exact Nat.zero_le 100

/-! ## The ledger of a run -/

/-- Where a latency is. -/
inductive LatPlace (n : ℕ) where
  /-- In the bucket of a processor. -/
  | bucket (cpu : Fin n)
  /-- In a roll, by its number. -/
  | roll (k : ℕ)
deriving DecidableEq, Repr

/-- **The ledger of a run**: where the latencies are, what the rolls have published,
and how many latencies there were when the last roll began, and the last that is
over. -/
structure WindowLedger (n : ℕ) where
  placed : Placing (LatPlace n) LatencyAdd
  published : List CompletedBucket
  mark : ℕ
  settled : ℕ

namespace WindowLedger

variable {n : ℕ}

/-- An event is written up. -/
def note (L : WindowLedger n) : WindowEvent n → WindowLedger n
  | .added cpu a => { L with placed := L.placed.put (.bucket cpu) a }
  | .began => { L with mark := L.placed.length }
  | .drained cpu => { L with placed := L.placed.pour (.bucket cpu) (.roll L.published.length) }
  | .rolled b => { L with published := L.published ++ [b], settled := L.mark }

/-- Nothing has happened yet. -/
def empty : WindowLedger n := ⟨[], [], 0, 0⟩

/-- The ledger of some events. -/
def ofEvents (h : List (WindowEvent n)) : WindowLedger n := h.foldl note empty

theorem ofEvents_snoc (h : List (WindowEvent n)) (e : WindowEvent n) :
    ofEvents (h ++ [e]) = (ofEvents h).note e := List.foldl_append

end WindowLedger

/-- The latency an event records. -/
def WindowEvent.add? {n : ℕ} : WindowEvent n → Option LatencyAdd
  | .added _ a => some a
  | _ => none

/-- **A ledger has all latencies that were recorded**, each in one place of it. -/
theorem WindowLedger.items_ofEvents {n : ℕ} (h : List (WindowEvent n)) :
    (ofEvents h).placed.items = h.filterMap WindowEvent.add? := by
  induction h using List.reverseRecOn with
  | nil => rfl
  | append_singleton h e ih =>
    rw [ofEvents_snoc, List.filterMap_append, ← ih]
    cases e with
    | added cpu a => exact Placing.items_put _ _ a
    | began => exact (List.append_nil _).symm
    | drained cpu => exact (Placing.items_pour _ _ _).trans (List.append_nil _).symm
    | rolled b => exact (List.append_nil _).symm

/-! ## The histograms follow the ledger -/

/-- The latencies of a direction. -/
def latencies (write : Bool) (l : List LatencyAdd) : List U64 :=
  (l.filter fun a => a.op.isWrite = write).map LatencyAdd.latencyUs

theorem latencies_snoc (write : Bool) (l : List LatencyAdd) (a : LatencyAdd) :
    latencies write (l ++ [a])
      = if a.op.isWrite = write then latencies write l ++ [a.latencyUs] else latencies write l := by
  unfold latencies
  rw [List.filter_append, List.map_append, List.filter_singleton]
  split
  · rename_i hop
    rw [decide_eq_true hop]
    rfl
  · rename_i hop
    rw [decide_eq_false hop]
    exact List.append_nil _

/-- **Two histograms hold some latencies**, one of each direction. -/
def Hold (readHist writeHist : LatHist) (l : List LatencyAdd) : Prop :=
  readHist = .of (latencies false l) ∧ writeHist = .of (latencies true l)

namespace Hold

variable {g h g' h' : LatHist} {l m : List LatencyAdd}

theorem perm (hh : Hold g h l) (hp : m.Perm l) : Hold g h m := by
  obtain ⟨rfl, rfl⟩ := hh
  exact ⟨LatHist.of_perm ((hp.filter _).map _).symm, LatHist.of_perm ((hp.filter _).map _).symm⟩

theorem merge (hh : Hold g h l) (hh' : Hold g' h' m) : Hold (g.merge g') (h.merge h') (l ++ m) := by
  obtain ⟨rfl, rfl⟩ := hh
  obtain ⟨rfl, rfl⟩ := hh'
  unfold Hold latencies
  rw [List.filter_append, List.filter_append, List.map_append, List.map_append,
    LatHist.of_append, LatHist.of_append]
  exact ⟨rfl, rfl⟩

/-- **A latency recorded** in a bucket is one latency more. -/
theorem curBucketAdd {b : PercpuBucket} (hh : Hold b.readHist b.writeHist l) (a : LatencyAdd) :
    Hold (b.curBucketAdd a).readHist (b.curBucketAdd a).writeHist (l ++ [a]) := by
  obtain ⟨hread, hwrite⟩ := hh
  unfold Hold PercpuBucket.curBucketAdd
  rw [latencies_snoc, latencies_snoc]
  cases a.op.isWrite with
  | false =>
    refine ⟨?_, hwrite⟩
    exact (congrArg (fun x : LatHist => x.add a.latencyUs) hread).trans (LatHist.of_snoc _ _).symm
  | true =>
    refine ⟨hread, ?_⟩
    exact (congrArg (fun x : LatHist => x.add a.latencyUs) hwrite).trans (LatHist.of_snoc _ _).symm

end Hold

/-- **What a roll has published** of the latencies it has rolled up: their
percentiles, of a direction in which there are some. -/
structure Publishes (b : CompletedBucket) (l : List LatencyAdd) : Prop where
  read : 0 < (latencies false l).length → (latencies false l).length < 2 ^ 56 →
    Percentiles (latencies false l) b.rlat
  write : 0 < (latencies true l).length → (latencies true l).length < 2 ^ 56 →
    Percentiles (latencies true l) b.wlat

namespace Publishes

/-- **The end of a roll** publishes what it has rolled up. -/
theorem publish {n : ℕ} {r : Roll n} {l : List LatencyAdd} (hr : Hold r.readHist r.writeHist l)
    (s : WindowStats n) (reclaimNow : U64) : Publishes (r.publish s reclaimNow) l := by
  obtain ⟨hread, hwrite⟩ := hr
  have htotal : ∀ {l : List U64}, 0 < l.length → l.length < 2 ^ 56 → (LatHist.of l).total ≠ 0 := by
    intro l hl hl' h
    have hval := LatHist.total_of_val (hl'.trans (by decide))
    rw [h] at hval
    exact absurd hval hl.ne
  refine ⟨fun hpos hlt => ?_, fun hpos hlt => ?_⟩
  · have hnext : r.publish s reclaimNow = r.next s reclaimNow :=
      if_pos (Or.inl (hread ▸ htotal hpos hlt))
    rw [hnext]
    show Percentiles _ r.readHist.summary
    rw [hread]
    exact LatHist.percentiles_summary hpos hlt
  · have hnext : r.publish s reclaimNow = r.next s reclaimNow :=
      if_pos (Or.inr (hwrite ▸ htotal hpos hlt))
    rw [hnext]
    show Percentiles _ r.writeHist.summary
    rw [hwrite]
    exact LatHist.percentiles_summary hpos hlt

end Publishes

namespace WindowStats

variable {n : ℕ}

/-- **What a step does** to the buckets and the roll, whatever else it does. -/
inductive Does (s : WindowStats n) : List (WindowEvent n) → WindowStats n → Prop
  | idle {s' : WindowStats n}
      (hread : ∀ cpu, (s'.curBucket cpu).readHist = (s.curBucket cpu).readHist)
      (hwrite : ∀ cpu, (s'.curBucket cpu).writeHist = (s.curBucket cpu).writeHist)
      (hroll : s'.roll = s.roll) : Does s [] s'
  | added (cpu : Fin n) (a : LatencyAdd) {s' : WindowStats n}
      (hcurr : s'.curBucket
        = Function.update s.curBucket cpu ((s.curBucket cpu).curBucketAdd a))
      (hroll : s'.roll = s.roll) : Does s [.added cpu a] s'
  | began {s' : WindowStats n} (hnone : s.roll = none) (hcurr : s'.curBucket = s.curBucket)
      (hroll : s'.roll = some .begin) : Does s [.began] s'
  | drained {r : Roll n} {cpu : Fin n} {cpus : List (Fin n)} {s' : WindowStats n}
      (hsome : s.roll = some r) (hcpus : r.cpus = cpu :: cpus)
      (hcurr : s'.curBucket = Function.update s.curBucket cpu .zero)
      (hroll : s'.roll = some (r.drain (s.curBucket cpu) cpus)) : Does s [.drained cpu] s'
  | rolled {r : Roll n} (reclaimNow : U64) {s' : WindowStats n} (hsome : s.roll = some r)
      (hcpus : r.cpus = []) (hcurr : s'.curBucket = s.curBucket) (hroll : s'.roll = none) :
      Does s [.rolled (r.publish s reclaimNow)] s'

/-- **Every step does one of these.** -/
theorem does_step (s : WindowStats n) (op : WindowOp n) : Does s (s.step op).2 (s.step op).1 := by
  have hidle : Does s [] s := .idle (fun _ => rfl) (fun _ => rfl) rfl
  cases op with
  | add cpu a => exact .added cpu a rfl rfl
  | filemapAdd cpu x =>
    have hsame : ∀ {f : PercpuBucket → LatHist}, (∀ b, f (PercpuBucket.filemapAdd b x) = f b) →
        ∀ c, f (Function.update s.curBucket cpu ((s.curBucket cpu).filemapAdd x) c)
          = f (s.curBucket c) := by
      intro f hf c
      by_cases hc : c = cpu
      · rw [hc, Function.update_self, hf]
      · rw [Function.update_of_ne hc]
    exact .idle (hsame fun _ => rfl) (hsame fun _ => rfl) rfl
  | rollBegin =>
    simp only [step]
    split
    · exact hidle
    · rename_i hnone
      exact .began hnone rfl rfl
  | rollNext =>
    simp only [step]
    split
    · exact hidle
    · rename_i r hsome
      split
      · exact hidle
      · rename_i cpu cpus hcpus
        exact .drained hsome hcpus rfl rfl
  | rollEnd reclaimNow nowNs =>
    simp only [step]
    split
    · exact hidle
    · rename_i r hsome
      split
      · exact hidle
      · rename_i hcpus
        exact .rolled reclaimNow hsome hcpus rfl rfl
  | setWindowSzMs szMs => exact .idle (fun _ => rfl) (fun _ => rfl) rfl
  | deviceIssue nowNs => exact .idle (fun _ => rfl) (fun _ => rfl) rfl
  | deviceComplete nowNs => exact .idle (fun _ => rfl) (fun _ => rfl) rfl

/-- **The histograms follow the ledger**: each holds what is placed in it, and every
roll that is over has published what was. -/
structure Follows (L : WindowLedger n) (s : WindowStats n) : Prop where
  bucket : ∀ cpu, Hold (s.curBucket cpu).readHist (s.curBucket cpu).writeHist
    (L.placed.content (.bucket cpu))
  roll : ∀ r, s.roll = some r →
    Hold r.readHist r.writeHist (L.placed.content (.roll L.published.length))
  idle : s.roll = none → L.placed.content (.roll L.published.length) = []
  future : ∀ k, L.published.length < k → L.placed.content (.roll k) = []
  published : ∀ k b, L.published[k]? = some b → Publishes b (L.placed.content (.roll k))

/-- **A roll collects** what was recorded before it began: it is on the processors
that have still to be emptied, or in a roll; and what was recorded before the last
roll that is over is in one that is over. -/
structure Collects (L : WindowLedger n) (s : WindowStats n) : Prop where
  mark_le : L.mark ≤ L.placed.length
  settled_le : L.settled ≤ L.placed.length
  visiting : ∀ r, s.roll = some r → ∀ e ∈ L.placed.take L.mark, ∀ cpu, e.1 = .bucket cpu →
    cpu ∈ r.cpus
  settled : ∀ e ∈ L.placed.take L.settled, ∃ k < L.published.length, e.1 = .roll k

variable {L : WindowLedger n} {s s' : WindowStats n}

/-- A latency recorded in a bucket is in no roll. -/
theorem content_put_roll (P : Placing (LatPlace n) LatencyAdd) (cpu : Fin n) (a : LatencyAdd)
    (k : ℕ) : (P.put (.bucket cpu) a).content (.roll k) = P.content (.roll k) :=
  Placing.content_put_of_ne P (by simp) a

/-- Emptying a processor changes no roll but the present one. -/
theorem content_pour_roll (P : Placing (LatPlace n) LatencyAdd) (cpu : Fin n) {j k : ℕ}
    (h : k ≠ j) : (P.pour (.bucket cpu) (.roll j)).content (.roll k) = P.content (.roll k) :=
  Placing.content_pour_of_ne P (by simp) (fun hk => h (LatPlace.roll.inj hk))

/-- **Every step lets the histograms follow.** -/
theorem Follows.step (h : Follows L s) {es : List (WindowEvent n)} (hs : Does s es s') :
    Follows (es.foldl WindowLedger.note L) s' := by
  cases hs with
  | idle hread hwrite hroll =>
    refine ⟨fun cpu => ?_, hroll ▸ h.roll, hroll ▸ h.idle, h.future, h.published⟩
    rw [hread, hwrite]
    exact h.bucket cpu
  | added cpu a hcurr hroll =>
    refine ⟨fun c => ?_, fun r hr => ?_, fun hr => ?_, fun k hk => ?_, fun k b hb => ?_⟩
    · rw [hcurr]
      by_cases hc : c = cpu
      · rw [hc, Function.update_self]
        exact ((h.bucket cpu).curBucketAdd a).perm (.of_eq (Placing.content_put_self _ _ _))
      · rw [Function.update_of_ne hc]
        exact (h.bucket c).perm (.of_eq (Placing.content_put_of_ne _
          (fun hp => hc (LatPlace.bucket.inj hp).symm) a))
    · exact (h.roll r (hroll ▸ hr)).perm (.of_eq (content_put_roll _ _ _ _))
    · exact (content_put_roll _ _ _ _).trans (h.idle (hroll ▸ hr))
    · exact (content_put_roll _ _ _ _).trans (h.future k hk)
    · have hpub := h.published k b hb
      rwa [← content_put_roll L.placed cpu a k] at hpub
  | began hnone hcurr hroll =>
    refine ⟨fun cpu => ?_, fun r hr => ?_, fun hr => ?_, h.future, h.published⟩
    · rw [hcurr]
      exact h.bucket cpu
    · rw [hroll] at hr
      rw [← Option.some.inj hr]
      exact Hold.perm (l := []) ⟨rfl, rfl⟩ (.of_eq (h.idle hnone))
    · rw [hroll] at hr
      exact absurd hr (Option.some_ne_none _)
  | @drained r cpu cpus _ hsome hcpus hcurr hroll =>
    have hne : LatPlace.bucket cpu ≠ .roll L.published.length := by simp
    refine ⟨fun c => ?_, fun r' hr => ?_, fun hr => ?_, fun k hk => ?_, fun k b hb => ?_⟩
    · rw [hcurr]
      by_cases hc : c = cpu
      · rw [hc, Function.update_self]
        exact Hold.perm (l := []) ⟨rfl, rfl⟩ (.of_eq (Placing.content_pour_self _ hne))
      · rw [Function.update_of_ne hc]
        exact (h.bucket c).perm (.of_eq (Placing.content_pour_of_ne _
          (fun hp => hc (LatPlace.bucket.inj hp)) (by simp)))
    · rw [hroll] at hr
      rw [← Option.some.inj hr]
      exact ((h.roll r hsome).merge (h.bucket cpu)).perm (Placing.content_pour_into _ hne)
    · rw [hroll] at hr
      exact absurd hr (Option.some_ne_none _)
    · exact (content_pour_roll _ _ (Nat.ne_of_gt hk)).trans (h.future k hk)
    · have hk : k ≠ L.published.length := Nat.ne_of_lt (List.getElem?_eq_some_iff.mp hb).1
      have hpub := h.published k b hb
      rwa [← content_pour_roll L.placed cpu hk] at hpub
  | @rolled r reclaimNow _ hsome hcpus hcurr hroll =>
    have hlen : (L.published ++ [r.publish s reclaimNow]).length = L.published.length + 1 :=
      List.length_append
    refine ⟨fun cpu => ?_, fun r' hr => ?_, fun _ => ?_, fun k hk => ?_, fun k b hb => ?_⟩
    · rw [hcurr]
      exact h.bucket cpu
    · rw [hroll] at hr
      exact absurd hr.symm (Option.some_ne_none _)
    · show L.placed.content (.roll (L.published ++ [r.publish s reclaimNow]).length) = []
      rw [hlen]
      exact h.future _ (Nat.lt_succ_self _)
    · replace hk : (L.published ++ [r.publish s reclaimNow]).length < k := hk
      rw [hlen] at hk
      exact h.future k (Nat.lt_of_succ_lt hk)
    · replace hb : (L.published ++ [r.publish s reclaimNow])[k]? = some b := hb
      rcases Nat.lt_or_ge k L.published.length with hk | hk
      · rw [List.getElem?_append_left hk] at hb
        exact h.published k b hb
      · have hklt := (List.getElem?_eq_some_iff.mp hb).1
        rw [hlen] at hklt
        obtain rfl : k = L.published.length := Nat.le_antisymm (Nat.le_of_lt_succ hklt) hk
        rw [List.getElem?_append_right hk, Nat.sub_self] at hb
        rw [← Option.some.inj hb]
        exact .publish (h.roll r hsome) s reclaimNow

/-- A latency more is not among those that were there before. -/
theorem take_put (P : Placing (LatPlace n) LatencyAdd) (p : LatPlace n) (a : LatencyAdd) {m : ℕ}
    (hm : m ≤ P.length) : (P.put p a).take m = P.take m :=
  List.take_append_of_le_length hm

/-- **Every step lets the rolls collect.** -/
theorem Collects.step (h : Collects L s) (hfollows : Follows L s) {es : List (WindowEvent n)}
    (hs : Does s es s') : Collects (es.foldl WindowLedger.note L) s' := by
  cases hs with
  | idle hread hwrite hroll => exact ⟨h.mark_le, h.settled_le, hroll ▸ h.visiting, h.settled⟩
  | added cpu a hcurr hroll =>
    have hlen : L.placed.length ≤ (L.placed.put (.bucket cpu) a).length := by
      unfold Placing.put
      rw [List.length_append]
      exact Nat.le_add_right _ _
    refine ⟨h.mark_le.trans hlen, h.settled_le.trans hlen, fun r hr e he => ?_, fun e he => ?_⟩
    · replace he : e ∈ (L.placed.put (.bucket cpu) a).take L.mark := he
      rw [take_put _ _ _ h.mark_le] at he
      exact h.visiting r (hroll ▸ hr) e he
    · replace he : e ∈ (L.placed.put (.bucket cpu) a).take L.settled := he
      rw [take_put _ _ _ h.settled_le] at he
      exact h.settled e he
  | began hnone hcurr hroll =>
    refine ⟨le_refl _, h.settled_le, fun r hr e _ cpu _ => ?_, h.settled⟩
    rw [hroll] at hr
    rw [← Option.some.inj hr]
    exact List.mem_finRange cpu
  | @drained r cpu cpus _ hsome hcpus hcurr hroll =>
    have hlen : (L.placed.pour (.bucket cpu) (.roll L.published.length)).length = L.placed.length :=
      List.length_map _
    have htake : ∀ m, (L.placed.pour (.bucket cpu) (.roll L.published.length)).take m
        = Placing.pour (L.placed.take m) (.bucket cpu) (.roll L.published.length) :=
      fun m => List.map_take.symm
    refine ⟨h.mark_le.trans hlen.ge, h.settled_le.trans hlen.ge, fun r' hr e he c hc => ?_,
      fun e he => ?_⟩
    · replace he : e ∈ (L.placed.pour (.bucket cpu) (.roll L.published.length)).take L.mark := he
      rw [htake] at he
      obtain ⟨⟨p, a⟩, hp, rfl⟩ := List.mem_map.mp he
      dsimp only at hc
      split at hc
      · exact absurd hc (by simp)
      · rename_i hpc
        have hmem := h.visiting r hsome _ hp c hc
        rw [hcpus] at hmem
        rw [hroll] at hr
        rw [← Option.some.inj hr]
        refine (List.mem_cons.mp hmem).resolve_left ?_
        rintro rfl
        exact hpc hc
    · replace he : e ∈ (L.placed.pour (.bucket cpu) (.roll L.published.length)).take L.settled := he
      rw [htake] at he
      obtain ⟨⟨p, a⟩, hp, rfl⟩ := List.mem_map.mp he
      obtain ⟨k, hk, hpk⟩ := h.settled _ hp
      refine ⟨k, hk, ?_⟩
      dsimp only at hpk ⊢
      rw [if_neg (by rw [hpk]; simp)]
      exact hpk
  | @rolled r reclaimNow _ hsome hcpus hcurr hroll =>
    refine ⟨h.mark_le, h.mark_le, fun r' hr => ?_, fun e he => ?_⟩
    · rw [hroll] at hr
      exact absurd hr.symm (Option.some_ne_none _)
    · obtain ⟨p, a⟩ := e
      have hlen : (L.published ++ [r.publish s reclaimNow]).length = L.published.length + 1 :=
        List.length_append
      cases p with
      | bucket cpu =>
        have hmem := h.visiting r hsome _ he cpu rfl
        rw [hcpus] at hmem
        exact absurd hmem List.not_mem_nil
      | roll k =>
        refine ⟨k, ?_, rfl⟩
        show k < (L.published ++ [r.publish s reclaimNow]).length
        rw [hlen]
        by_contra hk
        have hcontent := hfollows.future k (by omega)
        have hmem : a ∈ L.placed.content (.roll k) :=
          Placing.mem_content.mpr (List.mem_of_mem_take he)
        rw [hcontent] at hmem
        exact List.not_mem_nil hmem

/-! ## The published percentiles -/

/-- **What is published of the latencies of a run**, by its events. -/
structure Published (h : List (WindowEvent n)) : Prop where
  /-- Every latency is in one place: -/
  placed : (WindowLedger.ofEvents h).placed.items = h.filterMap WindowEvent.add?
  /-- on a processor, or in a roll that is over, or in the present one, -/
  places : ∀ e ∈ (WindowLedger.ofEvents h).placed,
    (∃ cpu, e.1 = .bucket cpu) ∨ ∃ k ≤ (WindowLedger.ofEvents h).published.length, e.1 = .roll k
  /-- and in one that is over if it was recorded before the last such roll began. -/
  settled : ∀ e ∈ (WindowLedger.ofEvents h).placed.take (WindowLedger.ofEvents h).settled,
    ∃ k < (WindowLedger.ofEvents h).published.length, e.1 = .roll k
  /-- A roll that is over has published the percentiles of the latencies in it. -/
  percentiles : ∀ k b, (WindowLedger.ofEvents h).published[k]? = some b →
    Publishes b ((WindowLedger.ofEvents h).placed.content (.roll k))

/-- **Published percentiles** are those of the latencies of a roll, however the
completions are interleaved with it. -/
theorem percentiles_published (n : ℕ) {s₀ : WindowStats n} (h₀ : (machine n).init s₀)
    (ops : List (WindowOp n)) :
    Published ((machine n).chronicle (machine n).out s₀ ops) := by
  have hfollows₀ : Follows WindowLedger.empty s₀ := by
    refine ⟨fun cpu => ?_, fun r hr => ?_, fun _ => rfl, fun _ _ => rfl, fun k b hb => ?_⟩
    · rw [h₀.1 cpu]
      exact ⟨rfl, rfl⟩
    · rw [h₀.2] at hr
      exact absurd hr.symm (Option.some_ne_none r)
    · exact absurd hb.symm (Option.some_ne_none b)
  have hcollects₀ : Collects WindowLedger.empty s₀ := by
    refine ⟨le_refl 0, le_refl 0, fun r hr => ?_, fun e he => absurd he List.not_mem_nil⟩
    rw [h₀.2] at hr
    exact absurd hr.symm (Option.some_ne_none r)
  obtain ⟨hfollows, hcollects⟩ := StepMachine.chronicle_invariant (M := machine n)
    (I := fun h s => Follows (WindowLedger.ofEvents h) s ∧ Collects (WindowLedger.ofEvents h) s)
    (f := (machine n).out) (fun h s op hI => by
      unfold WindowLedger.ofEvents
      rw [List.foldl_append]
      exact ⟨hI.1.step (does_step s op), hI.2.step hI.1 (does_step s op)⟩)
    ⟨hfollows₀, hcollects₀⟩ ops
  refine ⟨WindowLedger.items_ofEvents _, fun e he => ?_, hcollects.settled, hfollows.published⟩
  obtain ⟨p, a⟩ := e
  cases p with
  | bucket cpu => exact Or.inl ⟨cpu, rfl⟩
  | roll k =>
    refine Or.inr ⟨k, ?_, rfl⟩
    by_contra hk
    have hmem := Placing.mem_content.mpr he
    rw [hfollows.future k (Nat.not_le.mp hk)] at hmem
    exact List.not_mem_nil hmem

/-- A read of 300 µs and one of 5 ms, on two processors, the second while the roll is
on its way: it is drained after all, as its processor comes last. -/
def twoReads : List (WindowOp 2) :=
  [.add 0 ⟨.read, 4, 300⟩, .rollBegin, .rollNext, .add 1 ⟨.read, 8, 5000⟩, .rollNext, .rollEnd 0 0]

theorem percentiles_published_two :
    ((machine 2).run (loaded 2) twoReads).lastBucket.rlat = ⟨256, 4096, 2650, 6⟩
      ∧ Published ((machine 2).chronicle (machine 2).out (loaded 2) twoReads) :=
  ⟨by decide +kernel, percentiles_published 2 ⟨fun _ => rfl, rfl⟩ twoReads⟩

end WindowStats
