import SmartIo.PageBudget

/-!
# How much a pair is granted

As long as a pair keeps its entry, a window grants no more than the budget. If the entry
is taken over, what the pair was granted in the window is forgotten, and its next page
opens another; so in half a second the pair is granted the budget once more for each
time that its entry is taken over (`PageBudget.budget_bound`). That takes other pairs:
the entry is the one whose window was opened first, so 63 others have opened theirs
since, and the pair that takes it over is one more.

What a call does to the entries is one of five moves (`PageBudget.Move`).
-/

namespace InodeBudget

/-- An entry whose window a call has just opened. -/
def opened (c : BudgetCall) : InodeBudget := ⟨c.uid, c.inodeHash, c.nowNs, c.bytes⟩

/-- The first bytes of a window are granted. -/
theorem take_opened (c : BudgetCall) :
    (InodeBudget.mk c.uid c.inodeHash c.nowNs 0).Allows c.bytes
      ∧ (InodeBudget.mk c.uid c.inodeHash c.nowNs 0).take c.bytes = opened c := by
  have hallows : (InodeBudget.mk c.uid c.inodeHash c.nowNs 0).Allows c.bytes := Nat.zero_le _
  refine ⟨hallows, ?_⟩
  unfold take
  rw [if_pos hallows]
  dsimp only
  rw [Nat.zero_add]
  rfl

@[simp] theorem take_uid (b : InodeBudget) (bytes : ℕ) : (b.take bytes).uid = b.uid := by
  unfold take
  split
  · rfl
  · rfl

@[simp] theorem take_pair (b : InodeBudget) (bytes : ℕ) : (b.take bytes).pair = b.pair := by
  unfold take
  split
  · rfl
  · rfl

@[simp] theorem take_windowStartNs (b : InodeBudget) (bytes : ℕ) :
    (b.take bytes).windowStartNs = b.windowStartNs := by
  unfold take
  split
  · rfl
  · rfl

/-- **What is used** grows by what is granted, and stays in the budget. -/
theorem take_usedBytes (b : InodeBudget) {bytes : ℕ} (hbytes : bytes ≤ budgetBytes)
    (hb : b.usedBytes ≤ budgetBytes) :
    (b.take bytes).usedBytes = b.usedBytes + (if b.Allows bytes then bytes else 0)
      ∧ (b.take bytes).usedBytes ≤ budgetBytes := by
  unfold take
  split
  · next hallows =>
    refine ⟨rfl, ?_⟩
    unfold Allows at hallows
    show b.usedBytes + bytes ≤ budgetBytes
    omega
  · exact ⟨rfl, hb⟩

end InodeBudget

namespace PageBudget

/-! ## Moves -/

/-- **What a call does to the entries**, and the event that it is. -/
inductive Move (b : Fin budgetInodes → InodeBudget) (c : BudgetCall) :
    (Fin budgetInodes → InodeBudget) → BudgetEvent → Prop
  | refuse : Move b c b ⟨c.pair, c.nowNs, 0, false, none⟩
  /-- The window of the pair goes on. -/
  | goOn (i : Fin budgetInodes) (hc : c.Valid) (hpair : (b i).pair = c.pair)
      (hwindow : (b i).windowStartNs ≤ c.nowNs ∧ c.nowNs < (b i).windowStartNs + budgetWindowNs) :
      Move b c (Function.update b i ((b i).take c.bytes))
        ⟨c.pair, c.nowNs, if (b i).Allows c.bytes then c.bytes else 0, false, none⟩
  /-- The window of the pair has ended, and it opens another. -/
  | renew (i : Fin budgetInodes) (hc : c.Valid) (hpair : (b i).pair = c.pair)
      (hwindow : (b i).windowStartNs + budgetWindowNs ≤ c.nowNs) :
      Move b c (Function.update b i (.opened c)) ⟨c.pair, c.nowNs, c.bytes, true, none⟩
  /-- The pair gets an entry that was never used. -/
  | start (i : Fin budgetInodes) (hc : c.Valid) (hmiss : ∀ j, (b j).Used → (b j).pair ≠ c.pair)
      (hfree : ¬ (b i).Used) :
      Move b c (Function.update b i (.opened c)) ⟨c.pair, c.nowNs, c.bytes, true, none⟩
  /-- It takes over the entry of another. -/
  | takeOver (i : Fin budgetInodes) (hc : c.Valid)
      (hmiss : ∀ j, (b j).Used → (b j).pair ≠ c.pair) (hfull : ∀ j, (b j).Used)
      (hmin : ∀ j, (b i).windowStartNs ≤ (b j).windowStartNs) :
      Move b c (Function.update b i (.opened c))
        ⟨c.pair, c.nowNs, c.bytes, true, some (b i).pair⟩

variable {s : PageBudget} {c : BudgetCall} {i : Fin budgetInodes}

/-- The window of the log has nothing to do with the entries. -/
@[simp] theorem inodeBudgets_logWindow (s : PageBudget) (nowNs : ℕ) :
    (s.logWindow nowNs).inodeBudgets = s.inodeBudgets := by
  unfold logWindow
  split
  · rfl
  · rfl

/-- The entry that a pass comes to is the hit, or else the free one, or else the oldest. -/
theorem budget_eq (s : PageBudget) (p : BudgetPair) :
    s.budget p = (s.scan p).hit.or ((s.scan p).free.or (s.scan p).oldest) := rfl

theorem budget_logWindow (s : PageBudget) (nowNs : ℕ) (p : BudgetPair) :
    (s.logWindow nowNs).budget p = s.budget p := by
  unfold budget scan
  rw [inodeBudgets_logWindow]

/-- A call that finds an entry. -/
theorem takeBudget_of_some (hc : c.Valid) (hi : s.budget c.pair = some i) :
    (s.takeBudget c).1.inodeBudgets = Function.update s.inodeBudgets i
        (((s.inodeBudgets i).inWindow c.pair c.nowNs).take c.bytes)
      ∧ s.event c = ⟨c.pair, c.nowNs,
          if ((s.inodeBudgets i).inWindow c.pair c.nowNs).Allows c.bytes then c.bytes else 0,
          decide ((s.inodeBudgets i).Stale c.pair c.nowNs),
          if (s.inodeBudgets i).Used ∧ (s.inodeBudgets i).pair ≠ c.pair then
            some (s.inodeBudgets i).pair else none⟩ := by
  have htake : s.takeBudget c = _ := if_pos hc
  dsimp only at htake
  rw [budget_logWindow, hi] at htake
  dsimp only at htake
  rw [inodeBudgets_logWindow] at htake
  refine ⟨by rw [htake], ?_⟩
  unfold event
  rw [htake, hi, if_pos hc]
  dsimp only [Option.map_some, Option.bind_some]
  have hopens : (c.Valid ∧ ∃ j, j ∈ some i ∧ (s.inodeBudgets j).Stale c.pair c.nowNs)
      ↔ (s.inodeBudgets i).Stale c.pair c.nowNs := by
    constructor
    · rintro ⟨-, j, hj, hstale⟩
      rwa [Option.some.inj hj]
    · exact fun hstale => ⟨hc, i, rfl, hstale⟩
  congr 1
  · by_cases hallows : ((s.inodeBudgets i).inWindow c.pair c.nowNs).Allows c.bytes
    · rw [if_pos hallows, if_pos (decide_eq_true hallows)]
    · rw [if_neg hallows, decide_eq_false hallows, if_neg Bool.false_ne_true]
  · exact decide_eq_decide.mpr hopens

/-- A call that is refused. -/
theorem takeBudget_of_refused (h : ¬ c.Valid ∨ s.budget c.pair = none) :
    (s.takeBudget c).1.inodeBudgets = s.inodeBudgets
      ∧ s.event c = ⟨c.pair, c.nowNs, 0, false, none⟩ := by
  by_cases hc : c.Valid
  · have hnone : s.budget c.pair = none := h.resolve_left fun hno => hno hc
    have htake : s.takeBudget c = _ := if_pos hc
    dsimp only at htake
    rw [budget_logWindow, hnone] at htake
    dsimp only at htake
    refine ⟨by rw [htake, inodeBudgets_logWindow], ?_⟩
    unfold event
    rw [htake, hnone, if_pos hc]
    dsimp only [Option.map_none, Option.bind_none]
    have hopens : ¬ (c.Valid
        ∧ ∃ j, j ∈ (none : Option (Fin budgetInodes))
          ∧ (s.inodeBudgets j).Stale c.pair c.nowNs) := by
      rintro ⟨-, j, hj, -⟩
      exact Option.some_ne_none j hj.symm
    rw [decide_eq_false hopens, if_neg Bool.false_ne_true]
  · have htake : s.takeBudget c = _ := if_neg hc
    refine ⟨by rw [htake], ?_⟩
    unfold event
    rw [htake, if_neg hc, decide_eq_false fun hand => hc hand.1]
    rfl

/-! ## What the entries rest on -/

/-- **The entries go by the events so far**: the window of an entry is the one that its
pair opened last. -/
structure Booked (s : PageBudget) (es : List BudgetEvent) (lastNs : ℕ) : Prop where
  unique : Unique s
  past : ∀ e ∈ es, e.nowNs ≤ lastNs
  used : ∀ i, (s.inodeBudgets i).usedBytes ≤ budgetBytes
  window : ∀ i, (s.inodeBudgets i).Used →
    0 < (s.inodeBudgets i).windowStartNs ∧ (s.inodeBudgets i).windowStartNs ≤ lastNs
  opened : ∀ i, (s.inodeBudgets i).Used → ∃ e ∈ es, e.opens = true
    ∧ e.pair = (s.inodeBudgets i).pair ∧ e.nowNs = (s.inodeBudgets i).windowStartNs
  latest : ∀ i, (s.inodeBudgets i).Used → ∀ e ∈ es, e.opens = true →
    e.pair = (s.inodeBudgets i).pair → e.nowNs ≤ (s.inodeBudgets i).windowStartNs

variable {es : List BudgetEvent} {lastNs nowNs : ℕ}

theorem booked_zero : Booked zero [] 0 where
  unique _ _ hi := absurd rfl hi
  past _ h := absurd h List.not_mem_nil
  used _ := Nat.zero_le _
  window _ hi := absurd rfl hi
  opened _ hi := absurd rfl hi
  latest _ hi := absurd rfl hi

/-- Time goes by. -/
theorem Booked.mono (h : Booked s es lastNs) (hle : lastNs ≤ nowNs) : Booked s es nowNs :=
  ⟨h.unique, fun e he => (h.past e he).trans hle, h.used,
    fun i hi => ⟨(h.window i hi).1, (h.window i hi).2.trans hle⟩, h.opened, h.latest⟩

/-- The window of a pair's own entry is opened anew if it has ended. -/
theorem Booked.stale_iff (h : Booked s es nowNs) (hi : (s.inodeBudgets i).Used) {p : BudgetPair}
    (hp : (s.inodeBudgets i).pair = p) :
    (s.inodeBudgets i).Stale p nowNs
      ↔ (s.inodeBudgets i).windowStartNs + budgetWindowNs ≤ nowNs := by
  obtain ⟨hpos, hle⟩ := h.window i hi
  obtain ⟨huid, hinode⟩ := Prod.mk.inj hp
  unfold InodeBudget.Stale
  constructor
  · rintro (hne | hne | hzero | hlt | hended)
    · exact absurd huid hne
    · exact absurd hinode hne
    · omega
    · omega
    · omega
  · intro hended
    exact Or.inr (Or.inr (Or.inr (Or.inr (by omega))))

/-- The entry of another pair is no window of this one. -/
theorem stale_of_ne {p : BudgetPair} (hp : (s.inodeBudgets i).pair ≠ p) :
    (s.inodeBudgets i).Stale p nowNs := by
  unfold InodeBudget.Stale
  by_cases huid : (s.inodeBudgets i).uid = p.1
  · exact Or.inr (Or.inl fun hinode => hp (Prod.ext huid hinode))
  · exact Or.inl huid

/-- A window that is opened is all the entry has. -/
theorem inWindow_of_stale (h : (s.inodeBudgets i).Stale c.pair c.nowNs) :
    (s.inodeBudgets i).inWindow c.pair c.nowNs = ⟨c.uid, c.inodeHash, c.nowNs, 0⟩ := if_pos h

/-- **A call makes one of the moves.** -/
theorem Booked.move (h : Booked s es c.nowNs) :
    Move s.inodeBudgets c (s.takeBudget c).1.inodeBudgets (s.event c) := by
  by_cases hc : c.Valid
  · have hopen : ∀ i, s.budget c.pair = some i → (s.inodeBudgets i).Stale c.pair c.nowNs →
        (s.takeBudget c).1.inodeBudgets = Function.update s.inodeBudgets i (.opened c)
        ∧ s.event c = ⟨c.pair, c.nowNs, c.bytes, true,
          if (s.inodeBudgets i).Used ∧ (s.inodeBudgets i).pair ≠ c.pair then
            some (s.inodeBudgets i).pair else none⟩ := by
      intro i hi hstale
      obtain ⟨hbudgets, hevent⟩ := takeBudget_of_some hc hi
      obtain ⟨hallows, htake⟩ := InodeBudget.take_opened c
      rw [inWindow_of_stale hstale, htake] at hbudgets
      rw [inWindow_of_stale hstale, if_pos hallows, decide_eq_true hstale] at hevent
      exact ⟨hbudgets, hevent⟩
    have hmiss : (∀ j, ((s.inodeBudgets j).uid == c.uid
          && (s.inodeBudgets j).inodeHash == c.inodeHash) = false) →
        ∀ j, (s.inodeBudgets j).Used → (s.inodeBudgets j).pair ≠ c.pair := by
      intro hno j _ hj
      obtain ⟨huid, hinode⟩ := Prod.mk.inj hj
      have hyes := hno j
      rw [huid, hinode, beq_self_eq_true, beq_self_eq_true] at hyes
      exact Bool.false_ne_true hyes.symm
    have houtcome : SlotScan.Outcome (fun b => b.uid == c.uid && b.inodeHash == c.inodeHash)
        (·.uid == 0) InodeBudget.windowStartNs s.inodeBudgets u64Max (s.scan c.pair) :=
      SlotScan.outcome (fun i => List.mem_finRange i) u64Max
    cases houtcome with
    | hit i hhit hslot =>
      have hi : s.budget c.pair = some i := by
        rw [budget_eq, hhit]
        rfl
      rw [Bool.and_eq_true, beq_iff_eq, beq_iff_eq] at hslot
      have hpair : (s.inodeBudgets i).pair = c.pair := Prod.ext hslot.1 hslot.2
      have hused : (s.inodeBudgets i).Used := hslot.1.trans_ne hc.1
      have hnone : ¬ ((s.inodeBudgets i).Used ∧ (s.inodeBudgets i).pair ≠ c.pair) :=
        fun hand => hand.2 hpair
      by_cases hstale : (s.inodeBudgets i).Stale c.pair c.nowNs
      · obtain ⟨hbudgets, hevent⟩ := hopen i hi hstale
        rw [hbudgets, hevent, if_neg hnone]
        exact .renew i hc hpair ((h.stale_iff hused hpair).mp hstale)
      · obtain ⟨hbudgets, hevent⟩ := takeBudget_of_some hc hi
        have hwindow : (s.inodeBudgets i).inWindow c.pair c.nowNs = s.inodeBudgets i :=
          if_neg hstale
        rw [hwindow] at hbudgets hevent
        rw [hbudgets, hevent, if_neg hnone, decide_eq_false hstale]
        exact .goOn i hc hpair ⟨(h.window i hused).2,
          Nat.not_le.mp (mt (h.stale_iff hused hpair).mpr hstale)⟩
    | free i hhit hfree hno hslot =>
      have hi : s.budget c.pair = some i := by
        rw [budget_eq, hhit, hfree]
        rfl
      have hunused : ¬ (s.inodeBudgets i).Used := fun hused => hused (eq_of_beq hslot)
      have hpair : (s.inodeBudgets i).pair ≠ c.pair := fun heq =>
        hunused ((Prod.mk.inj heq).1.trans_ne hc.1)
      obtain ⟨hbudgets, hevent⟩ := hopen i hi (stale_of_ne hpair)
      rw [hbudgets, hevent, if_neg fun hand => hunused hand.1]
      exact .start i hc (hmiss hno) hunused
    | oldest i hhit hfree holdest hno hfull hmin =>
      have hi : s.budget c.pair = some i := by
        rw [budget_eq, hhit, hfree, holdest]
        rfl
      have hused : ∀ j, (s.inodeBudgets j).Used := fun j => ne_of_beq_false (hfull j)
      have hpair := hmiss hno i (hused i)
      obtain ⟨hbudgets, hevent⟩ := hopen i hi (stale_of_ne hpair)
      rw [hbudgets, hevent, if_pos ⟨hused i, hpair⟩]
      exact .takeOver i hc (hmiss hno) hused hmin
    | none hhit hfree holdest hno hfull hlimit =>
      have hi : s.budget c.pair = none := by
        rw [budget_eq, hhit, hfree, holdest]
        rfl
      obtain ⟨hbudgets, hevent⟩ := takeBudget_of_refused (s := s) (Or.inr hi)
      rw [hbudgets, hevent]
      exact .refuse
  · obtain ⟨hbudgets, hevent⟩ := takeBudget_of_refused (s := s) (Or.inl hc)
    rw [hbudgets, hevent]
    exact .refuse

/-- The entry of a pair is in one slot. -/
theorem Booked.other (h : Booked s es lastNs) (hi : (s.inodeBudgets i).Used)
    {j : Fin budgetInodes} (hj : (s.inodeBudgets j).Used) (hne : j ≠ i) :
    (s.inodeBudgets j).pair ≠ (s.inodeBudgets i).pair := fun heq => hne (h.unique j i hj hi heq)

/-- **A window is opened** at a slot, and the other slots are of other pairs. -/
theorem Booked.opens {t : PageBudget} (h : Booked s es c.nowNs) (hc : c.Valid)
    (hpos : 0 < (c.nowNs : ℕ))
    (hbudgets : t.inodeBudgets = Function.update s.inodeBudgets i (.opened c))
    (hother : ∀ j, j ≠ i → (s.inodeBudgets j).Used → (s.inodeBudgets j).pair ≠ c.pair)
    {e : BudgetEvent} (he : e.opens = true) (hepair : e.pair = c.pair)
    (henow : e.nowNs = c.nowNs) : Booked t (es ++ [e]) c.nowNs := by
  have hself : t.inodeBudgets i = .opened c := by
    rw [hbudgets]
    exact Function.update_self _ _ _
  have hrest : ∀ j, j ≠ i → t.inodeBudgets j = s.inodeBudgets j := by
    intro j hj
    rw [hbudgets]
    exact Function.update_of_ne hj _ _
  refine ⟨?_, fun x hx => ?_, fun j => ?_, fun j hj => ?_, fun j hj => ?_,
    fun j hj x hx hopens hx' => ?_⟩
  · unfold Unique
    rw [hbudgets]
    exact UniqueKeys.update h.unique fun _ => hother
  · rcases List.mem_append.mp hx with hx | hx
    · exact h.past x hx
    · rw [List.mem_singleton.mp hx, henow]
  · by_cases hji : j = i
    · rw [hji, hself]
      exact hc.2.2.2
    · rw [hrest j hji]
      exact h.used j
  · by_cases hji : j = i
    · rw [hji, hself]
      exact ⟨hpos, Nat.le_refl _⟩
    · rw [hrest j hji] at hj ⊢
      exact h.window j hj
  · by_cases hji : j = i
    · rw [hji, hself]
      exact ⟨e, List.mem_append_right _ (List.mem_singleton_self e), he, hepair, henow⟩
    · rw [hrest j hji] at hj ⊢
      obtain ⟨x, hx, hopened⟩ := h.opened j hj
      exact ⟨x, List.mem_append_left _ hx, hopened⟩
  · by_cases hji : j = i
    · rw [hji, hself]
      rcases List.mem_append.mp hx with hx | hx
      · exact h.past x hx
      · rw [List.mem_singleton.mp hx, henow]
        exact Nat.le_refl _
    · rw [hrest j hji] at hj hx' ⊢
      rcases List.mem_append.mp hx with hx | hx
      · exact h.latest j hj x hx hopens hx'
      · rw [List.mem_singleton.mp hx, hepair] at hx'
        exact absurd hx'.symm (hother j hji hj)

/-- An event that opens no window. -/
theorem Booked.closed {e : BudgetEvent} (h : Booked s es lastNs) (he : e.opens = false)
    (hnow : e.nowNs ≤ lastNs) : Booked s (es ++ [e]) lastNs := by
  refine ⟨h.unique, fun x hx => ?_, h.used, h.window, fun i hi => ?_, fun i hi x hx hopens => ?_⟩
  · rcases List.mem_append.mp hx with hx | hx
    · exact h.past x hx
    · rw [List.mem_singleton.mp hx]
      exact hnow
  · obtain ⟨x, hx, hopened⟩ := h.opened i hi
    exact ⟨x, List.mem_append_left _ hx, hopened⟩
  · rcases List.mem_append.mp hx with hx | hx
    · exact h.latest i hi x hx hopens
    · rw [List.mem_singleton.mp hx, he] at hopens
      exact absurd hopens Bool.false_ne_true

/-- The entries are what matters. -/
theorem Booked.congr {t : PageBudget} (h : Booked s es lastNs)
    (heq : t.inodeBudgets = s.inodeBudgets) : Booked t es lastNs := by
  refine ⟨?_, h.past, ?_, ?_, ?_, ?_⟩
  · unfold Unique
    rw [heq]
    exact h.unique
  · rw [heq]
    exact h.used
  · rw [heq]
    exact h.window
  · rw [heq]
    exact h.opened
  · rw [heq]
    exact h.latest

/-- Bytes are taken from an entry. -/
theorem Booked.take {t : PageBudget} (h : Booked s es lastNs) {bytes : ℕ}
    (hbytes : bytes ≤ budgetBytes)
    (hbudgets : t.inodeBudgets
      = Function.update s.inodeBudgets i ((s.inodeBudgets i).take bytes)) :
    Booked t es lastNs := by
  have hslot : ∀ j, (t.inodeBudgets j).uid = (s.inodeBudgets j).uid
      ∧ (t.inodeBudgets j).pair = (s.inodeBudgets j).pair
      ∧ (t.inodeBudgets j).windowStartNs = (s.inodeBudgets j).windowStartNs
      ∧ (t.inodeBudgets j).usedBytes ≤ budgetBytes := by
    intro j
    rw [hbudgets]
    by_cases hji : j = i
    · rw [hji, Function.update_self]
      exact ⟨InodeBudget.take_uid _ _, InodeBudget.take_pair _ _,
        InodeBudget.take_windowStartNs _ _,
        (InodeBudget.take_usedBytes _ hbytes (h.used i)).2⟩
    · rw [Function.update_of_ne hji]
      exact ⟨rfl, rfl, rfl, h.used j⟩
  have hused : ∀ j, (t.inodeBudgets j).Used → (s.inodeBudgets j).Used := by
    intro j hj
    unfold InodeBudget.Used at hj ⊢
    rwa [(hslot j).1] at hj
  refine ⟨fun j k hj hk heq => ?_, h.past, fun j => (hslot j).2.2.2, fun j hj => ?_, fun j hj => ?_,
    fun j hj => ?_⟩
  · rw [(hslot j).2.1, (hslot k).2.1] at heq
    exact h.unique j k (hused j hj) (hused k hk) heq
  · rw [(hslot j).2.2.1]
    exact h.window j (hused j hj)
  · rw [(hslot j).2.1, (hslot j).2.2.1]
    exact h.opened j (hused j hj)
  · rw [(hslot j).2.1, (hslot j).2.2.1]
    exact h.latest j (hused j hj)

/-- **A call** keeps the books. -/
theorem Booked.step (h : Booked s es c.nowNs) (hpos : 0 < (c.nowNs : ℕ)) :
    Booked (s.takeBudget c).1 (es ++ [s.event c]) c.nowNs := by
  have hmove := h.move
  generalize hb : (s.takeBudget c).1.inodeBudgets = b at hmove
  generalize s.event c = e at hmove
  cases hmove with
  | refuse => exact (h.congr hb).closed rfl (Nat.le_refl _)
  | goOn i hc hpair hwindow => exact (h.take hc.2.2.2 hb).closed rfl (Nat.le_refl _)
  | renew i hc hpair hwindow =>
    refine h.opens hc hpos hb (fun j hj hused heq => hj ?_) rfl rfl rfl
    refine h.unique j i hused ?_ (heq.trans hpair.symm)
    exact (Prod.mk.inj hpair).1.trans_ne hc.1
  | start i hc hmiss hfree => exact h.opens hc hpos hb (fun j _ => hmiss j) rfl rfl rfl
  | takeOver i hc hmiss hfull hmin => exact h.opens hc hpos hb (fun j _ => hmiss j) rfl rfl rfl

/-! ## What is granted in half a second -/

section Counts

variable {p : BudgetPair} {startNs : ℕ} {e : BudgetEvent}

/-- One more event. -/
theorem grantedIn_snoc (es : List BudgetEvent) (p : BudgetPair) (startNs : ℕ) (e : BudgetEvent) :
    grantedIn (es ++ [e]) p startNs = grantedIn es p startNs
      + if e.pair = p ∧ Within startNs e then e.granted else 0 := by
  unfold grantedIn
  rw [List.filter_append, List.map_append, List.sum_append, List.filter_singleton]
  refine congrArg (HAdd.hAdd _) ?_
  by_cases hcounts : e.pair = p ∧ Within startNs e
  · rw [decide_eq_true hcounts, if_pos hcounts]
    exact List.sum_singleton
  · rw [decide_eq_false hcounts, if_neg hcounts]
    rfl

theorem takeovers_snoc (es : List BudgetEvent) (p : BudgetPair) (startNs : ℕ) (e : BudgetEvent) :
    takeovers (es ++ [e]) p startNs = takeovers es p startNs
      + if e.evicts = some p ∧ Within startNs e then 1 else 0 := by
  unfold takeovers
  rw [List.countP_append, List.countP_singleton]
  refine congrArg (HAdd.hAdd _) ?_
  by_cases hcounts : e.evicts = some p ∧ Within startNs e
  · rw [decide_eq_true hcounts, if_pos hcounts, if_pos rfl]
  · rw [decide_eq_false hcounts, if_neg hcounts, if_neg Bool.false_ne_true]

/-- Nothing is granted in a time that has not come. -/
theorem grantedIn_eq_zero (h : ∀ e ∈ es, e.nowNs < startNs) : grantedIn es p startNs = 0 := by
  unfold grantedIn
  have hnone : (es.filter fun e => decide (e.pair = p ∧ Within startNs e)) = [] :=
    List.filter_eq_nil_iff.mpr fun e he hcounts =>
      absurd (of_decide_eq_true hcounts).2.1 (Nat.not_le.mpr (h e he))
  rw [hnone]
  rfl

end Counts

/-- **What was granted to a pair is covered**: by a budget for each time that its entry
was taken over, and what is used of the window that its entry has, unless that ended
before. -/
structure Covered (p : BudgetPair) (startNs : ℕ) (s : PageBudget) (granted taken : ℕ) : Prop where
  running : ∀ i, (s.inodeBudgets i).Used → (s.inodeBudgets i).pair = p →
    startNs < (s.inodeBudgets i).windowStartNs + budgetWindowNs →
    granted ≤ budgetBytes * taken + (s.inodeBudgets i).usedBytes
  ended : (∀ i, (s.inodeBudgets i).Used → (s.inodeBudgets i).pair = p →
      (s.inodeBudgets i).windowStartNs + budgetWindowNs ≤ startNs) →
    granted ≤ budgetBytes * taken

variable {p : BudgetPair} {startNs granted taken : ℕ} {t : PageBudget} {e : BudgetEvent}

/-- What is covered is one budget more at most. -/
theorem Covered.bound (h : Covered p startNs s granted taken)
    (hused : ∀ i, (s.inodeBudgets i).usedBytes ≤ budgetBytes) :
    granted ≤ budgetBytes * (taken + 1) := by
  rw [Nat.mul_add, Nat.mul_one]
  by_cases hrunning : ∃ i, (s.inodeBudgets i).Used ∧ (s.inodeBudgets i).pair = p
      ∧ startNs < (s.inodeBudgets i).windowStartNs + budgetWindowNs
  · obtain ⟨i, hi, hpair, hlate⟩ := hrunning
    exact (h.running i hi hpair hlate).trans (Nat.add_le_add_left (hused i) _)
  · refine (h.ended fun i hi hpair => ?_).trans (Nat.le_add_right _ _)
    exact Nat.not_lt.mp fun hlate => hrunning ⟨i, hi, hpair, hlate⟩

/-- Nothing needs no cover. -/
theorem covered_zero (p : BudgetPair) (startNs : ℕ) (s : PageBudget) (taken : ℕ) :
    Covered p startNs s 0 taken :=
  ⟨fun _ _ _ _ => Nat.zero_le _, fun _ => Nat.zero_le _⟩

/-- **A call of another pair** leaves the entry of this one alone. -/
theorem Covered.untouched (h : Covered p startNs s granted taken)
    (hsame : ∀ i, (t.inodeBudgets i).pair = p
        ∨ (s.inodeBudgets i).Used ∧ (s.inodeBudgets i).pair = p
      → t.inodeBudgets i = s.inodeBudgets i) : Covered p startNs t granted taken := by
  refine ⟨fun i hi hpair hlate => ?_, fun hended => h.ended fun i hi hpair => ?_⟩
  · have heq := hsame i (Or.inl hpair)
    rw [heq] at hi hpair hlate ⊢
    exact h.running i hi hpair hlate
  · have heq := hsame i (Or.inr ⟨hi, hpair⟩)
    rw [← heq] at hi hpair ⊢
    exact hended i hi hpair

/-- **The entry is taken over**: what was used of it is one budget at most. -/
theorem Covered.takenOver (h : Covered p startNs s granted taken)
    (hused : ∀ i, (s.inodeBudgets i).usedBytes ≤ budgetBytes)
    (hgone : ∀ i, (t.inodeBudgets i).Used → (t.inodeBudgets i).pair ≠ p) :
    Covered p startNs t granted (taken + 1) :=
  ⟨fun i hi hpair _ => absurd hpair (hgone i hi), fun _ => h.bound hused⟩

/-- **A window is opened** by a pair that had none in the half second. -/
theorem Covered.opened (h : granted ≤ budgetBytes * taken) {bytes : ℕ}
    (hi : (t.inodeBudgets i).Used) (hpair : (t.inodeBudgets i).pair = p)
    (hbytes : (t.inodeBudgets i).usedBytes = bytes)
    (hlate : startNs < (t.inodeBudgets i).windowStartNs + budgetWindowNs)
    (hunique : Unique t) : Covered p startNs t (granted + bytes) taken := by
  refine ⟨fun j hj hjpair _ => ?_, fun hended => ?_⟩
  · rw [hunique j i hj hi (hjpair.trans hpair.symm), hbytes]
    exact Nat.add_le_add_right h bytes
  · exact absurd hlate (Nat.not_lt.mpr (hended i hi hpair))

/-- **The window goes on**, and what is granted is used of it. -/
theorem Covered.goOn (h : Covered p startNs s granted taken) {bytes : ℕ}
    (hi : (s.inodeBudgets i).Used) (hpair : (s.inodeBudgets i).pair = p)
    (hlate : startNs < (s.inodeBudgets i).windowStartNs + budgetWindowNs)
    (ht : (t.inodeBudgets i).Used ∧ (t.inodeBudgets i).pair = p
      ∧ (t.inodeBudgets i).windowStartNs = (s.inodeBudgets i).windowStartNs
      ∧ (t.inodeBudgets i).usedBytes = (s.inodeBudgets i).usedBytes + bytes)
    (hunique : Unique t) : Covered p startNs t (granted + bytes) taken := by
  obtain ⟨hused, htpair, hwindow, hbytes⟩ := ht
  refine ⟨fun j hj hjpair _ => ?_, fun hended => ?_⟩
  · rw [hunique j i hj hused (hjpair.trans htpair.symm), hbytes, ← Nat.add_assoc]
    exact Nat.add_le_add_right (h.running i hi hpair hlate) bytes
  · have hearly := hended i hused htpair
    rw [hwindow] at hearly
    exact absurd hlate (Nat.not_lt.mpr hearly)

/-- **A call of another pair** that goes to a slot which is not this one's. -/
theorem Covered.apart (h : Covered p startNs s granted taken) (hne : c.pair ≠ p) {b : InodeBudget}
    (hb : b.pair = c.pair) (hi : (s.inodeBudgets i).Used → (s.inodeBudgets i).pair ≠ p)
    (hbudgets : t.inodeBudgets = Function.update s.inodeBudgets i b) :
    Covered p startNs t granted taken := by
  refine h.untouched fun j hj => ?_
  have hji : j ≠ i := by
    rintro rfl
    rw [hbudgets, Function.update_self, hb] at hj
    exact hj.elim hne fun hand => hi hand.1 hand.2
  rw [hbudgets]
  exact Function.update_of_ne hji _ _

/-- **A call that opens the window** of the pair in the half second. -/
theorem covered_fresh (hc : c.Valid) (hpair : c.pair = p) (hstart : startNs ≤ c.nowNs)
    (hbudgets : t.inodeBudgets = Function.update s.inodeBudgets i (.opened c))
    (hunique : Unique t) (h : granted ≤ budgetBytes * taken) :
    Covered p startNs t (granted + c.bytes) taken := by
  have hself : t.inodeBudgets i = .opened c := by
    rw [hbudgets]
    exact Function.update_self _ _ _
  refine Covered.opened (i := i) h ?_ ?_ ?_ ?_ hunique
  · rw [hself]
    exact hc.1
  · rw [hself]
    exact hpair
  · rw [hself]
    rfl
  · rw [hself]
    show startNs < c.nowNs + budgetWindowNs
    exact Nat.lt_of_le_of_lt hstart (Nat.lt_add_of_pos_right (by decide))

/-! ## Runs -/

/-- **What a half second comes to**, so far: a budget for each time that the entry was
taken over, and one more – which is covered as long as the half second lasts. -/
structure Bounded (p : BudgetPair) (startNs : ℕ) (s : PageBudget) (es : List BudgetEvent)
    (lastNs : ℕ) : Prop where
  bound : grantedIn es p startNs ≤ budgetBytes * (takeovers es p startNs + 1)
  covered : lastNs < startNs + budgetWindowNs →
    Covered p startNs s (grantedIn es p startNs) (takeovers es p startNs)

/-- An event outside the half second counts for nothing. -/
theorem counts_outside (h : ¬ Within startNs e) (es : List BudgetEvent) (p : BudgetPair) :
    grantedIn (es ++ [e]) p startNs = grantedIn es p startNs
      ∧ takeovers (es ++ [e]) p startNs = takeovers es p startNs := by
  rw [grantedIn_snoc, takeovers_snoc, if_neg fun hand => h hand.2, if_neg fun hand => h hand.2]
  exact ⟨rfl, rfl⟩

/-- An event in it counts for what it is. -/
theorem counts_within (h : Within startNs e) (es : List BudgetEvent) (p : BudgetPair) :
    grantedIn (es ++ [e]) p startNs
        = grantedIn es p startNs + (if e.pair = p then e.granted else 0)
      ∧ takeovers (es ++ [e]) p startNs
        = takeovers es p startNs + if e.evicts = some p then 1 else 0 := by
  rw [grantedIn_snoc, takeovers_snoc]
  exact ⟨congrArg (HAdd.hAdd _) (if_congr (and_iff_left h) rfl rfl),
    congrArg (HAdd.hAdd _) (if_congr (and_iff_left h) rfl rfl)⟩

/-- **A call in the half second** keeps it covered, if it is not later than the start or
the window of the pair is not from before. -/
theorem Covered.step (h : Covered p startNs s granted taken) (hbooked : Booked s es c.nowNs)
    (hpos : 0 < (c.nowNs : ℕ)) (hwithin : Within startNs (s.event c))
    (hphase : (c.nowNs : ℕ) ≤ startNs
      ∨ ∀ i, (s.inodeBudgets i).Used → (s.inodeBudgets i).pair = p →
        startNs ≤ (s.inodeBudgets i).windowStartNs) :
    Covered p startNs (s.takeBudget c).1
      (granted + if (s.event c).pair = p then (s.event c).granted else 0)
      (taken + if (s.event c).evicts = some p then 1 else 0) := by
  have hunique := (hbooked.step hpos).unique
  have hmove := hbooked.move
  obtain ⟨hstart, hend⟩ : startNs ≤ c.nowNs ∧ (c.nowNs : ℕ) < startNs + budgetWindowNs := hwithin
  generalize (s.takeBudget c).1 = t at hmove hunique
  generalize hb : t.inodeBudgets = b at hmove
  generalize s.event c = e at hmove
  have hother : ∀ {bytes : ℕ}, c.pair ≠ p →
      granted + (if c.pair = p then bytes else 0) = granted := by
    intro bytes hne
    rw [if_neg hne, Nat.add_zero]
  have hkept : taken + (if none = some p then 1 else 0) = taken := by
    rw [if_neg fun hnone => Option.some_ne_none p hnone.symm, Nat.add_zero]
  cases hmove with
  | refuse =>
    dsimp only
    rw [ite_self, Nat.add_zero, hkept]
    exact h.untouched fun i _ => congrFun hb i
  | goOn i hc hpair hwindow =>
    dsimp only
    rw [hkept]
    by_cases hp : c.pair = p
    · have hused : (s.inodeBudgets i).Used := (Prod.mk.inj hpair).1.trans_ne hc.1
      have hlate : startNs < (s.inodeBudgets i).windowStartNs + budgetWindowNs :=
        Nat.lt_of_le_of_lt hstart hwindow.2
      rw [if_pos hp]
      refine h.goOn hused (hpair.trans hp) hlate ?_ hunique
      rw [hb, Function.update_self]
      refine ⟨?_, (InodeBudget.take_pair _ _).trans (hpair.trans hp),
        InodeBudget.take_windowStartNs _ _,
        (InodeBudget.take_usedBytes _ hc.2.2.2 (hbooked.used i)).1⟩
      unfold InodeBudget.Used
      rwa [InodeBudget.take_uid]
    · rw [hother hp]
      exact h.apart hp ((InodeBudget.take_pair _ _).trans hpair)
        (fun _ heq => hp (hpair.symm.trans heq)) hb
  | renew i hc hpair hwindow =>
    dsimp only
    rw [hkept]
    by_cases hp : c.pair = p
    · have hused : (s.inodeBudgets i).Used := (Prod.mk.inj hpair).1.trans_ne hc.1
      rw [if_pos hp]
      refine covered_fresh hc hp hstart hb hunique (h.ended fun j hj hjpair => ?_)
      rw [hbooked.unique j i hj hused (hjpair.trans (hp.symm.trans hpair.symm))]
      rcases hphase with hearly | hlate
      · exact hwindow.trans hearly
      · have hsince := hlate i hused (hpair.trans hp)
        omega
    · rw [hother hp]
      exact h.apart hp rfl (fun _ heq => hp (hpair.symm.trans heq)) hb
  | start i hc hmiss hfree =>
    dsimp only
    rw [hkept]
    by_cases hp : c.pair = p
    · rw [if_pos hp]
      exact covered_fresh hc hp hstart hb hunique (h.ended fun j hj hjpair =>
        absurd (hjpair.trans hp.symm) (hmiss j hj))
    · rw [hother hp]
      exact h.apart hp rfl (fun hused => absurd hused hfree) hb
  | takeOver i hc hmiss hfull hmin =>
    dsimp only
    by_cases hp : c.pair = p
    · have hkeep : ¬ some (s.inodeBudgets i).pair = some p := fun heq =>
        hmiss i (hfull i) ((Option.some.inj heq).trans hp.symm)
      rw [if_pos hp, if_neg hkeep, Nat.add_zero]
      exact covered_fresh hc hp hstart hb hunique (h.ended fun j hj hjpair =>
        absurd (hjpair.trans hp.symm) (hmiss j hj))
    · rw [hother hp]
      by_cases hlost : (s.inodeBudgets i).pair = p
      · rw [if_pos (congrArg some hlost)]
        refine h.takenOver hbooked.used fun j _ hj => ?_
        rw [hb] at hj
        by_cases hji : j = i
        · rw [hji, Function.update_self] at hj
          exact hp hj
        · rw [Function.update_of_ne hji] at hj
          exact hji (hbooked.unique j i (hfull j) (hfull i) (hj.trans hlost.symm))
      · rw [if_neg fun heq => hlost (Option.some.inj heq), Nat.add_zero]
        exact h.apart hp rfl (fun _ => hlost) hb

/-- **A call** keeps the bound. -/
theorem Bounded.step (h : Bounded p startNs s es lastNs) (hbooked : Booked s es lastNs)
    (hpos : 0 < (c.nowNs : ℕ)) (hlast : lastNs ≤ c.nowNs)
    (hphase : (c.nowNs : ℕ) ≤ startNs
      ∨ ∃ o ∈ es, o.opens = true ∧ o.pair = p ∧ o.nowNs = startNs) :
    Bounded p startNs (s.takeBudget c).1 (es ++ [s.event c]) c.nowNs := by
  have hnow := hbooked.mono hlast
  by_cases hwithin : Within startNs (s.event c)
  · obtain ⟨hgranted, htaken⟩ := counts_within hwithin es p
    have hcovered : Covered p startNs (s.takeBudget c).1
        (grantedIn (es ++ [s.event c]) p startNs) (takeovers (es ++ [s.event c]) p startNs) := by
      rw [hgranted, htaken]
      refine (h.covered (Nat.lt_of_le_of_lt hlast hwithin.2)).step hnow hpos hwithin
        (hphase.imp_right ?_)
      rintro ⟨o, ho, hopens, hopair, hostart⟩ i hi hipair
      rw [← hostart]
      exact hbooked.latest i hi o ho hopens (hopair.trans hipair.symm)
    exact ⟨hcovered.bound (hnow.step hpos).used, fun _ => hcovered⟩
  · obtain ⟨hgranted, htaken⟩ := counts_outside hwithin es p
    refine ⟨?_, fun hlate => ?_⟩
    · rw [hgranted, htaken]
      exact h.bound
    · -- the call is from before the half second, and so is everything
      have hearly : (c.nowNs : ℕ) < startNs := by
        by_contra hno
        exact hwithin ⟨Nat.not_lt.mp hno, hlate⟩
      rw [hgranted, grantedIn_eq_zero fun e he => ?_]
      · exact covered_zero _ _ _ _
      · exact Nat.lt_of_le_of_lt ((hbooked.past e he).trans hlast) hearly

/-- The outputs of one more call. -/
theorem outs_snoc (calls : List BudgetCall) (c : BudgetCall) :
    machine.outs zero (calls ++ [c])
      = machine.outs zero calls ++ [(machine.run zero calls).event c] :=
  machine.outs_append zero calls [c]

theorem run_snoc (calls : List BudgetCall) (c : BudgetCall) :
    machine.run zero (calls ++ [c]) = ((machine.run zero calls).takeBudget c).1 :=
  machine.run_append zero calls [c]

variable {calls : List BudgetCall}

/-- A run up to its last call is in order. -/
theorem InOrder.init (h : InOrder (calls ++ [c])) :
    InOrder calls ∧ 0 < (c.nowNs : ℕ) ∧ ∀ d ∈ calls, (d.nowNs : ℕ) ≤ c.nowNs := by
  obtain ⟨hpos, hsorted⟩ := h
  rw [List.map_append, List.map_singleton, List.pairwise_append] at hsorted
  refine ⟨⟨fun d hd => hpos d (List.mem_append_left _ hd), hsorted.1⟩, ?_, fun d hd => ?_⟩
  · exact Nat.pos_of_ne_zero fun hzero =>
      hpos c (List.mem_append_right _ (List.mem_singleton_self c)) (Fin.ext hzero)
  · exact hsorted.2.2 d.nowNs (List.mem_map_of_mem hd) c.nowNs (List.mem_singleton_self _)

/-- The time of the last call of a run. -/
def endNs (calls : List BudgetCall) : ℕ := calls.getLast?.elim 0 fun c => c.nowNs

theorem InOrder.endNs_le (h : InOrder (calls ++ [c])) : endNs calls ≤ c.nowNs := by
  unfold endNs
  cases hlast : calls.getLast? with
  | none => exact Nat.zero_le _
  | some d => exact h.init.2.2 d (List.mem_of_getLast? hlast)

@[simp] theorem endNs_snoc (calls : List BudgetCall) (c : BudgetCall) :
    endNs (calls ++ [c]) = c.nowNs := by
  unfold endNs
  rw [List.getLast?_concat]
  rfl

/-- **A run** keeps the books. -/
theorem run_booked (h : InOrder calls) :
    Booked (machine.run zero calls) (machine.outs zero calls) (endNs calls) := by
  induction calls using List.reverseRecOn with
  | nil => exact booked_zero
  | append_singleton calls c ih =>
    rw [run_snoc, outs_snoc, endNs_snoc]
    exact ((ih h.init.1).mono h.endNs_le).step h.init.2.1

/-- **A run** keeps the bound, from the start of a window of the pair on. -/
theorem run_bounded (h : InOrder calls)
    (hphase : (∀ c ∈ calls, (c.nowNs : ℕ) ≤ startNs)
      ∨ ∃ o ∈ machine.outs zero calls, o.opens = true ∧ o.pair = p ∧ o.nowNs = startNs) :
    Bounded p startNs (machine.run zero calls) (machine.outs zero calls) (endNs calls) := by
  induction calls using List.reverseRecOn with
  | nil => exact ⟨Nat.zero_le _, fun _ => covered_zero _ _ _ _⟩
  | append_singleton calls c ih =>
    obtain ⟨hinit, hpos, hle⟩ := h.init
    -- before the start all calls are early, and after it the opening is in the past
    have hsplit : ((∀ d ∈ calls, (d.nowNs : ℕ) ≤ startNs)
          ∨ ∃ o ∈ machine.outs zero calls, o.opens = true ∧ o.pair = p ∧ o.nowNs = startNs)
        ∧ ((c.nowNs : ℕ) ≤ startNs
          ∨ ∃ o ∈ machine.outs zero calls, o.opens = true ∧ o.pair = p ∧ o.nowNs = startNs) := by
      rcases hphase with hearly | ⟨o, ho, hopens, hopair, hostart⟩
      · exact ⟨Or.inl fun d hd => hearly d (List.mem_append_left _ hd),
          Or.inl (hearly c (List.mem_append_right _ (List.mem_singleton_self c)))⟩
      · rw [outs_snoc] at ho
        rcases List.mem_append.mp ho with ho | ho
        · exact ⟨Or.inr ⟨o, ho, hopens, hopair, hostart⟩,
            Or.inr ⟨o, ho, hopens, hopair, hostart⟩⟩
        · have hnow : (c.nowNs : ℕ) = startNs := by
            rw [← hostart, List.mem_singleton.mp ho]
            rfl
          exact ⟨Or.inl fun d hd => (hle d hd).trans hnow.le, Or.inl hnow.le⟩
    rw [run_snoc, outs_snoc, endNs_snoc]
    exact (ih hinit hsplit.1).step (run_booked hinit) hpos h.endNs_le hsplit.2

/-! ## What it takes to take over an entry -/

/-- A pair that opened a window is one of those that did. -/
theorem mem_openers {fromNs toNs : ℕ} (he : e ∈ es) (hopens : e.opens = true)
    (hfrom : fromNs ≤ e.nowNs) (hto : e.nowNs ≤ toNs) : e.pair ∈ openers es fromNs toNs := by
  unfold openers
  rw [List.mem_toFinset]
  exact List.mem_map_of_mem (List.mem_filter.mpr ⟨he, decide_eq_true ⟨hopens, hfrom, hto⟩⟩)

/-- **The entry of a pair is taken over** only after 64 others have opened windows. -/
theorem Booked.openers (h : Booked s es c.nowNs) (hevicts : (s.event c).evicts = some p)
    {o : BudgetEvent} (ho : o ∈ es) (hopens : o.opens = true) (hopair : o.pair = p) :
    64 ≤ ((openers (es ++ [s.event c]) o.nowNs c.nowNs).erase p).card := by
  have hmove := h.move
  generalize (s.takeBudget c).1.inodeBudgets = b at hmove
  generalize s.event c = e at hmove hevicts ⊢
  cases hmove with
  | refuse => exact absurd hevicts.symm (Option.some_ne_none p)
  | goOn => exact absurd hevicts.symm (Option.some_ne_none p)
  | renew => exact absurd hevicts.symm (Option.some_ne_none p)
  | start => exact absurd hevicts.symm (Option.some_ne_none p)
  | takeOver i hc hmiss hfull hmin =>
    obtain rfl : (s.inodeBudgets i).pair = p := Option.some.inj hevicts
    have hlate : o.nowNs ≤ (s.inodeBudgets i).windowStartNs :=
      h.latest i (hfull i) o ho hopens hopair
    have hcard := h.unique.card_others hfull hmiss i
    rw [Fintype.card_fin] at hcard
    refine hcard.ge.trans (Finset.card_le_card (Finset.insert_subset ?_ fun a ha => ?_))
    · refine Finset.mem_erase.mpr ⟨fun heq => hmiss i (hfull i) heq.symm, ?_⟩
      exact mem_openers (List.mem_append_right _ (List.mem_singleton_self _)) rfl
        (h.past o ho) (Nat.le_refl _)
    · obtain ⟨j, hj, rfl⟩ := Finset.mem_image.mp ha
      obtain ⟨x, hx, hxopens, hxpair, hxnow⟩ := h.opened j (hfull j)
      refine Finset.mem_erase.mpr ⟨h.other (hfull i) (hfull j) (Finset.ne_of_mem_erase hj), ?_⟩
      show (s.inodeBudgets j).pair ∈ _
      rw [← hxpair]
      refine mem_openers (List.mem_append_left _ hx) hxopens ?_ (h.past x hx)
      rw [hxnow]
      exact hlate.trans (hmin j)

/-- **The budget of a pair**, in any run: in the half second from the opening of a window
on it is granted one budget, and one more each time that its entry is taken over; an
entry is taken over only when, since the window was opened, 64 other pairs have opened
theirs; and no two entries carry the same pair. -/
theorem budget_bound (h : InOrder calls) :
    (∀ o ∈ machine.outs zero calls, o.opens = true →
        grantedIn (machine.outs zero calls) o.pair o.nowNs
          ≤ budgetBytes * (takeovers (machine.outs zero calls) o.pair o.nowNs + 1))
      ∧ (∀ c, InOrder (calls ++ [c]) → ∀ o ∈ machine.outs zero calls, o.opens = true →
          (machine.out (machine.run zero calls) c).evicts = some o.pair →
          64 ≤ ((openers (machine.outs zero (calls ++ [c])) o.nowNs c.nowNs).erase o.pair).card)
      ∧ Unique (machine.run zero calls) := by
  refine ⟨fun o ho hopens => ?_, fun c hc o ho hopens hevicts => ?_, (run_booked h).unique⟩
  · exact (run_bounded h (Or.inr ⟨o, ho, hopens, rfl, rfl⟩)).bound
  · rw [outs_snoc]
    exact ((run_booked h).mono hc.endNs_le).openers hevicts ho hopens rfl

/-- A pair uses up its budget, 64 others come, and it is granted another. -/
def crowd : List BudgetCall :=
  ⟨1, 1, 1, budgetBytes⟩ :: ((List.range 64).map fun n => ⟨1, n + 2, 2, 1⟩)
    ++ [⟨1, 1, 3, budgetBytes⟩]

/-- With two pairs the first is granted its budget once. -/
theorem budget_bound_two :
    grantedIn (machine.outs zero [⟨1, 1, 1, budgetBytes⟩, ⟨1, 2, 2, 1⟩, ⟨1, 1, 3, 4096⟩])
      (1, 1) 1 ≤ budgetBytes := by
  refine (budget_bound ?_).1 ⟨(1, 1), 1, budgetBytes, true, none⟩ ?_ rfl
  · decide
  · decide +kernel

/-- More inodes than there are entries: a window of half a second grants two budgets. -/
theorem budget_exceeded : ¬ ∀ calls, InOrder calls → ∀ o ∈ machine.outs zero calls,
    o.opens = true → grantedIn (machine.outs zero calls) o.pair o.nowNs ≤ budgetBytes := by
  intro h
  have hfirst : machine.out zero ⟨1, 1, 1, budgetBytes⟩ = ⟨(1, 1), 1, budgetBytes, true, none⟩ := by
    decide +kernel
  have hgranted := h crowd (by decide +kernel) _ List.mem_cons_self (by rw [hfirst])
  rw [hfirst] at hgranted
  exact absurd hgranted (by decide +kernel)

end PageBudget
