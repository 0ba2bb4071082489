import SmartIo.SlotScan

/-!
# Slots that keep the newest entries

Entries with a key and a stamp are put into a table of slots one after another, each
newer than those before. A new entry goes where an entry of its key is; else where an
entry is not wanted any more; else it takes the place of the oldest. What the table
keeps is then read off the list of all entries, newest first: a slot in use holds the
newest entry of its key, and an entry that is the newest of its key is in some slot as
long as it is wanted and the newer entries have fewer other keys than there are slots
(`Keeps`).
-/

variable {ι α κ : Type*}

/-! ## Entries, newest first -/

section Newest

variable [DecidableEq κ] (key : α → κ)

/-- **The newest entry of a key.** -/
def newest (k : κ) (l : List α) : Option α := l.find? fun x => decide (key x = k)

/-- **The keys of the entries that are newer** than those of a key. -/
def newerKeys (k : κ) (l : List α) : Finset κ :=
  ((l.takeWhile fun x => decide (key x ≠ k)).map key).toFinset

variable {key} {k : κ} {l : List α} {x m e : α}

theorem newest_cons_self (x : α) (l : List α) : newest key (key x) (x :: l) = some x :=
  List.find?_cons_of_pos (decide_eq_true rfl)

theorem newest_cons_ne (h : key x ≠ k) (l : List α) :
    newest key k (x :: l) = newest key k l :=
  List.find?_cons_of_neg (by rwa [decide_eq_true_eq])

theorem key_of_newest (h : newest key k l = some m) : key m = k :=
  of_decide_eq_true (List.find?_some (p := fun x => decide (key x = k)) h)

theorem mem_of_newest (h : newest key k l = some m) : m ∈ l := List.mem_of_find?_eq_some h

/-- Another entry adds its key to those that are newer. -/
theorem newerKeys_cons_ne (h : key x ≠ k) (l : List α) :
    newerKeys key k (x :: l) = insert (key x) (newerKeys key k l) := by
  unfold newerKeys
  rw [List.takeWhile_cons_of_pos (p := fun x => decide (key x ≠ k)) (decide_eq_true h),
    List.map_cons, List.toFinset_cons]

/-- **What has the later stamp is newer.** -/
theorem mem_newerKeys {stamp : α → ℕ} (hl : l.Pairwise fun a b => stamp b < stamp a)
    (hm : newest key k l = some m) (he : e ∈ l) (hne : key e ≠ k) (hle : stamp m ≤ stamp e) :
    key e ∈ newerKeys key k l := by
  induction l with
  | nil => exact absurd he List.not_mem_nil
  | cons x l ih =>
    obtain ⟨hx, hl⟩ := List.pairwise_cons.mp hl
    by_cases hkey : key x = k
    · have hmx : m = x := by
        rw [← hkey, newest_cons_self] at hm
        exact (Option.some.inj hm).symm
      rcases List.mem_cons.mp he with rfl | he
      · exact absurd hkey hne
      · rw [hmx] at hle
        exact absurd (hx e he) (Nat.not_lt.mpr hle)
    · rw [newest_cons_ne hkey] at hm
      rw [newerKeys_cons_ne hkey]
      rcases List.mem_cons.mp he with rfl | he
      · exact Finset.mem_insert_self _ _
      · exact Finset.mem_insert_of_mem (ih hl hm he)

end Newest

/-! ## What the slots keep -/

/-- **Slots keep the newest entries** of a list, those that are wanted. -/
structure Keeps [Fintype ι] [DecidableEq κ] (key : α → κ) (stamp : α → ℕ)
    (used wanted : α → Prop) (slots : ι → α) (l : List α) : Prop where
  sorted : l.Pairwise fun a b => stamp b < stamp a
  entries : ∀ x ∈ l, used x
  unique : UniqueKeys key used slots
  latest : ∀ i, used (slots i) → newest key (key (slots i)) l = some (slots i)
  kept : ∀ k m, newest key k l = some m → wanted m →
    (newerKeys key k l).card < Fintype.card ι → ∃ i, slots i = m

/-- **The slot that a new entry goes to**: that of its key, or with no slot of its key
one that is not wanted, or with none of these the oldest. -/
inductive Takes (key : α → κ) (stamp : α → ℕ) (used wanted : α → Prop) (slots : ι → α)
    (k : κ) (i : ι) : Prop
  | same (hused : used (slots i)) (hkey : key (slots i) = k)
  | free (hmiss : ∀ j, used (slots j) → key (slots j) ≠ k)
      (hfree : ¬ (used (slots i) ∧ wanted (slots i)))
  | oldest (hmiss : ∀ j, used (slots j) → key (slots j) ≠ k) (hfull : ∀ j, used (slots j))
      (hmin : ∀ j, stamp (slots i) ≤ stamp (slots j))

namespace Keeps

variable [Fintype ι] [DecidableEq ι] [DecidableEq κ] {key : α → κ} {stamp : α → ℕ}
  {used wanted wanted' : α → Prop} {slots : ι → α} {l : List α} {i : ι} {x : α}

omit [DecidableEq ι] in
/-- Slots none of which is in use keep nothing. -/
theorem nil (h : ∀ i, ¬ used (slots i)) : Keeps key stamp used wanted slots [] where
  sorted := List.Pairwise.nil
  entries _ hx := absurd hx List.not_mem_nil
  unique i _ hi := absurd hi (h i)
  latest i hi := absurd hi (h i)
  kept _ m hm := absurd hm.symm (Option.some_ne_none m)

omit [DecidableEq ι] in
/-- Fewer entries are wanted as time goes by. -/
theorem mono (h : Keeps key stamp used wanted slots l) (hle : ∀ m, wanted' m → wanted m) :
    Keeps key stamp used wanted' slots l :=
  ⟨h.sorted, h.entries, h.unique, h.latest, fun k m hm hwanted => h.kept k m hm (hle m hwanted)⟩

/-- **A slot is emptied** that is not wanted. -/
theorem clear (h : Keeps key stamp used wanted slots l) (hi : ¬ wanted (slots i))
    (hx : ¬ used x) : Keeps key stamp used wanted (Function.update slots i x) l := by
  refine ⟨h.sorted, h.entries, h.unique.update fun hused => absurd hused hx, fun j hj => ?_,
    fun k m hm hwanted hcard => ?_⟩
  · by_cases hji : j = i
    · rw [hji, Function.update_self] at hj
      exact absurd hj hx
    · rw [Function.update_of_ne hji] at hj ⊢
      exact h.latest j hj
  · obtain ⟨j, rfl⟩ := h.kept k m hm hwanted hcard
    have hji : j ≠ i := by
      rintro rfl
      exact hi hwanted
    exact ⟨j, Function.update_of_ne hji x slots⟩

/-- **The oldest slot** is the newest of its key only while there are few newer keys. -/
theorem card_le_of_oldest (h : Keeps key stamp used wanted slots l) {k : κ}
    (hmiss : ∀ j, used (slots j) → key (slots j) ≠ k) (hfull : ∀ j, used (slots j))
    (hmin : ∀ j, stamp (slots i) ≤ stamp (slots j)) :
    Fintype.card ι ≤ (insert k (newerKeys key (key (slots i)) l)).card := by
  rw [← h.unique.card_others hfull hmiss i]
  refine Finset.card_le_card (Finset.insert_subset_insert k fun a ha => ?_)
  obtain ⟨j, hj, rfl⟩ := Finset.mem_image.mp ha
  refine mem_newerKeys h.sorted (h.latest i (hfull i)) (mem_of_newest (h.latest j (hfull j)))
    (fun heq => ?_) (hmin j)
  exact Finset.ne_of_mem_erase hj (h.unique j i (hfull j) (hfull i) heq)

/-- **A new entry** is put into the slots. -/
theorem put (h : Keeps key stamp used wanted slots l) (hx : used x)
    (hnew : ∀ y ∈ l, stamp y < stamp x)
    (hi : Takes key stamp used wanted slots (key x) i) :
    Keeps key stamp used wanted (Function.update slots i x) (x :: l) := by
  have hother : ∀ j, j ≠ i → used (slots j) → key (slots j) ≠ key x := by
    intro j hji hj heq
    cases hi with
    | same hused hkey => exact hji (h.unique j i hj hused (heq.trans hkey.symm))
    | free hmiss _ => exact hmiss j hj heq
    | oldest hmiss _ _ => exact hmiss j hj heq
  refine ⟨List.pairwise_cons.mpr ⟨hnew, h.sorted⟩, fun y hy => ?_, h.unique.update fun _ => hother,
    fun j hj => ?_, fun k m hm hwanted hcard => ?_⟩
  · rcases List.mem_cons.mp hy with rfl | hy
    · exact hx
    · exact h.entries y hy
  · by_cases hji : j = i
    · rw [hji, Function.update_self]
      exact newest_cons_self x l
    · rw [Function.update_of_ne hji] at hj ⊢
      rw [newest_cons_ne fun heq => hother j hji hj heq.symm]
      exact h.latest j hj
  · by_cases hk : key x = k
    · rw [← hk, newest_cons_self] at hm
      rw [← Option.some.inj hm]
      exact ⟨i, Function.update_self i x slots⟩
    · rw [newest_cons_ne hk] at hm
      rw [newerKeys_cons_ne hk] at hcard
      obtain ⟨j, rfl⟩ := h.kept k m hm hwanted
        (Nat.lt_of_le_of_lt (Finset.card_le_card (Finset.subset_insert _ _)) hcard)
      refine ⟨j, Function.update_of_ne ?_ x slots⟩
      rintro rfl
      have hused := h.entries _ (mem_of_newest hm)
      cases hi with
      | same _ hkey => exact hk (hkey.symm.trans (key_of_newest hm))
      | free _ hfree => exact hfree ⟨hused, hwanted⟩
      | oldest hmiss hfull hmin =>
        rw [← key_of_newest hm] at hcard
        exact absurd (h.card_le_of_oldest hmiss hfull hmin) (Nat.not_le.mpr hcard)

end Keeps
