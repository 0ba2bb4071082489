import Mathlib.Data.List.Basic
import Mathlib.Data.List.Infix

/-!
# Chained hash tables

A chained hash table with the bucket of a key at the mercy of a hash function.
An entry is added at the head of its bucket, so the table is the list of its
entries, newest first, and a bucket is the sublist of the entries whose key
hashes to it – in the same order, which is what a lookup that returns the first
match depends on.

A lookup walks one bucket and gives up after a budget of entries. It never
returns a wrong entry (`scan_some`), and with a budget that covers the table it
finds one whenever there is one (`exists_scan_of_mem`).

A table that is an index holds a set of values, each once and under a key of its
own (`Files`). It stays one as values are added and unlinked, and a lookup in it
answers a question about the set (`Files.isSome_scan`).
-/

variable {κ β α : Type*}

/-- A chained hash table: its entries, newest first. -/
abbrev ChainTable (κ α : Type*) := List (κ × α)

namespace ChainTable

/-- Add an entry at the head of its bucket. -/
def add (k : κ) (v : α) (t : ChainTable κ α) : ChainTable κ α := (k, v) :: t

/-- Unlink the node that carries a value. -/
def del [DecidableEq α] (v : α) (t : ChainTable κ α) : ChainTable κ α :=
  t.filter (fun e => e.2 ≠ v)

/-- The values of every bucket. -/
def all (t : ChainTable κ α) : List α := t.map Prod.snd

/-- The values of the bucket a key hashes to. -/
def possible [DecidableEq β] (h : κ → β) (k : κ) (t : ChainTable κ α) : List α :=
  (t.filter (fun e => h e.1 = h k)).map Prod.snd

/-- The first value of a key's bucket that passes a test, among as many entries
as the budget allows. -/
def scan [DecidableEq β] (h : κ → β) (k : κ) (budget : ℕ) (p : α → Bool)
    (t : ChainTable κ α) : Option α :=
  ((t.possible h k).take budget).find? p

@[simp] theorem all_nil : all ([] : ChainTable κ α) = [] := rfl

@[simp] theorem all_add (k : κ) (v : α) (t : ChainTable κ α) :
    (t.add k v).all = v :: t.all := rfl

@[simp] theorem mem_all_del [DecidableEq α] {v w : α} {t : ChainTable κ α} :
    w ∈ (t.del v).all ↔ w ∈ t.all ∧ w ≠ v := by
  simp only [all, del, List.mem_map, List.mem_filter, decide_eq_true_eq]
  constructor
  · rintro ⟨e, ⟨he, hne⟩, rfl⟩
    exact ⟨⟨e, he, rfl⟩, hne⟩
  · rintro ⟨⟨e, he, rfl⟩, hne⟩
    exact ⟨e, ⟨he, hne⟩, rfl⟩

/-- Unlinking a value is filtering the values. -/
theorem all_del [DecidableEq α] (v : α) (t : ChainTable κ α) :
    (t.del v).all = t.all.filter (fun w => w ≠ v) := by
  unfold all del
  rw [List.filter_map]
  rfl

/-- A bucket holds no more than the table. -/
theorem length_possible_le [DecidableEq β] (h : κ → β) (k : κ)
    (t : ChainTable κ α) : (t.possible h k).length ≤ t.all.length := by
  unfold possible all
  rw [List.length_map, List.length_map]
  exact List.length_filter_le _ _

/-- What is in a bucket is in the table. -/
theorem mem_all_of_mem_possible [DecidableEq β] {h : κ → β} {k : κ} {v : α}
    {t : ChainTable κ α} (hv : v ∈ t.possible h k) : v ∈ t.all := by
  obtain ⟨e, he, rfl⟩ := List.mem_map.mp hv
  exact List.mem_map_of_mem (List.mem_filter.mp he).1

/-- An entry is in the bucket of its own key. -/
theorem mem_possible_of_mem [DecidableEq β] (h : κ → β) {k : κ} {v : α}
    {t : ChainTable κ α} (hv : (k, v) ∈ t) : v ∈ t.possible h k :=
  List.mem_map.mpr ⟨(k, v), List.mem_filter.mpr ⟨hv, by simp⟩, rfl⟩

/-- **A lookup returns an entry of the table that passes the test.** -/
theorem scan_some [DecidableEq β] {h : κ → β} {k : κ} {budget : ℕ} {p : α → Bool}
    {t : ChainTable κ α} {v : α} (hv : t.scan h k budget p = some v) :
    v ∈ t.all ∧ p v = true :=
  ⟨mem_all_of_mem_possible (List.mem_of_mem_take (List.mem_of_find?_eq_some hv)),
    List.find?_some hv⟩

/-- **With a budget that covers the table a lookup misses nothing**: it returns
a value as soon as an entry of the key passes the test. -/
theorem exists_scan_of_mem [DecidableEq β] (h : κ → β) {k : κ} {budget : ℕ}
    {p : α → Bool} {t : ChainTable κ α} (hb : t.all.length ≤ budget) {v : α}
    (hv : (k, v) ∈ t) (hp : p v = true) :
    ∃ w, t.scan h k budget p = some w := by
  unfold scan
  rw [List.take_of_length_le ((length_possible_le h k t).trans hb)]
  exact Option.isSome_iff_exists.mp
    (List.find?_isSome.mpr ⟨v, mem_possible_of_mem h hv, hp⟩)

/-! ## Indices -/

/-- **A table files a set of values**: each value of the set is in it once, under
its key, and nothing else is. -/
structure Files (p : α → Prop) (key : α → κ) (t : ChainTable κ α) : Prop where
  nodup : t.all.Nodup
  mem_iff : ∀ k v, (k, v) ∈ t ↔ p v ∧ k = key v

namespace Files

variable {p p' : α → Prop} {key key' : α → κ} {t : ChainTable κ α}

theorem nil (h : ∀ v, ¬ p v) : Files p key ([] : ChainTable κ α) where
  nodup := List.nodup_nil
  mem_iff _ v := iff_of_false List.not_mem_nil fun hv => h v hv.1

/-- The set and the keys matter only as far as they differ. -/
theorem congr (h : t.Files p key) (hp : ∀ v, p' v ↔ p v) (hkey : ∀ v, p v → key' v = key v) :
    t.Files p' key' where
  nodup := h.nodup
  mem_iff k v := by
    rw [h.mem_iff, hp]
    exact and_congr_right fun hv => by rw [hkey v hv]

/-- The values are those of the set. -/
theorem mem_all (h : t.Files p key) {v : α} : v ∈ t.all ↔ p v := by
  constructor
  · intro hv
    obtain ⟨⟨k, u⟩, he, rfl⟩ := List.mem_map.mp hv
    exact ((h.mem_iff k u).mp he).1
  · intro hv
    exact List.mem_map_of_mem ((h.mem_iff (key v) v).mpr ⟨hv, rfl⟩)

/-- A new value is filed under its key. -/
theorem add (h : t.Files p key) {v : α} (hv : ¬ p v) (hp : ∀ u, p' u ↔ u = v ∨ p u)
    (hkey : ∀ u, p u → key' u = key u) : (t.add (key' v) v).Files p' key' where
  nodup := List.nodup_cons.mpr ⟨fun hmem => hv (h.mem_all.mp hmem), h.nodup⟩
  mem_iff k u := by
    rw [hp]
    constructor
    · intro hmem
      rcases List.mem_cons.mp hmem with heq | hmem
      · obtain ⟨rfl, rfl⟩ := Prod.mk.inj heq
        exact ⟨Or.inl rfl, rfl⟩
      · obtain ⟨hu, rfl⟩ := (h.mem_iff k u).mp hmem
        exact ⟨Or.inr hu, (hkey u hu).symm⟩
    · rintro ⟨rfl | hu, rfl⟩
      · exact List.mem_cons_self
      · rw [hkey u hu]
        exact List.mem_cons_of_mem _ ((h.mem_iff _ u).mpr ⟨hu, rfl⟩)

/-- An unlinked value is filed no longer. -/
theorem del [DecidableEq α] (h : t.Files p key) {v : α} (hp : ∀ u, p' u ↔ p u ∧ u ≠ v)
    (hkey : ∀ u, p' u → key' u = key u) : (t.del v).Files p' key' where
  nodup := by
    rw [all_del]
    exact h.nodup.filter _
  mem_iff k u := by
    rw [show (k, u) ∈ t.del v ↔ (k, u) ∈ t ∧ u ≠ v by
      rw [ChainTable.del, List.mem_filter, decide_eq_true_eq], h.mem_iff]
    constructor
    · rintro ⟨⟨hu, rfl⟩, hne⟩
      have hu' : p' u := (hp u).mpr ⟨hu, hne⟩
      exact ⟨hu', (hkey u hu').symm⟩
    · rintro ⟨hu, rfl⟩
      exact ⟨⟨((hp u).mp hu).1, hkey u hu⟩, ((hp u).mp hu).2⟩

/-- **A lookup in an index** that covers it, for a test that fixes the key, tells
whether a value of the set passes. -/
theorem isSome_scan [DecidableEq β] (h : t.Files p key) (hash : κ → β) {k : κ} {budget : ℕ}
    (hbudget : t.all.length ≤ budget) {test : α → Bool}
    (hkey : ∀ v, p v → test v = true → key v = k) :
    (t.scan hash k budget test).isSome = true ↔ ∃ v, p v ∧ test v = true := by
  constructor
  · intro hsome
    obtain ⟨v, hv⟩ := Option.isSome_iff_exists.mp hsome
    obtain ⟨hmem, htest⟩ := scan_some hv
    exact ⟨v, h.mem_all.mp hmem, htest⟩
  · rintro ⟨v, hv, htest⟩
    have hmem : (k, v) ∈ t := (h.mem_iff k v).mpr ⟨hv, (hkey v hv htest).symm⟩
    exact Option.isSome_iff_exists.mpr (exists_scan_of_mem hash hbudget hmem htest)

end Files

end ChainTable
