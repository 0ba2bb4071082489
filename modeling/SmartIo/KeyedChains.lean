import Mathlib.Data.List.Nodup
import Mathlib.Logic.Function.Basic

/-!
# Keyed chains

A hash table as it is written in C: an array of chains, a key in every entry, and a
lookup that walks the chain of the key's hash up to the first entry with the key.
Nothing in the type keeps an entry out of a wrong chain, or a second entry of a key
out of the right one; that no operation brings it about is what `Represents` says.
A table **represents** a partial function of the keys if the entries of a key, in its
chain and everywhere else, are the value of the function and no more.

The one operation is to change the entry of a key if there is one and to add a new
one in front if there is none (`upsert`). Emptying one table into another by it
merges the functions (`Represents.absorb`).
-/

variable {κ β α : Type*}

/-! ## The first of a chain -/

/-- Change the first entry of a chain that passes a test, if there is one. -/
def updateFirst (p : α → Bool) (f : α → α) : List α → Option (List α)
  | [] => none
  | a :: l => if p a then some (f a :: l) else (updateFirst p f l).map (a :: ·)

section UpdateFirst

variable {p q : α → Bool} {f : α → α} {l l' : List α}

theorem updateFirst_cons_of_pos {a : α} (h : p a = true) :
    updateFirst p f (a :: l) = some (f a :: l) := if_pos h

theorem updateFirst_cons_of_neg {a : α} (h : ¬ p a = true) :
    updateFirst p f (a :: l) = (updateFirst p f l).map (a :: ·) := if_neg h

/-- **No entry is changed** exactly if none passes the test. -/
theorem updateFirst_eq_none : updateFirst p f l = none ↔ l.filter p = [] := by
  induction l with
  | nil => exact ⟨fun _ => rfl, fun _ => rfl⟩
  | cons a l ih =>
    by_cases ha : p a = true
    · rw [updateFirst_cons_of_pos ha, List.filter_cons_of_pos ha]
      exact ⟨fun h => absurd h (Option.some_ne_none _), fun h => absurd h (List.cons_ne_nil _ _)⟩
    · rw [updateFirst_cons_of_neg ha, List.filter_cons_of_neg ha, Option.map_eq_none_iff]
      exact ih

/-- **The entry that is changed** is the first that passes. -/
theorem filter_updateFirst (hf : ∀ a, p a = true → p (f a) = true)
    (h : updateFirst p f l = some l') :
    ∃ a rest, l.filter p = a :: rest ∧ l'.filter p = f a :: rest := by
  induction l generalizing l' with
  | nil => exact absurd h.symm (Option.some_ne_none l')
  | cons a l ih =>
    by_cases ha : p a = true
    · rw [updateFirst_cons_of_pos ha] at h
      refine ⟨a, l.filter p, List.filter_cons_of_pos ha, ?_⟩
      rw [← Option.some.inj h, List.filter_cons_of_pos (hf a ha)]
    · rw [updateFirst_cons_of_neg ha, Option.map_eq_some_iff] at h
      obtain ⟨l'', hl'', rfl⟩ := h
      obtain ⟨b, rest, hb, hb'⟩ := ih hl''
      refine ⟨b, rest, ?_, ?_⟩
      · rw [List.filter_cons_of_neg ha, hb]
      · rw [List.filter_cons_of_neg ha, hb']

/-- What passes another test is left alone. -/
theorem filter_updateFirst_of_disjoint (hq : ∀ a, p a = true → ¬ q a = true ∧ ¬ q (f a) = true)
    (h : updateFirst p f l = some l') : l'.filter q = l.filter q := by
  induction l generalizing l' with
  | nil => exact absurd h.symm (Option.some_ne_none l')
  | cons a l ih =>
    by_cases ha : p a = true
    · rw [updateFirst_cons_of_pos ha] at h
      rw [← Option.some.inj h, List.filter_cons_of_neg (hq a ha).1,
        List.filter_cons_of_neg (hq a ha).2]
    · rw [updateFirst_cons_of_neg ha, Option.map_eq_some_iff] at h
      obtain ⟨l'', hl'', rfl⟩ := h
      rw [List.filter_cons, List.filter_cons, ih hl'']

/-- **Where the change is**: behind entries that all fail the test. -/
theorem exists_append_of_updateFirst (h : updateFirst p f l = some l') :
    ∃ l₁ a l₂, l = l₁ ++ a :: l₂ ∧ l' = l₁ ++ f a :: l₂ ∧ p a = true ∧
      ∀ b ∈ l₁, ¬ p b = true := by
  induction l generalizing l' with
  | nil => exact absurd h.symm (Option.some_ne_none l')
  | cons a l ih =>
    by_cases ha : p a = true
    · rw [updateFirst_cons_of_pos ha] at h
      exact ⟨[], a, l, rfl, (Option.some.inj h).symm, ha, fun b hb => absurd hb List.not_mem_nil⟩
    · rw [updateFirst_cons_of_neg ha, Option.map_eq_some_iff] at h
      obtain ⟨l'', hl'', rfl⟩ := h
      obtain ⟨l₁, b, l₂, rfl, rfl, hb, hl₁⟩ := ih hl''
      refine ⟨a :: l₁, b, l₂, rfl, rfl, hb, fun c hc => ?_⟩
      rcases List.mem_cons.mp hc with rfl | hc
      · exact ha
      · exact hl₁ c hc

/-- An entry of the changed chain was one of the chain, or is the changed one. -/
theorem mem_updateFirst {b : α} (h : updateFirst p f l = some l') (hb : b ∈ l') :
    b ∈ l ∨ ∃ a ∈ l, p a = true ∧ b = f a := by
  induction l generalizing l' with
  | nil => exact absurd h.symm (Option.some_ne_none l')
  | cons a l ih =>
    by_cases ha : p a = true
    · rw [updateFirst_cons_of_pos ha] at h
      rw [← Option.some.inj h, List.mem_cons] at hb
      rcases hb with hb | hb
      · exact Or.inr ⟨a, List.mem_cons_self, ha, hb⟩
      · exact Or.inl (List.mem_cons_of_mem a hb)
    · rw [updateFirst_cons_of_neg ha, Option.map_eq_some_iff] at h
      obtain ⟨l'', hl'', rfl⟩ := h
      rcases List.mem_cons.mp hb with hb | hb
      · exact Or.inl (hb ▸ List.mem_cons_self)
      · rcases ih hl'' hb with hl | ⟨c, hc, hpc, rfl⟩
        · exact Or.inl (List.mem_cons_of_mem a hl)
        · exact Or.inr ⟨c, List.mem_cons_of_mem a hc, hpc, rfl⟩

end UpdateFirst

/-! ## Tables -/

/-- **A table of chains.** -/
abbrev Chains (β α : Type*) := β → List α

namespace Chains

/-- **One chain and all the others**: whatever is put in the place of a chain, the rest of
the table is the same. -/
theorem exists_rest [DecidableEq β] (t : Chains β α) {bs : List β} (hbs : bs.Nodup) {b : β}
    (hb : b ∈ bs) :
    ∃ rest, ∀ l, (bs.flatMap (Function.update t b l)).Perm (l ++ rest) := by
  obtain ⟨bs₁, bs₂, rfl⟩ := List.append_of_mem hb
  obtain ⟨-, hbs₂, hdisjoint⟩ := List.nodup_append.mp hbs
  have hoff : ∀ cs : List β, b ∉ cs → ∀ l,
      cs.flatMap (Function.update t b l) = cs.flatMap t := by
    intro cs hcs l
    refine List.flatMap_congr fun c hc => ?_
    have hne : c ≠ b := fun h => hcs (h ▸ hc)
    rw [Function.update_of_ne hne]
  refine ⟨bs₁.flatMap t ++ bs₂.flatMap t, fun l => ?_⟩
  rw [List.flatMap_append, List.flatMap_cons, Function.update_self,
    hoff bs₁ (fun h => hdisjoint b h b List.mem_cons_self rfl),
    hoff bs₂ (List.nodup_cons.mp hbs₂).1, ← List.append_assoc, ← List.append_assoc]
  exact List.perm_append_comm.append_right _

variable [DecidableEq κ] (key : α → κ) (hash : κ → β)

/-- Whether an entry is of a key. -/
def hasKey (k : κ) (a : α) : Bool := key a = k

@[simp] theorem hasKey_iff {k : κ} {a : α} : hasKey key k a = true ↔ key a = k := decide_eq_true_iff

/-- The entries of a key, in its chain. -/
def entries (t : Chains β α) (k : κ) : List α := (t (hash k)).filter (hasKey key k)

/-- **Change the entry of a key**, or else add a new one in front. -/
def upsert [DecidableEq β] (f : α → α) (a : α) (t : Chains β α) : Chains β α :=
  match updateFirst (hasKey key (key a)) f (t (hash (key a))) with
  | some l => Function.update t (hash (key a)) l
  | none => Function.update t (hash (key a)) (a :: t (hash (key a)))

/-- **A table represents a partial function** of the keys: every entry is in the
chain of its key, and the entries of a key are the value at the key. -/
structure Represents (v : κ → Option α) (t : Chains β α) : Prop where
  filed : ∀ b, ∀ a ∈ t b, hash (key a) = b
  entries_eq : ∀ k, entries key hash t k = (v k).toList

variable {key hash} {v v' w : κ → Option α} {t u : Chains β α}

namespace Represents

theorem empty : Represents key hash (fun _ => none) (fun _ => ([] : List α)) where
  filed _ _ ha := absurd ha List.not_mem_nil
  entries_eq _ := rfl

theorem congr (h : Represents key hash v t) (hv : ∀ k, v' k = v k) : Represents key hash v' t where
  filed := h.filed
  entries_eq k := by
    rw [hv]
    exact h.entries_eq k

/-- **All entries of a key**, in all chains. -/
theorem filter_flatMap (h : Represents key hash v t) {bs : List β} (hbs : bs.Nodup) {k : κ}
    (hk : hash k ∈ bs) : (bs.flatMap t).filter (hasKey key k) = (v k).toList := by
  obtain ⟨l, r, rfl⟩ := List.append_of_mem hk
  obtain ⟨-, hr, hlr⟩ := List.nodup_append.mp hbs
  have hoff : ∀ l : List β, hash k ∉ l → (l.flatMap t).filter (hasKey key k) = [] := by
    intro l hl
    refine List.filter_eq_nil_iff.mpr fun a ha hak => ?_
    obtain ⟨b, hb, hab⟩ := List.mem_flatMap.mp ha
    rw [← (hasKey_iff key).mp hak, h.filed b a hab] at hl
    exact hl hb
  rw [List.flatMap_append, List.flatMap_cons, List.filter_append, List.filter_append,
    hoff l (fun hl => hlr _ hl _ List.mem_cons_self rfl), hoff r (List.nodup_cons.mp hr).1,
    List.append_nil]
  exact h.entries_eq k

variable [DecidableEq β]

/-- A new chain for a key, in which nothing has changed but the entries of the key. -/
theorem update (h : Represents key hash v t) {k : κ} {l : List α} {o : Option α}
    (hfiled : ∀ a ∈ l, hash (key a) = hash k) (hself : l.filter (hasKey key k) = o.toList)
    (hother : ∀ k', k' ≠ k →
      l.filter (hasKey key k') = (t (hash k)).filter (hasKey key k')) :
    Represents key hash (Function.update v k o) (Function.update t (hash k) l) where
  filed b a ha := by
    by_cases hb : b = hash k
    · rw [hb, Function.update_self] at ha
      rw [hb]
      exact hfiled a ha
    · rw [Function.update_of_ne hb] at ha
      exact h.filed b a ha
  entries_eq k' := by
    unfold entries
    by_cases hk : k' = k
    · rw [hk, Function.update_self, Function.update_self]
      exact hself
    · rw [Function.update_of_ne hk]
      refine Eq.trans ?_ (h.entries_eq k')
      unfold entries
      by_cases hb : hash k' = hash k
      · rw [hb, Function.update_self]
        exact hother k' hk
      · rw [Function.update_of_ne hb]

/-- The entry of the key is changed. -/
theorem update_of_some (h : Represents key hash v t) {f : α → α} {k : κ} {l : List α}
    (hf : ∀ b, key b = k → key (f b) = k)
    (hl : updateFirst (hasKey key k) f (t (hash k)) = some l) :
    ∃ a, v k = some a ∧
      Represents key hash (Function.update v k (some (f a))) (Function.update t (hash k) l) := by
  have hentries := h.entries_eq k
  unfold entries at hentries
  obtain ⟨a, rest, ha, ha'⟩ := filter_updateFirst
    (fun b hb => (hasKey_iff key).mpr (hf b ((hasKey_iff key).mp hb))) hl
  rw [ha] at hentries
  cases hv : v k with
  | none => exact absurd (hentries.trans (congrArg Option.toList hv)) (List.cons_ne_nil _ _)
  | some c =>
    obtain ⟨rfl, rfl⟩ := List.cons.inj (hentries.trans (congrArg Option.toList hv))
    refine ⟨a, rfl, h.update (fun b hb => ?_) ha' fun k' hk =>
      filter_updateFirst_of_disjoint (fun b hb => ?_) hl⟩
    · rcases mem_updateFirst hl hb with hb | ⟨c, -, hc, rfl⟩
      · exact h.filed _ b hb
      · rw [hf c ((hasKey_iff key).mp hc)]
    · rw [hasKey_iff] at hb
      rw [hasKey_iff, hasKey_iff, hf b hb, hb]
      exact ⟨hk.symm, hk.symm⟩

/-- There is no entry of the key, and one is added. -/
theorem update_of_none (h : Represents key hash v t) {f : α → α} {k : κ} {a : α} (ha : key a = k)
    (hl : updateFirst (hasKey key k) f (t (hash k)) = none) :
    v k = none ∧
      Represents key hash (Function.update v k (some a))
        (Function.update t (hash k) (a :: t (hash k))) := by
  have hentries := h.entries_eq k
  unfold entries at hentries
  rw [updateFirst_eq_none] at hl
  refine ⟨?_, h.update (List.forall_mem_cons.mpr ⟨congrArg hash ha, h.filed _⟩) ?_ fun k' hk =>
    List.filter_cons_of_neg ?_⟩
  · rw [hl] at hentries
    exact Option.toList_eq_nil_iff.mp hentries.symm
  · rw [List.filter_cons_of_pos ((hasKey_iff key).mpr ha), hl]
    rfl
  · rw [hasKey_iff, ha]
    exact hk.symm

/-- **An upsert** changes the function at the key. -/
theorem upsert (h : Represents key hash v t) {f : α → α} {a : α}
    (hf : ∀ b, key b = key a → key (f b) = key a) :
    Represents key hash (Function.update v (key a) (some ((v (key a)).elim a f)))
      (upsert key hash f a t) := by
  unfold Chains.upsert
  split
  · rename_i l hl
    obtain ⟨b, hb, hnew⟩ := h.update_of_some hf hl
    rw [hb]
    exact hnew
  · rename_i hl
    obtain ⟨hnone, hnew⟩ := h.update_of_none rfl hl
    rw [hnone]
    exact hnew

/-- Several upserts, one after another. -/
theorem foldl_upsert (h : Represents key hash v t) {merge : α → α → α}
    (hmerge : ∀ a b, key (merge a b) = key a) (as : List α) :
    Represents key hash
      (fun k => (as.filter (hasKey key k)).foldl (fun o a => some (o.elim a (merge · a))) (v k))
      (as.foldl (fun t a => Chains.upsert key hash (merge · a) a t) t) := by
  induction as generalizing v t with
  | nil => exact h
  | cons a as ih =>
    refine (ih (h.upsert fun b hb => (hmerge b a).trans hb)).congr fun k => ?_
    by_cases hk : key a = k
    · rw [List.filter_cons_of_pos ((hasKey_iff key).mpr hk), ← hk, Function.update_self]
      rfl
    · rw [List.filter_cons_of_neg (mt (hasKey_iff key).mp hk),
        Function.update_of_ne (Ne.symm hk)]

/-- **Emptying a table into another** merges what they represent. -/
theorem absorb (h : Represents key hash v t) (hu : Represents key hash w u)
    {merge : α → α → α} (hmerge : ∀ a b, key (merge a b) = key a) {bs : List β} (hbs : bs.Nodup)
    (hall : ∀ b, b ∈ bs) :
    Represents key hash (fun k => Option.merge merge (v k) (w k))
      ((bs.flatMap u).foldl (fun t a => Chains.upsert key hash (merge · a) a t) t) := by
  refine (h.foldl_upsert hmerge (bs.flatMap u)).congr fun k => ?_
  rw [hu.filter_flatMap hbs (hall _)]
  cases v k with
  | none => cases w k with
    | none => rfl
    | some b => rfl
  | some a => cases w k with
    | none => rfl
    | some b => rfl

end Represents

end Chains
