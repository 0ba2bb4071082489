import Mathlib.Algebra.BigOperators.Group.List.Basic
import Mathlib.Data.List.Nodup

/-!
# Placings

Things are counted into places, and all that one place holds is poured into
another: this is what happens to every statistic that is kept for each processor
and collected by someone else. A **placing** follows the things themselves. It is
the sequence of all of them, each with the place it is in, so that nothing is
ever lost and nothing is in two places – there is no placing that says so. What a
table or a counter holds is then to be read off the content of its place
(`content`), which `put` and `pour` change in the expected way, and a sum over all
places is the sum over all things (`sum_content`).
-/

variable {π α M : Type*}

/-- **A placing**: things, oldest first, each with its place. -/
abbrev Placing (π α : Type*) := List (π × α)

namespace Placing

/-- All the things. -/
def items (P : Placing π α) : List α := P.map Prod.snd

/-- A new thing is put in a place. -/
def put (P : Placing π α) (p : π) (x : α) : Placing π α := P ++ [(p, x)]

@[simp] theorem items_put (P : Placing π α) (p : π) (x : α) :
    (P.put p x).items = P.items ++ [x] := List.map_append

variable [DecidableEq π]

/-- What a place holds. -/
def content (P : Placing π α) (p : π) : List α :=
  P.filterMap fun e => if e.1 = p then some e.2 else none

/-- All that a place holds goes to another. -/
def pour (P : Placing π α) (p q : π) : Placing π α :=
  P.map fun e => (if e.1 = p then q else e.1, e.2)

/-- **Pouring loses nothing** and makes nothing up. -/
@[simp] theorem items_pour (P : Placing π α) (p q : π) : (P.pour p q).items = P.items := by
  unfold items pour
  rw [List.map_map]
  rfl

@[simp] theorem content_nil (p : π) : content ([] : Placing π α) p = [] := rfl

theorem content_cons_self (P : Placing π α) (p : π) (x : α) :
    content ((p, x) :: P) p = x :: P.content p :=
  List.filterMap_cons_some (if_pos rfl)

theorem content_cons_of_ne (P : Placing π α) {p q : π} (h : q ≠ p) (x : α) :
    content ((q, x) :: P) p = P.content p :=
  List.filterMap_cons_none (if_neg h)

theorem mem_content {P : Placing π α} {p : π} {x : α} : x ∈ P.content p ↔ (p, x) ∈ P := by
  unfold content
  rw [List.mem_filterMap]
  constructor
  · rintro ⟨⟨q, y⟩, he, hx⟩
    split at hx
    · rename_i hq
      rwa [← hq, ← Option.some.inj hx]
    · exact absurd hx.symm (Option.some_ne_none x)
  · exact fun h => ⟨(p, x), h, if_pos rfl⟩

/-- A place nothing is in is empty. -/
theorem content_eq_nil {P : Placing π α} {p : π} (h : ∀ e ∈ P, e.1 ≠ p) : P.content p = [] :=
  List.filterMap_eq_nil_iff.mpr fun e he => if_neg (h e he)

theorem content_put_self (P : Placing π α) (p : π) (x : α) :
    (P.put p x).content p = P.content p ++ [x] := by
  show List.filterMap _ (P ++ [(p, x)]) = _
  rw [List.filterMap_append]
  exact congrArg (P.content p ++ ·) (content_cons_self [] p x)

theorem content_put_of_ne (P : Placing π α) {p q : π} (h : q ≠ p) (x : α) :
    (P.put q x).content p = P.content p := by
  show List.filterMap _ (P ++ [(q, x)]) = _
  rw [List.filterMap_append]
  exact (congrArg (P.content p ++ ·) (content_cons_of_ne [] h x)).trans (List.append_nil _)

/-- One thing of a placing that is poured. -/
theorem pour_cons (P : Placing π α) (p q r : π) (x : α) :
    pour ((r, x) :: P) p q = (if r = p then q else r, x) :: P.pour p q := rfl

/-- A place that was poured out is empty. -/
theorem content_pour_self (P : Placing π α) {p q : π} (h : p ≠ q) :
    (P.pour p q).content p = [] := by
  induction P with
  | nil => rfl
  | cons e P ih =>
    rw [pour_cons, content_cons_of_ne, ih]
    split
    · exact h.symm
    · assumption

/-- Every other place keeps what it has. -/
theorem content_pour_of_ne (P : Placing π α) {p q r : π} (hp : r ≠ p) (hq : r ≠ q) :
    (P.pour p q).content r = P.content r := by
  induction P with
  | nil => rfl
  | cons e P ih =>
    obtain ⟨s, x⟩ := e
    rw [pour_cons]
    by_cases hs : s = p
    · rw [if_pos hs, content_cons_of_ne _ hq.symm, content_cons_of_ne _ (hs ▸ hp.symm), ih]
    · rw [if_neg hs]
      by_cases hr : s = r
      · rw [hr, content_cons_self, content_cons_self, ih]
      · rw [content_cons_of_ne _ hr, content_cons_of_ne _ hr, ih]

/-- **The other place** has what it had and what was poured into it. -/
theorem content_pour_into (P : Placing π α) {p q : π} (h : p ≠ q) :
    ((P.pour p q).content q).Perm (P.content q ++ P.content p) := by
  induction P with
  | nil => rfl
  | cons e P ih =>
    obtain ⟨r, x⟩ := e
    rw [pour_cons]
    by_cases hp : r = p
    · rw [if_pos hp, hp, content_cons_self, content_cons_self, content_cons_of_ne _ h]
      exact (ih.cons x).trans List.perm_middle.symm
    · rw [if_neg hp]
      by_cases hq : r = q
      · rw [hq, content_cons_self, content_cons_self, content_cons_of_ne _ h.symm]
        exact ih.cons x
      · rw [content_cons_of_ne _ hq, content_cons_of_ne _ hq, content_cons_of_ne _ hp]
        exact ih

/-! ## Sums over all places -/

/-- A thing more in one of the places is a thing more in all of them. -/
theorem perm_flatMap_cons {ps : List π} (hps : ps.Nodup) {p : π} (hp : p ∈ ps) (x : α)
    (L : π → List α) :
    (ps.flatMap fun q => if q = p then x :: L q else L q).Perm (x :: ps.flatMap L) := by
  obtain ⟨s, t, rfl⟩ := List.append_of_mem hp
  obtain ⟨-, ht, hst⟩ := List.nodup_append.mp hps
  have hoff : ∀ l : List π, p ∉ l →
      (l.flatMap fun q => if q = p then x :: L q else L q) = l.flatMap L := by
    intro l hl
    refine List.flatMap_congr fun q hq => if_neg ?_
    rintro rfl
    exact hl hq
  rw [List.flatMap_append, List.flatMap_append, List.flatMap_cons, List.flatMap_cons,
    if_pos rfl, hoff s (fun hs => hst p hs p List.mem_cons_self rfl),
    hoff t (List.nodup_cons.mp ht).1]
  exact List.perm_middle

/-- **All places together** hold all the things. -/
theorem perm_flatMap_content {ps : List π} (hps : ps.Nodup) {P : Placing π α}
    (hP : ∀ e ∈ P, e.1 ∈ ps) : (ps.flatMap P.content).Perm P.items := by
  induction P with
  | nil =>
    rw [List.flatMap_eq_nil_iff.mpr fun p _ => content_nil p]
    rfl
  | cons e P ih =>
    obtain ⟨p, x⟩ := e
    have hcons : content ((p, x) :: P)
        = fun q => if q = p then x :: content P q else content P q := by
      funext q
      split
      · rename_i hq
        rw [hq, content_cons_self]
      · rename_i hq
        exact content_cons_of_ne P (Ne.symm hq) x
    rw [hcons]
    exact (perm_flatMap_cons hps (hP _ List.mem_cons_self) x _).trans
      ((ih fun e he => hP e (List.mem_cons_of_mem _ he)).cons x)

/-- **Conservation.** What is summed up place by place is the sum over all things. -/
theorem sum_content [AddCommMonoid M] {ps : List π} (hps : ps.Nodup) {P : Placing π α}
    (hP : ∀ e ∈ P, e.1 ∈ ps) (f : α → M) :
    (ps.map fun p => ((P.content p).map f).sum).sum = (P.items.map f).sum := by
  rw [← ((perm_flatMap_content hps hP).map f).sum_eq]
  clear hps hP
  induction ps with
  | nil => rfl
  | cons p ps ih => rw [List.map_cons, List.sum_cons, ih, List.flatMap_cons, List.map_append,
      List.sum_append]

end Placing
