import Mathlib.Algebra.BigOperators.Group.Multiset.Basic

/-!
# Items gathered under summaries

A log that would be too long is kept as summaries: an item opens a summary of its
own, or is absorbed by one that fits it. What the summaries are worth is said here
without any of the tables and lists they pass through. A summary **gathers** some
items if it comes about by opening it with one of them and absorbing the others
(`Gathers`). A multiset of summaries is **grouped** over a multiset of items if the
items can be dealt out to the summaries, every item to one of them, in such a way that
each summary gathers what it is dealt (`Grouped`).

Two moves make summaries, and both keep the grouping (`Grouped.openWith`,
`Grouped.absorbInto`). A summary may say more than its items do, such as where it is
kept, so an item may open any of several.
-/

variable {α ε : Type*}

/-- **A summary gathers items**: it is opened with one of them and absorbs the others,
each when it fits. -/
inductive Gathers (opens : α → ε → Prop) (absorb : ε → α → ε) (fits : ε → α → Prop) :
    ε → Multiset α → Prop
  | opened {a : α} {e : ε} (h : opens a e) : Gathers opens absorb fits e {a}
  | absorbed {e : ε} {A : Multiset α} {a : α} (h : Gathers opens absorb fits e A)
      (hfits : fits e a) : Gathers opens absorb fits (absorb e a) (a ::ₘ A)

/-- **Summaries that account for items**: the items can be dealt out to them. -/
def Grouped (opens : α → ε → Prop) (absorb : ε → α → ε) (fits : ε → α → Prop)
    (summaries : Multiset ε) (items : Multiset α) : Prop :=
  ∃ groups : Multiset (ε × Multiset α),
    (∀ g ∈ groups, Gathers opens absorb fits g.1 g.2) ∧
      groups.map Prod.fst = summaries ∧ (groups.map Prod.snd).sum = items

variable {opens : α → ε → Prop} {absorb : ε → α → ε} {fits : ε → α → Prop}

namespace Grouped

variable {E : Multiset ε} {A B : Multiset α} {a : α} {e : ε}

/-- No summaries account for no items. -/
theorem zero : Grouped opens absorb fits 0 0 :=
  ⟨0, fun _ hg => absurd hg (Multiset.notMem_zero _), rfl, rfl⟩

/-- One more group. -/
theorem cons (h : Grouped opens absorb fits E A) (he : Gathers opens absorb fits e B) :
    Grouped opens absorb fits (e ::ₘ E) (B + A) := by
  obtain ⟨groups, hall, rfl, rfl⟩ := h
  refine ⟨(e, B) ::ₘ groups, fun g hg => ?_, ?_, ?_⟩
  · rcases Multiset.mem_cons.mp hg with rfl | hg
    · exact he
    · exact hall g hg
  · rw [Multiset.map_cons]
  · rw [Multiset.map_cons, Multiset.sum_cons]

/-- **One group taken out.** A summary gathers a part of the items, and the others
account for the rest. -/
theorem uncons (h : Grouped opens absorb fits (e ::ₘ E) A) :
    ∃ B C, B + C = A ∧ Gathers opens absorb fits e B ∧ Grouped opens absorb fits E C := by
  obtain ⟨groups, hall, hE, rfl⟩ := h
  have hmem : e ∈ groups.map Prod.fst := by
    rw [hE]
    exact Multiset.mem_cons_self e E
  obtain ⟨⟨_, B⟩, hg, rfl⟩ := Multiset.mem_map.mp hmem
  obtain ⟨others, rfl⟩ := Multiset.exists_cons_of_mem hg
  rw [Multiset.map_cons, Multiset.cons_inj_right] at hE
  refine ⟨B, (others.map Prod.snd).sum, ?_, hall _ hg, others, ?_, hE, rfl⟩
  · rw [Multiset.map_cons, Multiset.sum_cons]
  · exact fun g hg => hall g (Multiset.mem_cons_of_mem hg)

/-- **A summary is opened** with an item. -/
theorem openWith (h : Grouped opens absorb fits E A) (hopens : opens a e) :
    Grouped opens absorb fits (e ::ₘ E) (a ::ₘ A) := by
  have hcons := h.cons (Gathers.opened hopens)
  rwa [Multiset.singleton_add] at hcons

/-- **A summary absorbs** one more item. -/
theorem absorbInto (h : Grouped opens absorb fits (e ::ₘ E) A) (hfits : fits e a) :
    Grouped opens absorb fits (absorb e a ::ₘ E) (a ::ₘ A) := by
  obtain ⟨B, C, rfl, he, hC⟩ := h.uncons
  rw [← Multiset.cons_add]
  exact hC.cons (he.absorbed hfits)

end Grouped
