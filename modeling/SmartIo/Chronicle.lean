import SmartIo.StepMachine

/-!
# Runs that leave a record

Two ways to say what happened on the way to a state. A **chain** of labelled
moves is how one step is taken apart: each move adds its events to the record,
and what every move keeps, of the record and the state together, the chain
keeps (`Chain.keeps`). The **chronicle** of a run is the record its steps leave
one after another; what every step keeps holds at the end of the run with the
whole chronicle (`chronicle_invariant`).
-/

variable {σ ι ο ε : Type*}

/-! ## Chains of labelled moves -/

/-- **A chain of moves**, with the events of all of them. -/
inductive Chain (R : σ → List ε → σ → Prop) : σ → List ε → σ → Prop
  | refl (s : σ) : Chain R s [] s
  | move {s t u : σ} {es fs : List ε} (h : R s es t) (hc : Chain R t fs u) :
      Chain R s (es ++ fs) u

namespace Chain

variable {R : σ → List ε → σ → Prop} {s t u : σ} {es fs : List ε}

/-- Nothing happens between equal states. -/
theorem of_eq (h : t = s) : Chain R s [] t := by
  rw [h]
  exact .refl s

/-- One move is a chain. -/
theorem of_move (h : R s es t) : Chain R s es t := by
  have hc : Chain R s (es ++ []) t := .move h (.refl t)
  rwa [List.append_nil] at hc

theorem trans (h₁ : Chain R s es t) (h₂ : Chain R t fs u) : Chain R s (es ++ fs) u := by
  induction h₁ with
  | refl s => exact h₂
  | move h _ ih =>
    rw [List.append_assoc]
    exact .move h (ih h₂)

/-- A quiet chain before another one. -/
theorem after (h₂ : Chain R t fs u) (h₁ : Chain R s [] t) : Chain R s fs u :=
  h₁.trans h₂

/-- A quiet chain after another one. -/
theorem andThen (h₁ : Chain R s es t) (h₂ : Chain R t [] u) : Chain R s es u := by
  have h := h₁.trans h₂
  rwa [List.append_nil] at h

/-- A chain of one kind of moves is a chain of any wider kind. -/
theorem mono {S : σ → List ε → σ → Prop} (hRS : ∀ s es t, R s es t → S s es t)
    (hc : Chain R s es t) : Chain S s es t := by
  induction hc with
  | refl s => exact .refl s
  | move h _ ih => exact .move (hRS _ _ _ h) ih

/-- **The chain rule.** What every move keeps, of the record so far and the
state, the chain keeps. -/
theorem keeps {I : List ε → σ → Prop}
    (hmove : ∀ h s es t, R s es t → I h s → I (h ++ es) t) (hc : Chain R s es t)
    {h : List ε} (hI : I h s) : I (h ++ es) t := by
  induction hc generalizing h with
  | refl s => rwa [List.append_nil]
  | move hR _ ih =>
    rw [← List.append_assoc]
    exact ih (hmove _ _ _ _ hR hI)

/-- What every move keeps of the state alone. -/
theorem keeps_state {I : σ → Prop} (hmove : ∀ s es t, R s es t → I s → I t)
    (hc : Chain R s es t) (hI : I s) : I t :=
  hc.keeps (I := fun _ s => I s) (fun _ s es t => hmove s es t) (h := []) hI

end Chain

/-! ## The chronicle of a run -/

namespace StepMachine

variable (M : StepMachine σ ι ο)

/-- **The chronicle of a run**: the events its steps leave, oldest first. -/
def chronicle (f : σ → ι → List ε) (s : σ) : List ι → List ε
  | [] => []
  | i :: is => f s i ++ chronicle f (M.next s i) is

variable {M} {f : σ → ι → List ε}

/-- **The conditional chronicle rule.** A relation between the record so far and the
state that every step which meets a condition carries over holds at the end of
every run whose steps all meet it. -/
theorem chronicle_of_stepsMeet {I : List ε → σ → Prop} {C : σ → ι → Prop}
    (hstep : ∀ h s i, C s i → I h s → I (h ++ f s i) (M.next s i)) {s : σ} (h₀ : I [] s)
    {is : List ι} (hC : M.StepsMeet C s is) : I (M.chronicle f s is) (M.run s is) := by
  have key : ∀ (is : List ι) (h : List ε) (s : σ), M.StepsMeet C s is → I h s →
      I (h ++ M.chronicle f s is) (M.run s is) := by
    intro is
    induction is with
    | nil =>
      intro h s _ hI
      rwa [chronicle, List.append_nil]
    | cons i is ih =>
      intro h s hC hI
      have hrest := ih (h ++ f s i) (M.next s i) hC.2 (hstep h s i hC.1 hI)
      rwa [List.append_assoc] at hrest
  exact key is [] s hC h₀

/-- **The chronicle rule.** A relation between the record so far and the state
that every step carries over holds at the end of every run. -/
theorem chronicle_invariant {I : List ε → σ → Prop}
    (hstep : ∀ h s i, I h s → I (h ++ f s i) (M.next s i)) {s : σ} (h₀ : I [] s)
    (is : List ι) : I (M.chronicle f s is) (M.run s is) :=
  chronicle_of_stepsMeet (C := fun _ _ => True) (fun h s i _ hI => hstep h s i hI) h₀
    (stepsMeet_of_invariant (I := fun _ => True) (fun _ _ _ => trivial) (fun _ _ _ => trivial)
      trivial is)

end StepMachine
