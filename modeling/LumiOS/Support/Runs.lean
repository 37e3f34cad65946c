import Mathlib.Data.List.Induction

/-!
# Support — Runs

Runs of a labelled transition relation `R : σ → ε → σ → Prop`: the list of labels taken, in order,
and the states at its two ends.  A run is prefix-closed and composes (`Run.append_iff`), and an
invariant of one step is an invariant of a run (`Run.invariant`).  A relation may carry a side
condition on its steps; a run under the stronger relation is one under the weaker (`Run.mono`).

What is said of every state of a run, or of every step, is said with `Passes` and `Takes`: they are the
states and steps of the runs along the beginnings of a list of labels, so that a condition on the steps
can be assumed up to a state (`Passes.induction`), and a given list be gone through step by step
(`Takes.cons_iff`).
-/

namespace Support

universe u v

variable {σ : Type u} {ε : Type v} {R R' : σ → ε → σ → Prop} {s s₁ s' : σ} {e : ε}
  {es es₁ es₂ : List ε}

/-- A run of `R` from `s` to `s'`, taking the labels `es`. -/
inductive Run (R : σ → ε → σ → Prop) : σ → List ε → σ → Prop where
  | nil (s : σ) : Run R s [] s
  | cons {s s₁ s' : σ} {e : ε} {es : List ε}
      (h : R s e s₁) (t : Run R s₁ es s') : Run R s (e :: es) s'

namespace Run

/-- A step is a run. -/
theorem one (h : R s e s') : Run R s [e] s' :=
  .cons h (.nil _)

/-- Runs compose. -/
theorem append (h₁ : Run R s es₁ s₁) (h₂ : Run R s₁ es₂ s') : Run R s (es₁ ++ es₂) s' := by
  induction h₁ with
  | nil => exact h₂
  | cons h _ ih => exact .cons h (ih h₂)

/-- A run, and one more step. -/
theorem snoc (h : Run R s es s₁) (h' : R s₁ e s') : Run R s (es ++ [e]) s' :=
  h.append (.one h')

/-- A run of a concatenation passes through a state between the two halves. -/
theorem append_iff :
    Run R s (es₁ ++ es₂) s' ↔ ∃ s₁, Run R s es₁ s₁ ∧ Run R s₁ es₂ s' := by
  refine ⟨fun h => ?_, fun ⟨s₁, h₁, h₂⟩ => h₁.append h₂⟩
  induction es₁ generalizing s with
  | nil => exact ⟨s, .nil s, h⟩
  | cons e es ih =>
      cases h with
      | cons h t =>
          obtain ⟨s₂, h₁, h₂⟩ := ih t
          exact ⟨s₂, .cons h h₁, h₂⟩

/-- A run of less is a run of more. -/
theorem mono (hR : ∀ s e s', R s e s' → R' s e s') (h : Run R s es s') : Run R' s es s' := by
  induction h with
  | nil s => exact .nil s
  | cons h _ ih => exact .cons (hR _ _ _ h) ih

/-- A deterministic relation ends a run's labels in one state. -/
theorem det (hR : ∀ s e s₁ s₂, R s e s₁ → R s e s₂ → s₁ = s₂) (h : Run R s es s₁)
    (h' : Run R s es s') : s₁ = s' := by
  induction h with
  | nil => cases h'; rfl
  | cons h _ ih =>
      cases h' with
      | cons k t =>
          obtain rfl := hR _ _ _ _ h k
          exact ih t

/-- **The invariant rule.**  What holds at the start and is kept by every step holds at the end. -/
theorem invariant {I : σ → Prop} (hI : ∀ s e s', I s → R s e s' → I s') (h : Run R s es s')
    (h₀ : I s) : I s' := by
  induction h with
  | nil => exact h₀
  | cons h _ ih => exact ih (hI _ _ _ h₀ h)

end Run

/-- `s₁` is a state of the run that takes `es` from `s`. -/
def Passes (R : σ → ε → σ → Prop) (s : σ) (es : List ε) (s₁ : σ) : Prop :=
  ∃ es₁ es₂, es = es₁ ++ es₂ ∧ Run R s es₁ s₁

/-- `s₁` to `s₂` by `e` is a step of the run that takes `es` from `s`. -/
def Takes (R : σ → ε → σ → Prop) (s : σ) (es : List ε) (s₁ : σ) (e : ε) (s₂ : σ) : Prop :=
  ∃ es₁ es₂, es = es₁ ++ e :: es₂ ∧ Run R s es₁ s₁ ∧ R s₁ e s₂

namespace Takes

variable {s₂ : σ}

/-- A step starts in a state of the run. -/
theorem source (h : Takes R s es s₁ e s₂) : Passes R s es s₁ :=
  let ⟨es₁, es₂, he, t, _⟩ := h
  ⟨es₁, e :: es₂, he, t⟩

/-- A step ends in a state of the run. -/
theorem target (h : Takes R s es s₁ e s₂) : Passes R s es s₂ := by
  obtain ⟨es₁, es₂, he, t, k⟩ := h
  exact ⟨es₁ ++ [e], es₂, by simpa using he, t.snoc k⟩

/-- A step of a run is one of the relation. -/
theorem rel (h : Takes R s es s₁ e s₂) : R s₁ e s₂ :=
  let ⟨_, _, _, _, k⟩ := h
  k

/-- A run of no labels takes no step. -/
theorem not_nil : ¬ Takes R s [] s₁ e s₂ := by
  rintro ⟨es₁, es₂, he, -⟩
  simp at he

/-- The steps of a run are its first and those of the rest. -/
theorem cons_iff {e' : ε} : Takes R s (e' :: es) s₁ e s₂ ↔
    (s₁ = s ∧ e = e' ∧ R s e' s₂) ∨ ∃ s', R s e' s' ∧ Takes R s' es s₁ e s₂ := by
  constructor
  · rintro ⟨es₁, es₂, he, t, k⟩
    cases t with
    | nil =>
        cases he
        exact .inl ⟨rfl, rfl, k⟩
    | cons h t =>
        cases he
        exact .inr ⟨_, h, _, es₂, rfl, t, k⟩
  · rintro (⟨rfl, rfl, k⟩ | ⟨s', h, es₁, es₂, rfl, t, k⟩)
    · exact ⟨[], es, rfl, .nil _, k⟩
    · exact ⟨e' :: es₁, es₂, rfl, .cons h t, k⟩

end Takes

/-- **Induction along a run.**  What holds at the start, and after each step of the run at whose
beginning it holds, holds in every state of the run. -/
theorem Passes.induction {P : σ → Prop} (h : Passes R s es s₁) (h₀ : P s)
    (hP : ∀ s₁ e s₂, Takes R s es s₁ e s₂ → P s₁ → P s₂) : P s₁ := by
  obtain ⟨es₁, es₂, he, t⟩ := h
  induction es₁ using List.reverseRecOn generalizing s₁ es₂ with
  | nil => cases t; exact h₀
  | append_singleton es₁ e ih =>
      obtain ⟨s', t', k⟩ := Run.append_iff.mp t
      cases k with
      | cons k t'' =>
          cases t''
          have he' : es = es₁ ++ e :: es₂ := by simpa using he
          exact hP s' e s₁ ⟨es₁, es₂, he', t', k⟩ (ih (e :: es₂) he' t')

/-- The states `R` reaches from `s`. -/
def Reachable (R : σ → ε → σ → Prop) (s s' : σ) : Prop := ∃ es, Run R s es s'

namespace Reachable

/-- Every state is reached from itself. -/
theorem refl (s : σ) : Reachable R s s := ⟨[], .nil s⟩

/-- What one step leads to is reached. -/
theorem one (h : R s e s') : Reachable R s s' := ⟨[e], .one h⟩

/-- What is reached from a state that is reached is reached. -/
theorem trans (h : Reachable R s s₁) (h' : Reachable R s₁ s') : Reachable R s s' :=
  let ⟨es₁, t₁⟩ := h
  let ⟨es₂, t₂⟩ := h'
  ⟨es₁ ++ es₂, t₁.append t₂⟩

/-- What one more step leads to is reached. -/
theorem step (h : Reachable R s s₁) (h' : R s₁ e s') : Reachable R s s' := h.trans (.one h')

/-- What is reached by less is reached by more. -/
theorem mono (hR : ∀ s e s', R s e s' → R' s e s') (h : Reachable R s s') : Reachable R' s s' :=
  let ⟨es, t⟩ := h
  ⟨es, t.mono hR⟩

/-- The invariant rule, for what is reached. -/
theorem invariant {I : σ → Prop} (hI : ∀ s e s', I s → R s e s' → I s') (h : Reachable R s s')
    (h₀ : I s) : I s' :=
  let ⟨_, t⟩ := h
  t.invariant hI h₀

end Reachable

end Support
