import LumiOS.Support.Runs

/-!
# Support — Simulates

A system that does what another one does, seen through a relation between their states: each step of
the first is matched by one of the second with the same label.  Its runs are then runs of the second
(`Simulates.run`), and a state that one of them passes through shows one that the other does
(`Simulates.passes`).
-/

namespace Support

universe u v w

variable {σ : Type u} {τ : Type v} {ε : Type w} {R : σ → ε → σ → Prop} {S : τ → ε → τ → Prop}
  {shows : σ → τ → Prop} {s s' : σ} {t : τ} {es : List ε}

/-- Each step of `R` is matched by one of `S`. -/
def Simulates (shows : σ → τ → Prop) (R : σ → ε → σ → Prop) (S : τ → ε → τ → Prop) : Prop :=
  ∀ s e s' t, shows s t → R s e s' → ∃ t', S t e t' ∧ shows s' t'

namespace Simulates

/-- **A run is matched by a run** with the same labels. -/
theorem run (h : Simulates shows R S) (hs : shows s t) (hrun : Run R s es s') :
    ∃ t', Run S t es t' ∧ shows s' t' := by
  induction hrun generalizing t with
  | nil => exact ⟨t, .nil t, hs⟩
  | cons hstep _ ih =>
      obtain ⟨t₁, ht, hs₁⟩ := h _ _ _ _ hs hstep
      obtain ⟨t', hrun', hs'⟩ := ih hs₁
      exact ⟨t', .cons ht hrun', hs'⟩

theorem passes (h : Simulates shows R S) (hs : shows s t) (hpass : Passes R s es s') :
    ∃ t', Passes S t es t' ∧ shows s' t' := by
  obtain ⟨es₁, es₂, he, hrun⟩ := hpass
  obtain ⟨t', hrun', hs'⟩ := h.run hs hrun
  exact ⟨t', ⟨es₁, es₂, he, hrun'⟩, hs'⟩

end Simulates

end Support
