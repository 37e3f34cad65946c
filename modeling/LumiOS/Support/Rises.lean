import Mathlib.Data.List.Induction
import LumiOS.Support.Graph

/-!
# Support — Rises

What comes up when a thing that can come up does so as soon as everything it needs is up: the least
set that holds every `a` that `can` rise and whose `needs` are all in it.

A pass over a list that settles each element once, after what it needs, computes it: whatever the
pass leaves satisfies the equation of the least set locally, and along such a list that equation has
one solution (`rises_of_local`).  So the list itself leaves no trace in the result.
-/

namespace Support

variable {V : Type*}

/-- `a` can rise, and all it needs has risen. -/
inductive Rises (can : V → Prop) (needs : V → V → Prop) : V → Prop where
  | intro {a : V} (h : can a) (hn : ∀ b, needs a b → Rises can needs b) : Rises can needs a

section

variable {can : V → Prop} {needs : V → V → Prop} {a : V}

/-- The equation of the set. -/
theorem rises_iff : Rises can needs a ↔ can a ∧ ∀ b, needs a b → Rises can needs b :=
  ⟨fun ⟨h, hn⟩ => ⟨h, hn⟩, fun ⟨h, hn⟩ => .intro h hn⟩

/-- **Along a list that puts each element after what it needs of the list, the local equation has one
solution.** -/
theorem rises_of_local {up : V → Prop} {l : List V} (hd : l.Nodup)
    (hs : ∀ a ∈ l, ∀ b, needs a b → Precedes l b a)
    (hl : ∀ a ∈ l, up a ↔ can a ∧ ∀ b, needs a b → up b) :
    ∀ a ∈ l, up a ↔ Rises can needs a := by
  -- by induction on what the list holds so far
  suffices h : ∀ l₁ l₂, l = l₁ ++ l₂ → ∀ a ∈ l₁, up a ↔ Rises can needs a from
    h l [] (List.append_nil l).symm
  intro l₁
  induction l₁ using List.reverseRecOn with
  | nil => exact fun _ _ a ha => absurd ha List.not_mem_nil
  | append_singleton l₁ c ih =>
      intro l₂ e a ha
      have ih := ih (c :: l₂) (by rw [e]; simp)
      rcases List.mem_append.mp ha with ha | ha
      · exact ih a ha
      obtain rfl := List.mem_singleton.mp ha
      have hm : a ∈ l := by rw [e]; simp
      have hnot : a ∉ l₂ := by
        have hd' := (List.nodup_append.mp (e ▸ hd)).2.2
        exact fun h => hd' a (by simp) a h rfl
      rw [hl a hm, rises_iff]
      refine and_congr_right fun _ => forall₂_congr fun b hb => ih b ?_
      have hp := hs a hm b hb
      rw [e, precedes_append_left hnot] at hp
      rcases precedes_append.mp hp with hp | ⟨hb, -⟩ | hp
      · have h₁ : a ∉ l₁ := fun h =>
          (List.nodup_append.mp (List.nodup_append.mp (e ▸ hd)).1).2.2 a h a (by simp) rfl
        exact absurd hp.mem.2 h₁
      · exact hb
      · exact absurd hp precedes_singleton

end

end Support
