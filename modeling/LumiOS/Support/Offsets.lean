import Mathlib.Algebra.Order.BigOperators.Group.List

/-!
# Support — Offsets

Things put one behind the other: each stands at the sum of the lengths of those before it.  With lengths
that are not negative none reaches into a later one (`pairwise_of_offsets`), and all stand at the same
place exactly when every length but the last is zero (`offsets_eq_zero_iff`).
-/

namespace Support

universe u v

variable {α : Type u} {K : Type v} {f pos : α → K} {l : List α} {base : K}

/-- Nothing is put behind anything. -/
theorem offsets_eq_zero_iff [AddMonoid K] :
    (∀ before c after, l = before ++ c :: after → (before.map f).sum = 0) ↔
      ∀ c ∈ l.dropLast, f c = 0 := by
  constructor
  · intro h c hc
    obtain ⟨before, after, hsplit⟩ := List.append_of_mem hc
    -- an element that is not the last has one behind it
    obtain ⟨t, ht⟩ := List.dropLast_prefix l
    have hne : l ≠ [] := by
      rintro rfl
      cases hc
    obtain ⟨d, rest, hrest⟩ : ∃ d rest, after ++ t = d :: rest := by
      refine List.exists_cons_of_ne_nil fun he => ?_
      have hlen := congrArg List.length ht
      rw [(List.append_eq_nil_iff.mp he).2, List.append_nil, List.length_dropLast] at hlen
      have := List.length_pos_iff.mpr hne
      omega
    have hl : l = before ++ c :: d :: rest := by
      rw [← ht, hsplit, ← hrest, List.append_assoc, List.cons_append]
    have hbefore := h before c _ hl
    have hnext := h (before ++ [c]) d rest (by rw [hl, List.append_assoc]; rfl)
    rwa [List.map_append, List.sum_append, hbefore, zero_add, List.map_singleton,
      List.sum_singleton] at hnext
  · rintro h before c after rfl
    refine List.sum_eq_zero fun x hx => ?_
    obtain ⟨d, hd, rfl⟩ := List.mem_map.mp hx
    refine h d ?_
    rw [List.dropLast_append_cons]
    exact List.mem_append_left _ hd

/-- Things that do not have a negative length come one after the other. -/
theorem pairwise_of_offsets [AddCommMonoid K] [PartialOrder K] [IsOrderedAddMonoid K]
    (hpos : ∀ before c after, l = before ++ c :: after → pos c = base + (before.map f).sum)
    (hf : ∀ c ∈ l, 0 ≤ f c) : l.Pairwise fun c d => pos c + f c ≤ pos d := by
  induction l generalizing base with
  | nil => exact .nil
  | cons c l ih =>
      refine List.pairwise_cons.mpr ⟨fun d hd => ?_, ?_⟩
      · obtain ⟨before, after, rfl⟩ := List.append_of_mem hd
        have hc : pos c = base := by simpa using hpos [] c _ rfl
        have hsum : 0 ≤ (before.map f).sum := List.sum_nonneg fun x hx => by
          obtain ⟨e, he, rfl⟩ := List.mem_map.mp hx
          exact hf e (.tail _ (List.mem_append_left _ he))
        rw [hpos (c :: before) d after rfl, hc, List.map_cons, List.sum_cons, ← add_assoc]
        exact le_add_of_nonneg_right hsum
      · have hrest : ∀ before d after, l = before ++ d :: after →
            pos d = base + f c + (before.map f).sum := fun before d after e => by
          rw [hpos (c :: before) d after (e ▸ rfl), List.map_cons, List.sum_cons, ← add_assoc]
        exact ih hrest fun d hd => hf d (.tail _ hd)

end Support
