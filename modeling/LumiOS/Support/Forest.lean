import Mathlib.Data.Finset.Card
import Mathlib.Data.Finset.Filter
import LumiOS.Support.Graph

/-!
# Support — Forest

Forests given by the lists of the children of each vertex.  An edge to a new child keeps a forest
exactly when the child has no parent yet and the new parent is not below it (`forest_addEdge_iff`).
What is below two children of a vertex is apart (`Forest.apart`), and what is below a vertex has a
rank (`Acyclic.exists_rank`), which walks down the forest recurse on.
-/

namespace Support

open Relation

universe u

variable {V : Type u} {ch : V → List V} {a b c d p q v x : V}

/-- Every vertex is a child once at most, and none is below itself. -/
structure Forest (ch : V → List V) : Prop where
  nodup : ∀ p, (ch p).Nodup
  unique : ∀ p q c, c ∈ ch p → c ∈ ch q → p = q
  acyclic : Acyclic ch

namespace Forest

/-- Of two vertices above a third, one is above the other. -/
theorem comparable (h : Forest ch) (ha : Reach ch a x) (hb : Reach ch b x) :
    Reach ch a b ∨ Reach ch b a := by
  induction ha with
  | refl => exact .inr hb
  | tail ha e ih =>
      rcases hb.cases_tail with rfl | ⟨z, hb, e'⟩
      · exact .inl (ha.tail e)
      · obtain rfl := h.unique _ _ _ e e'
        exact ih hb

theorem not_reach_sibling (h : Forest ch) (hc : c ∈ ch p) (hd : d ∈ ch p) (hne : c ≠ d) :
    ¬ Reach ch c d := by
  intro hr
  rcases hr.cases_tail with e | ⟨z, hr, e⟩
  · exact hne e.symm
  · obtain rfl := h.unique _ _ _ e hd
    exact h.acyclic z (TransGen.head' hc hr)

/-- Nothing is below two children of a vertex. -/
theorem apart (h : Forest ch) (hc : c ∈ ch p) (hd : d ∈ ch p) (hne : c ≠ d)
    (hx : Reach ch c x) : ¬ Reach ch d x := by
  intro hx'
  rcases h.comparable hx hx' with hr | hr
  · exact h.not_reach_sibling hc hd hne hr
  · exact h.not_reach_sibling hd hc hne.symm hr

theorem not_reach_parent (h : Forest ch) (hc : c ∈ ch p) : ¬ Reach ch c p := fun hr =>
  h.acyclic p (TransGen.head' hc hr)

end Forest

/-- Vertices without edges. -/
theorem Forest.empty : Forest fun _ : V => [] where
  nodup := fun _ => List.nodup_nil
  unique := fun _ _ _ h => nomatch h
  acyclic := fun v h => by
    obtain ⟨w, e, -⟩ := TransGen.head'_iff.mp h
    cases e

/-- A walk down a graph without cycles recurses on a rank, which the number of vertices bounds. -/
theorem Acyclic.exists_rank (h : Acyclic ch) (S : Finset V) (hS : ∀ p, ∀ c ∈ ch p, c ∈ S) :
    ∃ rank : V → Nat, (∀ p, ∀ c ∈ ch p, rank c < rank p) ∧ ∀ v, rank v ≤ S.card := by
  classical
  refine ⟨fun v => (S.filter fun x => TransGen (Edge ch) v x).card, fun p c hc => ?_,
    fun v => Finset.card_filter_le _ _⟩
  refine Finset.card_lt_card (Finset.ssubset_iff_of_subset ?_ |>.mpr ⟨c, ?_, ?_⟩)
  · intro x hx
    obtain ⟨hx, hr⟩ := Finset.mem_filter.mp hx
    exact Finset.mem_filter.mpr ⟨hx, TransGen.head hc hr⟩
  · exact Finset.mem_filter.mpr ⟨hS p c hc, .single hc⟩
  · intro hx
    exact h c (Finset.mem_filter.mp hx).2

/-! ### A new edge -/

section

variable [DecidableEq V]

/-- `c` becomes the last child of `p`. -/
def addEdge (ch : V → List V) (p c : V) : V → List V := fun v => if v = p then ch v ++ [c] else ch v

theorem edge_addEdge : Edge (addEdge ch p c) a b ↔ Edge ch a b ∨ a = p ∧ b = c := by
  simp only [Edge, addEdge]
  by_cases e : a = p
  · simp [e]
  · simp [e]

/-- A way that uses the new edge goes to `p` and on from `c` without it. -/
theorem reach_addEdge (h : Reach (addEdge ch p c) a b) :
    Reach ch a b ∨ Reach ch a p ∧ Reach ch c b := by
  induction h with
  | refl => exact .inl .refl
  | tail _ e ih =>
      rcases edge_addEdge.mp e with e | ⟨rfl, rfl⟩
      · rcases ih with ih | ⟨ha, ih⟩
        · exact .inl (ih.tail e)
        · exact .inr ⟨ha, ih.tail e⟩
      · rcases ih with ih | ⟨ha, -⟩
        · exact .inr ⟨ih, .refl⟩
        · exact .inr ⟨ha, .refl⟩

theorem reach_addEdge_of_reach (h : Reach ch a b) : Reach (addEdge ch p c) a b :=
  ReflTransGen.mono (fun _ _ e => edge_addEdge.mpr (.inl e)) a b h

theorem acyclic_addEdge (h : Acyclic ch) (hcp : ¬ Reach ch c p) : Acyclic (addEdge ch p c) := by
  intro v hv
  obtain ⟨w, e, hr⟩ := TransGen.head'_iff.mp hv
  rcases edge_addEdge.mp e with e | ⟨rfl, rfl⟩
  · rcases reach_addEdge hr with hr | ⟨hwp, hcv⟩
    · exact h v (TransGen.head' e hr)
    · exact hcp (hcv.trans (.head e hwp))
  · rcases reach_addEdge hr with hr | ⟨hr, -⟩ <;> exact hcp hr

/-- **Forests and new edges.** -/
theorem forest_addEdge_iff (h : Forest ch) :
    Forest (addEdge ch p c) ↔ (∀ q, c ∉ ch q) ∧ ¬ Reach ch c p := by
  constructor
  · intro h'
    refine ⟨fun q hq => ?_, fun hr => ?_⟩
    · have hp : Edge (addEdge ch p c) p c := edge_addEdge.mpr (.inr ⟨rfl, rfl⟩)
      have hq' : Edge (addEdge ch p c) q c := edge_addEdge.mpr (.inl hq)
      obtain rfl := h'.unique _ _ _ hp hq'
      have hnd := h'.nodup p
      rw [addEdge, if_pos rfl] at hnd
      exact (List.nodup_append.mp hnd).2.2 c hq c (List.mem_singleton.mpr rfl) rfl
    · exact h'.acyclic c (TransGen.tail' (reach_addEdge_of_reach hr)
        (edge_addEdge.mpr (.inr ⟨rfl, rfl⟩)))
  · rintro ⟨hc, hr⟩
    refine ⟨fun q => ?_, fun q q' d hd hd' => ?_, acyclic_addEdge h.acyclic hr⟩
    · simp only [addEdge]
      split
      · exact List.nodup_append.mpr ⟨h.nodup q, List.nodup_singleton c, fun a ha b hb e =>
          hc q (List.mem_singleton.mp hb ▸ e ▸ ha)⟩
      · exact h.nodup q
    · rcases edge_addEdge.mp hd with e | ⟨rfl, rfl⟩ <;> rcases edge_addEdge.mp hd' with e' | ⟨rfl, e'⟩
      · exact h.unique _ _ _ e e'
      · exact absurd (e' ▸ e) (hc q)
      · exact absurd e' (hc q')
      · rfl

end

end Support
