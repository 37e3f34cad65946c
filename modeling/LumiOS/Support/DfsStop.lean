import LumiOS.Support.Dfs

/-!
# Support — DfsStop

A depth-first search that stops at a cycle, without the search.

`Stops adj stack cs roots` walks the vertices `cs` in turn from inside the vertices of `stack`: a vertex
from which no cycle can be reached is settled and is one of `roots`; one from which a cycle can be
reached is entered; one of `stack` ends the walk.  A list of what is settled is determined by the roots
(`Settled.unique`), and is what a search that stops with `false` leaves in `order` (`sort_stops`).
-/

namespace Support.Dfs

open Relation

variable {V : Type*} {adj : V → List V} {fuel : Nat} {s s' : State V} {c v : V}
  {cs roots roots' stack stack' new : List V}

/-! ### The walk -/

/-- A cycle can be reached from `c`. -/
def ToCycle (adj : V → List V) (c : V) : Prop := ∃ v, Reach adj c v ∧ TransGen (Edge adj) v v

inductive Stops (adj : V → List V) : List V → List V → List V → Prop where
  | meet {stack cs : List V} {c : V} (hc : c ∈ stack) : Stops adj stack (c :: cs) []
  | enter {stack cs roots : List V} {c : V} (hc : c ∉ stack) (h : ToCycle adj c)
      (t : Stops adj (c :: stack) (adj c) roots) : Stops adj stack (c :: cs) roots
  | settle {stack cs roots : List V} {c : V} (hc : c ∉ stack) (h : ¬ ToCycle adj c)
      (t : Stops adj stack cs roots) : Stops adj stack (c :: cs) (c :: roots)

theorem Stops.unique (h : Stops adj stack cs roots) (h' : Stops adj stack cs roots') :
    roots = roots' := by
  induction h generalizing roots' with
  | meet hc =>
      cases h' with
      | meet => rfl
      | enter hn => exact absurd hc hn
      | settle hn => exact absurd hc hn
  | enter hc h _ ih =>
      cases h' with
      | meet hm => exact absurd hm hc
      | enter _ _ t => exact ih t
      | settle _ hn => exact absurd h hn
  | settle hc h _ ih =>
      cases h' with
      | meet hm => exact absurd hm hc
      | enter _ hm => exact absurd hm h
      | settle _ _ t => rw [ih t]

/-- A walk that ends with one vertex ends there, whatever comes after. -/
theorem Stops.cons_of_one (h : Stops adj stack [c] roots) (cs : List V) :
    Stops adj stack (c :: cs) roots := by
  cases h with
  | meet hc => exact .meet hc
  | enter hc h t => exact .enter hc h t
  | settle _ _ t => cases t

theorem ToCycle.of_edge (h : ToCycle adj c) (e : c ∈ adj v) : ToCycle adj v :=
  let ⟨w, hr, hw⟩ := h
  ⟨w, .head e hr, hw⟩

/-- What ends a walk is a cycle: the vertices of the stack lead to those it walks. -/
theorem Stops.toCycle (h : Stops adj stack cs roots)
    (hT : ∀ t ∈ stack, ∀ c ∈ cs, TransGen (Edge adj) t c) : ∃ c ∈ cs, ToCycle adj c := by
  induction h with
  | @meet _ _ c hc => exact ⟨c, List.mem_cons_self, c, .refl, hT c hc c List.mem_cons_self⟩
  | @enter _ _ _ c _ h _ _ => exact ⟨c, List.mem_cons_self, h⟩
  | settle _ _ _ ih =>
      obtain ⟨c, hc, h⟩ := ih fun t ht c hc => hT t ht c (List.mem_cons_of_mem _ hc)
      exact ⟨c, List.mem_cons_of_mem _ hc, h⟩

/-! ### What is settled -/

/-- `l` lists what can be reached from `roots`, in the order in which walks from them finish. -/
structure Settled (adj : V → List V) (roots l : List V) : Prop where
  nodup : l.Nodup
  mem : ∀ w, w ∈ l ↔ ∃ c ∈ roots, Reach adj c w
  first : ∀ a b, a ∈ l → b ∈ l → (Precedes l a b ↔ FinishesFirst adj a b roots)

theorem Settled.unique {l l' : List V} (h : Settled adj roots l) (h' : Settled adj roots l') :
    l = l' := by
  have hmem : ∀ w, w ∈ l ↔ w ∈ l' := fun w => (h.mem w).trans (h'.mem w).symm
  have hp : l.Perm l' := (List.perm_ext_iff_of_nodup h.nodup h'.nodup).mpr hmem
  have hpre : ∀ a b, a ∈ l' → b ∈ l' → Precedes l' a b → Precedes l a b := by
    intro a b ha hb hab
    exact (h.first a b ((hmem a).mpr ha) ((hmem b).mpr hb)).mpr ((h'.first a b ha hb).mp hab)
  have hl' : l'.Pairwise (Precedes l) :=
    pairwise_precedes.imp_of_mem fun ha hb hab => hpre _ _ ha hb hab
  exact hp.eq_of_pairwise (fun a b _ _ hab hba => absurd hba (precedes_asymm h.nodup hab))
    pairwise_precedes hl'

/-! ### The search -/

theorem Good.not_toCycle (h : Good adj stack s) (hv : v ∈ s.order) : ¬ ToCycle adj v := by
  classical
  rintro ⟨w, hr, hw⟩
  exact h.no_cycle (h.reach hr hv) hw

/-- A search that stops with `false` at `c`, from a state with this stack. -/
def StopsAt (adj : V → List V) (stack cs : List V) (s s' : State V) : Prop :=
  ∃ roots stack' new, Stops adj stack cs roots ∧ Visited adj stack' roots s s' new

theorem visitAll_stops {f : V → State V → Outcome V}
    (ht : ∀ v s s', f v s = some (true, s') → Good adj stack s →
      ∃ new, Visited adj stack [v] s s' new)
    (hf : ∀ v s s', f v s = some (false, s') → Good adj stack s →
      (∀ t ∈ stack, TransGen (Edge adj) t v) → StopsAt adj stack [v] s s') :
    ∀ (cs : List V) (s : State V), visitAll f cs s = some (false, s') → Good adj stack s →
      (∀ t ∈ stack, ∀ c ∈ cs, TransGen (Edge adj) t c) → StopsAt adj stack cs s s'
  | [], _, h, _, _ => by simp [visitAll] at h
  | c :: cs, s, h, hs, hT => by
      simp only [visitAll] at h
      split at h
      · rename_i s₁ h₁
        obtain ⟨n₁, v₁⟩ := ht c s s₁ h₁ hs
        obtain ⟨roots, stack', n₂, hstop, v₂⟩ := visitAll_stops ht hf cs s₁ h v₁.good fun t k d hd =>
          hT t k d (List.mem_cons_of_mem _ hd)
        -- a vertex that was finished is on no stack and leads to no cycle
        have hc : c ∈ s₁.order := v₁.mem_order List.mem_cons_self
        refine ⟨c :: roots, stack', n₁ ++ n₂, .settle (fun hm => ?_) (v₁.good.not_toCycle hc) hstop,
          v₁.cons v₂⟩
        exact absurd ((v₁.good.temp c).mpr hm) (by simp [(v₁.good.perm c).mpr hc])
      · obtain ⟨roots, stack', new, hstop, hv⟩ := hf c s s' h hs fun t k => hT t k c List.mem_cons_self
        exact ⟨roots, stack', new, hstop.cons_of_one cs, hv⟩

variable [DecidableEq V]

theorem visit_stops :
    ∀ (fuel : Nat) (stack : List V) (v : V) (s s' : State V),
      visit adj fuel v s = some (false, s') → Good adj stack s →
        (∀ t ∈ stack, TransGen (Edge adj) t v) → StopsAt adj stack [v] s s'
  | 0, _, _, _, _, h, _, _ => by simp [visit] at h
  | fuel + 1, stack, v, s, s', h, hs, hT => by
      simp only [visit] at h
      split at h
      · simp at h
      · rename_i hv
        obtain rfl : s = s' := by simpa using h
        exact ⟨[], stack, [], .meet ((hs.temp v).mp hv), visited_nil hs⟩
      · rename_i hv
        split at h
        · simp at h
        · have hT' : ∀ t ∈ v :: stack, ∀ c ∈ adj v, TransGen (Edge adj) t c := by
            intro t ht c hc
            rcases List.mem_cons.mp ht with rfl | ht
            · exact .single hc
            · exact .tail (hT t ht) hc
          obtain ⟨roots, stack', new, hstop, hnew⟩ := visitAll_stops (visit_true fuel (v :: stack))
            (visit_stops fuel (v :: stack)) _ _ h (hs.enter hv) hT'
          obtain ⟨c, hc, hcyc⟩ := hstop.toCycle hT'
          refine ⟨roots, stack', new, .enter (fun hm => ?_) (hcyc.of_edge hc) hstop, ?_⟩
          · simp [(hs.temp v).mpr hm] at hv
          · exact ⟨hnew.good, hnew.order, hnew.mem, hnew.first⟩

/-- **A sort that stops** has listed what the walk up to the first cycle settles. -/
theorem sort_stops (h : sort adj fuel cs = some (false, s)) :
    ∃ roots, Stops adj [] cs roots ∧ Settled adj roots s.order := by
  have hroot : ∀ v s s', visitRoot adj fuel v s = some (false, s') → Good adj [] s →
      (∀ t ∈ ([] : List V), TransGen (Edge adj) t v) → StopsAt adj [] [v] s s' := by
    intro v s s' hv hs hT
    unfold visitRoot at hv
    split at hv
    · exact visit_stops fuel [] v s s' hv hs hT
    · simp at hv
  obtain ⟨roots, stack', new, hstop, hnew⟩ :=
    visitAll_stops (fun _ _ _ h hs => visitRoot_true h hs) hroot cs _ h good_init (by simp)
  obtain rfl : s.order = new := by simpa [State.init] using hnew.order
  exact ⟨roots, hstop, hnew.good.nodup, fun w => by simpa [State.init] using hnew.mem w, hnew.first⟩

end Support.Dfs
