import Mathlib.Data.Fintype.Card
import LumiOS.Support.Graph

/-!
# Support — Dfs

Depth-first search with three marks over a finite graph given by adjacency lists, as topological
sorts do it: a vertex is marked `temp` while its successors are visited, `perm` when it is
finished, and finished vertices are appended to `order`.  Meeting a `temp` vertex stops the search
with `false`.  The search runs on fuel, and `none` is its exhaustion.

* `sort_isSome`: fuel above the number of vertices is enough, and more fuel changes nothing
  (`sort_fuel`).
* `sort_false`: a search that stops with `false` has met a cycle.
* `sort_true`: after a search that ends with `true`, `order` lists the vertices reachable from the
  roots, each once and after its successors; and of two of them, `order` has first the one that
  `FinishesFirst` says.
* `Good.acyclic`: a graph whose vertices can be listed so has no cycle.
-/

namespace Support.Dfs

open Relation

variable {V : Type*}

/-! ### Marks -/

inductive Mark where
  | none
  | temp
  | perm
deriving DecidableEq, Repr

/-- The marks, and the vertices finished so far. -/
structure State (V : Type*) where
  mark : V → Mark
  order : List V

/-- The outcome of a search: whether it ended without meeting a `temp` vertex, and the state it
left.  `none` is a search that ran out of fuel. -/
abbrev Outcome (V : Type*) := Option (Bool × State V)

def State.init : State V := ⟨fun _ => .none, []⟩

/-- `f` at every vertex of a list, stopping at the first `false`. -/
def visitAll (f : V → State V → Outcome V) : List V → State V → Outcome V
  | [], s => some (true, s)
  | v :: vs, s =>
    match f v s with
    | some (true, s') => visitAll f vs s'
    | r => r

/-! ### What a search leaves behind -/

variable {adj : V → List V} {fuel : Nat} {s s' s₁ : State V} {a b c v w : V}
  {cs new stack : List V}

/-- The invariant of a search whose recursion is inside the vertices of `stack`: these are the
`temp` ones, and the finished vertices are listed once each, and each after its successors. -/
structure Good (adj : V → List V) (stack : List V) (s : State V) : Prop where
  temp : ∀ v, s.mark v = .temp ↔ v ∈ stack
  perm : ∀ v, s.mark v = .perm ↔ v ∈ s.order
  nodup : s.order.Nodup
  closed : ∀ l₁ a l₂, s.order = l₁ ++ a :: l₂ → ∀ b ∈ adj a, b ∈ l₁

theorem good_init : Good adj [] (State.init : State V) :=
  ⟨fun v => by simp [State.init], fun v => by simp [State.init], by simp [State.init],
    by simp [State.init]⟩

/-- Whatever is reachable from a finished vertex is finished. -/
theorem Good.reach (h : Good adj stack s) (hr : Reach adj a b) (ha : a ∈ s.order) : b ∈ s.order := by
  induction hr with
  | refl => exact ha
  | tail _ e ih =>
      obtain ⟨l₁, l₂, hl⟩ := List.append_of_mem ih
      rw [hl]
      exact List.mem_append_left _ (h.closed l₁ _ l₂ hl _ e)

/-- `s'` is `s` after a search from the vertices `cs` that met no cycle: it has finished, besides
the vertices of `s`, those reachable from `cs`, in the order `FinishesFirst` gives. -/
structure Visited (adj : V → List V) (stack cs : List V) (s s' : State V) (new : List V) :
    Prop where
  good : Good adj stack s'
  order : s'.order = s.order ++ new
  mem : ∀ w, w ∈ new ↔ w ∉ s.order ∧ ∃ c ∈ cs, Reach adj c w
  first : ∀ a b, a ∈ new → b ∈ new → (Precedes new a b ↔ FinishesFirst adj a b cs)

theorem visited_nil (h : Good adj stack s) : Visited adj stack [] s s [] :=
  ⟨h, by simp, by simp, by simp⟩

/-- A finished vertex adds nothing. -/
theorem visited_perm (h : Good adj stack s) (hv : s.mark v = .perm) :
    Visited adj stack [v] s s [] := by
  refine ⟨h, by simp, fun w => ?_, by simp⟩
  simpa using fun hw hr => hw (h.reach hr ((h.perm v).mp hv))

/-- What a search has walked is finished. -/
theorem Visited.mem_order (h : Visited adj stack cs s s' new) (hv : v ∈ cs) : v ∈ s'.order := by
  rw [h.order, List.mem_append]
  by_cases k : v ∈ s.order
  · exact .inl k
  · exact .inr ((h.mem v).mpr ⟨k, v, hv, .refl⟩)

/-- A search from `c`, then one from `cs`, which may end inside other vertices. -/
theorem Visited.cons {stack' n₁ n₂ : List V} (h₁ : Visited adj stack [c] s s₁ n₁)
    (h₂ : Visited adj stack' cs s₁ s' n₂) : Visited adj stack' (c :: cs) s s' (n₁ ++ n₂) := by
  have ho : s'.order = s.order ++ (n₁ ++ n₂) := by rw [h₂.order, h₁.order, List.append_assoc]
  have mem₁ : ∀ w, w ∈ n₁ ↔ w ∉ s.order ∧ Reach adj c w := fun w => by simpa using h₁.mem w
  have mem₂ : ∀ w, w ∈ n₂ ↔ w ∉ s.order ∧ ¬ Reach adj c w ∧ ∃ d ∈ cs, Reach adj d w := fun w => by
    rw [h₂.mem w, h₁.order, List.mem_append, mem₁ w]; tauto
  refine ⟨h₂.good, ho, fun w => ?_, fun a b ha hb => ?_⟩
  · rw [List.mem_append, mem₁ w, mem₂ w]
    simp only [List.mem_cons, exists_eq_or_imp]
    tauto
  · have hdisj : ∀ {x}, x ∈ n₂ → x ∉ n₁ := fun h₂ h₁ => ((mem₂ _).mp h₂).2.1 ((mem₁ _).mp h₁).2
    rw [List.mem_append] at ha hb
    rcases ha with ha | ha <;> rcases hb with hb | hb
    · have hra := ((mem₁ a).mp ha).2
      have hrb := ((mem₁ b).mp hb).2
      rw [precedes_append_left fun k => hdisj k hb, h₁.first a b ha hb, finishesFirst_of_both hra hrb,
        finishesFirst_of_both hra hrb]
    · have hrb := ((mem₂ b).mp hb).2.1
      exact ⟨fun _ => .only ((mem₁ a).mp ha).2 hrb, fun _ => precedes_append.mpr (.inr (.inl ⟨ha, hb⟩))⟩
    · have hna := ((mem₂ a).mp ha).2.1
      have hrb := ((mem₁ b).mp hb).2
      rw [precedes_append_right (hdisj ha)]
      exact ⟨fun k => absurd hb (hdisj k.mem.2), fun k => absurd k (not_finishesFirst_of_right hna hrb)⟩
    · have hna := ((mem₂ a).mp ha).2.1
      have hnb := ((mem₂ b).mp hb).2.1
      rw [precedes_append_right (hdisj ha), h₂.first a b ha hb, finishesFirst_of_neither hna hnb]

/-- What a search that met no cycle leaves behind, from what it leaves at each vertex. -/
theorem visitAll_true {f : V → State V → Outcome V}
    (hf : ∀ v s s', f v s = some (true, s') → Good adj stack s →
      ∃ new, Visited adj stack [v] s s' new) :
    ∀ (cs : List V) (s : State V), visitAll f cs s = some (true, s') → Good adj stack s →
      ∃ new, Visited adj stack cs s s' new
  | [], s, h, hs => by
      obtain rfl : s = s' := by simpa [visitAll] using h
      exact ⟨[], visited_nil hs⟩
  | c :: cs, s, h, hs => by
      simp only [visitAll] at h
      split at h
      · rename_i s₁ h₁
        obtain ⟨n₁, v₁⟩ := hf c s s₁ h₁ hs
        obtain ⟨n₂, v₂⟩ := visitAll_true hf cs s₁ h v₁.good
        exact ⟨n₁ ++ n₂, v₁.cons v₂⟩
      · rename_i h₁ hne
        exact absurd (h.trans rfl) (hne s')

/-- A search that stopped has met a cycle, if a search from one vertex that stops has. -/
theorem visitAll_false {f : V → State V → Outcome V}
    (ht : ∀ v s s', f v s = some (true, s') → Good adj stack s →
      ∃ new, Visited adj stack [v] s s' new)
    (hf : ∀ v s s', f v s = some (false, s') → Good adj stack s →
      (∀ t ∈ stack, TransGen (Edge adj) t v) → ¬ Acyclic adj) :
    ∀ (cs : List V) (s : State V), visitAll f cs s = some (false, s') → Good adj stack s →
      (∀ t ∈ stack, ∀ c ∈ cs, TransGen (Edge adj) t c) → ¬ Acyclic adj
  | [], _, h, _, _ => by simp [visitAll] at h
  | c :: cs, s, h, hs, hT => by
      simp only [visitAll] at h
      split at h
      · rename_i s₁ h₁
        obtain ⟨n₁, v₁⟩ := ht c s s₁ h₁ hs
        exact visitAll_false ht hf cs s₁ h v₁.good fun t k d hd =>
          hT t k d (List.mem_cons_of_mem _ hd)
      · exact hf c s s' h hs fun t k => hT t k c (by simp)

theorem visitAll_mark {f : V → State V → Outcome V} {r : Bool}
    (hf : ∀ v s r s', f v s = some (r, s') → ∀ w, s'.mark w = .none → s.mark w = .none) :
    ∀ (cs : List V) (s : State V), visitAll f cs s = some (r, s') →
      ∀ w, s'.mark w = .none → s.mark w = .none
  | [], s, h, w, hw => by
      obtain rfl : s = s' := by simp [visitAll] at h; exact h.2
      exact hw
  | c :: cs, s, h, w, hw => by
      simp only [visitAll] at h
      split at h
      · rename_i s₁ h₁
        exact hf c s true s₁ h₁ w (visitAll_mark hf cs s₁ h w hw)
      · exact hf c s r s' h w hw

/-- Two searches in turn are a search of the concatenation. -/
theorem visitAll_append {f : V → State V → Outcome V} (l₁ l₂ : List V) (s : State V) :
    visitAll f (l₁ ++ l₂) s =
      match visitAll f l₁ s with
      | some (true, s') => visitAll f l₂ s'
      | r => r := by
  induction l₁ generalizing s with
  | nil => rfl
  | cons v l₁ ih =>
      simp only [List.cons_append, visitAll]
      rcases f v s with _ | ⟨_ | _, s₁⟩
      · rfl
      · rfl
      · simpa using ih s₁

/-- A function that answers whenever `f` does, with `f`'s answer, gives the same search. -/
theorem visitAll_mono {f g : V → State V → Outcome V} {r : Bool × State V}
    (hfg : ∀ v s r, f v s = some r → g v s = some r) :
    ∀ (cs : List V) (s : State V), visitAll f cs s = some r → visitAll g cs s = some r
  | [], _, h => h
  | c :: cs, s, h => by
      simp only [visitAll] at h ⊢
      split at h
      · rename_i s₁ h₁
        rw [hfg c s _ h₁]
        exact visitAll_mono hfg cs s₁ h
      · rename_i hne
        rw [hfg c s _ h]
        split
        · rename_i s₁ e
          exact absurd (h.trans e) (hne s₁)
        · rfl

/-- The number of vertices without a mark, which bounds the depth of the search. -/
def unvisited [Fintype V] (s : State V) : Nat := (Finset.univ.filter (s.mark · = .none)).card

theorem unvisited_le [Fintype V] (h : ∀ w, s'.mark w = .none → s.mark w = .none) :
    unvisited s' ≤ unvisited s :=
  Finset.card_le_card fun w => by simpa using h w

theorem visitAll_isSome [Fintype V] {f : V → State V → Outcome V} {n : Nat}
    (hm : ∀ v s r s', f v s = some (r, s') → ∀ w, s'.mark w = .none → s.mark w = .none)
    (hf : ∀ v s, unvisited s < n → (f v s).isSome) :
    ∀ (cs : List V) (s : State V), unvisited s < n → (visitAll f cs s).isSome
  | [], _, _ => rfl
  | c :: cs, s, hs => by
      simp only [visitAll]
      split
      · rename_i s₁ h₁
        exact visitAll_isSome hm hf cs s₁ ((unvisited_le (hm c s true s₁ h₁)).trans_lt hs)
      · exact hf c s hs

/-! ### The search -/

variable [DecidableEq V]

def State.enter (s : State V) (v : V) : State V :=
  { s with mark := Function.update s.mark v .temp }

def State.leave (s : State V) (v : V) : State V :=
  ⟨Function.update s.mark v .perm, s.order ++ [v]⟩

def visit (adj : V → List V) : Nat → V → State V → Outcome V
  | 0, _, _ => none
  | fuel + 1, v, s =>
    match s.mark v with
    | .perm => some (true, s)
    | .temp => some (false, s)
    | .none =>
      match visitAll (visit adj fuel) (adj v) (s.enter v) with
      | some (true, s') => some (true, s'.leave v)
      | r => r

/-- A root of the search: visited if it has no mark. -/
def visitRoot (adj : V → List V) (fuel : Nat) (v : V) (s : State V) : Outcome V :=
  match s.mark v with
  | .none => visit adj fuel v s
  | _ => some (true, s)

def sort (adj : V → List V) (fuel : Nat) (roots : List V) : Outcome V :=
  visitAll (visitRoot adj fuel) roots .init

theorem Good.enter (h : Good adj stack s) (hv : s.mark v = .none) :
    Good adj (v :: stack) (s.enter v) := by
  refine ⟨fun w => ?_, fun w => ?_, h.nodup, h.closed⟩
  · by_cases e : w = v
    · simp [State.enter, e]
    · simpa [State.enter, Function.update_of_ne e, e] using h.temp w
  · by_cases e : w = v
    · subst e; simpa [State.enter] using fun k => by simp [(h.perm w).mpr k] at hv
    · simpa [State.enter, Function.update_of_ne e] using h.perm w

theorem Good.leave (h : Good adj (v :: stack) s) (hv : v ∉ stack)
    (hadj : ∀ b ∈ adj v, b ∈ s.order) : Good adj stack (s.leave v) := by
  have hns : v ∉ s.order := fun k => by
    have := (h.temp v).mpr (by simp)
    simp [(h.perm v).mpr k] at this
  refine ⟨fun w => ?_, fun w => ?_, ?_, fun l₁ a l₂ hl b hb => ?_⟩
  · by_cases e : w = v
    · subst e; simpa [State.leave] using hv
    · simpa [State.leave, Function.update_of_ne e, e] using h.temp w
  · by_cases e : w = v
    · subst e; simp [State.leave]
    · simpa [State.leave, Function.update_of_ne e, e] using h.perm w
  · simpa [State.leave, List.nodup_append] using ⟨h.nodup, fun x hx e => hns (e ▸ hx)⟩
  · rcases List.eq_nil_or_concat l₂ with rfl | ⟨l₂, z, rfl⟩
    · obtain ⟨rfl, e⟩ := List.append_inj' (show s.order ++ [v] = l₁ ++ [a] from hl) rfl
      obtain rfl : v = a := by simpa using e
      exact hadj b hb
    · have hl' : s.order ++ [v] = (l₁ ++ a :: l₂) ++ [z] := by simpa [State.leave] using hl
      exact h.closed l₁ a l₂ (List.append_inj' hl' rfl).1 b hb

/-- No finished vertex is on a cycle: an edge from one leads to a smaller index. -/
theorem Good.no_cycle (h : Good adj stack s) (hv : v ∈ s.order) : ¬ TransGen (Edge adj) v v := by
  have edge : ∀ {a b}, a ∈ s.order → Edge adj a b → s.order.idxOf b < s.order.idxOf a := by
    intro a b ha e
    obtain ⟨l₁, l₂, hl⟩ := List.append_of_mem ha
    have hb : b ∈ l₁ := h.closed l₁ a l₂ hl b e
    have hnd : a ∉ l₁ := fun ha => by
      have := h.nodup
      rw [hl, List.nodup_append] at this
      exact this.2.2 a ha a (by simp) rfl
    rw [hl, List.idxOf_append_of_mem hb, List.idxOf_append_of_notMem hnd]
    have := List.idxOf_lt_length_of_mem hb
    omega
  have path : ∀ {b}, TransGen (Edge adj) v b → s.order.idxOf b < s.order.idxOf v := by
    intro b t
    induction t with
    | single e => exact edge hv e
    | tail t e ih => exact (edge (h.reach t.to_reflTransGen hv) e).trans ih
  exact fun t => lt_irrefl _ (path t)

/-- A graph whose vertices are all finished has no cycle. -/
theorem Good.acyclic (h : Good adj stack s) (hall : ∀ v, v ∈ s.order) : Acyclic adj :=
  fun v => h.no_cycle (hall v)

/-- Finishing `v` after its successors. -/
theorem Visited.leave (h : Visited adj (v :: stack) (adj v) (s.enter v) s₁ new)
    (hs : Good adj stack s) (hv : s.mark v = .none) :
    Visited adj stack [v] s (s₁.leave v) (new ++ [v]) := by
  have hns₁ : v ∉ s₁.order := fun k => by
    have := (h.good.temp v).mpr (by simp)
    simp [(h.good.perm v).mpr k] at this
  have hsub : ∀ w, w ∈ new → w ∈ s₁.order := fun w hw => by rw [h.order]; simp [hw]
  have hvnew : v ∉ new := fun k => hns₁ (hsub v k)
  have hvs : v ∉ s.order := fun k => hns₁ (by rw [h.order]; exact List.mem_append_left _ k)
  have hstack : v ∉ stack := fun k => by simp [(hs.temp v).mpr k] at hv
  have hadj : ∀ b ∈ adj v, b ∈ s₁.order := fun b hb => by
    by_cases k : b ∈ s.order
    · rw [h.order]; exact List.mem_append_left _ k
    · exact hsub b ((h.mem b).mpr ⟨k, b, hb, .refl⟩)
  have hreach : ∀ w ∈ new, Reach adj v w := fun w hw => by
    obtain ⟨-, c, hc, hr⟩ := (h.mem w).mp hw
    exact .head hc hr
  refine ⟨h.good.leave hstack hadj, ?_, fun w => ?_, fun a b ha hb => ?_⟩
  · simp [State.leave, h.order, State.enter]
  · rw [List.mem_append, List.mem_singleton]
    constructor
    · rintro (hw | rfl)
      · exact ⟨((h.mem w).mp hw).1, v, by simp, hreach w hw⟩
      · exact ⟨hvs, w, by simp, .refl⟩
    · rintro ⟨hw, c, hc, hr⟩
      obtain rfl : c = v := by simpa using hc
      rcases hr.cases_head with rfl | ⟨d, hd, hr⟩
      · exact .inr rfl
      · exact .inl ((h.mem w).mpr ⟨hw, d, hd, hr⟩)
  · have hr : ∀ x ∈ new ++ [v], Reach adj v x := fun x hx => by
      rcases List.mem_append.mp hx with hx | hx
      · exact hreach x hx
      · rw [List.mem_singleton.mp hx]
    rw [precedes_concat hvnew ha hb, finishesFirst_of_both (hr a ha) (hr b hb)]
    refine and_congr_right fun hav => or_congr_right' fun hbv => h.first a b ?_ ?_
    · simpa [hav] using ha
    · simpa [hbv] using hb

/-! ### The search, by induction on its fuel -/

theorem visit_true :
    ∀ (fuel : Nat) (stack : List V) (v : V) (s s' : State V),
      visit adj fuel v s = some (true, s') → Good adj stack s →
        ∃ new, Visited adj stack [v] s s' new
  | 0, _, _, _, _, h, _ => by simp [visit] at h
  | fuel + 1, stack, v, s, s', h, hs => by
      simp only [visit] at h
      split at h
      · rename_i hv
        obtain rfl : s = s' := by simpa using h
        exact ⟨[], visited_perm hs hv⟩
      · simp at h
      · rename_i hv
        split at h
        · rename_i s₁ h₁
          obtain ⟨new, hnew⟩ := visitAll_true (visit_true fuel (v :: stack)) _ _ h₁ (hs.enter hv)
          obtain rfl : s₁.leave v = s' := by simpa using h
          exact ⟨new ++ [v], hnew.leave hs hv⟩
        · rename_i hne
          exact absurd h (hne s')

/-- A search stopped by a `temp` vertex has met a cycle: the vertices of the stack lead to the one
it visits, and so does the one that stopped it. -/
theorem visit_false :
    ∀ (fuel : Nat) (stack : List V) (v : V) (s s' : State V),
      visit adj fuel v s = some (false, s') → Good adj stack s →
        (∀ t ∈ stack, TransGen (Edge adj) t v) → ¬ Acyclic adj
  | 0, _, _, _, _, h, _, _ => by simp [visit] at h
  | fuel + 1, stack, v, s, s', h, hs, hT => by
      simp only [visit] at h
      split at h
      · simp at h
      · rename_i hv
        exact fun hac => hac v (hT v ((hs.temp v).mp hv))
      · rename_i hv
        split at h
        · simp at h
        · refine visitAll_false (visit_true fuel (v :: stack)) (visit_false fuel (v :: stack)) _ _ h
            (hs.enter hv) fun t ht c hc => ?_
          rcases List.mem_cons.mp ht with rfl | ht
          · exact .single hc
          · exact .tail (hT t ht) hc

/-! ### Enough fuel -/

theorem State.enter_mark (h : (s.enter v).mark w = .none) : s.mark w = .none := by
  by_cases e : w = v
  · simp [State.enter, e] at h
  · simpa [State.enter, Function.update_of_ne e] using h

theorem State.leave_mark (h : (s.leave v).mark w = .none) : s.mark w = .none := by
  by_cases e : w = v
  · simp [State.leave, e] at h
  · simpa [State.leave, Function.update_of_ne e] using h

/-- A search erases no mark. -/
theorem visit_mark :
    ∀ (fuel : Nat) (v : V) (s : State V) (r : Bool) (s' : State V),
      visit adj fuel v s = some (r, s') → ∀ w, s'.mark w = .none → s.mark w = .none
  | 0, _, _, _, _, h, _, _ => by simp [visit] at h
  | fuel + 1, v, s, r, s', h, w, hw => by
      simp only [visit] at h
      split at h
      · obtain ⟨-, rfl⟩ : true = r ∧ s = s' := by simpa using h
        exact hw
      · obtain ⟨-, rfl⟩ : false = r ∧ s = s' := by simpa using h
        exact hw
      · split at h
        · rename_i s₁ h₁
          obtain ⟨-, rfl⟩ : true = r ∧ s₁.leave v = s' := by simpa using h
          exact State.enter_mark
            (visitAll_mark (visit_mark fuel) (adj v) _ h₁ w (State.leave_mark hw))
        · exact State.enter_mark (visitAll_mark (visit_mark fuel) (adj v) _ h w hw)

theorem unvisited_enter [Fintype V] (hv : s.mark v = .none) : unvisited (s.enter v) < unvisited s := by
  refine Finset.card_lt_card ⟨fun w => by simpa using State.enter_mark, fun h => ?_⟩
  have hv' : (s.enter v).mark v = .none := by simpa using h (by simpa using hv)
  simp [State.enter] at hv'

theorem visit_isSome [Fintype V] :
    ∀ (fuel : Nat) (v : V) (s : State V), unvisited s < fuel → (visit adj fuel v s).isSome
  | 0, _, _, h => absurd h (Nat.not_lt_zero _)
  | fuel + 1, v, s, h => by
      simp only [visit]
      split
      · rfl
      · rfl
      · rename_i hv
        have := visitAll_isSome (visit_mark fuel) (visit_isSome fuel) (adj v)
          (s.enter v) (by have := unvisited_enter hv; omega)
        split
        · rfl
        · exact this

theorem visit_mono {fuel fuel' : Nat} (h : fuel ≤ fuel') :
    ∀ (v : V) (s : State V) (r : Bool × State V),
      visit adj fuel v s = some r → visit adj fuel' v s = some r := by
  induction fuel generalizing fuel' with
  | zero => intro v s r k; simp [visit] at k
  | succ fuel ih =>
      obtain ⟨fuel', rfl⟩ : ∃ n, fuel' = n + 1 := ⟨fuel' - 1, by omega⟩
      intro v s r k
      simp only [visit] at k ⊢
      split at k
      · exact k
      · exact k
      · cases h₁ : visitAll (visit adj fuel) (adj v) (s.enter v) with
        | none => simp [h₁] at k
        | some r₁ =>
            rw [h₁] at k
            rw [visitAll_mono (ih (Nat.le_of_succ_le_succ h)) _ _ h₁]
            exact k

/-! ### The whole sort -/

theorem visitRoot_true (h : visitRoot adj fuel v s = some (true, s')) (hs : Good adj [] s) :
    ∃ new, Visited adj [] [v] s s' new := by
  unfold visitRoot at h
  split at h
  · exact visit_true fuel [] v s s' h hs
  · rename_i hv
    obtain rfl : s = s' := by simpa using h
    cases e : s.mark v with
    | none => exact absurd e hv
    | temp => exact absurd ((hs.temp v).mp e) (by simp)
    | perm => exact ⟨[], visited_perm hs e⟩

theorem visitRoot_false (h : visitRoot adj fuel v s = some (false, s')) (hs : Good adj [] s) :
    ¬ Acyclic adj := by
  unfold visitRoot at h
  split at h
  · exact visit_false fuel [] v s s' h hs (by simp)
  · simp at h

/-- **A sort that ends well** lists the vertices reachable from the roots. -/
theorem sort_true {roots : List V} (h : sort adj fuel roots = some (true, s)) :
    Visited adj [] roots .init s s.order := by
  obtain ⟨new, hnew⟩ := visitAll_true (fun _ _ _ h hs => visitRoot_true h hs) roots _ h good_init
  have : s.order = new := by simpa [State.init] using hnew.order
  rwa [this]

/-- **A sort that stops** has met a cycle. -/
theorem sort_false {roots : List V} (h : sort adj fuel roots = some (false, s)) :
    ¬ Acyclic adj :=
  visitAll_false (fun _ _ _ h hs => visitRoot_true h hs)
    (fun _ _ _ h hs _ => visitRoot_false h hs) roots _ h good_init (by simp)

/-- **Fuel above the number of vertices is enough.** -/
theorem sort_isSome [Fintype V] {roots : List V} (h : Fintype.card V < fuel) :
    (sort adj fuel roots).isSome := by
  have hle : ∀ s : State V, unvisited s ≤ Fintype.card V := fun s => Finset.card_le_univ _
  refine visitAll_isSome (n := fuel) (fun v s r s' k w hw => ?_) (fun v s _ => ?_) roots .init
    ((hle _).trans_lt h)
  · unfold visitRoot at k
    split at k
    · exact visit_mark fuel v s r s' k w hw
    · obtain ⟨-, rfl⟩ : true = r ∧ s = s' := by simpa using k
      exact hw
  · unfold visitRoot
    split
    · exact visit_isSome fuel v s ((hle s).trans_lt h)
    · rfl

/-- More fuel changes nothing. -/
theorem sort_fuel {fuel' : Nat} {roots : List V} {r : Bool × State V} (h : fuel ≤ fuel')
    (hr : sort adj fuel roots = some r) : sort adj fuel' roots = some r := by
  refine visitAll_mono (fun v s r k => ?_) roots .init hr
  unfold visitRoot at k ⊢
  split at k
  · exact visit_mono h v s r k
  · exact k

end Support.Dfs
