import Mathlib.Data.List.Nodup
import Mathlib.Logic.Relation

/-!
# Support — Graph

Graphs given by adjacency lists `adj : V → List V`: reachability, acyclicity, and the order in
which a depth-first search finishes two vertices, read off the graph.

`FinishesFirst adj a b cs` walks the vertices `cs` in turn, and stops at the first from which `a` or
`b` is reachable.  No search state enters its definition; `Dfs.lean` proves it the order of a
search's output.
-/

namespace Support

open Relation

variable {V : Type*}

/-! ### Order in a list -/

/-- `a` stands before `b` in `l`. -/
def Precedes (l : List V) (a b : V) : Prop := [a, b].Sublist l

instance [DecidableEq V] (l : List V) (a b : V) : Decidable (Precedes l a b) :=
  inferInstanceAs (Decidable ([a, b].Sublist l))

/-- Two elements of a joined list are in one part or the other, or in both in this order. -/
theorem precedes_append {l₁ l₂ : List V} {a b : V} :
    Precedes (l₁ ++ l₂) a b ↔ Precedes l₁ a b ∨ (a ∈ l₁ ∧ b ∈ l₂) ∨ Precedes l₂ a b := by
  unfold Precedes
  constructor
  · intro h
    obtain ⟨m₁, m₂, hm, h₁, h₂⟩ := List.sublist_append_iff.mp h
    match m₁, m₂, hm with
    | [], _, rfl => exact .inr (.inr h₂)
    | [_], [_], rfl => exact .inr (.inl ⟨by simpa using h₁, by simpa using h₂⟩)
    | [_, _], [], rfl => exact .inl h₁
  · rintro (h | ⟨ha, hb⟩ | h)
    · exact h.trans (List.sublist_append_left _ _)
    · exact List.Sublist.append (List.singleton_sublist.mpr ha) (List.singleton_sublist.mpr hb)
    · exact h.trans (List.sublist_append_right _ _)

/-- Both are elements. -/
theorem Precedes.mem {l : List V} {a b : V} (h : Precedes l a b) : a ∈ l ∧ b ∈ l :=
  ⟨h.subset (by simp), h.subset (by simp)⟩

/-- One element stands before nothing. -/
theorem precedes_singleton {a b c : V} : ¬ Precedes [c] a b := fun h => by
  simpa using h.length_le

/-- What is in front stands before the rest. -/
theorem precedes_cons {l : List V} {a b c : V} :
    Precedes (c :: l) a b ↔ a = c ∧ b ∈ l ∨ Precedes l a b := by
  rw [show c :: l = [c] ++ l from rfl, precedes_append, List.mem_singleton,
    or_iff_right precedes_singleton]

/-- An element that is not in the second part is ordered by the first. -/
theorem precedes_append_left {l₁ l₂ : List V} {a b : V} (hb : b ∉ l₂) :
    Precedes (l₁ ++ l₂) a b ↔ Precedes l₁ a b := by
  rw [precedes_append]
  exact ⟨fun h => h.elim id (Or.elim · (absurd ·.2 hb) (absurd ·.mem.2 hb)), .inl⟩

/-- An element that is not in the first part is ordered by the second. -/
theorem precedes_append_right {l₁ l₂ : List V} {a b : V} (ha : a ∉ l₁) :
    Precedes (l₁ ++ l₂) a b ↔ Precedes l₂ a b := by
  rw [precedes_append]
  exact ⟨fun h => h.elim (absurd ·.mem.1 ha) (Or.elim · (absurd ·.1 ha) id), fun h => .inr (.inr h)⟩

/-- The last of a list stands before nothing, and everything else before it. -/
theorem precedes_concat {l : List V} {a b v : V} (hv : v ∉ l) (ha : a ∈ l ++ [v])
    (hb : b ∈ l ++ [v]) : Precedes (l ++ [v]) a b ↔ a ≠ v ∧ (b = v ∨ Precedes l a b) := by
  have hne : a ≠ v ↔ a ∈ l := ⟨fun e => by simpa [e] using ha, fun h e => hv (e ▸ h)⟩
  rw [precedes_append, hne]
  constructor
  · rintro (h | ⟨h, hb⟩ | h)
    · exact ⟨h.mem.1, .inr h⟩
    · exact ⟨h, .inl (List.mem_singleton.mp hb)⟩
    · exact absurd h precedes_singleton
  · rintro ⟨h, rfl | h'⟩
    · exact .inr (.inl ⟨h, by simp⟩)
    · exact .inl h'

/-- To stand before is to stand at a smaller index. -/
theorem precedes_iff_index {l : List V} {a b : V} :
    Precedes l a b ↔ ∃ i j : Nat, i < j ∧ l[i]? = some a ∧ l[j]? = some b := by
  induction l with
  | nil => simp [Precedes]
  | cons c l ih =>
      rw [precedes_cons, ih]
      constructor
      · rintro (⟨ha, hb⟩ | ⟨i, j, hij, hi, hj⟩)
        · obtain ⟨j, hj⟩ := List.getElem?_of_mem hb
          exact ⟨0, j + 1, by omega, by simpa using ha.symm, by simpa using hj⟩
        · exact ⟨i + 1, j + 1, by omega, by simpa using hi, by simpa using hj⟩
      · rintro ⟨i, j, hij, hi, hj⟩
        obtain ⟨j, rfl⟩ : ∃ k, j = k + 1 := ⟨j - 1, by omega⟩
        have hj' : l[j]? = some b := by simpa using hj
        cases i with
        | zero =>
            refine .inl ⟨?_, List.mem_of_getElem? hj'⟩
            simpa using hi.symm
        | succ i => exact .inr ⟨i, j, by omega, by simpa using hi, hj'⟩

/-- A list is in its own order. -/
theorem pairwise_precedes {l : List V} : l.Pairwise (Precedes l) := by
  rw [List.pairwise_iff_getElem]
  intro i j hi hj hij
  exact precedes_iff_index.mpr
    ⟨i, j, hij, List.getElem?_eq_getElem hi, List.getElem?_eq_getElem hj⟩

/-- Without repetitions only one of two stands before the other. -/
theorem precedes_asymm {l : List V} {a b : V} (hl : l.Nodup) (h : Precedes l a b) :
    ¬ Precedes l b a := by
  obtain ⟨i, j, hij, hi, hj⟩ := precedes_iff_index.mp h
  intro h'
  obtain ⟨j', i', hji, hj', hi'⟩ := precedes_iff_index.mp h'
  obtain ⟨hlt, rfl⟩ := List.getElem?_eq_some_iff.mp hi
  obtain ⟨hlt', rfl⟩ := List.getElem?_eq_some_iff.mp hj
  have e : i = i' := (List.getElem?_inj hlt hl).mp (hi.trans hi'.symm)
  have e' : j = j' := (List.getElem?_inj hlt' hl).mp (hj.trans hj'.symm)
  omega

/-! ### The graph -/

/-- `v` is a successor of `u`. -/
def Edge (adj : V → List V) (u v : V) : Prop := v ∈ adj u

/-- `v` is reachable from `u`. -/
abbrev Reach (adj : V → List V) : V → V → Prop := ReflTransGen (Edge adj)

/-- No vertex is reached again from itself. -/
def Acyclic (adj : V → List V) : Prop := ∀ v, ¬ TransGen (Edge adj) v v

/-- `a` is finished before `b` by a search that visits the vertices of a list in turn.  The first
vertex of the list from which `a` or `b` is reachable decides: it reaches only `a`; or it is `b`,
and reaches `a`; or it is neither and reaches both, and its own successors decide. -/
inductive FinishesFirst (adj : V → List V) (a b : V) : List V → Prop where
  | skip {c : V} {cs : List V} (ha : ¬ Reach adj c a) (hb : ¬ Reach adj c b)
      (h : FinishesFirst adj a b cs) : FinishesFirst adj a b (c :: cs)
  | only {c : V} {cs : List V} (ha : Reach adj c a) (hb : ¬ Reach adj c b) :
      FinishesFirst adj a b (c :: cs)
  | last {cs : List V} (ha : Reach adj b a) (hne : a ≠ b) : FinishesFirst adj a b (b :: cs)
  | under {c : V} {cs : List V} (hca : c ≠ a) (hcb : c ≠ b) (ha : Reach adj c a)
      (hb : Reach adj c b) (h : FinishesFirst adj a b (adj c)) : FinishesFirst adj a b (c :: cs)

section

variable {adj : V → List V} {a b c : V} {cs : List V}

/-- A vertex that reaches neither decides nothing. -/
theorem finishesFirst_of_neither (ha : ¬ Reach adj c a) (hb : ¬ Reach adj c b) :
    FinishesFirst adj a b (c :: cs) ↔ FinishesFirst adj a b cs := by
  refine ⟨fun h => ?_, .skip ha hb⟩
  cases h with
  | skip _ _ h => exact h
  | only h _ => exact absurd h ha
  | last h _ => exact absurd h ha
  | under _ _ h _ _ => exact absurd h ha

/-- A vertex that reaches `b` alone decides against `a`. -/
theorem not_finishesFirst_of_right (ha : ¬ Reach adj c a) (hb : Reach adj c b) :
    ¬ FinishesFirst adj a b (c :: cs) := fun h => by
  cases h with
  | skip _ h _ => exact h hb
  | only h _ => exact ha h
  | last h _ => exact ha h
  | under _ _ h _ _ => exact ha h

/-- A vertex that reaches both leaves it to its successors, unless it is one of the two. -/
theorem finishesFirst_of_both (ha : Reach adj c a) (hb : Reach adj c b) :
    FinishesFirst adj a b (c :: cs) ↔ a ≠ c ∧ (b = c ∨ FinishesFirst adj a b (adj c)) := by
  constructor
  · intro h
    cases h with
    | skip h _ _ => exact absurd ha h
    | only _ h => exact absurd hb h
    | last _ hne => exact ⟨hne, .inl rfl⟩
    | under hca _ _ _ h => exact ⟨hca.symm, .inr h⟩
  · rintro ⟨hne, h⟩
    by_cases e : b = c
    · subst e; exact .last ha hne
    · exact .under hne.symm (Ne.symm e) ha hb (h.resolve_left e)

end

end Support
