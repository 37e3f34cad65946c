import Mathlib.Algebra.Order.Ring.Rat
import LumiOS.Support.Offsets
import LumiOS.Toolkit.Widget

/-!
# Toolkit — Placement

Where `lumi_widget_layout` leaves the children of a widget.

The loop puts each child behind the ones before it and then calls itself for it, and the call starts with
`root->x = 0` and `root->y = 0`: every widget ends at the origin (`Laid.settled`).  So a child is where
its parent put it exactly when that is the origin too: no padding, and nothing but the last child has any
extent (`layout_placed_iff`).
-/

namespace LumiOS.Toolkit

open Support Relation

/-! ### Where children belong -/

/-- The widgets that are the children of `v`. -/
def kids {F : Type} (heap : Heap F) (v : Nat) : List (Widget F) :=
  (childrenOf heap v).filterMap fun c => heap[c]?

/-- The place of the child of `p` that stands behind these. -/
def Widget.spot (p : Widget ℚ) (earlier : List (Widget ℚ)) : ℚ × ℚ :=
  match p.layoutDir with
  | .column => (p.x + p.padding, p.y + p.padding + (earlier.map fun c => c.h + p.spacing).sum)
  | .row => (p.x + p.padding + (earlier.map fun c => c.w + p.spacing).sum, p.y + p.padding)

/-- Every child of a widget at or below `root` stands at its place. -/
def Placed (heap : Heap ℚ) (root : Nat) : Prop :=
  ∀ v, Reach (childrenOf heap) root v → ∀ p, heap[v]? = some p →
    ∀ before c after, kids heap v = before ++ c :: after → (c.x, c.y) = p.spot before

/-- Two widgets that do not overlap. -/
def Widget.Clear (c d : Widget ℚ) : Prop :=
  c.x + c.w ≤ d.x ∨ d.x + d.w ≤ c.x ∨ c.y + c.h ≤ d.y ∨ d.y + d.h ≤ c.y

/-- Children whose sizes are not negative do not overlap, with a spacing that is not negative. -/
def Apart (heap : Heap ℚ) (root : Nat) : Prop :=
  ∀ v, Reach (childrenOf heap) root v → ∀ p, heap[v]? = some p → 0 ≤ p.spacing →
    (∀ c ∈ kids heap v, 0 ≤ c.w ∧ 0 ≤ c.h) → (kids heap v).Pairwise Widget.Clear

/-- What a child takes of its parent along the parent's direction, before the spacing. -/
def Widget.extent (p c : Widget ℚ) : ℚ :=
  match p.layoutDir with
  | .column => if c.h = 0 then 40 else c.h
  | .row => if c.w = 0 then 100 else c.w

/-- Each widget at or below `root` that has children has no padding, and none but its last child takes
any room. -/
def Collapsed (heap : Heap ℚ) (root : Nat) : Prop :=
  ∀ v, Reach (childrenOf heap) root v → ∀ p, heap[v]? = some p → kids heap v ≠ [] →
    p.padding = 0 ∧ ∀ c ∈ (kids heap v).dropLast, p.extent c + p.spacing = 0

section

variable {heap heap' : Heap ℚ} {root v : Nat} {width height : ℚ}

/-- Children at their places do not overlap. -/
theorem Placed.apart (h : Placed heap root) : Apart heap root := by
  intro v hv p hp hspacing hsize
  have hplace := h v hv p hp
  cases hdir : p.layoutDir with
  | column =>
      have hpos : ∀ before c after, kids heap v = before ++ c :: after →
          c.y = p.y + p.padding + (before.map fun c => c.h + p.spacing).sum :=
        fun before c after e => by
          have hspot := hplace before c after e
          simp only [Widget.spot, hdir] at hspot
          exact (Prod.mk.inj hspot).2
      refine List.Pairwise.imp (fun {c d} hcd => ?_) (pairwise_of_offsets hpos fun c hc =>
        add_nonneg (hsize c hc).2 hspacing)
      exact .inr (.inr (.inl ((add_le_add_right (le_add_of_nonneg_right hspacing) _).trans hcd)))
  | row =>
      have hpos : ∀ before c after, kids heap v = before ++ c :: after →
          c.x = p.x + p.padding + (before.map fun c => c.w + p.spacing).sum :=
        fun before c after e => by
          have hspot := hplace before c after e
          simp only [Widget.spot, hdir] at hspot
          exact (Prod.mk.inj hspot).1
      refine List.Pairwise.imp (fun {c d} hcd => ?_) (pairwise_of_offsets hpos fun c hc =>
        add_nonneg (hsize c hc).1 hspacing)
      exact .inl ((add_le_add_right (le_add_of_nonneg_right hspacing) _).trans hcd)

/-! ### Where they end -/

/-- What a layout leaves of a widget, but for its size: the origin. -/
structure Widget.Settled (p p' : Widget ℚ) : Prop where
  x_eq : p'.x = 0
  y_eq : p'.y = 0
  layoutDir_eq : p'.layoutDir = p.layoutDir
  padding_eq : p'.padding = p.padding
  spacing_eq : p'.spacing = p.spacing

theorem Widget.settled_fit (p : Widget ℚ) : p.Settled (p.fit width height) :=
  ⟨Nat.cast_zero, Nat.cast_zero, rfl, rfl, rfl⟩

theorem Widget.settled_settle (r p : Widget ℚ) : p.Settled (r.settle p) :=
  ⟨Nat.cast_zero, Nat.cast_zero, place_layoutDir r _ p, place_padding r _ p, place_spacing r _ p⟩

/-- Every widget at or below `root` ends at the origin. -/
theorem Laid.settled (h : Laid (childrenOf heap) root width height heap heap')
    (hs : SameTree heap heap') (hv : Reach (childrenOf heap) root v) {p' : Widget ℚ}
    (hp : heap'[v]? = some p') : ∃ p, heap[v]? = some p ∧ p.Settled p' := by
  rcases hv.cases_tail with rfl | ⟨q, hq, hvq⟩
  · rw [h.root_eq] at hp
    obtain ⟨p, hget, rfl⟩ := Option.map_eq_some_iff.mp hp
    exact ⟨p, hget, p.settled_fit⟩
  · obtain ⟨q', hq'⟩ := exists_of_child ((hs.children_eq q).symm ▸ hvq : v ∈ childrenOf heap' q)
    rw [h.child_eq q hq v hvq q' hq'] at hp
    obtain ⟨p, hget, rfl⟩ := Option.map_eq_some_iff.mp hp
    exact ⟨p, hget, q'.settled_settle p⟩

theorem Laid.exists_settled (h : Laid (childrenOf heap) root width height heap heap')
    (hs : SameTree heap heap') (hv : Reach (childrenOf heap) root v) {p : Widget ℚ}
    (hp : heap[v]? = some p) : ∃ p', heap'[v]? = some p' ∧ p.Settled p' := by
  obtain ⟨p', hp'⟩ := hs.exists_get (List.getElem?_eq_some_iff.mp hp).1
  obtain ⟨q, hq, hsettled⟩ := h.settled hs hv hp'
  cases hp.symm.trans hq
  exact ⟨p', hp', hsettled⟩

/-- The children of a widget, as the layout leaves them. -/
theorem Laid.kids_eq (h : Laid (childrenOf heap) root width height heap heap')
    (hs : SameTree heap heap') (hv : Reach (childrenOf heap) root v) {p' : Widget ℚ}
    (hp : heap'[v]? = some p') : kids heap' v = (kids heap v).map p'.settle := by
  rw [kids, kids, hs.children_eq v, List.map_filterMap]
  exact List.filterMap_congr fun c hc => h.child_eq v hv c hc p' hp

/-- What a child takes, after the layout. -/
theorem Widget.spot_settle {p p' : Widget ℚ} (h : p.Settled p') (earlier : List (Widget ℚ)) :
    p'.spot (earlier.map p'.settle) = (0, 0) ↔
      p.padding = 0 ∧ (earlier.map fun c => p.extent c + p.spacing).sum = 0 := by
  have hsum : ∀ {s : ℚ}, (p.padding = 0 ∧ p.padding + s = 0) ↔ p.padding = 0 ∧ s = 0 := fun {s} =>
    and_congr_right fun hpad => by rw [hpad, zero_add]
  cases hdir : p.layoutDir with
  | column =>
      simp only [spot, settle, place, extent, h.layoutDir_eq, hdir, h.x_eq, h.y_eq, h.padding_eq,
        h.spacing_eq, List.map_map, Function.comp_def, zero_add, Prod.mk.injEq, beq_iff_eq,
        Nat.cast_zero, Nat.cast_ofNat]
      exact hsum
  | row =>
      simp only [spot, settle, place, extent, h.layoutDir_eq, hdir, h.x_eq, h.y_eq, h.padding_eq,
        h.spacing_eq, List.map_map, Function.comp_def, zero_add, Prod.mk.injEq, beq_iff_eq,
        Nat.cast_zero, Nat.cast_ofNat]
      rw [and_comm]
      exact hsum

/-- One widget: its children are at their places exactly when those are all the origin. -/
theorem placed_kids_iff {p p' : Widget ℚ} (h : p.Settled p') (cs : List (Widget ℚ)) :
    (∀ before c after, cs.map p'.settle = before ++ c :: after → (c.x, c.y) = p'.spot before) ↔
      (cs ≠ [] → p.padding = 0 ∧ ∀ c ∈ cs.dropLast, p.extent c + p.spacing = 0) := by
  have hsplit : (∀ before c after, cs.map p'.settle = before ++ c :: after →
        (c.x, c.y) = p'.spot before) ↔
      ∀ before c after, cs = before ++ c :: after →
        p.padding = 0 ∧ (before.map fun c => p.extent c + p.spacing).sum = 0 := by
    constructor
    · rintro hall before c after rfl
      have hspot := hall (before.map p'.settle) (p'.settle c) (after.map p'.settle) (by simp)
      exact (Widget.spot_settle h before).mp (hspot.symm.trans (Prod.ext
        (Widget.settled_settle p' c).x_eq (Widget.settled_settle p' c).y_eq))
    · intro hall before c after e
      obtain ⟨before, rest, rfl, rfl, hrest⟩ := List.map_eq_append_iff.mp e
      obtain ⟨c, after, rfl, rfl, rfl⟩ := List.map_eq_cons_iff.mp hrest
      rw [(Widget.spot_settle h before).mpr (hall before c after rfl)]
      exact Prod.ext (Widget.settled_settle p' c).x_eq (Widget.settled_settle p' c).y_eq
  rw [hsplit, ← offsets_eq_zero_iff]
  constructor
  · intro hall hne
    refine ⟨?_, fun before c after e => (hall before c after e).2⟩
    obtain ⟨c, after, rfl⟩ := List.exists_cons_of_ne_nil hne
    exact (hall [] c after rfl).1
  · rintro hall before c after rfl
    obtain ⟨hpad, hsum⟩ := hall (by simp)
    exact ⟨hpad, hsum before c after rfl⟩

/-- All of them. -/
theorem Laid.placed_iff (h : Laid (childrenOf heap) root width height heap heap')
    (hs : SameTree heap heap') : Placed heap' root ↔ Collapsed heap root := by
  rw [Placed, Collapsed, hs.childrenOf_eq]
  refine forall₂_congr fun v hv => ?_
  constructor
  · intro hall p hp
    obtain ⟨p', hp', hsettled⟩ := h.exists_settled hs hv hp
    have hkids := hall p' hp'
    rw [h.kids_eq hs hv hp'] at hkids
    exact (placed_kids_iff hsettled _).mp hkids
  · intro hall p' hp'
    obtain ⟨p, hp, hsettled⟩ := h.settled hs hv hp'
    rw [h.kids_eq hs hv hp']
    exact (placed_kids_iff hsettled _).mpr (hall p hp)

end

/-- **Where a layout leaves the children.**  They stand at their places, and do not overlap, exactly
when every place is the origin. -/
theorem layout_placed_iff {heap : Heap ℚ} (hf : Forest (childrenOf heap)) (hc : Closed heap)
    {root : Nat} (hroot : root < heap.length) (width height : ℚ) {fuel : Nat}
    (hfuel : heap.length < fuel) :
    ∃ heap', lumiWidgetLayout fuel root width height heap = some heap' ∧
      (Placed heap' root ∧ Apart heap' root ↔ Collapsed heap root) := by
  obtain ⟨heap', e, hs, hlaid⟩ := layout_laid hf hc hroot width height hfuel
  refine ⟨heap', e, ?_⟩
  rw [← hlaid.placed_iff hs]
  exact ⟨And.left, fun h => ⟨h, h.apart⟩⟩

/-- A column with this padding and one child. -/
def column (padding : ℚ) : Heap ℚ :=
  [{ Widget.zero .box with
      layoutDir := .column
      padding := padding
      children := [1]
      children_le := by decide },
    .zero .label]

theorem column_forest (padding : ℚ) : Forest (childrenOf (column padding)) := by
  have hch : childrenOf (column padding) = addEdge (fun _ => []) 0 1 := by
    funext v
    match v with
    | 0 => rfl
    | 1 => rfl
    | v + 2 => rfl
  rw [hch]
  refine (forest_addEdge_iff .empty).mpr ⟨fun q h => (nomatch h), fun hr => ?_⟩
  rcases hr.cases_head with h | ⟨c, h, -⟩
  · exact absurd h (by decide)
  · cases h

theorem column_closed (padding : ℚ) : Closed (column padding) := by
  intro p c hc
  match p with
  | 0 => rw [List.mem_singleton.mp hc]; exact Nat.lt_succ_self 1
  | 1 => cases hc
  | p + 2 => cases hc

theorem layout_placed_flat :
    ∃ heap', lumiWidgetLayout 3 0 (320 : ℚ) 240 (column 0) = some heap' ∧
      (Placed heap' 0 ∧ Apart heap' 0 ↔ Collapsed (column 0) 0) :=
  layout_placed_iff (column_forest 0) (column_closed 0) (by decide) 320 240 (by decide)

/-- A child of a padded column is left at the column's corner. -/
theorem layout_not_placed : ¬ ∀ (heap : Heap ℚ) (root fuel : Nat) (width height : ℚ),
    Forest (childrenOf heap) → Closed heap → root < heap.length → heap.length < fuel →
    ∃ heap', lumiWidgetLayout fuel root width height heap = some heap' ∧
      Placed heap' root ∧ Apart heap' root := by
  intro h
  obtain ⟨heap', e, hplaced, -⟩ := h (column 8) 0 3 320 240 (column_forest 8) (column_closed 8)
    (by decide) (by decide)
  obtain ⟨heap₂, e₂, hs, hlaid⟩ := layout_laid (column_forest 8) (column_closed 8)
    (by decide : 0 < (column 8).length) 320 240 (by decide : (column 8).length < 3)
  cases e.symm.trans e₂
  have hpad : (8 : ℚ) = 0 :=
    ((hlaid.placed_iff hs).mp hplaced 0 .refl _ rfl (by simp [kids, column, childrenOf])).1
  exact absurd hpad (by decide)

end LumiOS.Toolkit
