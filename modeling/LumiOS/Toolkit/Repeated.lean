import LumiOS.Toolkit.Placement

/-!
# Toolkit — Repeated

A tree laid out again and again.  `lumi_widget_layout` gives a size only to a widget whose size is zero,
and keeps it in the widget.  So one call settles the tree: more calls at the same size change nothing, nor
do calls at any other once the root has a size (`layout_settles`).  Nothing is asked of the numbers for
this, not even that `==` is reflexive, as it is not for a `float`.
-/

namespace LumiOS.Toolkit

open Support

section

variable {F : Type} [NatCast F] [BEq F] {width height width' height' : F}

/-- Neither side of the widget is zero. -/
def Widget.Sized (r : Widget F) : Prop := (r.w == (0 : Nat)) = false ∧ (r.h == (0 : Nat)) = false

/-- The call at this size leaves a root as it is that the one at the other size has left. -/
def Idle (width height width' height' : F) (r : Widget F) : Prop :=
  (width' = width ∧ height' = height) ∨ (r.fit width height).Sized

theorem Widget.fit_fit {r : Widget F} (h : Idle width height width' height' r) :
    (r.fit width height).fit width' height' = r.fit width height := by
  rcases h with ⟨rfl, rfl⟩ | ⟨hw, hh⟩
  · simp only [fit]
    congr 1
    · split <;> simp [*]
    · split <;> simp [*]
  · conv_lhs => rw [fit]
    rw [hw, hh]
    rfl

variable [Add F] [Sub F] [Mul F] {heap heap₁ heap₂ : Heap F} {root : Nat}

theorem Widget.settle_settle (r c : Widget F) : r.settle (r.settle c) = r.settle c := by
  cases hdir : r.layoutDir <;> simp only [settle, place, hdir]
  all_goals
    congr 1
    · split <;> simp [*]
    · split <;> simp [*]

/-- **A layout after a layout** changes no widget. -/
theorem Laid.again (htree : SameTree heap heap₁)
    (h₁ : Laid (childrenOf heap) root width height heap heap₁)
    (h₂ : Laid (childrenOf heap) root width' height' heap₁ heap₂)
    (hroot : ∀ r, heap[root]? = some r → Idle width height width' height' r) : heap₂ = heap₁ := by
  have hreached : ∀ v, Reach (childrenOf heap) root v → heap₂[v]? = heap₁[v]? := by
    intro v hv
    induction hv with
    | refl =>
        rw [h₂.root_eq, h₁.root_eq]
        cases hr : heap[root]? with
        | none => rfl
        | some r => exact congrArg some (Widget.fit_fit (hroot r hr))
    | @tail p c hp hc ih =>
        -- the parent of a widget is as it was, and settles it once more
        have hchild : c ∈ childrenOf heap₁ p := by
          rw [htree.children_eq p]
          exact hc
        obtain ⟨r, hr⟩ := exists_of_child hchild
        rw [h₂.child_eq p hp c hc r (ih.trans hr), h₁.child_eq p hp c hc r hr, Option.map_map]
        exact congrArg (Option.map · heap[c]?) (funext (Widget.settle_settle r))
  refine List.ext_getElem? fun v => ?_
  by_cases hv : Reach (childrenOf heap) root v
  · exact hreached v hv
  · exact h₂.frame v hv

end

/-- **A layout is final.**  On a tree, once `lumi_widget_layout` has returned, however often it is called
again, at sizes that are the same or find the root with a size, no widget changes. -/
theorem layout_settles {F : Type} [NatCast F] [BEq F] [Add F] [Sub F] [Mul F] {heap heap₁ : Heap F}
    (hf : Forest (childrenOf heap)) (hc : Closed heap) {root fuel : Nat} (hroot : root < heap.length)
    (hfuel : heap.length < fuel) {width height : F}
    (h : lumiWidgetLayout fuel root width height heap = some heap₁) {sizes : List (F × F)}
    (hidle : ∀ size ∈ sizes, Idle width height size.1 size.2 heap[root]) :
    sizes.foldlM (fun heap size => lumiWidgetLayout fuel root size.1 size.2 heap) heap₁ = some heap₁ := by
  obtain ⟨heap', h', htree, hlaid⟩ := layout_laid hf hc hroot width height hfuel
  obtain rfl := Option.some.inj (h'.symm.trans h)
  have hchildren := htree.childrenOf_eq
  induction sizes with
  | nil => rfl
  | cons size sizes ih =>
      have hf' : Forest (childrenOf heap') := hchildren ▸ hf
      obtain ⟨heap₂, h₂, -, hlaid₂⟩ := layout_laid hf' (htree.closed hc) (htree.length_eq ▸ hroot)
        size.1 size.2 (htree.length_eq ▸ hfuel)
      rw [hchildren] at hlaid₂
      obtain rfl := hlaid.again htree hlaid₂ fun r hr => by
        rw [List.getElem?_eq_getElem hroot] at hr
        exact Option.some.inj hr ▸ hidle size List.mem_cons_self
      rw [List.foldlM_cons, h₂]
      exact ih fun size' hsize' => hidle size' (List.mem_cons_of_mem size hsize')

theorem layout_settles_column :
    ∃ heap₁, lumiWidgetLayout 3 0 (320 : ℚ) 240 (column 8) = some heap₁ ∧
      [((320 : ℚ), (240 : ℚ)), (240, 320)].foldlM
        (fun heap size => lumiWidgetLayout 3 0 size.1 size.2 heap) heap₁ = some heap₁ := by
  refine ⟨_, rfl, layout_settles (column_forest 8) (column_closed 8) (by decide) (by decide) rfl ?_⟩
  rintro size -
  exact .inr ⟨by decide, by decide⟩

end LumiOS.Toolkit
