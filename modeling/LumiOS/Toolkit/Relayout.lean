import LumiOS.Toolkit.Placement

/-!
# Toolkit — Relayout

A tree whose sizes are all automatic, laid out twice.

A size of zero asks `lumi_widget_layout` for one, and the answer is written over the question: the second
call finds sizes, not zeroes, and keeps them.  Widths come down through columns and heights through
rows, so what the second call computes anew is what the first left at zero (`relayout_iff`).
-/

namespace LumiOS.Toolkit

open Support Relation

/-! ### Sizes on their way down -/

/-- The size that widgets with this direction hand down: the width in columns, the height in rows. -/
def Widget.across (d : LayoutDir) (p : Widget ℚ) : ℚ :=
  match d with
  | .column => p.w
  | .row => p.h

/-- The one of the two sizes of a call. -/
def LayoutDir.pick (d : LayoutDir) (width height : ℚ) : ℚ :=
  match d with
  | .column => width
  | .row => height

/-- What a widget of the other direction gives instead. -/
def LayoutDir.fixed : LayoutDir → ℚ
  | .column => 100
  | .row => 40

/-- What a widget with this size gives a child that asks. -/
def Widget.handed (p : Widget ℚ) (d : LayoutDir) (size : ℚ) : ℚ :=
  if p.layoutDir = d then size - p.padding * 2 else d.fixed

/-- The sizes of a heap. -/
def across (heap : Heap ℚ) (d : LayoutDir) (v : Nat) : ℚ :=
  ((heap[v]?).map (Widget.across d)).getD 0

/-- Below `root` through widgets of this direction alone. -/
def Through (heap : Heap ℚ) (d : LayoutDir) (root : Nat) : Nat → Prop :=
  ReflTransGen (fun v c => c ∈ childrenOf heap v ∧ ∃ p, heap[v]? = some p ∧ p.layoutDir = d) root

/-- On the way down through these widgets there is no padding. -/
def Unpadded (heap : Heap ℚ) (d : LayoutDir) (root : Nat) : Prop :=
  ∀ v, Through heap d root v → ∀ p, heap[v]? = some p → p.layoutDir = d →
    childrenOf heap v ≠ [] → p.padding = 0

/-- The sizes across `d` after a first layout, after a second one, and after the second alone. -/
structure Sizes (heap : Heap ℚ) (d : LayoutDir) (root : Nat) (a₁ a₂ : ℚ)
    (first second fresh : Nat → ℚ) : Prop where
  first_root : first root = a₁
  second_root : second root = if a₁ = 0 then a₂ else a₁
  fresh_root : fresh root = a₂
  first_child : ∀ v, Reach (childrenOf heap) root v → ∀ p, heap[v]? = some p →
    ∀ c ∈ childrenOf heap v, first c = p.handed d (first v)
  second_child : ∀ v, Reach (childrenOf heap) root v → ∀ p, heap[v]? = some p →
    ∀ c ∈ childrenOf heap v, second c = if first c = 0 then p.handed d (second v) else first c
  fresh_child : ∀ v, Reach (childrenOf heap) root v → ∀ p, heap[v]? = some p →
    ∀ c ∈ childrenOf heap v, fresh c = p.handed d (fresh v)

section

variable {heap heap₁ heap₂ fresh : Heap ℚ} {d : LayoutDir} {root v c : Nat} {a₁ a₂ : ℚ}
  {first second third : Nat → ℚ}

theorem Through.reach (h : Through heap d root v) : Reach (childrenOf heap) root v :=
  ReflTransGen.mono (fun _ _ e => e.1) _ _ h

/-- A layout leaves what a widget hands on. -/
theorem Widget.Settled.handed_eq {p p' : Widget ℚ} (h : p.Settled p') (d : LayoutDir) (size : ℚ) :
    p'.handed d size = p.handed d size := by
  rw [handed, handed, h.layoutDir_eq, h.padding_eq]

theorem Widget.handed_of_eq {p : Widget ℚ} (h : p.layoutDir = d) (size : ℚ) :
    p.handed d size = size - p.padding * 2 := if_pos h

namespace Sizes

/-- Down the way that hands sizes on, two layouts from the start stay as far apart as they began. -/
theorem sub_eq (h : Sizes heap d root a₁ a₂ first second third) (hv : Through heap d root v) :
    first v - third v = a₁ - a₂ := by
  induction hv with
  | refl => rw [h.first_root, h.fresh_root]
  | tail hv e ih =>
      obtain ⟨hm, p, hp, hdir⟩ := e
      have hreach := Through.reach hv
      rw [h.first_child _ hreach p hp _ hm, h.fresh_child _ hreach p hp _ hm,
        Widget.handed_of_eq hdir, Widget.handed_of_eq hdir, sub_sub_sub_cancel_right, ih]

/-- What the second layout finds is zero, or it stays. -/
theorem second_eq (h : Sizes heap d root a₁ a₂ first second third)
    (hv : Reach (childrenOf heap) root v) (hne : first v ≠ 0) : second v = first v := by
  rcases hv.cases_tail with rfl | ⟨q, hq, hvq⟩
  · rw [h.second_root, h.first_root, if_neg (h.first_root ▸ hne)]
  · obtain ⟨p, hp⟩ := exists_of_child hvq
    rw [h.second_child q hq p hp v hvq, if_neg hne]

/-- A second layout at another size needs zeroes all the way down. -/
theorem unpadded (h : Sizes heap d root a₁ a₂ first second third) (hne : a₁ ≠ a₂)
    (hsame : ∀ v, Reach (childrenOf heap) root v → second v = third v) :
    a₁ = 0 ∧ Unpadded heap d root := by
  have hzero : ∀ v, Through heap d root v → first v = 0 := fun v hv => by
    by_contra hv0
    have heq : first v = third v :=
      (h.second_eq (Through.reach hv) hv0).symm.trans (hsame v (Through.reach hv))
    exact hne (sub_eq_zero.mp ((h.sub_eq hv).symm.trans (sub_eq_zero.mpr heq)))
  refine ⟨h.first_root.symm.trans (hzero root .refl), fun v hv p hp hdir hch => ?_⟩
  obtain ⟨c, hm⟩ := List.exists_mem_of_ne_nil _ hch
  have hchild := h.first_child v (Through.reach hv) p hp c hm
  rw [hzero c (hv.tail ⟨hm, p, hp, hdir⟩), Widget.handed_of_eq hdir, hzero v hv, zero_sub] at hchild
  exact (mul_eq_zero.mp (neg_eq_zero.mp hchild.symm)).resolve_right (by decide)

/-- At every widget the first layout left the size the second asks for, or a zero. -/
theorem same_of (h : Sizes heap d root a₁ a₂ first second third)
    (hcond : a₁ = a₂ ∨ a₁ = 0 ∧ Unpadded heap d root) (hv : Reach (childrenOf heap) root v) :
    second v = third v ∧
      (first v = third v ∨ first v = 0 ∧ Through heap d root v ∧ Unpadded heap d root) := by
  induction hv with
  | refl =>
      rw [h.second_root, h.fresh_root, h.first_root]
      rcases hcond with rfl | ⟨rfl, hpad⟩
      · exact ⟨ite_self _, .inl rfl⟩
      · exact ⟨if_pos rfl, .inr ⟨rfl, .refl, hpad⟩⟩
  | @tail v c hv hm ih =>
      obtain ⟨hsecond, hfirst⟩ := ih
      obtain ⟨p, hp⟩ := exists_of_child hm
      rw [h.second_child v hv p hp c hm, h.fresh_child v hv p hp c hm, hsecond]
      by_cases hdir : p.layoutDir = d
      · rcases hfirst with hfirst | ⟨hzero, hthrough, hpad⟩
        · have hc : first c = p.handed d (third v) := by rw [h.first_child v hv p hp c hm, hfirst]
          rw [hc]
          exact ⟨ite_self _, .inl rfl⟩
        · -- a zero that is handed down without padding
          have hpad0 := hpad v hthrough p hp hdir (List.ne_nil_of_mem hm)
          have hc : first c = 0 := by
            rw [h.first_child v hv p hp c hm, Widget.handed_of_eq hdir, hzero, hpad0, zero_mul,
              sub_zero]
          rw [if_pos hc]
          exact ⟨rfl, .inr ⟨hc, hthrough.tail ⟨hm, p, hp, hdir⟩, hpad⟩⟩
      · have hfixed : ∀ size, p.handed d size = d.fixed := fun size => if_neg hdir
        rw [h.first_child v hv p hp c hm, hfixed, hfixed]
        exact ⟨ite_self _, .inl rfl⟩

theorem same_iff (h : Sizes heap d root a₁ a₂ first second third) :
    (∀ v, Reach (childrenOf heap) root v → second v = third v) ↔
      a₁ = a₂ ∨ a₁ = 0 ∧ Unpadded heap d root := by
  constructor
  · intro hsame
    by_cases heq : a₁ = a₂
    · exact .inl heq
    · exact .inr (h.unpadded heq hsame)
  · exact fun hcond v hv => (h.same_of hcond hv).1

end Sizes

/-! ### The two layouts -/

/-- Every size at or below `root` is left to the layout. -/
def Automatic (heap : Heap ℚ) (root : Nat) : Prop :=
  ∀ v, Reach (childrenOf heap) root v → ∀ p, heap[v]? = some p → p.w = 0 ∧ p.h = 0

theorem Widget.across_fit (p : Widget ℚ) (d : LayoutDir) (width height : ℚ) :
    (p.fit width height).across d =
      if p.across d = 0 then d.pick width height else p.across d := by
  have hzero : ∀ a : ℚ, (a == (0 : Nat)) = true ↔ a = 0 := fun a => by
    rw [Nat.cast_zero, beq_iff_eq]
  cases d with
  | column => exact if_congr (hzero p.w) rfl rfl
  | row => exact if_congr (hzero p.h) rfl rfl

theorem Widget.across_settle (r p : Widget ℚ) (d : LayoutDir) :
    (r.settle p).across d = if p.across d = 0 then r.handed d (r.across d) else p.across d := by
  cases d <;> cases hdir : r.layoutDir <;>
    simp [settle, place, across, handed, LayoutDir.fixed, hdir]

/-- The size of `root` after a layout. -/
theorem Laid.across_root {width height : ℚ} (h : Laid (childrenOf heap) root width height heap heap₁)
    (hroot : root < heap.length) (d : LayoutDir) :
    across heap₁ d root =
      if across heap d root = 0 then d.pick width height else across heap d root := by
  rw [across, across, h.root_eq, List.getElem?_eq_getElem hroot]
  exact heap[root].across_fit d width height

/-- The size of a child after a layout. -/
theorem Laid.across_child {width height : ℚ} (h : Laid (childrenOf heap) root width height heap heap₁)
    (hs : SameTree heap heap₁) (hc : Closed heap) (hv : Reach (childrenOf heap) root v)
    {p : Widget ℚ} (hp : heap[v]? = some p) (hm : c ∈ childrenOf heap v) (d : LayoutDir) :
    across heap₁ d c =
      if across heap d c = 0 then p.handed d (across heap₁ d v) else across heap d c := by
  obtain ⟨p', hp', hsettled⟩ := h.exists_settled hs hv hp
  simp only [across, h.child_eq v hv c hm p' hp', hp', List.getElem?_eq_getElem (hc v c hm),
    Option.map_some, Option.getD_some, Widget.across_settle, hsettled.handed_eq]

theorem Automatic.across_eq (h : Automatic heap root) (hv : Reach (childrenOf heap) root v)
    (d : LayoutDir) : across heap d v = 0 := by
  rw [across]
  cases hp : heap[v]? with
  | none => rfl
  | some p =>
      cases d with
      | column => exact (h v hv p hp).1
      | row => exact (h v hv p hp).2

/-- The layouts of an automatic tree, seen across one direction. -/
theorem Automatic.sizes {width₁ height₁ width₂ height₂ : ℚ} (hauto : Automatic heap root)
    (hc : Closed heap) (hroot : root < heap.length) (hs₁ : SameTree heap heap₁)
    (hs₂ : SameTree heap₁ heap₂) (hs : SameTree heap fresh)
    (h₁ : Laid (childrenOf heap) root width₁ height₁ heap heap₁)
    (h₂ : Laid (childrenOf heap₁) root width₂ height₂ heap₁ heap₂)
    (h : Laid (childrenOf heap) root width₂ height₂ heap fresh) (d : LayoutDir) :
    Sizes heap d root (d.pick width₁ height₁) (d.pick width₂ height₂) (across heap₁ d)
      (across heap₂ d) (across fresh d) := by
  have hch : childrenOf heap₁ = childrenOf heap := hs₁.childrenOf_eq
  have hfirst : across heap₁ d root = d.pick width₁ height₁ := by
    rw [h₁.across_root hroot, if_pos (hauto.across_eq .refl d)]
  refine ⟨hfirst, ?_, ?_, fun v hv p hp c hm => ?_, fun v hv p hp c hm => ?_,
    fun v hv p hp c hm => ?_⟩
  · rw [h₂.across_root (hs₁.length_eq.symm ▸ hroot), hfirst]
  · rw [h.across_root hroot, if_pos (hauto.across_eq .refl d)]
  · rw [h₁.across_child hs₁ hc hv hp hm, if_pos (hauto.across_eq (hv.tail hm) d)]
  · obtain ⟨p₁, hp₁, hsettled⟩ := h₁.exists_settled hs₁ hv hp
    rw [h₂.across_child hs₂ (hs₁.closed hc) (hch.symm ▸ hv) hp₁ (hch.symm ▸ hm), hsettled.handed_eq]
  · rw [h.across_child hs hc hv hp hm, if_pos (hauto.across_eq (hv.tail hm) d)]

/-! ### The whole tree -/

/-- Place and size. -/
def Widget.box (p : Widget ℚ) : ℚ × ℚ × ℚ × ℚ := (p.x, p.y, p.w, p.h)

/-- The same places and sizes at and below `root`. -/
def SameBoxes (heap heap' : Heap ℚ) (root : Nat) : Prop :=
  ∀ v, Reach (childrenOf heap) root v → (heap[v]?).map Widget.box = (heap'[v]?).map Widget.box

/-- Both leave every widget at the origin, so their boxes are those of one size. -/
theorem sameBoxes_iff {width height width' height' : ℚ} {heap' : Heap ℚ} (hc : Closed heap)
    (hroot : root < heap.length) (hs : SameTree heap heap₁) (hs' : SameTree heap' heap₂)
    (hsame : SameTree heap heap') (h : Laid (childrenOf heap) root width height heap heap₁)
    (h' : Laid (childrenOf heap') root width' height' heap' heap₂) :
    SameBoxes heap₂ heap₁ root ↔
      ∀ d v, Reach (childrenOf heap) root v → across heap₂ d v = across heap₁ d v := by
  have hch₂ : childrenOf heap₂ = childrenOf heap := (hsame.trans hs').childrenOf_eq
  -- a widget below `root`, in both heaps
  have hget : ∀ v, Reach (childrenOf heap) root v → ∃ p₁ p₂, heap₁[v]? = some p₁ ∧
      heap₂[v]? = some p₂ ∧ (p₁.x, p₁.y) = (0, 0) ∧ (p₂.x, p₂.y) = (0, 0) := fun v hv => by
    have hlt : v < heap.length := hc.lt_of_reach hroot hv
    obtain ⟨p₁, hp₁⟩ := hs.exists_get hlt
    obtain ⟨p₂, hp₂⟩ := (hsame.trans hs').exists_get hlt
    obtain ⟨_, _, h₁⟩ := h.settled hs hv hp₁
    obtain ⟨_, _, h₂⟩ := h'.settled hs' (hsame.childrenOf_eq.symm ▸ hv) hp₂
    exact ⟨p₁, p₂, hp₁, hp₂, Prod.ext h₁.x_eq h₁.y_eq, Prod.ext h₂.x_eq h₂.y_eq⟩
  rw [SameBoxes, hch₂]
  constructor
  · intro hbox d v hv
    obtain ⟨p₁, p₂, hp₁, hp₂, -, -⟩ := hget v hv
    have he := hbox v hv
    rw [hp₁, hp₂] at he
    have hsize : p₂.w = p₁.w ∧ p₂.h = p₁.h := by
      simp only [Option.map_some, Option.some.injEq, Widget.box, Prod.mk.injEq] at he
      exact he.2.2
    rw [across, across, hp₁, hp₂]
    cases d with
    | column => exact hsize.1
    | row => exact hsize.2
  · intro hsize v hv
    obtain ⟨p₁, p₂, hp₁, hp₂, ho₁, ho₂⟩ := hget v hv
    have hw := hsize .column v hv
    have hh := hsize .row v hv
    rw [across, across, hp₁, hp₂] at hw hh
    have hbox : p₂.box = p₁.box := by
      have hw : p₂.w = p₁.w := hw
      have hh : p₂.h = p₁.h := hh
      rw [Widget.box, Widget.box, (Prod.mk.inj ho₁).1, (Prod.mk.inj ho₁).2, (Prod.mk.inj ho₂).1,
        (Prod.mk.inj ho₂).2, hw, hh]
    rw [hp₁, hp₂, Option.map_some, Option.map_some, hbox]

end

/-- **A tree laid out a second time.**  The second layout of an automatic tree gives what it would have
given alone exactly when, for the width and for the height, the two sizes are the same, or the first
was zero and nothing on its way down is padded. -/
theorem relayout_iff {heap : Heap ℚ} (hf : Forest (childrenOf heap)) (hc : Closed heap) {root : Nat}
    (hroot : root < heap.length) (hauto : Automatic heap root) (width₁ height₁ width₂ height₂ : ℚ)
    {fuel : Nat} (hfuel : heap.length < fuel) :
    ∃ heap₁ heap₂ fresh, lumiWidgetLayout fuel root width₁ height₁ heap = some heap₁ ∧
      lumiWidgetLayout fuel root width₂ height₂ heap₁ = some heap₂ ∧
      lumiWidgetLayout fuel root width₂ height₂ heap = some fresh ∧
      (SameBoxes heap₂ fresh root ↔
        (width₁ = width₂ ∨ width₁ = 0 ∧ Unpadded heap .column root) ∧
          (height₁ = height₂ ∨ height₁ = 0 ∧ Unpadded heap .row root)) := by
  obtain ⟨heap₁, e₁, hs₁, h₁⟩ := layout_laid hf hc hroot width₁ height₁ hfuel
  obtain ⟨heap₂, e₂, hs₂, h₂⟩ := layout_laid (hs₁.childrenOf_eq.symm ▸ hf) (hs₁.closed hc)
    (hs₁.length_eq.symm ▸ hroot) width₂ height₂ (hs₁.length_eq.symm ▸ hfuel)
  obtain ⟨fresh, e, hs, h⟩ := layout_laid hf hc hroot width₂ height₂ hfuel
  refine ⟨heap₁, heap₂, fresh, e₁, e₂, e, ?_⟩
  have hsizes := hauto.sizes hc hroot hs₁ hs₂ hs h₁ h₂ h
  rw [sameBoxes_iff hc hroot hs hs₂ hs₁ h h₂]
  constructor
  · intro hsame
    exact ⟨(hsizes .column).same_iff.mp (hsame .column), (hsizes .row).same_iff.mp (hsame .row)⟩
  · rintro ⟨hwidth, hheight⟩ d
    cases d with
    | column => exact (hsizes .column).same_iff.mpr hwidth
    | row => exact (hsizes .row).same_iff.mpr hheight

theorem column_automatic (padding : ℚ) : Automatic (column padding) 0 := by
  intro v _ p hp
  match v with
  | 0 => cases hp; exact ⟨rfl, rfl⟩
  | 1 => cases hp; exact ⟨rfl, rfl⟩
  | v + 2 => cases hp

theorem relayout_column :
    ∃ heap₁ heap₂ fresh, lumiWidgetLayout 3 0 (320 : ℚ) 240 (column 8) = some heap₁ ∧
      lumiWidgetLayout 3 0 240 240 heap₁ = some heap₂ ∧
      lumiWidgetLayout 3 0 240 240 (column 8) = some fresh ∧
      (SameBoxes heap₂ fresh 0 ↔
        ((320 : ℚ) = 240 ∨ (320 : ℚ) = 0 ∧ Unpadded (column 8) .column 0) ∧
          ((240 : ℚ) = 240 ∨ (240 : ℚ) = 0 ∧ Unpadded (column 8) .row 0)) :=
  relayout_iff (column_forest 8) (column_closed 8) (by decide) (column_automatic 8) 320 240 240 240
    (by decide)

/-- A screen is turned, and the tree keeps the width it had. -/
theorem relayout_turned : ¬ ∀ (heap : Heap ℚ) (root fuel : Nat)
    (width₁ height₁ width₂ height₂ : ℚ), Forest (childrenOf heap) → Closed heap →
    root < heap.length → Automatic heap root → heap.length < fuel →
    ∃ heap₁ heap₂ fresh, lumiWidgetLayout fuel root width₁ height₁ heap = some heap₁ ∧
      lumiWidgetLayout fuel root width₂ height₂ heap₁ = some heap₂ ∧
      lumiWidgetLayout fuel root width₂ height₂ heap = some fresh ∧
      SameBoxes heap₂ fresh root := by
  intro h
  obtain ⟨heap₁, heap₂, fresh, e₁, e₂, e, hsame⟩ := h (column 8) 0 3 320 240 240 320
    (column_forest 8) (column_closed 8) (by decide) (column_automatic 8) (by decide)
  cases e₁
  cases e₂
  cases e
  have hwidth : some (320 : ℚ) = some 240 :=
    congrArg (Option.map fun b : ℚ × ℚ × ℚ × ℚ => b.2.2.1) (hsame 0 .refl)
  exact absurd hwidth (by decide)

end LumiOS.Toolkit
