import LumiOS.Support.Forest
import LumiOS.Support.Runs

/-!
# Toolkit — Widget

The widgets of `widget.c`.  A widget is known by its place in the heap, in the order of creation; its
children are those below `child_count`.  The numbers are those of any type `F` with the operations
`lumi_widget_layout` uses.

`lumi_widget_add_child` asks only for two widgets and room.  The children form a forest exactly when
each call that finds room is given a child without a parent that is not above the new one
(`widgets_sound_iff`); on a forest `lumi_widget_destroy` frees each widget once (`destroy_forest`) and
`lumi_widget_layout` returns (`layout_forest`).
-/

namespace LumiOS.Toolkit

open Support Relation

def maxChildren : Nat := 64

inductive WidgetType where
  | box | label | button | image
deriving DecidableEq, Repr

inductive LayoutDir where
  | row | column
deriving DecidableEq, Repr

structure Widget (F : Type) where
  type : WidgetType
  x : F
  y : F
  w : F
  h : F
  padding : F
  spacing : F
  color : UInt32
  layoutDir : LayoutDir
  children : List Nat
  children_le : children.length ≤ maxChildren

/-- The widgets, in the order of creation. -/
abbrev Heap (F : Type) := List (Widget F)

section

variable {F : Type} [NatCast F]

/-- A widget after `calloc`. -/
def Widget.zero (type : WidgetType) : Widget F where
  type := type
  x := (0 : Nat)
  y := (0 : Nat)
  w := (0 : Nat)
  h := (0 : Nat)
  padding := (0 : Nat)
  spacing := (0 : Nat)
  color := 0xFFFFFFFF
  layoutDir := .row
  children := []
  children_le := Nat.zero_le _

/-- `lumi_widget_create`, by the outcome of `calloc`. -/
def lumiWidgetCreate (heap : Heap F) (calloc : Bool) (type : WidgetType) : Option Nat × Heap F :=
  if calloc then (some heap.length, heap ++ [.zero type]) else (none, heap)

def lumiWidgetAddChild (heap : Heap F) (parent child : Option Nat) : Heap F :=
  match parent, child with
  | some p, some c =>
    match heap[p]? with
    | none => heap
    | some widget =>
      if h : maxChildren ≤ widget.children.length then heap
      else
        heap.set p { widget with
          children := widget.children ++ [c]
          children_le := by
            rw [List.length_append]
            exact Nat.not_le.mp h }
  | _, _ => heap

/-- The children of a widget. -/
def childrenOf (heap : Heap F) (v : Nat) : List Nat :=
  match heap[v]? with
  | some widget => widget.children
  | none => []

/-! ### lumi_widget_destroy -/

/-- The loop of `lumi_widget_destroy` over the children of `w`, and the `free` after it.  `freed` are
the widgets freed so far, and a widget that was freed is not looked at again. -/
def destroyChildren (destroy : Nat → List Nat → Option (List Nat)) (w : Nat) :
    List Nat → List Nat → Option (List Nat)
  | [], freed => if w ∈ freed then none else some (w :: freed)
  | c :: cs, freed =>
    if w ∈ freed then none
    else
      match destroy c freed with
      | none => none
      | some freed => destroyChildren destroy w cs freed

/-- `lumi_widget_destroy`: the widgets freed after it, newest first.  There is nothing when memory is
used after it was freed, and when the recursion is deeper than `fuel`. -/
def lumiWidgetDestroy (heap : Heap F) : Nat → Nat → List Nat → Option (List Nat)
  | 0, _, _ => none
  | fuel + 1, w, freed =>
    match heap[w]? with
    | none => none
    | some widget => destroyChildren (lumiWidgetDestroy heap fuel) w widget.children freed

/-! ### lumi_widget_layout -/

variable [Add F] [Sub F] [Mul F] [BEq F]

/-- The place and size a widget `r` gives a child, at this offset. -/
def Widget.place (r : Widget F) (offset : F) (c : Widget F) : Widget F :=
  match r.layoutDir with
  | .column =>
    { c with
      x := r.x + r.padding
      y := r.y + offset
      w := if c.w == (0 : Nat) then r.w - r.padding * (2 : Nat) else c.w
      h := if c.h == (0 : Nat) then (40 : Nat) else c.h }
  | .row =>
    { c with
      x := r.x + offset
      y := r.y + r.padding
      w := if c.w == (0 : Nat) then (100 : Nat) else c.w
      h := if c.h == (0 : Nat) then r.h - r.padding * (2 : Nat) else c.h }

/-- The offset after a child. -/
def Widget.advance (r : Widget F) (offset : F) (c : Widget F) : F :=
  match r.layoutDir with
  | .column => offset + (c.h + r.spacing)
  | .row => offset + (c.w + r.spacing)

/-- The loop of `lumi_widget_layout` over the children of `root`. -/
def layoutChildren (layout : Nat → F → F → Heap F → Option (Heap F)) (root : Nat) :
    List Nat → F → Heap F → Option (Heap F)
  | [], _, heap => some heap
  | c :: cs, offset, heap =>
    match heap[root]?, heap[c]? with
    | some r, some w =>
      let w := r.place offset w
      match layout c w.w w.h (heap.set c w) with
      | none => none
      | some heap => layoutChildren layout root cs (r.advance offset w) heap
    | _, _ => none

/-- `lumi_widget_layout`.  There is nothing when the recursion is deeper than `fuel`. -/
def lumiWidgetLayout : Nat → Nat → F → F → Heap F → Option (Heap F)
  | 0, _, _, _, _ => none
  | fuel + 1, root, width, height, heap =>
    match heap[root]? with
    | none => none
    | some r =>
      let r := { r with
        x := (0 : Nat)
        y := (0 : Nat)
        w := if r.w == (0 : Nat) then width else r.w
        h := if r.h == (0 : Nat) then height else r.h }
      layoutChildren (lumiWidgetLayout fuel) root r.children r.padding (heap.set root r)

end

/-! ### Walks on a forest -/

/-- Every child is a widget. -/
def Closed {F : Type} (heap : Heap F) : Prop := ∀ p, ∀ c ∈ childrenOf heap p, c < heap.length

section

variable {F : Type} {heap heap' : Heap F} {p c v w : Nat}

theorem childrenOf_getElem (hv : v < heap.length) : heap[v].children = childrenOf heap v := by
  rw [childrenOf, List.getElem?_eq_getElem hv]

/-- A widget with a child is in the heap. -/
theorem exists_of_child (hm : c ∈ childrenOf heap v) : ∃ p, heap[v]? = some p := by
  rw [childrenOf] at hm
  cases hget : heap[v]? with
  | none => rw [hget] at hm; cases hm
  | some p => exact ⟨p, rfl⟩

theorem Closed.lt_of_reach (hc : Closed heap) (hw : w < heap.length)
    (hv : Reach (childrenOf heap) w v) : v < heap.length := by
  rcases hv.cases_tail with rfl | ⟨q, -, hm⟩
  · exact hw
  · exact hc q v hm

/-- A rank for the recursion, below the number of widgets. -/
theorem exists_rank (hf : Forest (childrenOf heap)) (hc : Closed heap) :
    ∃ rank : Nat → Nat, (∀ p, ∀ c ∈ childrenOf heap p, rank c < rank p) ∧
      ∀ v, rank v ≤ heap.length := by
  obtain ⟨rank, hrank, hle⟩ := hf.acyclic.exists_rank (Finset.range heap.length) fun p c h =>
    Finset.mem_range.mpr (hc p c h)
  exact ⟨rank, hrank, fun v => (hle v).trans (Finset.card_range _).le⟩

/-- What freeing a widget and everything below it does. -/
def Frees (heap : Heap F) (w : Nat) (freed freed' : List Nat) : Prop :=
  ∃ new, freed' = new ++ freed ∧ new.Nodup ∧ ∀ v, v ∈ new ↔ Reach (childrenOf heap) w v

/-- The loop of `lumi_widget_destroy`, over children that are still to be freed. -/
theorem destroyChildren_forest (hf : Forest (childrenOf heap))
    {destroy : Nat → List Nat → Option (List Nat)} :
    ∀ (cs freed : List Nat),
      (∀ c ∈ cs, c ∈ childrenOf heap w ∧
        ∀ freed, (∀ v, Reach (childrenOf heap) c v → v ∉ freed) →
          ∃ freed', destroy c freed = some freed' ∧ Frees heap c freed freed') →
      cs.Nodup → w ∉ freed → (∀ c ∈ cs, ∀ v, Reach (childrenOf heap) c v → v ∉ freed) →
      ∃ new, destroyChildren destroy w cs freed = some (w :: (new ++ freed)) ∧ new.Nodup ∧
        ∀ v, v ∈ new ↔ ∃ c ∈ cs, Reach (childrenOf heap) c v := by
  intro cs
  induction cs with
  | nil =>
      intro freed _ _ hw _
      exact ⟨[], by rw [destroyChildren, if_neg hw]; rfl, List.nodup_nil, by simp⟩
  | cons c cs ih =>
      intro freed hcs hnd hw hfreed
      obtain ⟨hcw, hdestroy⟩ := hcs c List.mem_cons_self
      obtain ⟨hcnew, hnd⟩ := List.nodup_cons.mp hnd
      obtain ⟨freed', e, new, rfl, hnew, hmem⟩ := hdestroy freed (hfreed c List.mem_cons_self)
      have hw' : w ∉ new ++ freed := by
        rw [List.mem_append, not_or]
        exact ⟨fun hm => hf.not_reach_parent hcw ((hmem w).mp hm), hw⟩
      -- what is below the other children has not been freed with `c`
      have hrest : ∀ d ∈ cs, ∀ v, Reach (childrenOf heap) d v → v ∉ new ++ freed := by
        intro d hd v hr
        rw [List.mem_append, not_or]
        refine ⟨fun hm => ?_, hfreed d (.tail _ hd) v hr⟩
        have hne : c ≠ d := fun e => hcnew (e ▸ hd)
        exact hf.apart hcw (hcs d (.tail _ hd)).1 hne ((hmem v).mp hm) hr
      obtain ⟨new', e', hnew', hmem'⟩ := ih (new ++ freed) (fun d hd => hcs d (.tail _ hd)) hnd hw' hrest
      refine ⟨new' ++ new, ?_, ?_, fun v => ?_⟩
      · rw [destroyChildren, if_neg hw, e]
        simp only [e', List.append_assoc]
      · refine List.nodup_append.mpr ⟨hnew', hnew, fun a ha b hb e => ?_⟩
        obtain ⟨d, hd, hr⟩ := (hmem' a).mp ha
        exact hrest d hd a hr (List.mem_append_left _ (e ▸ hb))
      · rw [List.mem_append, hmem', hmem]
        constructor
        · rintro (⟨d, hd, hr⟩ | hr)
          · exact ⟨d, .tail _ hd, hr⟩
          · exact ⟨c, List.mem_cons_self, hr⟩
        · rintro ⟨d, hd, hr⟩
          rcases List.mem_cons.mp hd with rfl | hd
          · exact .inr hr
          · exact .inl ⟨d, hd, hr⟩

theorem lumiWidgetDestroy_forest (hf : Forest (childrenOf heap)) (hc : Closed heap)
    {rank : Nat → Nat} (hrank : ∀ p, ∀ c ∈ childrenOf heap p, rank c < rank p) :
    ∀ (fuel w : Nat) (freed : List Nat), rank w < fuel → w < heap.length →
      (∀ v, Reach (childrenOf heap) w v → v ∉ freed) →
      ∃ freed', lumiWidgetDestroy heap fuel w freed = some freed' ∧ Frees heap w freed freed' := by
  intro fuel
  induction fuel with
  | zero => exact fun w freed h => absurd h (Nat.not_lt_zero _)
  | succ fuel ih =>
      intro w freed hfuel hw hfreed
      obtain ⟨new, e, hnew, hmem⟩ := destroyChildren_forest hf
        (childrenOf heap w) freed
        (fun c hcw => ⟨hcw, fun freed h => ih c freed
          (Nat.lt_of_lt_of_le (hrank w c hcw) (Nat.le_of_lt_succ hfuel)) (hc w c hcw) h⟩)
        (hf.nodup w) (hfreed w .refl) (fun c hcw v hr => hfreed v (.head hcw hr))
      refine ⟨w :: (new ++ freed), ?_, w :: new, rfl, ?_, fun v => ?_⟩
      · rw [lumiWidgetDestroy, List.getElem?_eq_getElem hw]
        simp only [childrenOf_getElem hw, e]
      · refine List.nodup_cons.mpr ⟨fun hm => ?_, hnew⟩
        obtain ⟨c, hcw, hr⟩ := (hmem w).mp hm
        exact hf.not_reach_parent hcw hr
      · rw [List.mem_cons, hmem]
        constructor
        · rintro (rfl | ⟨c, hcw, hr⟩)
          · exact .refl
          · exact .head hcw hr
        · intro hr
          rcases hr.cases_head with rfl | ⟨c, e, hr⟩
          · exact .inl rfl
          · exact .inr ⟨c, e, hr⟩

/-- **`lumi_widget_destroy` on a forest** frees each widget at or below `w` once. -/
theorem destroy_forest (hf : Forest (childrenOf heap)) (hc : Closed heap) (hw : w < heap.length) :
    ∃ fuel freed, lumiWidgetDestroy heap fuel w [] = some freed ∧ freed.Nodup ∧
      ∀ v, v ∈ freed ↔ Reach (childrenOf heap) w v := by
  obtain ⟨rank, hrank, -⟩ := exists_rank hf hc
  obtain ⟨freed, e, new, rfl, hnd, hmem⟩ :=
    lumiWidgetDestroy_forest hf hc hrank (rank w + 1) w [] (Nat.lt_succ_self _) hw (by simp)
  exact ⟨_, _, e, by simpa using hnd, by simpa using hmem⟩

/-- The same widgets with the same children. -/
structure SameTree (heap heap' : Heap F) : Prop where
  length_eq : heap'.length = heap.length
  children_eq : ∀ v, childrenOf heap' v = childrenOf heap v

theorem SameTree.childrenOf_eq (h : SameTree heap heap') : childrenOf heap' = childrenOf heap :=
  funext h.children_eq

theorem SameTree.closed (h : SameTree heap heap') (hc : Closed heap) : Closed heap' := by
  intro p c hm
  rw [h.children_eq p] at hm
  rw [h.length_eq]
  exact hc p c hm

theorem SameTree.exists_get (h : SameTree heap heap') (hv : v < heap.length) :
    ∃ w, heap'[v]? = some w :=
  ⟨_, List.getElem?_eq_getElem (h.length_eq.symm ▸ hv)⟩

theorem SameTree.trans {heap'' : Heap F} (h : SameTree heap heap') (h' : SameTree heap' heap'') :
    SameTree heap heap'' :=
  ⟨h'.length_eq.trans h.length_eq, fun v => (h'.children_eq v).trans (h.children_eq v)⟩

theorem SameTree.set {w : Widget F} (hv : v < heap.length) (hw : w.children = childrenOf heap v) :
    SameTree heap (heap.set v w) := by
  refine ⟨List.length_set, fun u => ?_⟩
  by_cases e : v = u
  · subst e
    rw [← hw, childrenOf, List.getElem?_set_self hv]
  · rw [childrenOf, List.getElem?_set_ne e, childrenOf]

variable [NatCast F] [Add F] [Sub F] [Mul F] [BEq F]

theorem Widget.place_children (r : Widget F) (offset : F) (c : Widget F) :
    (r.place offset c).children = c.children := by
  simp only [place]
  cases r.layoutDir <;> rfl

theorem Widget.place_layoutDir (r : Widget F) (offset : F) (c : Widget F) :
    (r.place offset c).layoutDir = c.layoutDir := by
  simp only [place]
  cases r.layoutDir <;> rfl

theorem Widget.place_padding (r : Widget F) (offset : F) (c : Widget F) :
    (r.place offset c).padding = c.padding := by
  simp only [place]
  cases r.layoutDir <;> rfl

theorem Widget.place_spacing (r : Widget F) (offset : F) (c : Widget F) :
    (r.place offset c).spacing = c.spacing := by
  simp only [place]
  cases r.layoutDir <;> rfl

/-- What the call for a widget leaves in it: the origin, and for a size of zero the size at hand. -/
def Widget.fit (width height : F) (r : Widget F) : Widget F :=
  { r with
    x := (0 : Nat)
    y := (0 : Nat)
    w := if r.w == (0 : Nat) then width else r.w
    h := if r.h == (0 : Nat) then height else r.h }

/-- What the call for `r` leaves in a child: the size `r` gives it, and the place its own call does. -/
def Widget.settle (r c : Widget F) : Widget F :=
  { r.place r.padding c with
    x := (0 : Nat)
    y := (0 : Nat) }

theorem Widget.fit_place (r : Widget F) (offset : F) (c : Widget F) :
    (r.place offset c).fit (r.place offset c).w (r.place offset c).h = r.settle c := by
  cases hdir : r.layoutDir <;> simp only [fit, settle, place, hdir, ite_self]

/-- What `lumi_widget_layout` does on a forest: the widget fits the size at hand, each one below it is
settled by its parent, and the others stay as they are. -/
structure Laid (ch : Nat → List Nat) (root : Nat) (width height : F) (heap heap' : Heap F) :
    Prop where
  root_eq : heap'[root]? = heap[root]?.map (Widget.fit width height)
  child_eq : ∀ p, Reach ch root p → ∀ c ∈ ch p, ∀ r, heap'[p]? = some r →
    heap'[c]? = heap[c]?.map r.settle
  frame : ∀ v, ¬ Reach ch root v → heap'[v]? = heap[v]?

/-- The same for the loop over the children `cs` of `r`. -/
structure LaidBelow (ch : Nat → List Nat) (r : Widget F) (cs : List Nat) (heap heap' : Heap F) :
    Prop where
  settled : ∀ c ∈ cs, heap'[c]? = heap[c]?.map r.settle
  child_eq : ∀ c ∈ cs, ∀ p, Reach ch c p → ∀ d ∈ ch p, ∀ q, heap'[p]? = some q →
    heap'[d]? = heap[d]?.map q.settle
  frame : ∀ v, (∀ c ∈ cs, ¬ Reach ch c v) → heap'[v]? = heap[v]?

/-- One round of the loop, and the rest of it. -/
theorem LaidBelow.cons {ch : Nat → List Nat} (hf : Forest ch) {root c : Nat} {cs : List Nat}
    {r w : Widget F} {offset : F} {heap₁ heap₂ heap₃ : Heap F} (hcr : c ∈ ch root)
    (hcs : ∀ d ∈ cs, d ∈ ch root) (hnd : c ∉ cs) (hw : heap₁[c]? = some w)
    (h₂ : Laid ch c (r.place offset w).w (r.place offset w).h
      (heap₁.set c (r.place offset w)) heap₂)
    (h₃ : LaidBelow ch r cs heap₂ heap₃) : LaidBelow ch r (c :: cs) heap₁ heap₃ := by
  -- below one child nothing is touched by the calls for the others
  have hapart : ∀ v, Reach ch c v → ∀ d ∈ cs, ¬ Reach ch d v := fun v hv d hd hdv =>
    hf.apart hcr (hcs d hd) (fun e => hnd (e ▸ hd)) hv hdv
  have hlater : ∀ v, Reach ch c v → heap₃[v]? = heap₂[v]? := fun v hv => h₃.frame v (hapart v hv)
  have hearlier : ∀ v, ¬ Reach ch c v → heap₂[v]? = heap₁[v]? := fun v hv => by
    have hne : c ≠ v := fun e => hv (e ▸ .refl)
    rw [h₂.frame v hv, List.getElem?_set_ne hne]
  have hlt : c < heap₁.length := (List.getElem?_eq_some_iff.mp hw).1
  refine ⟨fun d hd => ?_, fun d hd p hp e he q hq => ?_, fun v hv => ?_⟩
  · rcases List.mem_cons.mp hd with rfl | hd
    · rw [hlater d .refl, h₂.root_eq, List.getElem?_set_self hlt, hw]
      exact congrArg some (Widget.fit_place r offset w)
    · rw [h₃.settled d hd, hearlier d fun hr => hapart d hr d hd .refl]
  · rcases List.mem_cons.mp hd with rfl | hd
    · rw [hlater p hp] at hq
      have hne : d ≠ e := fun h => hf.not_reach_parent he (h ▸ hp)
      rw [hlater e (hp.tail he), h₂.child_eq p hp e he q hq, List.getElem?_set_ne hne]
    · rw [h₃.child_eq d hd p hp e he q hq, hearlier e fun hr => hapart e hr d hd (hp.tail he)]
  · rw [h₃.frame v fun d hd => hv d (.tail _ hd), hearlier v (hv c List.mem_cons_self)]

/-- The loop of `lumi_widget_layout`, when the calls it makes do what they should. -/
theorem layoutChildren_laid (hf : Forest (childrenOf heap))
    {layout : Nat → F → F → Heap F → Option (Heap F)} {root : Nat} {r : Widget F} :
    ∀ (cs : List Nat) (offset : F) (heap₁ : Heap F), SameTree heap heap₁ →
      heap₁[root]? = some r → cs.Nodup →
      (∀ c ∈ cs, c ∈ childrenOf heap root ∧ c < heap.length ∧
        ∀ width height heap₁, SameTree heap heap₁ →
          ∃ heap₂, layout c width height heap₁ = some heap₂ ∧ SameTree heap heap₂ ∧
            Laid (childrenOf heap) c width height heap₁ heap₂) →
      ∃ heap₂, layoutChildren layout root cs offset heap₁ = some heap₂ ∧ SameTree heap heap₂ ∧
        LaidBelow (childrenOf heap) r cs heap₁ heap₂ := by
  intro cs
  induction cs with
  | nil =>
      intro offset heap₁ h _ _ _
      refine ⟨heap₁, rfl, h, ?_, ?_, fun v _ => rfl⟩
      · exact fun c hc => nomatch hc
      · exact fun c hc => nomatch hc
  | cons c cs ih =>
      intro offset heap₁ h hr hnd hcs
      obtain ⟨hcr, hc, hlayout⟩ := hcs c List.mem_cons_self
      obtain ⟨hcnew, hnd⟩ := List.nodup_cons.mp hnd
      have hc₁ : c < heap₁.length := h.length_eq ▸ hc
      let placed := r.place offset heap₁[c]
      have hset : SameTree heap (heap₁.set c placed) :=
        h.trans (.set hc₁ ((Widget.place_children _ _ _).trans (childrenOf_getElem hc₁)))
      obtain ⟨heap₂, e, h₂, hlaid⟩ := hlayout placed.w placed.h _ hset
      have hr₂ : heap₂[root]? = some r := by
        have hnot := hf.not_reach_parent hcr
        have hne : c ≠ root := fun e => hnot (e ▸ .refl)
        rw [hlaid.frame root hnot, List.getElem?_set_ne hne, hr]
      obtain ⟨heap₃, e₃, h₃, hbelow⟩ := ih (r.advance offset placed) heap₂ h₂ hr₂ hnd
        fun d hd => hcs d (.tail _ hd)
      refine ⟨heap₃, ?_, h₃, ?_⟩
      · rw [layoutChildren, hr, List.getElem?_eq_getElem hc₁]
        show (match layout c placed.w placed.h (heap₁.set c placed) with
          | none => none
          | some heap => layoutChildren layout root cs (r.advance offset placed) heap) = _
        rw [e]
        exact e₃
      · exact hbelow.cons hf hcr (fun d hd => (hcs d (.tail _ hd)).1) hcnew
          (List.getElem?_eq_getElem hc₁) hlaid

/-- The call for a widget whose loop does what it should. -/
theorem LaidBelow.laid {ch : Nat → List Nat} (hf : Forest ch) {root : Nat} {r : Widget F}
    {width height : F} {heap₁ heap₂ : Heap F} (hr : heap₁[root]? = some r)
    (h : LaidBelow ch (r.fit width height) (ch root) (heap₁.set root (r.fit width height)) heap₂) :
    Laid ch root width height heap₁ heap₂ := by
  have hlt : root < heap₁.length := (List.getElem?_eq_some_iff.mp hr).1
  have hroot : heap₂[root]? = some (r.fit width height) := by
    rw [h.frame root fun c hc => hf.not_reach_parent hc, List.getElem?_set_self hlt]
  have hset : ∀ v, v ≠ root → (heap₁.set root (r.fit width height))[v]? = heap₁[v]? :=
    fun v hv => List.getElem?_set_ne hv.symm
  refine ⟨?_, fun p hp c hc q hq => ?_, fun v hv => ?_⟩
  · rw [hroot, hr]
    rfl
  · have hne : c ≠ root := fun e => hf.not_reach_parent hc (e ▸ hp)
    rcases hp.cases_head with rfl | ⟨d, hd, hp⟩
    · cases hroot.symm.trans hq
      rw [h.settled c hc, hset c hne]
    · rw [h.child_eq d hd p hp c hc q hq, hset c hne]
  · have hne : v ≠ root := fun e => hv (e ▸ .refl)
    rw [h.frame v fun c hc hcv => hv (.head hc hcv), hset v hne]

theorem lumiWidgetLayout_laid (hf : Forest (childrenOf heap)) (hc : Closed heap)
    {rank : Nat → Nat} (hrank : ∀ p, ∀ c ∈ childrenOf heap p, rank c < rank p) :
    ∀ (fuel root : Nat) (width height : F) (heap₁ : Heap F), rank root < fuel →
      root < heap.length → SameTree heap heap₁ →
      ∃ heap₂, lumiWidgetLayout fuel root width height heap₁ = some heap₂ ∧ SameTree heap heap₂ ∧
        Laid (childrenOf heap) root width height heap₁ heap₂ := by
  intro fuel
  induction fuel with
  | zero => exact fun root _ _ _ h => absurd h (Nat.not_lt_zero _)
  | succ fuel ih =>
      intro root width height heap₁ hfuel hroot h
      have hroot₁ : root < heap₁.length := h.length_eq ▸ hroot
      have hget : heap₁[root]? = some heap₁[root] := List.getElem?_eq_getElem hroot₁
      have hchildren : heap₁[root].children = childrenOf heap root :=
        (childrenOf_getElem hroot₁).trans (h.children_eq root)
      have hset : SameTree heap (heap₁.set root (heap₁[root].fit width height)) :=
        h.trans (.set hroot₁ (childrenOf_getElem hroot₁))
      obtain ⟨heap₂, e, h₂, hbelow⟩ := layoutChildren_laid hf (childrenOf heap root)
        heap₁[root].padding _ hset (List.getElem?_set_self hroot₁) (hf.nodup root) fun c hm =>
          ⟨hm, hc root c hm, fun width height heap₂ h₂ => ih c width height heap₂
            (Nat.lt_of_lt_of_le (hrank root c hm) (Nat.le_of_lt_succ hfuel)) (hc root c hm) h₂⟩
      refine ⟨heap₂, ?_, h₂, hbelow.laid hf hget⟩
      rw [lumiWidgetLayout, hget]
      show layoutChildren (lumiWidgetLayout fuel) root heap₁[root].children heap₁[root].padding
        (heap₁.set root (heap₁[root].fit width height)) = some heap₂
      rw [hchildren]
      exact e

/-- **`lumi_widget_layout` on a forest** returns, with more fuel than widgets. -/
theorem layout_laid (hf : Forest (childrenOf heap)) (hc : Closed heap) (hw : w < heap.length)
    (width height : F) {fuel : Nat} (hfuel : heap.length < fuel) :
    ∃ heap', lumiWidgetLayout fuel w width height heap = some heap' ∧ SameTree heap heap' ∧
      Laid (childrenOf heap) w width height heap heap' := by
  obtain ⟨rank, hrank, hle⟩ := exists_rank hf hc
  exact lumiWidgetLayout_laid hf hc hrank fuel w width height heap ((hle w).trans_lt hfuel) hw
    ⟨rfl, fun _ => rfl⟩

theorem layout_forest (hf : Forest (childrenOf heap)) (hc : Closed heap) (hw : w < heap.length)
    (width height : F) : ∃ fuel heap', lumiWidgetLayout fuel w width height heap = some heap' := by
  obtain ⟨heap', e, -⟩ := layout_laid hf hc hw width height (Nat.lt_succ_self _)
  exact ⟨_, heap', e⟩

end

/-! ### Building the tree -/

/-- A call that builds widgets. -/
inductive Op where
  | create (calloc : Bool) (type : WidgetType)
  | addChild (parent child : Option Nat)

section

variable {F : Type} {heap heap' : Heap F} {op : Op} {p c : Nat}

/-- The widgets a call names are live. -/
def Op.Live (heap : Heap F) : Op → Prop
  | .create _ _ => True
  | .addChild parent child => (∀ p ∈ parent, p < heap.length) ∧ ∀ c ∈ child, c < heap.length

/-- There is room for a child. -/
def Room (heap : Heap F) (p : Nat) : Prop := (childrenOf heap p).length < maxChildren

/-- `c` has no parent, and `p` is not at or below it. -/
def Adoptable (heap : Heap F) (p c : Nat) : Prop :=
  (∀ q, c ∉ childrenOf heap q) ∧ ¬ Reach (childrenOf heap) c p

/-- A call of `lumi_widget_add_child` on two widgets with room adds an edge. -/
theorem childrenOf_addChild (hp : p < heap.length) (hr : Room heap p) :
    childrenOf (lumiWidgetAddChild heap (some p) (some c)) = addEdge (childrenOf heap) p c := by
  have hroom : ¬ maxChildren ≤ heap[p].children.length := by
    rw [childrenOf_getElem hp]
    exact Nat.not_le.mpr hr
  funext v
  simp only [lumiWidgetAddChild, List.getElem?_eq_getElem hp, dif_neg hroom, addEdge]
  by_cases e : v = p
  · subst e
    rw [if_pos rfl, childrenOf, List.getElem?_set_self hp]
    simp only [childrenOf_getElem hp]
  · rw [if_neg e, childrenOf, List.getElem?_set_ne (Ne.symm e), childrenOf]

theorem addChild_no_room (hr : ¬ Room heap p) :
    lumiWidgetAddChild heap (some p) (some c) = heap := by
  simp only [lumiWidgetAddChild]
  cases hp : heap[p]? with
  | none => rfl
  | some widget =>
      have : maxChildren ≤ widget.children.length := by
        rw [Room, childrenOf, hp] at hr
        exact Nat.not_lt.mp hr
      simp only [dif_pos this]

theorem addChild_length (heap : Heap F) (parent child : Option Nat) :
    (lumiWidgetAddChild heap parent child).length = heap.length := by
  cases parent with
  | none => rfl
  | some p =>
      cases child with
      | none => rfl
      | some c =>
          simp only [lumiWidgetAddChild]
          cases heap[p]? with
          | none => rfl
          | some widget =>
              dsimp only
              split
              · rfl
              · exact List.length_set

variable [NatCast F]

def Op.run (heap : Heap F) : Op → Heap F
  | .create calloc type => (lumiWidgetCreate heap calloc type).2
  | .addChild parent child => lumiWidgetAddChild heap parent child

def Step (heap : Heap F) (op : Op) (heap' : Heap F) : Prop := op.Live heap ∧ op.run heap = heap'

theorem childrenOf_create (heap : Heap F) (calloc : Bool) (type : WidgetType) :
    childrenOf (lumiWidgetCreate heap calloc type).2 = childrenOf heap := by
  cases calloc with
  | false => rfl
  | true =>
      funext v
      simp only [lumiWidgetCreate, childrenOf, if_true]
      rcases Nat.lt_trichotomy v heap.length with h | rfl | h
      · rw [List.getElem?_append_left h]
      · simp [Widget.zero]
      · rw [List.getElem?_append_right (Nat.le_of_lt h),
          List.getElem?_eq_none (by simp; omega), List.getElem?_eq_none (Nat.le_of_lt h)]

/-- What a step does to the children: nothing, or it adds an edge. -/
theorem Step.children (hs : Step heap op heap') :
    childrenOf heap' = childrenOf heap ∨
      ∃ p c, op = .addChild (some p) (some c) ∧ Room heap p ∧ c < heap.length ∧
        childrenOf heap' = addEdge (childrenOf heap) p c := by
  obtain ⟨hlive, rfl⟩ := hs
  cases op with
  | create calloc type => exact .inl (childrenOf_create heap calloc type)
  | addChild parent child =>
      cases parent with
      | none => exact .inl rfl
      | some p =>
          cases child with
          | none => exact .inl rfl
          | some c =>
              by_cases hr : Room heap p
              · exact .inr ⟨p, c, rfl, hr, hlive.2 c rfl, childrenOf_addChild (hlive.1 p rfl) hr⟩
              · exact .inl (congrArg childrenOf (addChild_no_room hr))

theorem Step.length_le (hs : Step heap op heap') : heap.length ≤ heap'.length := by
  obtain ⟨-, rfl⟩ := hs
  cases op with
  | create calloc type =>
      cases calloc with
      | false => exact Nat.le_refl _
      | true => simp [Op.run, lumiWidgetCreate]
  | addChild parent child => exact (addChild_length heap parent child).ge

theorem Step.closed (hs : Step heap op heap') (hc : Closed heap) : Closed heap' := by
  intro q d hd
  refine Nat.lt_of_lt_of_le ?_ hs.length_le
  rcases hs.children with e | ⟨p, c, -, -, hlt, e⟩
  · exact hc q d (e ▸ hd)
  · have hd : Edge (addEdge (childrenOf heap) p c) q d := e ▸ hd
    rcases edge_addEdge.mp hd with hd | ⟨-, rfl⟩
    · exact hc q d hd
    · exact hlt

theorem Step.forest (hs : Step heap op heap') (hf : Forest (childrenOf heap))
    (ha : ∀ p c, op = .addChild (some p) (some c) → Room heap p → Adoptable heap p c) :
    Forest (childrenOf heap') := by
  rcases hs.children with e | ⟨p, c, rfl, hr, -, e⟩
  · exact e ▸ hf
  · rw [e]
    exact (forest_addEdge_iff hf).mpr (ha p c rfl hr)

end

section

variable {F : Type} [NatCast F] [Add F] [Sub F] [Mul F] [BEq F]

/-- What the recursive functions rest on: the children form a forest, `lumi_widget_destroy` frees each
widget of a tree once, and `lumi_widget_layout` returns. -/
structure Sound (heap : Heap F) : Prop where
  forest : Forest (childrenOf heap)
  destroy : ∀ root < heap.length, ∃ fuel freed, lumiWidgetDestroy heap fuel root [] = some freed ∧
    freed.Nodup ∧ ∀ v, v ∈ freed ↔ Reach (childrenOf heap) root v
  layout : ∀ root < heap.length, ∀ width height : F,
    ∃ fuel heap', lumiWidgetLayout fuel root width height heap = some heap'

/-- **The widget tree.**  Along a run of calls on live widgets the heap stays sound exactly when each
call of `lumi_widget_add_child` that finds room is given a child without a parent, and a parent that is
not at or below the child. -/
theorem widgets_sound_iff (ops : List Op) :
    (∀ heap : Heap F, Passes Step [] ops heap → Sound heap) ↔
      ∀ (heap : Heap F) p c heap', Takes Step [] ops heap (.addChild (some p) (some c)) heap' →
        Room heap p → Adoptable heap p c := by
  constructor
  · intro hsound heap p c heap' htake hr
    have hf := (hsound heap htake.source).forest
    have hlive : p < heap.length := htake.rel.1.1 p rfl
    have e : childrenOf heap' = addEdge (childrenOf heap) p c := by
      rw [← htake.rel.2]
      exact childrenOf_addChild hlive hr
    exact (forest_addEdge_iff hf).mp (e ▸ (hsound heap' htake.target).forest)
  · intro hadopt heap hpass
    obtain ⟨hf, hc⟩ : Forest (childrenOf heap) ∧ Closed heap := by
      refine hpass.induction (P := fun heap : Heap F => Forest (childrenOf heap) ∧ Closed heap) ?_ ?_
      · exact ⟨.empty, fun p c h => nomatch h⟩
      · rintro heap op heap' htake ⟨hf, hc⟩
        refine ⟨htake.rel.forest hf ?_, htake.rel.closed hc⟩
        rintro p c rfl
        exact hadopt heap p c heap' htake
    exact ⟨hf, fun root hroot => destroy_forest hf hc hroot,
      fun root hroot width height => layout_forest hf hc hroot width height⟩

end

/-- A widget is its own child. -/
def selfParent : List Op := [.create true .box, .addChild (some 0) (some 0)]

/-- The widget is its own descendant. -/
theorem selfParent_not_sound :
    ¬ ∀ (ops : List Op) (heap : Heap Int), Passes Step [] ops heap → Sound heap := by
  intro h
  let heap₁ : Heap Int := [.zero .box]
  have h₁ : Step [] (.create true .box) heap₁ := ⟨trivial, rfl⟩
  have h₂ : Step heap₁ (.addChild (some 0) (some 0)) (lumiWidgetAddChild heap₁ (some 0) (some 0)) := by
    refine ⟨⟨?_, ?_⟩, rfl⟩ <;> rintro _ ⟨⟩ <;> decide
  have hsound := h selfParent _ ⟨selfParent, [], by simp, .cons h₁ (.one h₂)⟩
  have hself : 0 ∈ childrenOf (lumiWidgetAddChild heap₁ (some 0) (some 0)) 0 := by decide
  exact hsound.forest.acyclic 0 (.single hself)

end LumiOS.Toolkit
