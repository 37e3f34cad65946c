import LumiOS.Toolkit.Widget

/-!
# Toolkit — Memory

The memory of the widgets: each one is a block, and so is each text `lumi_widget_set_text` has `strdup`
make.  As long as a child is added that has no parent and is not above the new one, and only a widget
without a parent is destroyed, no call touches memory that was freed, and every text that was made is
freed once or held by one live widget (`memory_balanced`).  So when the last tree has been destroyed
nothing is left.
-/

namespace LumiOS.Toolkit

open Support Relation

/-- The blocks that have been freed, the last one in front. -/
structure Freed where
  widgets : List Nat
  texts : List Nat
deriving DecidableEq, Repr

/-- The text of a widget. -/
def textOf (texts : List (Option Nat)) (w : Nat) : Option Nat := texts[w]?.join

/-- `free`, which does nothing to a null pointer. -/
def freeText (text : Option Nat) (f : Freed) : Option Freed :=
  match text with
  | none => some f
  | some b => if b ∈ f.texts then none else some { f with texts := b :: f.texts }

/-- The loop of `lumi_widget_destroy`, and the two calls of `free` behind it. -/
def destroyEach (destroy : Nat → Freed → Option Freed) (texts : List (Option Nat)) (w : Nat) :
    List Nat → Freed → Option Freed
  | [], f =>
    if w ∈ f.widgets then none
    else (freeText (textOf texts w) f).map fun f => { f with widgets := w :: f.widgets }
  | c :: cs, f =>
    if w ∈ f.widgets then none
    else
      match destroy c f with
      | none => none
      | some f => destroyEach destroy texts w cs f

section

variable {F : Type}

/-- `lumi_widget_destroy` with the texts.  There is nothing when memory is used after it was freed. -/
def lumiWidgetDestroyText (heap : Heap F) (texts : List (Option Nat)) : Nat → Nat → Freed → Option Freed
  | 0, _, _ => none
  | fuel + 1, w, f =>
    match heap[w]? with
    | none => none
    | some widget => destroyEach (lumiWidgetDestroyText heap texts fuel) texts w widget.children f

variable (F) in
structure Memory where
  heap : Heap F
  /-- The text each widget points to. -/
  texts : List (Option Nat)
  /-- How many texts have been made. -/
  made : Nat
  freed : Freed

inductive MemOp where
  | create (calloc : Bool) (type : WidgetType)
  | addChild (parent child : Option Nat)
  /-- `lumi_widget_set_text`, with a text or none, and whether `strdup` finds memory for it. -/
  | setText (w : Option Nat) (text strdup : Bool)
  | destroy (w : Option Nat)

namespace Memory

def start : Memory F := ⟨[], [], 0, ⟨[], []⟩⟩

def create [NatCast F] (m : Memory F) (calloc : Bool) (type : WidgetType) : Memory F :=
  { m with
    heap := (lumiWidgetCreate m.heap calloc type).2
    texts := if calloc then m.texts ++ [none] else m.texts }

def addChild (m : Memory F) (parent child : Option Nat) : Option (Memory F) :=
  match parent, child with
  | some p, some c =>
    if p ∈ m.freed.widgets then none
    else some { m with heap := lumiWidgetAddChild m.heap (some p) (some c) }
  | _, _ => some m

def setText (m : Memory F) (w : Option Nat) (text strdup : Bool) : Option (Memory F) :=
  match w with
  | none => some m
  | some w =>
    if w ∈ m.freed.widgets then none
    else
      match freeText (textOf m.texts w) m.freed with
      | none => none
      | some f =>
        if text && strdup then
          some { m with texts := m.texts.set w (some m.made), made := m.made + 1, freed := f }
        else some { m with texts := m.texts.set w none, freed := f }

def destroy (m : Memory F) (w : Option Nat) : Option (Memory F) :=
  match w with
  | none => some m
  | some w =>
    (lumiWidgetDestroyText m.heap m.texts (m.heap.length + 1) w m.freed).map fun f =>
      { m with freed := f }

end Memory

def MemOp.run [NatCast F] (m : Memory F) : MemOp → Option (Memory F)
  | .create calloc type => some (m.create calloc type)
  | .addChild parent child => m.addChild parent child
  | .setText w text strdup => m.setText w text strdup
  | .destroy w => m.destroy w

namespace Memory

variable (m : Memory F) (v : Nat)

/-- The widget has been created, and not freed. -/
def Live : Prop := v < m.heap.length ∧ v ∉ m.freed.widgets

/-- The text has been made, and a live widget points to it. -/
def Held (b : Nat) : Prop := ∃ v, m.Live v ∧ textOf m.texts v = some b

end Memory

/-- A call on live widgets, that keeps the children a forest, or destroys a widget nobody is the parent
of. -/
def MemOp.Proper (m : Memory F) : MemOp → Prop
  | .create _ _ => True
  | .addChild parent child =>
    (∀ p ∈ parent, m.Live p) ∧ (∀ c ∈ child, m.Live c) ∧
      ∀ p ∈ parent, ∀ c ∈ child, Room m.heap p → Adoptable m.heap p c
  | .setText widget _ _ => ∀ w ∈ widget, m.Live w
  | .destroy widget => ∀ w ∈ widget, m.Live w ∧ ∀ p, w ∉ childrenOf m.heap p

def MemStep [NatCast F] (m : Memory F) (op : MemOp) (m' : Memory F) : Prop :=
  op.Proper m ∧ op.run m = some m'

/-- What has been made is freed once, or still there. -/
structure Balanced (m : Memory F) : Prop where
  widgets_nodup : m.freed.widgets.Nodup
  texts_nodup : m.freed.texts.Nodup
  widgets_iff : ∀ v, v < m.heap.length ↔ v ∈ m.freed.widgets ∨ m.Live v
  texts_iff : ∀ b, b < m.made ↔ b ∈ m.freed.texts ∨ m.Held b
  /-- No live widget points to a text that was freed. -/
  apart : ∀ b ∈ m.freed.texts, ¬ m.Held b
  /-- No two widgets point to one text. -/
  inj : ∀ u v b, textOf m.texts u = some b → textOf m.texts v = some b → u = v

end

/-! ### The texts -/

/-- The texts against the widgets: each is pointed to by one widget, and freed with it. -/
structure Ledger (text : Nat → Option Nat) (made : Nat) (f : Freed) : Prop where
  nodup : f.texts.Nodup
  inj : ∀ u v b, text u = some b → text v = some b → u = v
  made_iff : ∀ b, b < made ↔ b ∈ f.texts ∨ ∃ v, text v = some b
  freed_iff : ∀ v b, text v = some b → (b ∈ f.texts ↔ v ∈ f.widgets)

namespace Ledger

variable {text : Nat → Option Nat} {made w : Nat} {f : Freed}

/-- The `free` of the text of a live widget. -/
theorem exists_freeText (h : Ledger text made f) (hw : w ∉ f.widgets) :
    ∃ ts, freeText (text w) f = some ⟨f.widgets, ts⟩ ∧ ts.Nodup ∧
      ∀ b, b ∈ ts ↔ text w = some b ∨ b ∈ f.texts := by
  cases ht : text w with
  | none => exact ⟨f.texts, rfl, h.nodup, fun b => by simp⟩
  | some b =>
      have hb : b ∉ f.texts := fun hm => hw ((h.freed_iff w b ht).mp hm)
      refine ⟨b :: f.texts, if_neg hb, List.nodup_cons.mpr ⟨hb, h.nodup⟩, fun c => ?_⟩
      rw [List.mem_cons, Option.some.injEq, eq_comm]

/-- The widget is freed with its text. -/
theorem free (h : Ledger text made f) (hw : w ∉ f.widgets) :
    ∃ ts, freeText (text w) f = some ⟨f.widgets, ts⟩ ∧ Ledger text made ⟨w :: f.widgets, ts⟩ := by
  obtain ⟨ts, e, hnd, hmem⟩ := h.exists_freeText hw
  refine ⟨ts, e, hnd, h.inj, fun b => ?_, fun v b hv => ?_⟩
  · rw [h.made_iff, hmem]
    constructor
    · rintro (hb | hb)
      · exact .inl (.inr hb)
      · exact .inr hb
    · rintro ((hb | hb) | hb)
      · exact .inr ⟨w, hb⟩
      · exact .inl hb
      · exact .inr hb
  · rw [hmem, h.freed_iff v b hv, List.mem_cons]
    exact or_congr_left ⟨fun hb => h.inj v w b hv hb, fun e => e ▸ hv⟩

/-- The text is freed, and the widget is left without one. -/
theorem clear (h : Ledger text made f) (hw : w ∉ f.widgets) :
    ∃ ts, freeText (text w) f = some ⟨f.widgets, ts⟩ ∧
      Ledger (Function.update text w none) made ⟨f.widgets, ts⟩ := by
  obtain ⟨ts, e, hnd, hmem⟩ := h.exists_freeText hw
  have hother : ∀ {v b}, Function.update text w none v = some b → v ≠ w ∧ text v = some b := by
    intro v b hv
    rw [Function.update_apply] at hv
    split at hv
    · cases hv
    · exact ⟨‹_›, hv⟩
  refine ⟨ts, e, hnd, fun u v b hu hv => h.inj u v b (hother hu).2 (hother hv).2, fun b => ?_,
    fun v b hv => ?_⟩
  · rw [h.made_iff, hmem]
    constructor
    · rintro (hb | ⟨v, hv⟩)
      · exact .inl (.inr hb)
      · by_cases e : v = w
        · exact .inl (.inl (e ▸ hv))
        · exact .inr ⟨v, by rw [Function.update_of_ne e, hv]⟩
    · rintro ((hb | hb) | ⟨v, hv⟩)
      · exact .inr ⟨w, hb⟩
      · exact .inl hb
      · exact .inr ⟨v, (hother hv).2⟩
  · obtain ⟨hne, hv⟩ := hother hv
    rw [hmem, ← h.freed_iff v b hv]
    exact or_iff_right fun hb => hne (h.inj v w b hv hb)

/-- A widget without a text gets one. -/
theorem make (h : Ledger text made f) (hw : w ∉ f.widgets) (ht : text w = none) :
    Ledger (Function.update text w (some made)) (made + 1) f := by
  have hnot : ∀ v, text v ≠ some made := fun v hv =>
    Nat.lt_irrefl _ ((h.made_iff made).mpr (.inr ⟨v, hv⟩))
  have hcases : ∀ v b, Function.update text w (some made) v = some b →
      (v = w ∧ b = made) ∨ text v = some b := by
    intro v b hv
    rw [Function.update_apply] at hv
    split at hv
    · exact .inl ⟨‹_›, (Option.some.inj hv).symm⟩
    · exact .inr hv
  refine ⟨h.nodup, fun u v b hu hv => ?_, fun b => ?_, fun v b hv => ?_⟩
  · rcases hcases u b hu with ⟨rfl, rfl⟩ | hu'
    · rcases hcases v _ hv with ⟨rfl, -⟩ | hv
      · rfl
      · exact absurd hv (hnot v)
    · rcases hcases v b hv with ⟨rfl, rfl⟩ | hv
      · exact absurd hu' (hnot u)
      · exact h.inj u v b hu' hv
  · rw [Nat.lt_succ_iff_lt_or_eq, h.made_iff, or_assoc]
    refine or_congr_right ⟨?_, ?_⟩
    · rintro (⟨v, hv⟩ | rfl)
      · have hne : v ≠ w := fun e => by rw [e, ht] at hv; cases hv
        exact ⟨v, by rw [Function.update_of_ne hne, hv]⟩
      · exact ⟨w, Function.update_self ..⟩
    · rintro ⟨v, hv⟩
      rcases hcases _ _ hv with ⟨-, rfl⟩ | hv
      · exact .inr rfl
      · exact .inl ⟨v, hv⟩
  · rcases hcases _ _ hv with ⟨rfl, rfl⟩ | hv
    · refine ⟨fun hm => ?_, fun hm => absurd hm hw⟩
      exact absurd ((h.made_iff b).mpr (.inl hm)) (Nat.lt_irrefl b)
    · exact h.freed_iff v b hv

end Ledger

theorem textOf_append_none (texts : List (Option Nat)) : textOf (texts ++ [none]) = textOf texts := by
  funext v
  rw [textOf, textOf, List.getElem?_append]
  split
  · rfl
  · rw [List.getElem?_eq_none (Nat.not_lt.mp ‹¬ v < texts.length›)]
    cases v - texts.length <;> rfl

theorem textOf_set {texts : List (Option Nat)} {w : Nat} (hw : w < texts.length) (t : Option Nat) :
    textOf (texts.set w t) = Function.update (textOf texts) w t := by
  funext v
  rw [Function.update_apply, textOf]
  split
  · subst v
    rw [List.getElem?_set_self hw, Option.join_some]
  · rw [List.getElem?_set_ne (Ne.symm ‹_›), textOf]

/-! ### lumi_widget_destroy -/

/-- The loop frees the widgets that the one without texts does, each with its text. -/
theorem destroyEach_sim {texts : List (Option Nat)} {made w : Nat}
    {destroy : Nat → List Nat → Option (List Nat)} {destroyText : Nat → Freed → Option Freed}
    (hsim : ∀ c f ws, Ledger (textOf texts) made f → destroy c f.widgets = some ws →
      ∃ ts, destroyText c f = some ⟨ws, ts⟩ ∧ Ledger (textOf texts) made ⟨ws, ts⟩) :
    ∀ cs f ws, Ledger (textOf texts) made f → destroyChildren destroy w cs f.widgets = some ws →
      ∃ ts, destroyEach destroyText texts w cs f = some ⟨ws, ts⟩ ∧
        Ledger (textOf texts) made ⟨ws, ts⟩ := by
  intro cs
  induction cs with
  | nil =>
      intro f ws h e
      rw [destroyChildren] at e
      split at e
      · cases e
      · obtain rfl := Option.some.inj e
        obtain ⟨ts, e', h'⟩ := h.free ‹_›
        exact ⟨ts, by rw [destroyEach, if_neg ‹_›, e', Option.map_some], h'⟩
  | cons c cs ih =>
      intro f ws h e
      rw [destroyChildren] at e
      split at e
      · cases e
      · cases hc : destroy c f.widgets with
        | none => rw [hc] at e; cases e
        | some ws₁ =>
            rw [hc] at e
            obtain ⟨ts₁, e₁, h₁⟩ := hsim c f ws₁ h hc
            obtain ⟨ts, e', h'⟩ := ih ⟨ws₁, ts₁⟩ ws h₁ e
            exact ⟨ts, by rw [destroyEach, if_neg ‹_›, e₁]; exact e', h'⟩

section

variable {F : Type}

/-- **`lumi_widget_destroy` with the texts** follows the one without. -/
theorem lumiWidgetDestroyText_sim {heap : Heap F} {texts : List (Option Nat)} {made : Nat} :
    ∀ fuel w f ws, Ledger (textOf texts) made f →
      lumiWidgetDestroy heap fuel w f.widgets = some ws →
      ∃ ts, lumiWidgetDestroyText heap texts fuel w f = some ⟨ws, ts⟩ ∧
        Ledger (textOf texts) made ⟨ws, ts⟩ := by
  intro fuel
  induction fuel with
  | zero => exact fun w f ws _ e => nomatch e
  | succ fuel ih =>
      intro w f ws h e
      rw [lumiWidgetDestroy] at e
      rw [lumiWidgetDestroyText]
      cases hw : heap[w]? with
      | none => rw [hw] at e; cases e
      | some widget =>
          rw [hw] at e
          exact destroyEach_sim (fun c f ws => ih c f ws) widget.children f ws h e

/-! ### A sequence of calls -/

/-- What proper calls keep. -/
structure Kept (m : Memory F) : Prop where
  forest : Forest (childrenOf m.heap)
  closed : Closed m.heap
  texts_length : m.texts.length = m.heap.length
  nodup : m.freed.widgets.Nodup
  lt : ∀ v ∈ m.freed.widgets, v < m.heap.length
  /-- A tree is freed as a whole. -/
  trees : ∀ p, ∀ c ∈ childrenOf m.heap p, p ∈ m.freed.widgets ↔ c ∈ m.freed.widgets
  ledger : Ledger (textOf m.texts) m.made m.freed

namespace Kept

variable {m m' : Memory F} {v w : Nat}

theorem start : Kept (Memory.start (F := F)) where
  forest := .empty
  closed := fun p c h => nomatch h
  texts_length := rfl
  nodup := List.nodup_nil
  lt := fun v h => nomatch h
  trees := fun p c h => nomatch h
  ledger :=
    { nodup := List.nodup_nil
      inj := fun u v b h => nomatch h
      made_iff := fun b => iff_of_false (Nat.not_lt_zero b) (by rintro (h | ⟨v, h⟩) <;> cases h)
      freed_iff := fun v b h => nomatch h }

theorem lt_of_textOf (h : Kept m) {b : Nat} (hv : textOf m.texts v = some b) : v < m.heap.length := by
  by_contra hlt
  rw [← h.texts_length, Nat.not_lt] at hlt
  rw [textOf, List.getElem?_eq_none hlt] at hv
  cases hv

theorem balanced (h : Kept m) : Balanced m where
  widgets_nodup := h.nodup
  texts_nodup := h.ledger.nodup
  widgets_iff := fun v => by
    by_cases hv : v ∈ m.freed.widgets
    · exact iff_of_true (h.lt v hv) (.inl hv)
    · exact ⟨fun hlt => .inr ⟨hlt, hv⟩, fun hv' => (hv'.resolve_left hv).1⟩
  texts_iff := fun b => by
    rw [h.ledger.made_iff]
    constructor
    · rintro (hb | ⟨v, hv⟩)
      · exact .inl hb
      · by_cases hb : b ∈ m.freed.texts
        · exact .inl hb
        · exact .inr ⟨v, ⟨h.lt_of_textOf hv, fun hm => hb ((h.ledger.freed_iff v b hv).mpr hm)⟩, hv⟩
    · rintro (hb | ⟨v, -, hv⟩)
      · exact .inl hb
      · exact .inr ⟨v, hv⟩
  apart := fun b hb ⟨v, hlive, hv⟩ => hlive.2 ((h.ledger.freed_iff v b hv).mp hb)
  inj := h.ledger.inj

/-- What is below a live widget is live. -/
theorem live_below (h : Kept m) (hw : w ∉ m.freed.widgets) (hv : Reach (childrenOf m.heap) w v) :
    v ∉ m.freed.widgets := by
  induction hv with
  | refl => exact hw
  | @tail p c hp hc ih => exact fun hm => ih ((h.trees p c hc).mpr hm)

/-- Building keeps what was freed. -/
theorem built [NatCast F] (op : Op) (h : Kept m)
    (hs : Step m.heap op m'.heap) (hfreed : m'.freed = m.freed)
    (hlive : ∀ p c, op = .addChild (some p) (some c) → Room m.heap p →
      m.Live p ∧ m.Live c ∧ Adoptable m.heap p c)
    (htexts : m'.texts.length = m'.heap.length)
    (hledger : Ledger (textOf m'.texts) m'.made m.freed) : Kept m' where
  forest := hs.forest h.forest fun p c e hr => (hlive p c e hr).2.2
  closed := hs.closed h.closed
  texts_length := htexts
  nodup := hfreed ▸ h.nodup
  lt := fun v hv => (h.lt v (hfreed ▸ hv)).trans_le hs.length_le
  trees := by
    rw [hfreed]
    intro p c hc
    rcases hs.children with e | ⟨q, d, e', hr, -, e⟩
    · exact h.trees p c (e ▸ hc)
    · have hc : Edge (addEdge (childrenOf m.heap) q d) p c := e ▸ hc
      rcases edge_addEdge.mp hc with hc | ⟨rfl, rfl⟩
      · exact h.trees p c hc
      · obtain ⟨hp, hc, -⟩ := hlive p c e' hr
        exact iff_of_false hp.2 hc.2
  ledger := hfreed ▸ hledger

variable [NatCast F]

theorem create (h : Kept m) (calloc : Bool) (type : WidgetType) : Kept (m.create calloc type) := by
  have hs : Step m.heap (.create calloc type) (m.create calloc type).heap := ⟨trivial, rfl⟩
  refine h.built (.create calloc type) hs rfl (fun p c e => nomatch e) ?_ ?_
  · cases calloc with
    | false => exact h.texts_length
    | true => simp [Memory.create, lumiWidgetCreate, h.texts_length]
  · cases calloc with
    | false => exact h.ledger
    | true => exact (textOf_append_none m.texts).symm ▸ h.ledger

theorem addChild (h : Kept m) {parent child : Option Nat}
    (hop : (MemOp.addChild parent child).Proper m) :
    ∃ m', m.addChild parent child = some m' ∧ Kept m' := by
  obtain ⟨hp, hc, hadopt⟩ := hop
  cases parent with
  | none => exact ⟨m, rfl, h⟩
  | some p =>
      cases child with
      | none => exact ⟨m, rfl, h⟩
      | some c =>
          have hp := hp p rfl
          have hc := hc c rfl
          refine ⟨_, if_neg hp.2, h.built (.addChild (some p) (some c)) ⟨⟨?_, ?_⟩, rfl⟩ rfl ?_ ?_
            h.ledger⟩
          · rintro _ ⟨⟩
            exact hp.1
          · rintro _ ⟨⟩
            exact hc.1
          · rintro _ _ ⟨⟩ hr
            exact ⟨hp, hc, hadopt p rfl c rfl hr⟩
          · exact h.texts_length.trans (addChild_length m.heap (some p) (some c)).symm

omit [NatCast F] in
/-- A call that changes the texts only. -/
theorem retext (h : Kept m) {texts : List (Option Nat)} {made : Nat} {ts : List Nat}
    (hlen : texts.length = m.texts.length)
    (hledger : Ledger (textOf texts) made ⟨m.freed.widgets, ts⟩) :
    Kept ⟨m.heap, texts, made, ⟨m.freed.widgets, ts⟩⟩ :=
  ⟨h.forest, h.closed, hlen.trans h.texts_length, h.nodup, h.lt, h.trees, hledger⟩

omit [NatCast F] in
theorem setText (h : Kept m) {widget : Option Nat} {text strdup : Bool}
    (hop : (MemOp.setText widget text strdup).Proper m) :
    ∃ m', m.setText widget text strdup = some m' ∧ Kept m' := by
  cases widget with
  | none => exact ⟨m, rfl, h⟩
  | some w =>
      obtain ⟨hlt, hw⟩ := hop w rfl
      rw [← h.texts_length] at hlt
      obtain ⟨ts, e, hledger⟩ := h.ledger.clear hw
      simp only [Memory.setText, if_neg hw, e]
      split
      · refine ⟨_, rfl, h.retext List.length_set ?_⟩
        have hmake := hledger.make hw (Function.update_self ..)
        rwa [Function.update_idem, ← textOf_set hlt] at hmake
      · exact ⟨_, rfl, h.retext List.length_set (textOf_set hlt none ▸ hledger)⟩

omit [NatCast F] in
theorem destroy (h : Kept m) {widget : Option Nat} (hop : (MemOp.destroy widget).Proper m) :
    ∃ m', m.destroy widget = some m' ∧ Kept m' := by
  cases widget with
  | none => exact ⟨m, rfl, h⟩
  | some w =>
      obtain ⟨⟨hlt, hw⟩, hroot⟩ := hop w rfl
      obtain ⟨rank, hrank, hle⟩ := exists_rank h.forest h.closed
      have hbelow := fun v => h.live_below (v := v) hw
      obtain ⟨ws, e, new, rfl, hnew, hmem⟩ := lumiWidgetDestroy_forest h.forest h.closed hrank
        (m.heap.length + 1) w m.freed.widgets (Nat.lt_succ_of_le (hle w)) hlt hbelow
      obtain ⟨ts, e', hledger⟩ := lumiWidgetDestroyText_sim _ w m.freed _ h.ledger e
      refine ⟨{ m with freed := ⟨new ++ m.freed.widgets, ts⟩ },
        by rw [Memory.destroy, e', Option.map_some],
        h.forest, h.closed, h.texts_length, ?_, ?_, fun p c hc => ?_, hledger⟩
      · refine List.nodup_append.mpr ⟨hnew, h.nodup, fun u hu v hv e => ?_⟩
        exact hbelow u ((hmem u).mp hu) (e ▸ hv)
      · intro v hv
        rcases List.mem_append.mp hv with hv | hv
        · exact h.closed.lt_of_reach hlt ((hmem v).mp hv)
        · exact h.lt v hv
      · rw [List.mem_append, List.mem_append, hmem, hmem, h.trees p c hc]
        refine or_congr_left ⟨fun hp => hp.tail hc, fun hr => ?_⟩
        -- the last edge on the way to `c` is the one from `p`
        rcases hr.cases_tail with rfl | ⟨q, hq, hqc⟩
        · exact absurd hc (hroot p)
        · exact h.forest.unique q p c hqc hc ▸ hq

/-- A proper call touches no freed memory. -/
theorem exists_run (h : Kept m) {op : MemOp} (hop : op.Proper m) :
    ∃ m', op.run m = some m' ∧ Kept m' := by
  cases op with
  | create calloc type => exact ⟨_, rfl, h.create calloc type⟩
  | addChild parent child => exact h.addChild hop
  | setText widget text strdup => exact h.setText hop
  | destroy widget => exact h.destroy hop

theorem step (h : Kept m) {op : MemOp} (hs : MemStep m op m') : Kept m' := by
  obtain ⟨m₁, e, h₁⟩ := h.exists_run hs.1
  exact Option.some.inj (e.symm.trans hs.2) ▸ h₁

end Kept

variable [NatCast F]

/-- **The memory of the widgets.**  Along every sequence of proper calls nothing is used after it was
freed, and each widget and text made is freed once or still there; so when no widget is left, all of them
have been freed. -/
theorem memory_balanced {m : Memory F} (h : Reachable MemStep Memory.start m) :
    Balanced m ∧ (∀ op : MemOp, op.Proper m → ∃ m', op.run m = some m') ∧
      ((∀ v, ¬ m.Live v) → m.freed.widgets.Perm (List.range m.heap.length) ∧
        m.freed.texts.Perm (List.range m.made)) := by
  have hkept : Kept m := h.invariant (fun _ _ _ h hs => h.step hs) .start
  have hb := hkept.balanced
  refine ⟨hb, fun op hop => ?_, fun hnone => ⟨?_, ?_⟩⟩
  · obtain ⟨m', e, -⟩ := hkept.exists_run hop
    exact ⟨m', e⟩
  · refine (List.perm_ext_iff_of_nodup hb.widgets_nodup List.nodup_range).mpr fun v => ?_
    rw [List.mem_range, hb.widgets_iff, or_iff_left (hnone v)]
  · refine (List.perm_ext_iff_of_nodup hb.texts_nodup List.nodup_range).mpr fun b => ?_
    rw [List.mem_range, hb.texts_iff, or_iff_left fun ⟨v, hv, _⟩ => hnone v hv]

end

/-- A box with a label, which is given a text twice, and destroyed. -/
def dialog : List MemOp :=
  [.create true .box, .create true .label, .addChild (some 0) (some 1), .setText (some 1) true true,
    .setText (some 1) true true, .destroy (some 0)]

theorem memory_balanced_dialog : ∃ m : Memory Int, dialog.foldlM MemOp.run .start = some m ∧
    m.freed.widgets.Perm [0, 1] ∧ m.freed.texts.Perm [0, 1] := by
  have hadopt : Adoptable ([.zero .box, .zero .label] : Heap Int) 0 1 := by
    have hempty : childrenOf ([.zero .box, .zero .label] : Heap Int) = fun _ => [] :=
      (childrenOf_create [.zero .box] true .label).trans (childrenOf_create [] true .box)
    rw [Adoptable, hempty]
    refine ⟨fun q => List.not_mem_nil, fun hr => ?_⟩
    rcases hr.cases_head with h | ⟨c, hc, -⟩
    · cases h
    · cases hc
  have hrun : ∃ m : Memory Int, dialog.foldlM MemOp.run .start = some m ∧
      Run MemStep .start dialog m := by
    refine ⟨_, rfl, .cons ⟨trivial, rfl⟩ (.cons ⟨trivial, rfl⟩ (.cons ⟨⟨?_, ?_, ?_⟩, rfl⟩
      (.cons ⟨?_, rfl⟩ (.cons ⟨?_, rfl⟩ (.one ⟨?_, rfl⟩)))))⟩
    · rintro _ ⟨⟩
      exact ⟨by decide, by decide⟩
    · rintro _ ⟨⟩
      exact ⟨by decide, by decide⟩
    · rintro _ ⟨⟩ _ ⟨⟩ -
      exact hadopt
    · rintro _ ⟨⟩
      exact ⟨by decide, by decide⟩
    · rintro _ ⟨⟩
      exact ⟨by decide, by decide⟩
    · rintro _ ⟨⟩
      refine ⟨⟨by decide, by decide⟩, fun p => ?_⟩
      match p with
      | 0 => decide
      | 1 => decide
      | p + 2 => exact List.not_mem_nil
  obtain ⟨m, e, hrun⟩ := hrun
  obtain ⟨-, -, hall⟩ := memory_balanced ⟨dialog, hrun⟩
  obtain rfl := Option.some.inj e
  refine ⟨_, rfl, hall fun v hv => ?_⟩
  match v with
  | 0 => exact hv.2 (by decide)
  | 1 => exact hv.2 (by decide)
  | v + 2 => exact absurd hv.1 (Nat.not_lt.mpr (Nat.le_add_left 2 v))

end LumiOS.Toolkit
