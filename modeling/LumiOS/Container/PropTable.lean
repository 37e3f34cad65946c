import Mathlib.Logic.Function.Basic
import LumiOS.Support.Runs
import LumiOS.Container.Properties

/-!
# Container — PropTable

The arrays behind the property table, as `properties.c` has them: keys and values in `char` arrays that
`strncpy` fills up, entries that `props_init` zeroes and `props_set` overwrites.  They are the table of
`Properties.lean`, whatever an array held before (`set_abs`, `get_abs`).

Along a run of `props_init` and `props_set` the table is the map of what was set.  A key that does not
fit its array is stored cut, and then is not found under its own name; so the table is that map exactly
when such keys come to a full table only (`table_map_iff`).
-/

namespace LumiOS.Container

open Support

/-! ### The arrays -/

/-- An element of `g_props`. -/
structure Slot where
  key : Buf 128
  value : Buf 256
deriving DecidableEq, Repr

/-- `g_props`, divided at `g_prop_count`. -/
structure GProps where
  used : List Slot
  unused : List Slot
  length_eq : used.length + unused.length = maxProps
deriving DecidableEq, Repr

def Slot.zero : Slot := ⟨.zero CStr.pos_128, .zero CStr.pos_256⟩

/-- `strcmp(slot.key, key) == 0`. -/
def Slot.hasKey (slot : Slot) (key : List UInt8) : Bool := slot.key.string.bytes = cstring key

/-- The loop of `props_set` over the entries: the first with this key gets the value. -/
def overwrite (key value : List UInt8) : List Slot → Option (List Slot)
  | [] => none
  | slot :: slots =>
    if slot.hasKey key then some ({ slot with value := slot.value.strncpy value } :: slots)
    else (overwrite key value slots).map (slot :: ·)

theorem overwrite_length {key value : List UInt8} {slots slots' : List Slot}
    (h : overwrite key value slots = some slots') : slots'.length = slots.length := by
  induction slots generalizing slots' with
  | nil => cases h
  | cons slot slots ih =>
      rw [overwrite] at h
      split at h
      · cases h
        rfl
      · obtain ⟨slots₁, h₁, rfl⟩ := Option.map_eq_some_iff.mp h
        rw [List.length_cons, List.length_cons, ih h₁]

namespace GProps

/-- `props_init`, and the table before it. -/
def init : GProps := ⟨[], List.replicate maxProps .zero, by simp⟩

/-- `props_set`. -/
def set (t : GProps) (key value : List UInt8) : Int × GProps :=
  match h : overwrite key value t.used with
  | some used => (0, ⟨used, t.unused, by rw [overwrite_length h]; exact t.length_eq⟩)
  | none =>
    match hu : t.unused with
    | [] => (-1, t)
    | slot :: unused =>
      (0, { used := t.used ++ [⟨slot.key.strncpy key, slot.value.strncpy value⟩]
            unused := unused
            length_eq := by
              have hl := t.length_eq
              rw [hu, List.length_cons] at hl
              rw [List.length_append, List.length_singleton]
              omega })

/-- `props_get`: the string at the address it returns, if it is not `NULL`. -/
def get (t : GProps) (key : List UInt8) : Option (List UInt8) :=
  (t.used.find? (·.hasKey key)).map (·.value.string.bytes)

end GProps

/-! ### The table they are -/

def Slot.abs (slot : Slot) : Property := ⟨slot.key.string, slot.value.string⟩

def GProps.abs (t : GProps) : Props where
  entries := t.used.map Slot.abs
  length_le := by
    have := t.length_eq
    rw [List.length_map]
    omega

section

variable {t : GProps} {key value : List UInt8}

theorem string_strncpy {cap : Nat} (b : Buf cap) (src : List UInt8) :
    (b.strncpy src).string = .cut b.pos src := by
  rw [Buf.strncpy_eq, Buf.string_holding]

/-- A string is cut as far as its NUL in any case. -/
theorem cut_cstring {cap : Nat} (h : 0 < cap) (src : List UInt8) :
    CStr.cut h (cstring src) = CStr.cut h src := by
  have e : (cstring src).takeWhile (· ≠ 0) = src.takeWhile (· ≠ 0) := cstring_cstring src
  simp only [CStr.cut, e]

theorem overwrite_abs (key value : List UInt8) (slots : List Slot) :
    match overwrite key value slots with
    | some slots' => cstring key ∈ slots.map (·.abs.key.bytes) ∧
        slots'.map Slot.abs = updateFirst (cstring key) (cstring value) (slots.map Slot.abs)
    | none => cstring key ∉ slots.map (·.abs.key.bytes) := by
  induction slots with
  | nil => simp [overwrite]
  | cons slot slots ih =>
      rw [overwrite]
      by_cases hk : slot.hasKey key
      · have hk' : slot.abs.key.bytes = cstring key := of_decide_eq_true hk
        rw [if_pos hk]
        refine ⟨by simp [hk'], ?_⟩
        rw [List.map_cons, List.map_cons, updateFirst, if_pos hk']
        simp only [Slot.abs, string_strncpy, cut_cstring]
      · have hk' : ¬ slot.abs.key.bytes = cstring key := fun e => hk (decide_eq_true e)
        rw [if_neg hk]
        cases ho : overwrite key value slots with
        | none =>
            rw [ho] at ih
            simp only [Option.map_none, List.map_cons, List.mem_cons, not_or]
            exact ⟨Ne.symm hk', ih⟩
        | some slots' =>
            rw [ho] at ih
            refine ⟨List.mem_cons_of_mem _ ih.1, ?_⟩
            rw [List.map_cons, List.map_cons, updateFirst, if_neg hk', ih.2]

/-- **`props_set` on the arrays** is `props_set` on the table. -/
theorem set_abs (t : GProps) (key value : List UInt8) :
    (t.set key value).1 = (propsSet t.abs (cstring key) (cstring value)).1 ∧
      (t.set key value).2.abs = (propsSet t.abs (cstring key) (cstring value)).2 := by
  have h := overwrite_abs key value t.used
  have hkeys : t.abs.keys = t.used.map (·.abs.key.bytes) := by
    rw [Props.keys, GProps.abs, List.map_map]
    rfl
  have hlen : t.abs.entries.length = t.used.length := List.length_map _
  simp only [GProps.set]
  split
  · rename_i used ho
    rw [ho] at h
    rw [propsSet, if_pos (hkeys ▸ h.1)]
    exact ⟨rfl, by simp only [GProps.abs, h.2]⟩
  · rename_i ho
    rw [ho] at h
    rw [propsSet, if_neg (hkeys ▸ h)]
    have hl := t.length_eq
    split
    · rename_i hu
      rw [hu, List.length_nil] at hl
      rw [dif_pos (by omega)]
      exact ⟨rfl, rfl⟩
    · rename_i slot unused hu
      rw [hu, List.length_cons] at hl
      rw [dif_neg (by omega)]
      refine ⟨rfl, ?_⟩
      simp only [GProps.abs, List.map_append, List.map_cons, List.map_nil, Slot.abs, string_strncpy,
        cut_cstring]

/-- **`props_get` on the arrays** is `props_get` on the table. -/
theorem get_abs (t : GProps) (key : List UInt8) :
    t.get key = (propsGet t.abs (cstring key)).map (·.bytes) := by
  rw [GProps.get, propsGet, GProps.abs, List.find?_map, Option.map_map, Option.map_map]
  rfl

end

/-! ### The map they stand for -/

/-- A call on the table. -/
inductive PropOp where
  | init
  | set (key value : List UInt8)

def PropOp.run (t : GProps) : PropOp → Int × GProps
  | .init => (0, .init)
  | .set key value => t.set key value

/-- The table, with the value of the last `props_set` of each key that returned 0 since the last
`props_init`. -/
structure Recorded where
  table : GProps
  last : List UInt8 → Option (List UInt8)

def Recorded.init : Recorded := ⟨.init, fun _ => none⟩

def Recorded.next (s : Recorded) (op : PropOp) : Recorded where
  table := (op.run s.table).2
  last :=
    match op with
    | .init => fun _ => none
    | .set key value =>
      if (s.table.set key value).1 = 0 then
        Function.update s.last (cstring key) (some (cstring value))
      else s.last

def PropStep (s : Recorded) (op : PropOp) (s' : Recorded) : Prop := s.next op = s'

/-- The table is the map of what was set, with at most `MAX_PROPS` keys. -/
structure Recorded.IsMap (s : Recorded) : Prop where
  get_eq : ∀ key, s.table.get key = (s.last (cstring key)).map (·.take 255)
  keys : ∃ keys : List (List UInt8), keys.length ≤ maxProps ∧ ∀ key, s.last key ≠ none → key ∈ keys

/-- A set of a key that is there takes no new entry, and a set that fails changes nothing. -/
def PropOp.Frugal (s : Recorded) : PropOp → Prop
  | .init => True
  | .set key value =>
    (s.last (cstring key) ≠ none →
      (s.table.set key value).2.used.length = s.table.used.length) ∧
    ((s.table.set key value).1 = -1 → (s.table.set key value).2 = s.table)

/-- A key that does not fit its array comes to a full table only. -/
def PropOp.Fits (s : Recorded) : PropOp → Prop
  | .init => True
  | .set key _ => 128 ≤ (cstring key).length → s.table.used.length = maxProps

section

variable {s s' : Recorded} {op : PropOp} {t : Props} {key value : List UInt8}

theorem key_length (t : Props) : ∀ key ∈ t.keys, key.length < 128 := by
  intro key hk
  obtain ⟨e, -, rfl⟩ := List.mem_map.mp hk
  exact e.key.length_lt

theorem propsSet_ret (t : Props) (key value : List UInt8) :
    (propsSet t key value).1 = if key ∈ t.keys ∨ t.entries.length < maxProps then 0 else -1 := by
  rw [propsSet]
  split
  · rename_i hk
    rw [if_pos (.inl hk)]
  · rename_i hk
    split
    · rename_i hfull
      rw [if_neg (not_or.mpr ⟨hk, Nat.not_lt.mpr hfull⟩)]
    · rename_i hroom
      rw [if_pos (.inr (Nat.not_le.mp hroom))]

theorem entries_length (t : GProps) : t.abs.entries.length = t.used.length := List.length_map _

/-- What a key that fits is stored as. -/
theorem cut_key (h : (cstring key).length < 128) :
    (CStr.cut (by decide) (cstring key) : CStr 128).bytes = cstring key := by
  have e : (cstring key).takeWhile (· ≠ 0) = cstring key := cstring_cstring key
  simp only [CStr.cut, e]
  exact List.take_of_length_le (Nat.le_of_lt_succ h)

/-- What a set of a key that fits leaves of the value of every key. -/
theorem get_set (t : Props) (hfit : 128 ≤ (cstring key).length → t.entries.length = maxProps)
    (k : List UInt8) :
    propsGet (propsSet t (cstring key) value).2 k =
      if (propsSet t (cstring key) value).1 = 0 ∧ k = cstring key then some (.cut (by decide) value)
      else propsGet t k := by
  have h : propsGet (propsSet t (cstring key) value).2 k = _ := propsGet_set t (cstring key, value) k
  simp only [length_keys] at h
  rw [h, propsSet_ret]
  by_cases hk : cstring key ∈ t.keys
  · simp only [hk, if_true, true_or, true_and]
  · by_cases hfull : maxProps ≤ t.entries.length
    · simp [hk, hfull, Nat.not_lt.mpr hfull]
    · have hlen : (cstring key).length < 128 := by
        by_contra hlong
        exact hfull (hfit (Nat.not_lt.mp hlong)).ge
      simp only [hk, if_false, hfull, cut_key hlen, false_or, Nat.not_le.mp hfull, if_true, true_and]
      by_cases e : k = cstring key
      · rw [if_pos e.symm, if_pos e, e, propsGet_eq_none hk, Option.none_or]
      · rw [if_neg (Ne.symm e), if_neg e, Option.or_none]

/-- A key that gets an answer 0 is in the table from then on. -/
theorem mem_keys_propsSet (t : Props)
    (hfit : 128 ≤ (cstring key).length → t.entries.length = maxProps)
    (h : (propsSet t (cstring key) value).1 = 0) :
    cstring key ∈ (propsSet t (cstring key) value).2.keys := by
  by_contra hno
  have hget : propsGet (propsSet t (cstring key) value).2 (cstring key) = _ := get_set t hfit (cstring key)
  rw [propsGet_eq_none hno, if_pos ⟨h, rfl⟩] at hget
  cases hget

theorem keys_subset_propsSet (t : Props) (key value : List UInt8) :
    ∀ k ∈ t.keys, k ∈ (propsSet t key value).2.keys := by
  intro k hk
  have h : (propsSet t key value).2.keys = _ := keys_set t (key, value)
  rw [h]
  split
  · exact hk
  · exact List.mem_append_left _ hk

/-- The invariant behind the map: the keys that were set are keys of the table. -/
structure Recorded.Holds (s : Recorded) : Prop where
  get_eq : ∀ key, s.table.get key = (s.last (cstring key)).map (·.take 255)
  mem : ∀ key, s.last key ≠ none → key ∈ s.table.abs.keys

namespace Recorded

theorem holds_init : Recorded.init.Holds := ⟨fun _ => rfl, fun _ h => absurd rfl h⟩

theorem Holds.isMap (h : s.Holds) : s.IsMap where
  get_eq := h.get_eq
  keys := ⟨s.table.abs.keys, by rw [length_keys]; exact s.table.abs.length_le, h.mem⟩

/-- What was set last is what is there, after a set of a key that fits. -/
theorem Holds.next (h : s.Holds) (hfit : op.Fits s) : (s.next op).Holds := by
  cases op with
  | init => exact holds_init
  | set key value =>
      obtain ⟨hret, habs⟩ := set_abs s.table key value
      have hfit' : 128 ≤ (cstring key).length → s.table.abs.entries.length = maxProps := by
        rw [entries_length]
        exact hfit
      have hlast : (s.next (.set key value)).last =
          if (s.table.set key value).1 = 0 then
            Function.update s.last (cstring key) (some (cstring value))
          else s.last := rfl
      have htable : (s.next (.set key value)).table = (s.table.set key value).2 := rfl
      refine ⟨fun k => ?_, fun k hk => ?_⟩
      · have hget := h.get_eq k
        rw [get_abs] at hget
        rw [hlast, htable, get_abs, habs, get_set _ hfit', hret]
        by_cases hok : (propsSet s.table.abs (cstring key) (cstring value)).1 = 0
        · rw [if_pos hok]
          by_cases e : cstring k = cstring key
          · rw [if_pos ⟨hok, e⟩, e, Function.update_self, cut_cstring]
            rfl
          · rw [if_neg fun he => e he.2, Function.update_of_ne e, hget]
        · rw [if_neg fun he => hok he.1, if_neg hok, hget]
      · rw [htable, habs]
        rw [hlast, hret] at hk
        by_cases hok : (propsSet s.table.abs (cstring key) (cstring value)).1 = 0
        · rw [if_pos hok] at hk
          by_cases e : k = cstring key
          · rw [e]
            exact mem_keys_propsSet _ hfit' hok
          · rw [Function.update_of_ne e] at hk
            exact keys_subset_propsSet _ _ _ k (h.mem k hk)
        · rw [if_neg hok] at hk
          exact keys_subset_propsSet _ _ _ k (h.mem k hk)

end Recorded

/-- A call does not waste an entry, nor does one that fails change anything. -/
theorem PropOp.frugal (h : ∀ key, s.last key ≠ none → key ∈ s.table.abs.keys) (op : PropOp) :
    op.Frugal s := by
  cases op with
  | init => trivial
  | set key value =>
      refine ⟨fun hlast => ?_, fun hfail => ?_⟩
      · have habs := (set_abs s.table key value).2
        rw [propsSet, if_pos (h _ hlast)] at habs
        have hlen := congrArg (·.entries.length) habs
        rwa [entries_length, length_updateFirst, entries_length] at hlen
      · have hmatch : s.table.set key value = (-1, s.table) ∨ (s.table.set key value).1 = 0 := by
          rw [GProps.set]
          split
          · exact .inr rfl
          · split
            · exact .inl rfl
            · exact .inr rfl
        rcases hmatch with e | e
        · rw [e]
        · rw [e] at hfail
          cases hfail

/-- A key that does not fit and comes to a table with room is not found under its name. -/
theorem PropOp.fits_of_isMap (h' : (s.next op).IsMap) : op.Fits s := by
  cases op with
  | init => trivial
  | set key value =>
      intro hlong
      by_contra hroom
      have hlt : s.table.abs.entries.length < maxProps := by
        have := s.table.length_eq
        rw [entries_length]
        omega
      have hret : (s.table.set key value).1 = 0 := by
        rw [(set_abs s.table key value).1, propsSet_ret, if_pos (.inr hlt)]
      have hnone : (s.next (.set key value)).table.get key = none := by
        rw [get_abs, propsGet_eq_none, Option.map_none]
        intro hk
        exact absurd (key_length _ _ hk) (Nat.not_lt.mpr hlong)
      have hget := h'.get_eq key
      have hlast : (s.next (.set key value)).last (cstring key) = some (cstring value) := by
        simp only [Recorded.next, hret, if_true, Function.update_self]
      rw [hnone, hlast] at hget
      cases hget

/-! ### The table as a map -/

/-- **The property table is the map of what was set**, along a run of `props_init` and `props_set`,
exactly when every key of 128 bytes or more in the run comes to a full table. -/
theorem table_map_iff (ops : List PropOp) :
    ((∀ s, Passes PropStep .init ops s → s.IsMap) ∧
        ∀ s op s', Takes PropStep .init ops s op s' → op.Frugal s) ↔
      ∀ s op s', Takes PropStep .init ops s op s' → op.Fits s := by
  constructor
  · rintro ⟨hmap, -⟩ s op s' ht
    have h' := hmap s' ht.target
    rw [← show s.next op = s' from ht.rel] at h'
    exact PropOp.fits_of_isMap h'
  · intro hfit
    have holds : ∀ s, Passes PropStep .init ops s → s.Holds := fun s hs =>
      hs.induction Recorded.holds_init fun s op s' ht h => by
        rw [← show s.next op = s' from ht.rel]
        exact h.next (hfit s op s' ht)
    exact ⟨fun s hs => (holds s hs).isMap, fun s op s' ht => op.frugal (holds s ht.source).mem⟩

/-- A key of 128 bytes, set in the empty table and not found. -/
theorem longKey_not_map :
    ¬ ((∀ s, Passes PropStep .init [.set (List.replicate 128 97) (ascii "v")] s → s.IsMap) ∧
      ∀ s op s', Takes PropStep .init [.set (List.replicate 128 97) (ascii "v")] s op s' →
        op.Frugal s) := by
  rintro ⟨hmap, -⟩
  have hrun : Passes PropStep .init [.set (List.replicate 128 97) (ascii "v")]
      (Recorded.init.next (.set (List.replicate 128 97) (ascii "v"))) :=
    ⟨_, [], (List.append_nil _).symm, .one rfl⟩
  have hfit : PropOp.Fits .init (.set (List.replicate 128 97) (ascii "v")) :=
    PropOp.fits_of_isMap (hmap _ hrun)
  have hlong : 128 ≤ (cstring (List.replicate 128 97)).length := by
    rw [cstring_of_not_mem (by simp), List.length_replicate]
  exact absurd (hfit hlong) (by decide)

end

end LumiOS.Container
