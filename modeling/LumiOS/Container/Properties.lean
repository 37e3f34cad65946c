import LumiOS.Support.Text

/-!
# Container — Properties

The property table of the Android container, `properties.c`.  What a set does to the keys of a table
depends on its keys alone (`keys_set`); so two tables with the same keys agree on a key once both were
given a value for it (`agree_set`), and from then on (`Agree.set`).
-/

namespace LumiOS.Container

open Support

def maxProps : Nat := 256

structure Property where
  key : CStr 128
  value : CStr 256
deriving DecidableEq, Repr

/-- `g_props`, up to `g_prop_count`. -/
structure Props where
  entries : List Property
  length_le : entries.length ≤ maxProps
deriving DecidableEq, Repr

/-- As `props_init` leaves it. -/
def propsInit : Props := ⟨[], Nat.zero_le _⟩

def Props.keys (t : Props) : List (List UInt8) := t.entries.map (·.key.bytes)

/-- The loop of `props_set`, which updates the first entry with the key. -/
def updateFirst (key value : List UInt8) : List Property → List Property
  | [] => []
  | e :: es =>
    if e.key.bytes = key then { e with value := .cut CStr.pos_256 value } :: es
    else e :: updateFirst key value es

theorem map_key_updateFirst (key value : List UInt8) (es : List Property) :
    (updateFirst key value es).map (·.key.bytes) = es.map (·.key.bytes) := by
  induction es with
  | nil => rfl
  | cons e es ih =>
      rw [updateFirst]
      split
      · rfl
      · rw [List.map_cons, List.map_cons, ih]

theorem length_updateFirst (key value : List UInt8) (es : List Property) :
    (updateFirst key value es).length = es.length := by
  simpa using congrArg List.length (map_key_updateFirst key value es)

def propsSet (t : Props) (key value : List UInt8) : Int × Props :=
  if key ∈ t.keys then
    (0, ⟨updateFirst key value t.entries, (length_updateFirst key value t.entries).trans_le t.length_le⟩)
  else if h : maxProps ≤ t.entries.length then (-1, t)
  else
    (0, { entries := t.entries ++ [⟨.cut CStr.pos_128 key, .cut CStr.pos_256 value⟩]
          length_le := by
            rw [List.length_append]
            exact Nat.not_le.mp h })

def propsGet (t : Props) (key : List UInt8) : Option (CStr 256) :=
  (t.entries.find? (·.key.bytes = key)).map (·.value)

/-! ### Loading -/

/-- The properties `props_load_defaults` sets first. -/
def defaults : List (List UInt8 × List UInt8) :=
  [(ascii "ro.build.display.id", ascii "LumiOS-Android-14"),
    (ascii "ro.build.version.sdk", ascii "34"),
    (ascii "ro.build.version.release", ascii "14"),
    (ascii "ro.build.version.security_patch", ascii "2026-02-01"),
    (ascii "ro.build.type", ascii "userdebug"),
    (ascii "ro.build.host", ascii "lumios-build"),
    (ascii "ro.product.model", ascii "LumiOS Device"),
    (ascii "ro.product.brand", ascii "LumiOS"),
    (ascii "ro.product.name", ascii "lumios"),
    (ascii "ro.product.device", ascii "generic_arm64"),
    (ascii "ro.product.manufacturer", ascii "LumiOS Project"),
    (ascii "ro.product.cpu.abilist", ascii "arm64-v8a"),
    (ascii "ro.product.cpu.abilist64", ascii "arm64-v8a"),
    (ascii "ro.hardware", ascii "generic_arm64"),
    (ascii "ro.board.platform", ascii "lumios"),
    (ascii "ro.debuggable", ascii "1"),
    (ascii "ro.secure", ascii "0"),
    (ascii "ro.sf.lcd_density", ascii "440"),
    (ascii "persist.sys.timezone", ascii "Asia/Shanghai"),
    (ascii "persist.sys.language", ascii "zh"),
    (ascii "persist.sys.country", ascii "CN"),
    (ascii "dalvik.vm.heapsize", ascii "512m"),
    (ascii "dalvik.vm.heapgrowthlimit", ascii "256m"),
    (ascii "dalvik.vm.heapminfree", ascii "8m"),
    (ascii "dalvik.vm.heapmaxfree", ascii "32m")]

/-- `props_set` whose answer is not looked at. -/
def Props.set (t : Props) (kv : List UInt8 × List UInt8) : Props := (propsSet t kv.1 kv.2).2

/-- A blank or a tab. -/
def isBlank (c : UInt8) : Bool := c = 32 ∨ c = 9

/-- What the loop of `props_load_defaults` takes from a line, if it does not skip it. -/
def parsePropsLine (line : List UInt8) : Option (List UInt8 × List UInt8) :=
  if line.head? = some 35 ∨ line.head? = some newline ∨ line = [] then none
  else
    match breakAt 61 line with
    | none => none
    | some (key, val) =>
      some ((key.dropWhile isBlank).rdropWhile isBlank, val.takeWhile fun c => c ≠ 10 ∧ c ≠ 13)

/-- The loop, for one call of `fgets`. -/
def propsPiece (t : Props) (piece : List UInt8) : Props :=
  match parsePropsLine (cstring piece) with
  | none => t
  | some kv => t.set kv

/-- `char line[512]`. -/
def propsLineSize : Nat := 512

/-- `props_load_defaults`, with the text of the property file if there is one. -/
def propsLoadDefaults (file : Option (List UInt8)) (t : Props) : Int × Props :=
  let t := defaults.foldl Props.set t
  match file with
  | none => (0, t)
  | some text => (0, (pieces (propsLineSize - 1) text).foldl propsPiece t)

/-! ### The table under sets -/

section

variable {t u : Props} {kv : List UInt8 × List UInt8} {key value : List UInt8}

theorem keys_set (t : Props) (kv : List UInt8 × List UInt8) : (t.set kv).keys =
    if kv.1 ∈ t.keys ∨ maxProps ≤ t.entries.length then t.keys
    else t.keys ++ [(CStr.cut (by decide) kv.1 : CStr 128).bytes] := by
  by_cases hk : kv.1 ∈ t.keys
  · rw [if_pos (.inl hk), Props.set, propsSet, if_pos hk]
    exact map_key_updateFirst kv.1 kv.2 t.entries
  · rw [Props.set, propsSet, if_neg hk]
    split
    · rename_i hlen
      rw [if_pos (.inr hlen)]
    · rename_i hlen
      rw [if_neg (not_or.mpr ⟨hk, hlen⟩)]
      exact List.map_append

theorem length_keys (t : Props) : t.keys.length = t.entries.length := List.length_map _

theorem length_set_le (t : Props) (kv : List UInt8 × List UInt8) :
    t.keys.length ≤ (t.set kv).keys.length := by
  rw [keys_set]
  split
  · exact Nat.le_refl _
  · rw [List.length_append]
    exact Nat.le_add_right _ _

theorem length_foldl_set_le (kvs : List (List UInt8 × List UInt8)) (t : Props) :
    t.keys.length ≤ (kvs.foldl Props.set t).keys.length := by
  induction kvs generalizing t with
  | nil => exact Nat.le_refl _
  | cons kv kvs ih => exact (length_set_le t kv).trans (ih _)

/-- A table with room that did not grow had the keys it was given. -/
theorem mem_keys_of_length (kvs : List (List UInt8 × List UInt8)) (t : Props)
    (hroom : t.keys.length < maxProps) (h : (kvs.foldl Props.set t).keys.length = t.keys.length) :
    ∀ kv ∈ kvs, kv.1 ∈ t.keys := by
  induction kvs generalizing t with
  | nil =>
      intro _ hkv
      cases hkv
  | cons kv kvs ih =>
      have hle := length_foldl_set_le kvs (t.set kv)
      have hlen : (t.set kv).keys.length = t.keys.length :=
        Nat.le_antisymm (hle.trans (Nat.le_of_eq h)) (length_set_le t kv)
      have hkeys : kv.1 ∈ t.keys ∧ (t.set kv).keys = t.keys := by
        rw [keys_set] at hlen ⊢
        split at hlen
        · rename_i hc
          rw [if_pos hc]
          exact ⟨hc.resolve_right fun hm => absurd (length_keys t ▸ hroom) (Nat.not_lt.mpr hm), rfl⟩
        · rw [List.length_append] at hlen
          exact absurd hlen (Nat.succ_ne_self _)
      intro kv' hkv'
      rcases List.mem_cons.mp hkv' with rfl | hkv'
      · exact hkeys.1
      · rw [← hkeys.2] at hroom ⊢
        exact ih (t.set kv) hroom (h.trans (congrArg List.length hkeys.2).symm) kv' hkv'

/-- New keys that fit, with room for all: they stand in the table as they are given. -/
theorem entries_foldl_set : ∀ (kvs : List (List UInt8 × List UInt8)) (t : Props),
    (∀ kv ∈ kvs, kv.1 ∉ t.keys ∧ (CStr.cut (by decide) kv.1 : CStr 128).bytes = kv.1) →
    (kvs.map (·.1)).Nodup → t.entries.length + kvs.length ≤ maxProps →
    (kvs.foldl Props.set t).entries =
      t.entries ++ kvs.map fun kv => ⟨.cut (by decide) kv.1, .cut (by decide) kv.2⟩ := by
  intro kvs
  induction kvs with
  | nil =>
      intro t _ _ _
      rw [List.foldl_nil, List.map_nil, List.append_nil]
  | cons kv kvs ih =>
      intro t hnew hnodup hroom
      obtain ⟨hkv, hcut⟩ := hnew kv List.mem_cons_self
      rw [List.length_cons] at hroom
      have hset : (t.set kv).entries =
          t.entries ++ [⟨.cut (by decide) kv.1, .cut (by decide) kv.2⟩] := by
        rw [Props.set, propsSet, if_neg hkv, dif_neg (by omega)]
      have hkeys : (t.set kv).keys = t.keys ++ [kv.1] := by
        rw [Props.keys, hset, List.map_append, List.map_singleton, hcut]
        rfl
      rw [List.map_cons, List.nodup_cons] at hnodup
      rw [List.foldl_cons, ih (t.set kv) ?_ hnodup.2 ?_, hset, List.append_assoc]
      · rfl
      · intro kv' hkv'
        obtain ⟨hnew', hcut'⟩ := hnew kv' (List.mem_cons_of_mem kv hkv')
        refine ⟨?_, hcut'⟩
        rw [hkeys, List.mem_append, List.mem_singleton, not_or]
        exact ⟨hnew', fun e => hnodup.1 (e ▸ List.mem_map_of_mem hkv')⟩
      · rw [hset, List.length_append, List.length_singleton]
        omega

/-! ### Tables that agree -/

theorem get_updateFirst (es : List Property) (h : key ∈ es.map (·.key.bytes)) :
    ((updateFirst key value es).find? (·.key.bytes = key)).map (·.value) =
      some (.cut (by decide) value) := by
  induction es with
  | nil => cases h
  | cons e es ih =>
      rw [updateFirst]
      split
      · rename_i he
        simp [he]
      · rename_i he
        rw [List.find?_cons_of_neg (by simpa using he)]
        exact ih ((List.mem_cons.mp h).resolve_left (Ne.symm he))

theorem get_updateFirst_of_ne {key' : List UInt8} (hne : key' ≠ key) (es : List Property) :
    ((updateFirst key value es).find? (·.key.bytes = key')).map (·.value) =
      (es.find? (·.key.bytes = key')).map (·.value) := by
  induction es with
  | nil => rfl
  | cons e es ih =>
      rw [updateFirst]
      split
      · rename_i he
        have he' : ¬ e.key.bytes = key' := fun e' => hne (e'.symm.trans he)
        rw [List.find?_cons_of_neg (by simpa using he'), List.find?_cons_of_neg (by simpa using he')]
      · by_cases he' : e.key.bytes = key'
        · rw [List.find?_cons_of_pos (by simpa using he'), List.find?_cons_of_pos (by simpa using he')]
        · rw [List.find?_cons_of_neg (by simpa using he'), List.find?_cons_of_neg (by simpa using he'),
            ih]

theorem propsGet_eq_none (h : key ∉ t.keys) : propsGet t key = none := by
  have hnone : t.entries.find? (·.key.bytes = key) = none :=
    List.find?_eq_none.mpr fun e he => by
      rw [decide_eq_true_iff]
      rintro rfl
      exact h (List.mem_map_of_mem he)
  rw [propsGet, hnone, Option.map_none]

/-- Two tables with the same keys and the same value for this one. -/
structure Agree (key : List UInt8) (t u : Props) : Prop where
  keys : t.keys = u.keys
  get : propsGet t key = propsGet u key

/-- What a set leaves of the value of a key, by the keys of the table alone where it is the key that is
set. -/
theorem propsGet_set (t : Props) (kv : List UInt8 × List UInt8) (key : List UInt8) :
    propsGet (t.set kv) key =
      if kv.1 ∈ t.keys then if key = kv.1 then some (.cut (by decide) kv.2) else propsGet t key
      else if maxProps ≤ t.keys.length then propsGet t key
      else (propsGet t key).or
        (if (CStr.cut (by decide) kv.1 : CStr 128).bytes = key then some (.cut (by decide) kv.2)
          else none) := by
  rw [length_keys, Props.set, propsSet]
  split
  · rename_i hk
    by_cases he : key = kv.1
    · rw [if_pos he, he]
      exact get_updateFirst t.entries hk
    · rw [if_neg he]
      exact get_updateFirst_of_ne he t.entries
  · split
    · rfl
    · simp only [propsGet, List.find?_append]
      cases t.entries.find? (·.key.bytes = key) with
      | some e => rfl
      | none =>
          simp only [List.find?_singleton, decide_eq_true_eq]
          split <;> rfl

/-- **A set makes tables agree.** -/
theorem agree_set (h : t.keys = u.keys) (kv : List UInt8 × List UInt8) :
    Agree kv.1 (t.set kv) (u.set kv) := by
  refine ⟨?_, ?_⟩
  · rw [keys_set, keys_set, h, ← length_keys, ← length_keys, h]
  · rw [propsGet_set, propsGet_set, h]
    split
    · rw [if_pos rfl, if_pos rfl]
    · rename_i hk
      rw [propsGet_eq_none (h ▸ hk), propsGet_eq_none hk]

/-- **Tables that agree go on agreeing.** -/
theorem Agree.set (h : Agree key t u) (kv : List UInt8 × List UInt8) :
    Agree key (t.set kv) (u.set kv) := by
  refine ⟨(agree_set h.keys kv).keys, ?_⟩
  rw [propsGet_set, propsGet_set, h.keys, h.get]

theorem Agree.foldl_set (h : Agree key t u) (kvs : List (List UInt8 × List UInt8)) :
    Agree key (kvs.foldl Props.set t) (kvs.foldl Props.set u) := by
  induction kvs generalizing t u with
  | nil => exact h
  | cons kv kvs ih => exact ih (h.set kv)

/-- Sets of which one is of this key make the tables agree on it. -/
theorem agree_foldl_set {kvs : List (List UInt8 × List UInt8)} (h : t.keys = u.keys) (hkv : kv ∈ kvs) :
    Agree kv.1 (kvs.foldl Props.set t) (kvs.foldl Props.set u) := by
  induction kvs generalizing t u with
  | nil => cases hkv
  | cons kv' kvs ih =>
      rcases List.mem_cons.mp hkv with rfl | hkv
      · exact (agree_set h kv).foldl_set kvs
      · exact ih (agree_set h kv').keys hkv

end

end LumiOS.Container
