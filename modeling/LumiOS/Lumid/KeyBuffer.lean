import LumiOS.Support.Stores
import LumiOS.Lumid.Config

/-!
# Lumid — KeyBuffer

What `config_parse_value` stores into its two arrays, of which it is told one size.

The key goes into a `char key[128]`, under the size of `value`, 256: every index is in bounds exactly when
no line of the file has its first `=` behind 128 bytes or more (`stores_fit_iff`).  The stores are those
of the strings `configParseValue` returns (`configParseValue_stores`), and the parser of `Config.lean`
has a result for the same files (`configLoop_isSome_iff`).
-/

namespace LumiOS.Lumid

open Support

/-! ### The stores -/

/-- `strncpy(dst, src, n)`: the string, and zeroes up to `n` bytes. -/
def strncpyStores (src : List UInt8) (n : Nat) : List Store :=
  storesAt 0 (src.take n ++ List.replicate (n - src.length) 0)

/-- The NUL `trim` puts behind the text, if there is any. -/
def trimStores (s : List UInt8) : List Store :=
  if trimLeft s = [] then [] else [((s.takeWhile isSpace).length + (trim s).length, 0)]

/-- `memmove(key, k, strlen(k) + 1)`, when `trim` has skipped something. -/
def memmoveStores (s : List UInt8) : List Store :=
  if (s.takeWhile isSpace).length ≠ 0 then storesAt 0 (trim s ++ [0]) else []

/-- The loop that cuts white space off the end of the value, from the last byte on. -/
def eraseStores (s : List UInt8) : List Store :=
  (List.range (s.length - (trimRight s).length)).map fun j => (s.length - 1 - j, 0)

/-- What is stored into `key`, of which `keyLen` bytes of the line are taken. -/
def keyStores (line : List UInt8) (keyLen : Nat) : List Store :=
  let key := line.take keyLen
  strncpyStores line keyLen ++ [(keyLen, 0)] ++ trimStores key ++ memmoveStores key

/-- What is stored into `value`, for the text from `v` on. -/
def valueStores (v : List UInt8) (max : Nat) : List Store :=
  strncpyStores v (max - 1) ++ [(max - 1, 0)] ++ eraseStores (v.take (max - 1))

/-- The stores of `config_parse_value`, into `key` and into `value`. -/
def configParseValueStores (line : List UInt8) (max : Nat) : List Store × List Store :=
  match breakAt 61 line with
  | none => ([], [])
  | some (before, after) =>
    (keyStores line (if max ≤ before.length then max - 1 else before.length),
      valueStores (trimLeft after) max)

/-- The lines of a file `config_parse_value` is called with. -/
def parsedLines (text : List UInt8) : List (List UInt8) :=
  ((pieces (maxLineLen - 1) text).map fun piece => trim (cstring piece)).filter fun l =>
    ¬ (l = [] ∨ l.head? = some 35 ∨ l.head? = some 59 ∨ l.head? = some 91)

/-- No call for a file with this text stores outside `char key[128]` or `char value[256]`. -/
def StoresFit (text : List UInt8) : Prop :=
  ∀ l ∈ parsedLines text, (∀ p ∈ (configParseValueStores l maxPathLen).1, p.1 < 128) ∧
    ∀ p ∈ (configParseValueStores l maxPathLen).2, p.1 < maxPathLen

/-- The key of a line, up to its `=`, has room for its NUL in `char key[128]`. -/
def KeyFits (l : List UInt8) : Prop :=
  ∀ before after, breakAt 61 l = some (before, after) → before.length < 128

section

variable {l s before after text : List UInt8} {max n : Nat} {p : Store}

/-! ### Their indices -/

theorem strncpyStores_lt (h : p ∈ strncpyStores s n) : p.1 < n := by
  have hlt := (mem_storesAt h).2
  rw [List.length_append, List.length_take, List.length_replicate] at hlt
  omega

theorem length_trim (s : List UInt8) : (s.takeWhile isSpace).length + (trim s).length ≤ s.length := by
  have hsplit := congrArg List.length (List.takeWhile_append_dropWhile (p := isSpace) (l := s))
  rw [List.length_append] at hsplit
  rw [← hsplit]
  exact Nat.add_le_add_left (List.rdropWhile_prefix _ _).length_le _

theorem trimStores_le (h : p ∈ trimStores s) : p.1 ≤ s.length := by
  rw [trimStores] at h
  split at h
  · cases h
  · rw [List.mem_singleton.mp h]
    exact length_trim s

theorem memmoveStores_le (h : p ∈ memmoveStores s) : p.1 ≤ s.length := by
  rw [memmoveStores] at h
  split at h
  · have hlt := (mem_storesAt h).2
    have hle := length_trim s
    rw [List.length_append, List.length_singleton] at hlt
    omega
  · cases h

theorem eraseStores_lt (h : p ∈ eraseStores s) : p.1 < s.length := by
  obtain ⟨j, hj, rfl⟩ := List.mem_map.mp h
  have := List.mem_range.mp hj
  show s.length - 1 - j < s.length
  omega

/-- The key reaches to the index of its NUL. -/
theorem keyStores_iff {keyLen bound : Nat} :
    (∀ p ∈ keyStores l keyLen, p.1 < bound) ↔ keyLen < bound := by
  have hlen : (l.take keyLen).length ≤ keyLen := List.length_take_le _ _
  constructor
  · intro h
    exact h (keyLen, 0) (by simp [keyStores])
  · intro hlt p hp
    rcases List.mem_append.mp hp with hp | hp
    · rcases List.mem_append.mp hp with hp | hp
      · rcases List.mem_append.mp hp with hp | hp
        · exact (strncpyStores_lt hp).trans hlt
        · rw [List.mem_singleton.mp hp]
          exact hlt
      · exact ((trimStores_le hp).trans hlen).trans_lt hlt
    · exact ((memmoveStores_le hp).trans hlen).trans_lt hlt

/-- The value stays in its array. -/
theorem valueStores_lt {v : List UInt8} (hmax : 0 < max) (h : p ∈ valueStores v max) :
    p.1 < max := by
  rcases List.mem_append.mp h with h | h
  · rcases List.mem_append.mp h with h | h
    · exact (strncpyStores_lt h).trans_le (Nat.sub_le _ _)
    · rw [List.mem_singleton.mp h]
      exact Nat.sub_lt hmax Nat.one_pos
  · exact (eraseStores_lt h).trans_le ((List.length_take_le _ _).trans (Nat.sub_le _ _))

/-- One call. -/
theorem callFits_iff (l : List UInt8) :
    ((∀ p ∈ (configParseValueStores l maxPathLen).1, p.1 < 128) ∧
      ∀ p ∈ (configParseValueStores l maxPathLen).2, p.1 < maxPathLen) ↔ KeyFits l := by
  rw [configParseValueStores, KeyFits]
  cases hb : breakAt 61 l with
  | none =>
      constructor
      · intro _ before after h
        cases h
      · refine fun _ => ⟨fun p hp => ?_, fun p hp => ?_⟩
        · cases hp
        · cases hp
  | some q =>
      have hvalue : ∀ p ∈ valueStores (trimLeft q.2) maxPathLen, p.1 < maxPathLen :=
        fun p => valueStores_lt (by decide)
      simp only [keyStores_iff]
      rw [and_iff_left hvalue]
      constructor
      · intro h before after he
        cases he
        split at h
        · exact absurd h (by decide)
        · exact h
      · intro h
        have hlt := h q.1 q.2 rfl
        rw [if_neg (Nat.not_le.mpr (hlt.trans (by decide)))]
        exact hlt

theorem storesFit_iff (text : List UInt8) : StoresFit text ↔ ∀ l ∈ parsedLines text, KeyFits l :=
  forall₂_congr fun l _ => callFits_iff l

/-! ### Their strings -/

/-- `strncpy`, and the NUL behind its `n` bytes. -/
theorem holds_strncpy (mem : Nat → UInt8) (s : List UInt8) (n : Nat) :
    Holds (storeAll mem (strncpyStores s n ++ [(n, 0)])) (s.take n) := by
  let padded := s.take n ++ List.replicate (n - s.length) 0
  have hlen : padded.length = n := by
    rw [List.length_append, List.length_take, List.length_replicate]
    omega
  have hstores : strncpyStores s n ++ [(n, 0)] = storesAt 0 (padded ++ [0]) := by
    rw [storesAt_append, Nat.zero_add, hlen]
    rfl
  rw [hstores]
  exact (holds_storesAt mem padded).of_zeroes

/-- The loop at the end of the value. -/
theorem holds_erase {mem : Nat → UInt8} (h : Holds mem s) :
    Holds (storeAll mem (eraseStores s)) (trimRight s) := by
  have hprefix : trimRight s <+: s := List.rdropWhile_prefix _ _
  have hle := hprefix.length_le
  constructor
  · -- what is left of the string is not touched
    intro i hi
    rw [storeAll_of_ne fun p hp => ?_, h.byte i (hi.trans_le hle), hprefix.getElem hi]
    obtain ⟨j, hj, rfl⟩ := List.mem_map.mp hp
    have hj := List.mem_range.mp hj
    show s.length - 1 - j ≠ i
    omega
  · refine storeAll_zero (fun p hp => ?_) ?_
    · obtain ⟨j, -, rfl⟩ := List.mem_map.mp hp
      rfl
    · by_cases hall : (trimRight s).length = s.length
      · exact .inl (hall ▸ h.nul)
      · refine .inr ⟨_, List.mem_map.mpr ⟨s.length - 1 - (trimRight s).length, ?_, rfl⟩, ?_⟩
        · rw [List.mem_range]
          omega
        · show s.length - 1 - (s.length - 1 - (trimRight s).length) = (trimRight s).length
          omega

/-- `trim`, and `memmove` to the start of the array. -/
theorem holds_trim {mem : Nat → UInt8} (h : Holds mem s) :
    Holds (storeAll mem (trimStores s ++ memmoveStores s)) (trim s) := by
  rw [storeAll_append, memmoveStores]
  by_cases hlead : (s.takeWhile isSpace).length ≠ 0
  · rw [if_pos hlead]
    exact holds_storesAt _ _
  · rw [if_neg hlead]
    have hnil : s.takeWhile isSpace = [] := List.eq_nil_of_length_eq_zero (not_not.mp hlead)
    have hleft : trimLeft s = s := by
      conv_rhs => rw [← List.takeWhile_append_dropWhile (p := isSpace) (l := s), hnil]
      rfl
    have htrim : trim s <+: s := by
      rw [trim, hleft]
      exact List.rdropWhile_prefix _ _
    rw [trimStores, hleft, hnil]
    split
    · rename_i hs
      rw [hs] at h ⊢
      exact h
    · rw [List.length_nil, Nat.zero_add]
      exact h.cut htrim

/-- **The stores leave the strings that the parser goes on with.** -/
theorem configParseValue_stores {keyLen : Nat} {key value : List UInt8}
    (h : configParseValue l max = some (keyLen, key, value)) (mem mem' : Nat → UInt8) :
    Holds (storeAll mem (configParseValueStores l max).1) key ∧
      Holds (storeAll mem' (configParseValueStores l max).2) value := by
  rw [configParseValue] at h
  rw [configParseValueStores]
  cases hb : breakAt 61 l with
  | none =>
      rw [hb] at h
      cases h
  | some q =>
      rw [hb] at h
      cases h
      have hl := (eq_of_breakAt hb).1
      show Holds (storeAll mem (keyStores l
          (if max ≤ q.1.length then max - 1 else q.1.length))) _ ∧
        Holds (storeAll mem' (valueStores (trimLeft q.2) max)) _
      generalize hk : (if max ≤ q.1.length then max - 1 else q.1.length) = k
      have hle : k ≤ q.1.length := by
        split at hk
        · omega
        · exact Nat.le_of_eq hk.symm
      have htake : l.take k = q.1.take k := by rw [hl, List.take_append_of_le_length hle]
      have hkey := holds_trim (holds_strncpy mem l k)
      rw [← storeAll_append, htake, ← List.append_assoc] at hkey
      have hvalue := holds_erase (holds_strncpy mem' (trimLeft q.2) (max - 1))
      rw [← storeAll_append] at hvalue
      refine ⟨?_, hvalue⟩
      show Holds (storeAll mem (strncpyStores l k ++ [(k, 0)] ++ trimStores (l.take k) ++
        memmoveStores (l.take k))) _
      rw [htake]
      exact hkey

/-! ### The parser -/

/-- A line has a result exactly when the call it makes, if it makes one, fits. -/
theorem configLine_isSome_iff (st : ConfigState) (l : List UInt8) :
    (configLine st l).isSome = true ↔
      (¬ (l = [] ∨ l.head? = some 35 ∨ l.head? = some 59 ∨ l.head? = some 91) → KeyFits l) := by
  by_cases hskip : l = [] ∨ l.head? = some 35 ∨ l.head? = some 59
  · rw [configLine, if_pos hskip]
    refine iff_of_true rfl fun h => absurd ?_ h
    exact hskip.imp id (Or.imp id .inl)
  by_cases hsect : l.head? = some 91
  · rw [configLine, if_neg hskip, if_pos hsect]
    refine iff_of_true ?_ fun h => absurd (.inr (.inr (.inr hsect))) h
    cases breakAt 93 l with
    | none => rfl
    | some q => rfl
  have hpair : ¬ (l = [] ∨ l.head? = some 35 ∨ l.head? = some 59 ∨ l.head? = some 91) := by
    rintro (h | h | h | h)
    · exact hskip (.inl h)
    · exact hskip (.inr (.inl h))
    · exact hskip (.inr (.inr h))
    · exact hsect h
  rw [configLine, if_neg hskip, if_neg hsect, configParseValue, forall_prop_of_true hpair, KeyFits]
  cases hb : breakAt 61 l with
  | none => exact iff_of_true rfl fun before after h => by cases h
  | some q =>
      have hiff : (if maxPathLen ≤ q.1.length then maxPathLen - 1 else q.1.length) < 128 ↔
          q.1.length < 128 := by
        split
        · rename_i h
          exact iff_of_false (by decide) (Nat.not_lt.mpr (le_trans (by decide) h))
        · exact Iff.rfl
      simp only [hiff]
      constructor
      · intro h before after he
        cases he
        by_contra hlt
        rw [if_neg hlt] at h
        cases h
      · intro h
        rw [if_pos (h q.1 q.2 rfl)]
        rfl

/-- **The parser has a result exactly when every store is in bounds.** -/
theorem configLoop_isSome_iff (text : List UInt8) (svc : ServiceFile) :
    (configLoop text svc).isSome = true ↔ StoresFit text := by
  have hmem : (∀ l ∈ parsedLines text, KeyFits l) ↔ ∀ piece ∈ pieces (maxLineLen - 1) text,
      ¬ (trim (cstring piece) = [] ∨ (trim (cstring piece)).head? = some 35 ∨
        (trim (cstring piece)).head? = some 59 ∨ (trim (cstring piece)).head? = some 91) →
      KeyFits (trim (cstring piece)) := by
    simp only [parsedLines, List.mem_filter, decide_eq_true_iff, and_imp, List.forall_mem_map]
  rw [storesFit_iff, hmem, configLoop]
  generalize (⟨.zero CStr.pos_64, svc⟩ : ConfigState) = st
  induction pieces (maxLineLen - 1) text generalizing st with
  | nil => exact iff_of_true rfl fun piece hp => by cases hp
  | cons piece ps ih =>
      rw [List.foldlM_cons, configPiece, List.forall_mem_cons, ← configLine_isSome_iff st]
      cases configLine st (trim (cstring piece)) with
      | none => exact iff_of_false Bool.false_ne_true fun h => Bool.false_ne_true h.1
      | some st' => exact (ih st').trans (and_iff_right rfl).symm

end

/-- **Every store is in bounds exactly when no line has its first `=` behind 128 bytes or more.** -/
theorem stores_fit_iff (text : List UInt8) : StoresFit text ↔ ∀ l ∈ parsedLines text, KeyFits l :=
  storesFit_iff text

/-- A line of 128 letters and a `=`. -/
def longKey : List UInt8 := List.replicate 128 97 ++ [61]

/-- The NUL of its key goes behind the array. -/
theorem stores_fit_long : ¬ StoresFit longKey := by
  intro h
  have hline : longKey ∈ parsedLines longKey := by decide +kernel
  have hb : breakAt 61 longKey = some (List.replicate 128 97, []) :=
    breakAt_append [] fun hm => by cases List.eq_of_mem_replicate hm
  have hlt := (storesFit_iff _).mp h _ hline _ _ hb
  rw [List.length_replicate] at hlt
  exact absurd hlt (by decide)

end LumiOS.Lumid
