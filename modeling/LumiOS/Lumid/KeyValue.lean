import LumiOS.Lumid.KeyBuffer

/-!
# Lumid — KeyValue

What `config_parse_value` reads from a line somebody wrote: a key, `=` and a value, with white space
around each.

The key is copied up to the `=` and trimmed where it lies; the value is first freed of the white space in
front, then cut to the array, then freed of the white space behind.  So the white space behind a value
may be cut, the value is not (`lineValue_padded`).
-/

namespace LumiOS.Lumid

open Support

/-- A key and a value, as a line can say them. -/
structure KeyValue where
  key : CStr 128
  value : CStr maxPathLen
  key_ne_nil : key.bytes ≠ []
  no_equals : 61 ∉ key.bytes
  key_trimmed : Trimmed key.bytes
  value_trimmed : Trimmed value.bytes

/-- The line that says them, with `a` and `b` around the key and `c` and `d` around the value. -/
def KeyValue.line (kv : KeyValue) (a b c d : List UInt8) : List UInt8 :=
  a ++ kv.key.bytes ++ b ++ 61 :: (c ++ kv.value.bytes ++ d)

section

variable {a b c d : List UInt8}

/-- White space holds no `=`. -/
theorem equals_not_mem_blank (h : AllSpace a) : 61 ∉ a := fun hm => absurd (h 61 hm) (by decide)

/-- The first `=` of the line is the one behind the key. -/
theorem KeyValue.breakAt_line (kv : KeyValue) (ha : AllSpace a) (hb : AllSpace b) (c d : List UInt8) :
    breakAt 61 (kv.line a b c d) = some (a ++ kv.key.bytes ++ b, c ++ kv.value.bytes ++ d) := by
  refine breakAt_append _ fun hm => ?_
  rcases List.mem_append.mp hm with hm | hm
  · rcases List.mem_append.mp hm with hm | hm
    · exact equals_not_mem_blank ha hm
    · exact kv.no_equals hm
  · exact equals_not_mem_blank hb hm

/-- White space around a value is cut, before the value is. -/
theorem lineValue_padded {s : List UInt8} (hs : Trimmed s) (hc : AllSpace c) (hd : AllSpace d)
    (hlen : s.length < maxPathLen) : lineValue (c ++ s ++ d) = s := by
  obtain ⟨d', hleft, hd'⟩ := hs.trimLeft_padded hc hd
  have hle : s.length ≤ maxPathLen - 1 := Nat.le_sub_one_of_lt hlen
  rw [lineValue, hleft, List.take_append, List.take_of_length_le hle,
    trimRight_append s fun x hx => hd' x (List.mem_of_mem_take hx)]
  exact hs.trimRight_eq

/-- The line is a string. -/
theorem KeyValue.nul_not_mem_line (kv : KeyValue) (ha : AllSpace a) (hb : AllSpace b) (hc : AllSpace c)
    (hd : AllSpace d) : 0 ∉ kv.line a b c d := by
  have hblank : ∀ {s : List UInt8}, AllSpace s → 0 ∉ s := fun h hm => absurd (h 0 hm) (by decide)
  simp only [KeyValue.line, List.mem_append, List.mem_cons, not_or]
  exact ⟨⟨⟨hblank ha, kv.key.nul_free⟩, hblank hb⟩, by decide,
    ⟨hblank hc, kv.value.nul_free⟩, hblank hd⟩

end

/-- **A padded line gives its key and its value.**  The line is a string in memory, with anything
behind its NUL; no store leaves an array, and the arrays hold the two strings whatever they held. -/
theorem configParseValue_line (kv : KeyValue) {a b c d : List UInt8} (ha : AllSpace a) (hb : AllSpace b)
    (hc : AllSpace c) (hd : AllSpace d) (hlen : a.length + kv.key.bytes.length + b.length < 128)
    (behind : List UInt8) (mem mem' : Nat → UInt8) :
    let line := cstring (kv.line a b c d ++ 0 :: behind)
    (configParseValue line maxPathLen).map Prod.snd = some (kv.key.bytes, kv.value.bytes) ∧
      (∀ p ∈ (configParseValueStores line maxPathLen).1, p.1 < 128) ∧
      (∀ p ∈ (configParseValueStores line maxPathLen).2, p.1 < maxPathLen) ∧
      Holds (storeAll mem (configParseValueStores line maxPathLen).1) kv.key.bytes ∧
      Holds (storeAll mem' (configParseValueStores line maxPathLen).2) kv.value.bytes := by
  intro line
  have hline : line = kv.line a b c d :=
    cstring_append_nul (kv.nul_not_mem_line ha hb hc hd) behind
  have hbreak := kv.breakAt_line ha hb c d
  have hbefore : (a ++ kv.key.bytes ++ b).length < 128 := by
    rwa [List.length_append, List.length_append]
  -- the key is not cut, as it and the white space around it fit
  have hkeep : ¬ maxPathLen ≤ (a ++ kv.key.bytes ++ b).length :=
    Nat.not_le.mpr (hbefore.trans (by decide))
  have hparse : configParseValue line maxPathLen =
      some ((a ++ kv.key.bytes ++ b).length, kv.key.bytes, kv.value.bytes) := by
    rw [hline, configParseValue, hbreak]
    simp only [if_neg hkeep, List.take_length]
    rw [kv.key_trimmed.trim_padded ha hb]
    have hvalue := lineValue_padded kv.value_trimmed hc hd kv.value.length_lt
    rw [lineValue] at hvalue
    rw [hvalue]
  have hfits : KeyFits line := by
    intro before after h
    rw [hline, hbreak] at h
    cases h
    exact hbefore
  obtain ⟨hkey, hvalue⟩ := (callFits_iff line).mpr hfits
  obtain ⟨hheldKey, hheldValue⟩ := configParseValue_stores hparse mem mem'
  exact ⟨by rw [hparse]; rfl, hkey, hvalue, hheldKey, hheldValue⟩

/-- `PATH` and a value that holds an `=` of its own. -/
def pathPair : KeyValue where
  key := .lit "PATH" (by decide)
  value := .lit "/bin:x=y z" (by decide)
  key_ne_nil := by decide
  no_equals := by decide
  key_trimmed := by decide +kernel
  value_trimmed := by decide +kernel

theorem configParseValue_line_path :
    let line := cstring (pathPair.line [32] [9, 32] [32] [13, 10] ++ [0, 61])
    (configParseValue line maxPathLen).map Prod.snd =
        some (pathPair.key.bytes, pathPair.value.bytes) ∧
      (∀ p ∈ (configParseValueStores line maxPathLen).1, p.1 < 128) ∧
      (∀ p ∈ (configParseValueStores line maxPathLen).2, p.1 < maxPathLen) ∧
      Holds (storeAll (fun _ => 255) (configParseValueStores line maxPathLen).1)
        pathPair.key.bytes ∧
      Holds (storeAll (fun _ => 255) (configParseValueStores line maxPathLen).2)
        pathPair.value.bytes :=
  configParseValue_line pathPair (by decide +kernel) (by decide +kernel) (by decide +kernel)
    (by decide +kernel) (by decide) [61] (fun _ => 255) (fun _ => 255)

end LumiOS.Lumid
