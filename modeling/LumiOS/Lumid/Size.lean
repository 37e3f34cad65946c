import LumiOS.Lumid.Config

/-!
# Lumid — Size

The sizes a service file gives its memory limits in, `util_parse_size`.

It stops looking at the byte behind the number, and multiplies what `strtoll` has already cut to a
`long`: `512MB` is read as `512M`, and `16777216T` as nothing.  Its answer is the size that was written
exactly when nothing but a line end follows and the size is a `long` (`parseSize_exact_iff`).
-/

namespace LumiOS.Lumid

open Support

/-! ### util_parse_size -/

/-- `util_parse_size`: what it returns, and `*out`. -/
def utilParseSizeInto (str : Option (List UInt8)) (out : Option Int64) : Int × Option Int64 :=
  match str, out with
  | some str, some out =>
    match utilParseSize (cstring str) with
    | none => (-1, some out)
    | some val => (0, some val)
  | _, _ => (-1, out)

/-- The power of 1024 a suffix stands for. -/
def suffixPower (c : UInt8) : Option Nat :=
  if c = 75 ∨ c = 107 then some 1
  else if c = 77 ∨ c = 109 then some 2
  else if c = 71 ∨ c = 103 then some 3
  else if c = 84 ∨ c = 116 then some 4
  else none

/-! ### The sizes that can be written -/

/-- What may stand at the end of a line. -/
def LineEnd (s : List UInt8) : Prop := s ∈ [[], [10], [13], [13, 10]]

instance (s : List UInt8) : Decidable (LineEnd s) :=
  inferInstanceAs (Decidable (s ∈ [[], [10], [13], [13, 10]]))

/-- The text starts with an integer, which `rest` follows. -/
def IntegerText (s : List UInt8) (x : Int) (rest : List UInt8) : Prop :=
  ∃ neg digits, IsNumeral 10 s neg digits rest ∧
    x = if neg then -(digitsValue 10 digits : Int) else digitsValue 10 digits

/-- The text is a size: an integer, at most one suffix, and a line end. -/
def SizeText (s : List UInt8) (x : Int) : Prop :=
  ∃ i rest, IntegerText s i rest ∧ (LineEnd rest ∧ x = i ∨
    ∃ c tail k, rest = c :: tail ∧ suffixPower c = some k ∧ LineEnd tail ∧ x = i * 1024 ^ k)

/-- A value of `int64_t`. -/
def InRange (x : Int) : Prop := -2 ^ 63 ≤ x ∧ x < 2 ^ 63

/-- The call fails and leaves `*out`, or it returns 0 and stores the size that is written. -/
def SizeParsed (str : List UInt8) (out : Int64) : Prop :=
  utilParseSizeInto (some str) (some out) = (-1, some out) ∨
    ∃ val : Int64, utilParseSizeInto (some str) (some out) = (0, some val) ∧
      SizeText (cstring str) val.toInt

/-- Behind an integer and a suffix, and behind an integer that ends the string or a line, there is
nothing but a line end, and the size is an `int64_t`. -/
def Sizable (s : List UInt8) : Prop :=
  ∀ i rest, IntegerText s i rest →
    (∀ c tail k, rest = c :: tail → suffixPower c = some k → LineEnd tail ∧ InRange (i * 1024 ^ k)) ∧
    ((∀ c ∈ rest.head?, c = 10 ∨ c = 13) → LineEnd rest ∧ InRange i)

section

variable {s rest : List UInt8} {i : Int} {n : Scanned} {val : Int64}

/-- The integer `strtoll` finds is the one the text starts with. -/
theorem integerText_iff : IntegerText s i rest ↔
    ∃ n, scanInteger 10 s = some n ∧ n.value = i ∧ n.rest = rest := by
  constructor
  · rintro ⟨neg, digits, hnum, rfl⟩
    exact ⟨⟨neg, digitsValue 10 digits, rest⟩,
      (scanInteger_eq_some (by decide)).mpr ⟨digits, hnum, rfl⟩, rfl, rfl⟩
  · rintro ⟨n, hn, rfl, rfl⟩
    obtain ⟨digits, hnum, hm⟩ := (scanInteger_eq_some (by decide)).mp hn
    exact ⟨n.neg, digits, hnum, by rw [Scanned.value, hm]⟩

/-- A suffix multiplies by its power of 1024. -/
theorem utilParseSize_suffix {c : UInt8} {tail : List UInt8} {k : Nat}
    (hn : scanInteger 10 s = some n) (hrest : n.rest = c :: tail) (hk : suffixPower c = some k) :
    utilParseSize s = some (n.toLong * Int64.ofInt (1024 ^ k)) := by
  simp only [suffixPower] at hk
  simp only [utilParseSize, hn, hrest, List.head?_cons]
  split at hk
  · rename_i hc
    cases hk
    rw [if_pos hc]
    rfl
  · split at hk
    · rename_i hnk hc
      cases hk
      rw [if_neg hnk, if_pos hc]
      rfl
    · split at hk
      · rename_i hnk hnm hc
        cases hk
        rw [if_neg hnk, if_neg hnm, if_pos hc]
        rfl
      · split at hk
        · rename_i hnk hnm hng hc
          cases hk
          rw [if_neg hnk, if_neg hnm, if_neg hng, if_pos hc]
          rfl
        · cases hk

/-- At the end of the string or of a line there is no suffix. -/
theorem utilParseSize_end (hn : scanInteger 10 s = some n)
    (hend : ∀ c ∈ n.rest.head?, c = 10 ∨ c = 13) : utilParseSize s = some n.toLong := by
  simp only [utilParseSize, hn]
  cases hrest : n.rest with
  | nil => rfl
  | cons c tail =>
      rcases hend c (by rw [hrest]; rfl) with rfl | rfl
      · rfl
      · rfl

theorem utilParseSize_other {c : UInt8} {tail : List UInt8} (hn : scanInteger 10 s = some n)
    (hrest : n.rest = c :: tail) (hk : suffixPower c = none)
    (hc : ¬ (c = 0 ∨ c = 10 ∨ c = 13)) : utilParseSize s = none := by
  simp only [suffixPower] at hk
  simp only [utilParseSize, hn, hrest, List.head?_cons]
  split at hk
  · cases hk
  · split at hk
    · cases hk
    · split at hk
      · cases hk
      · split at hk
        · cases hk
        · rename_i hnk hnm hng hnt
          rw [if_neg hnk, if_neg hnm, if_neg hng, if_neg hnt, if_neg hc]

theorem suffixPower_le {c : UInt8} {k : Nat} (h : suffixPower c = some k) : k ≤ 4 := by
  simp only [suffixPower] at h
  split at h
  · cases h
    decide
  · split at h
    · cases h
      decide
    · split at h
      · cases h
        decide
      · split at h
        · cases h
          decide
        · cases h

/-! ### What is stored -/

/-- A size in range is neither cut nor wrapped. -/
theorem product_toInt {k : Nat} (hk : k ≤ 4) (h : InRange (n.value * 1024 ^ k)) :
    (n.toLong * Int64.ofInt (1024 ^ k)).toInt = n.value * 1024 ^ k := by
  obtain ⟨hlo, hhi⟩ := h
  have hpow : (1024 : Int) ^ k ≤ 1024 ^ 4 := pow_le_pow_right₀ (by decide) hk
  have hone : (1 : Int) ≤ 1024 ^ k := one_le_pow₀ (by decide)
  -- the integer is nearer to 0 than the size
  have hvlo : -2 ^ 63 ≤ n.value := by
    rcases Int.le_total 0 n.value with h0 | h0
    · omega
    · exact hlo.trans (mul_le_of_one_le_right h0 hone)
  have hvhi : n.value < 2 ^ 63 := by
    rcases Int.le_total 0 n.value with h0 | h0
    · exact (le_mul_of_one_le_right h0 hone).trans_lt hhi
    · omega
  have hfactor : (Int64.ofInt (1024 ^ k)).toInt = 1024 ^ k :=
    Int64.toInt_ofInt_of_le (by omega) (by omega)
  rw [Int64.toInt_mul, Scanned.toLong_toInt hvlo hvhi, hfactor]
  exact Int.bmod_eq_of_le (by omega) (by omega)

theorem IntegerText.unique {i' : Int} {rest' : List UInt8} (h : IntegerText s i rest)
    (h' : IntegerText s i' rest') : i = i' ∧ rest = rest' := by
  obtain ⟨n, hn, rfl, rfl⟩ := integerText_iff.mp h
  obtain ⟨n', hn', rfl, rfl⟩ := integerText_iff.mp h'
  cases Option.some.inj (hn.symm.trans hn')
  exact ⟨rfl, rfl⟩

theorem IntegerText.mem {c : UInt8} (h : IntegerText s i rest) (hc : c ∈ rest) : c ∈ s := by
  obtain ⟨neg, digits, hnum, -⟩ := h
  obtain ⟨blank, sign, rfl, -⟩ := hnum.text_eq
  exact List.mem_append_right _ (List.mem_append_right _ (List.mem_append_right _ hc))

theorem lineEnd_head {c : UInt8} (h : LineEnd s) (hc : c ∈ s.head?) : suffixPower c = none := by
  have hc10 : c = 10 ∨ c = 13 := by
    simp only [LineEnd, List.mem_cons, List.not_mem_nil, or_false] at h
    rcases h with rfl | rfl | rfl | rfl
    · cases hc
    · exact .inl (Option.some.inj hc).symm
    · exact .inr (Option.some.inj hc).symm
    · exact .inr (Option.some.inj hc).symm
  rcases hc10 with rfl | rfl
  · rfl
  · rfl

variable {str : List UInt8} {out : Int64}

theorem into_none (h : utilParseSize (cstring str) = none) :
    utilParseSizeInto (some str) (some out) = (-1, some out) := by
  simp only [utilParseSizeInto, h]

theorem into_some (h : utilParseSize (cstring str) = some val) :
    utilParseSizeInto (some str) (some out) = (0, some val) := by
  simp only [utilParseSizeInto, h]

/-- A call that stores `val` meets the specification only with the text of `val`. -/
theorem SizeParsed.text (h : SizeParsed str out) (hval : utilParseSize (cstring str) = some val) :
    SizeText (cstring str) val.toInt := by
  rcases h with h | ⟨val', h, htext⟩
  · rw [into_some hval] at h
    exact absurd (Prod.mk.inj h).1 (by decide)
  · rw [into_some hval] at h
    cases Option.some.inj (Prod.mk.inj h).2
    exact htext

theorem inRange_toInt (x : Int64) : InRange x.toInt := ⟨x.le_toInt, x.toInt_lt⟩

theorem sizable_of_parsed (h : SizeParsed str out) : Sizable (cstring str) := by
  intro i rest hi
  obtain ⟨n, hn, rfl, rfl⟩ := integerText_iff.mp hi
  constructor
  · intro c tail k hrest hk
    obtain ⟨i', rest', hi', ⟨hend, -⟩ | ⟨c', tail', k', hrest', hk', htail, hx⟩⟩ :=
      h.text (utilParseSize_suffix hn hrest hk)
    · obtain ⟨-, rfl⟩ := hi.unique hi'
      rw [lineEnd_head hend (by rw [hrest]; rfl)] at hk
      cases hk
    · obtain ⟨rfl, rfl⟩ := hi.unique hi'
      cases hrest.symm.trans hrest'
      cases Option.some.inj (hk.symm.trans hk')
      exact ⟨htail, hx ▸ inRange_toInt _⟩
  · intro hend
    obtain ⟨i', rest', hi', ⟨hline, hx⟩ | ⟨c', tail', k', hrest', hk', -⟩⟩ :=
      h.text (utilParseSize_end hn hend)
    · obtain ⟨rfl, rfl⟩ := hi.unique hi'
      exact ⟨hline, hx ▸ inRange_toInt _⟩
    · obtain ⟨-, rfl⟩ := hi.unique hi'
      rcases hend c' (by rw [hrest']; rfl) with rfl | rfl
      · cases hk'
      · cases hk'

theorem parsed_of_sizable (h : Sizable (cstring str)) : SizeParsed str out := by
  cases hn : scanInteger 10 (cstring str) with
  | none => exact .inl (into_none (by simp only [utilParseSize, hn]))
  | some n =>
      have hi : IntegerText (cstring str) n.value n.rest := integerText_iff.mpr ⟨n, hn, rfl, rfl⟩
      obtain ⟨hsuffix, hend⟩ := h _ _ hi
      have stops : (∀ c ∈ n.rest.head?, c = 10 ∨ c = 13) → SizeParsed str out := fun hc => by
        obtain ⟨hline, hlo, hhi⟩ := hend hc
        refine .inr ⟨_, into_some (utilParseSize_end hn hc), _, _, hi, .inl ⟨hline, ?_⟩⟩
        exact Scanned.toLong_toInt hlo hhi
      cases hrest : n.rest with
      | nil => exact stops fun c hc => by rw [hrest] at hc; cases hc
      | cons c tail =>
          cases hk : suffixPower c with
          | some k =>
              obtain ⟨htail, hrange⟩ := hsuffix c tail k hrest hk
              refine .inr ⟨_, into_some (utilParseSize_suffix hn hrest hk), _, _, hi,
                .inr ⟨c, tail, k, hrest, hk, htail, ?_⟩⟩
              exact product_toInt (suffixPower_le hk) hrange
          | none =>
              by_cases hc : c = 10 ∨ c = 13
              · exact stops fun d hd => by
                  rw [hrest] at hd
                  cases hd
                  exact hc
              · -- the string has no NUL
                have h0 : c ≠ 0 := by
                  rintro rfl
                  have hmem := hi.mem (hrest ▸ List.mem_cons_self)
                  simpa using List.mem_takeWhile_imp hmem
                exact .inl (into_none (utilParseSize_other hn hrest hk (not_or.mpr ⟨h0, hc⟩)))

/-- **A size is parsed as it is written exactly when a line end follows it and it is an `int64_t`.** -/
theorem parseSize_exact_iff (str : List UInt8) (out : Int64) :
    SizeParsed str out ↔ Sizable (cstring str) :=
  ⟨sizable_of_parsed, parsed_of_sizable⟩

/-- 2²⁴ T are 2⁶⁴ bytes, and read as none. -/
theorem parseSize_wraps :
    utilParseSizeInto (some (ascii "16777216T")) (some (-1)) = (0, some 0) ∧
      ¬ SizeParsed (ascii "16777216T") (-1) := by
  refine ⟨by decide, fun h => ?_⟩
  have hi : IntegerText (cstring (ascii "16777216T")) 16777216 [84] :=
    integerText_iff.mpr ⟨⟨false, 16777216, [84]⟩, by decide, rfl, rfl⟩
  have hlt : (16777216 : Int) * 1024 ^ 4 < 2 ^ 63 :=
    ((sizable_of_parsed h _ _ hi).1 84 [] 4 rfl rfl).2.2
  exact absurd hlt (by decide)

end

end LumiOS.Lumid
