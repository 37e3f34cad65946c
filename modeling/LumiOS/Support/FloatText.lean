import LumiOS.Support.Floats

/-!
# Support — FloatText

A number that `%.2f` wrote, read with `%f`: the number rounded to hundredths (`scanFloat_printFixed2`),
which is at most half a hundredth away (`hundredths_near`).
-/

namespace Support

/-! ### Rounding -/

theorem roundHalfEven_near (q : ℚ) : |(roundHalfEven q : ℚ) - q| ≤ 1 / 2 := by
  have hlow := Int.floor_le q
  have hhigh := Int.lt_floor_add_one q
  rw [abs_le, roundHalfEven]
  split_ifs with h₁ h₂ h₃
  · constructor <;> linarith
  · push_cast
    constructor <;> linarith
  · constructor <;> linarith
  · push_cast
    constructor <;> linarith

theorem roundHalfEven_nonneg {q : ℚ} (h : 0 ≤ q) : 0 ≤ roundHalfEven q := by
  have hfloor : 0 ≤ ⌊q⌋ := Int.floor_nonneg.mpr h
  rw [roundHalfEven]
  split_ifs <;> omega

/-- The hundredths `%.2f` writes, without the sign. -/
def countHundredths (q : ℚ) : Nat := (roundHalfEven (|q| * 100)).toNat

theorem countHundredths_cast (q : ℚ) : (countHundredths q : ℚ) = roundHalfEven (|q| * 100) := by
  have h : 0 ≤ roundHalfEven (|q| * 100) :=
    roundHalfEven_nonneg (mul_nonneg (abs_nonneg q) (by norm_num))
  rw [countHundredths, ← Int.cast_natCast, Int.toNat_of_nonneg h]

/-- The number with these hundredths. -/
def ofHundredths (neg : Bool) (n : Nat) : ℚ := if neg then -((n : ℚ) / 100) else n / 100

theorem abs_ofHundredths (neg : Bool) (n : Nat) : |ofHundredths neg n| * 100 = (n : Int) := by
  have hpos : (0 : ℚ) ≤ n / 100 := by positivity
  have habs : |ofHundredths neg n| = n / 100 := by
    cases neg
    · rw [ofHundredths, if_neg (by decide), abs_of_nonneg hpos]
    · rw [ofHundredths, if_pos rfl, abs_neg, abs_of_nonneg hpos]
  rw [habs]
  push_cast
  ring

namespace CFloat

/-- A number rounded to hundredths. -/
def hundredths : CFloat → CFloat
  | .num q => .num (ofHundredths (q < 0) (countHundredths q))
  | x => x

/-- **At most half a hundredth** is lost. -/
theorem hundredths_near {q r : ℚ} (h : (CFloat.num q).hundredths = .num r) : |r - q| ≤ 1 / 200 := by
  obtain rfl : ofHundredths (q < 0) (countHundredths q) = r := CFloat.num.inj h
  have hnear := roundHalfEven_near (|q| * 100)
  rw [← countHundredths_cast, abs_le] at hnear
  obtain ⟨hlow, hhigh⟩ := hnear
  rw [abs_le]
  by_cases hq : q < 0
  · rw [abs_of_neg hq] at hlow hhigh
    rw [decide_eq_true hq, ofHundredths, if_pos rfl]
    constructor <;> linarith
  · rw [abs_of_nonneg (not_lt.mp hq)] at hlow hhigh
    rw [decide_eq_false hq, ofHundredths, if_neg (by decide)]
    constructor <;> linarith

end CFloat

/-! ### Reading -/

theorem printFixed2_num (q : ℚ) :
    printFixed2 (.num q) = minus (q < 0) ++ printHundredths (countHundredths q) := rfl

theorem digitsValue_printNat (n : Nat) : digitsValue 10 (printNat 10 n) = n := by
  obtain ⟨digits, -, -, -, hs, hn⟩ :=
    takeDigits_eq_some.mp (takeDigits_printNat (b := 10) (by decide) (by decide) n)
  rw [List.append_nil] at hs
  rw [hs, ← hn]

theorem digitsValue_hundredths (n : Nat) :
    digitsValue 10 (printNat 10 (n / 100) ++ [digitChar (n / 10 % 10), digitChar (n % 10)]) = n := by
  have h := digitsValue_printNat (n / 100)
  rw [digitsValue] at h
  have hten : ∀ k, digitVal (digitChar (k % 10)) = some (k % 10) := fun k =>
    digitVal_digitChar _ ((Nat.mod_lt k (by decide)).trans (by decide))
  rw [digitsValue, List.foldl_append, h]
  simp only [List.foldl_cons, List.foldl_nil, hten, Option.getD_some]
  omega

/-- A digit, or the point. -/
theorem hundredths_chars {n : Nat} {c : UInt8} (hc : c ∈ printHundredths n) : 46 ≤ c ∧ c < 58 := by
  have hdigit : isDigit 10 c = true → 46 ≤ c ∧ c < 58 := by
    have hall : ∀ k < 256, isDigit 10 (UInt8.ofNat k) = true →
        46 ≤ UInt8.ofNat k ∧ UInt8.ofNat k < 58 := by decide +kernel
    have hk := hall c.toNat c.toNat_lt
    rwa [UInt8.ofNat_toNat] at hk
  have hten : ∀ k, isDigit 10 (digitChar (k % 10)) = true := fun k =>
    isDigit_digitChar (Nat.mod_lt k (by decide)) (by decide)
  simp only [printHundredths, List.mem_append, List.mem_cons, List.not_mem_nil, or_false] at hc
  rcases hc with hc | rfl | rfl | rfl
  · exact hdigit (isDigit_of_mem_printNat (by decide) (by decide) hc)
  · decide
  · exact hdigit (hten _)
  · exact hdigit (hten _)

/-- A text without the first letter of a word does not start with it. -/
theorem agreement_zero {w : UInt8} {word s : List UInt8} (h : ∀ c ∈ s, lower c ≠ w) :
    agreement (w :: word) s = 0 := by
  cases s with
  | nil => rfl
  | cons c s => rw [agreement, if_neg (h c List.mem_cons_self)]

/-- Hundredths, as a decimal number. -/
theorem scanNumber_hundredths (neg : Bool) (n : Nat) :
    scanNumber 10 10 1 101 neg (printHundredths n ++ [newline]) =
      some (.num (ofHundredths neg n)) := by
  have hall : ∀ c ∈ printNat 10 (n / 100), isDigit 10 c = true := fun _ =>
    isDigit_of_mem_printNat (by decide) (by decide)
  have hten : ∀ k, isDigit 10 (digitChar (k % 10)) = true := fun k =>
    isDigit_digitChar (Nat.mod_lt k (by decide)) (by decide)
  have hpoint : isDigit 10 46 = false := by decide
  have hend : isDigit 10 newline = false := by decide
  have hfraction : takeFraction 10 (printHundredths n ++ [newline]) = some (n, 2, [newline]) := by
    simp only [takeFraction, printHundredths, List.append_assoc, List.cons_append, List.nil_append,
      List.takeWhile_append_of_pos hall, List.dropWhile_append_of_pos hall, List.takeWhile_cons,
      List.dropWhile_cons, hpoint, hten, hend, if_true, Bool.false_eq_true, if_false,
      List.append_nil]
    rw [if_neg fun h => printNat_ne_nil 10 _ h.1, digitsValue_hundredths]
    rfl
  have hexponent : takeExponent 101 [newline] = some 0 := by decide
  have hscaled : scaled n 10 (0 - (1 : Nat) * (2 : Nat)) = n / 100 := by
    have hpow : 10 ^ (-(0 - ((1 : Nat) : Int) * (2 : Nat))).toNat = 100 := by decide
    rw [scaled, if_neg (by decide), hpow]
    norm_num
  simp only [scanNumber, hfraction, hexponent, Option.map_some, hscaled]
  rfl

/-- The number is a decimal one: it has no letters. -/
theorem scanFloat_signed (neg : Bool) (n : Nat) :
    scanFloat (32 :: (minus neg ++ printHundredths n ++ [newline])) =
      some (.num (ofHundredths neg n)) := by
  have hsign : takeSign (trimLeft (32 :: (minus neg ++ printHundredths n ++ [newline]))) =
      (neg, printHundredths n ++ [newline]) := by
    cases neg
    · have hne : printHundredths n ++ [newline] ≠ [] :=
        List.append_ne_nil_of_right_ne_nil _ (List.cons_ne_nil _ _)
      have hhead : ∀ c ∈ (printHundredths n ++ [newline]).head?, isDigit 10 c = true := by
        intro c hc
        rw [printHundredths, List.append_assoc,
          List.head?_append_of_ne_nil _ (printNat_ne_nil 10 _)] at hc
        exact head_printNat (by decide) (by decide) hc
      exact takeSign_of_isDigit hne hhead
    · rfl
  have hchars : ∀ {w : UInt8}, 58 ≤ w → ∀ c ∈ printHundredths n ++ [newline], lower c ≠ w := by
    intro w hw c hc e
    have hlt : c < 58 := by
      rcases List.mem_append.mp hc with hc | hc
      · exact (hundredths_chars hc).2
      · rw [List.mem_singleton.mp hc]
        decide
    have hlower : lower c = c :=
      if_neg fun h => absurd (UInt8.lt_of_le_of_lt h.1 hlt) (by decide)
    rw [hlower] at e
    exact absurd (e ▸ hlt) (UInt8.not_lt.mpr hw)
  have hinf : agreement (ascii "infinity") (printHundredths n ++ [newline]) = 0 :=
    agreement_zero (hchars (by decide))
  have hnan : agreement (ascii "nan") (printHundredths n ++ [newline]) = 0 :=
    agreement_zero (hchars (by decide))
  have hhex : agreement (ascii "0x") (printHundredths n ++ [newline]) ≠ 2 := by
    cases h : printHundredths n ++ [newline] with
    | nil => decide
    | cons c s =>
        have hx : agreement [120] s = 0 := agreement_zero fun d hd =>
          hchars (by decide) d (h ▸ List.mem_cons_of_mem c hd)
        show agreement [48, 120] (c :: s) ≠ 2
        rw [agreement]
        split
        · rw [hx]
          decide
        · decide
  rw [scanFloat, hsign]
  simp only [hinf, hnan, ne_eq, not_true_eq_false, if_false, if_neg hhex]
  exact scanNumber_hundredths neg n

/-- **What `%.2f` wrote is read back** as the number rounded to hundredths. -/
theorem scanFloat_printFixed2 (x : CFloat) :
    scanFloat (32 :: (printFixed2 x ++ [newline])) = some x.hundredths := by
  cases x with
  | num q => exact scanFloat_signed (q < 0) (countHundredths q)
  | inf neg => cases neg <;> decide +kernel
  | nan neg => cases neg <;> decide +kernel

/-! ### The text -/

/-- The largest `float`. -/
def floatMax : ℚ := (2 ^ 24 - 1) * 2 ^ 104

/-- A value a `float` may have. -/
def CFloat.InRange32 : CFloat → Prop
  | .num q => |q| ≤ floatMax
  | _ => True

instance : ∀ x : CFloat, Decidable x.InRange32
  | .num _ => inferInstanceAs (Decidable (_ ≤ _))
  | .inf _ => inferInstanceAs (Decidable True)
  | .nan _ => inferInstanceAs (Decidable True)

theorem minus_chars {neg : Bool} {c : UInt8} (hc : c ∈ minus neg) : c = 45 := by
  cases neg
  · cases hc
  · exact List.mem_singleton.mp hc

theorem length_minus_le (neg : Bool) : (minus neg).length ≤ 1 := by
  cases neg <;> decide

/-- What it is written with. -/
theorem printFixed2_chars (x : CFloat) {c : UInt8} (hc : c ∈ printFixed2 x) :
    c ∉ [0, newline, 61] := by
  cases x with
  | num q =>
      rw [printFixed2_num] at hc
      rcases List.mem_append.mp hc with hc | hc
      · rw [minus_chars hc]
        decide
      · obtain ⟨hlow, hhigh⟩ := hundredths_chars hc
        simp only [List.mem_cons, List.not_mem_nil, or_false, not_or]
        refine ⟨?_, ?_, ?_⟩
        · rintro rfl
          exact absurd hlow (by decide)
        · rintro rfl
          exact absurd hlow (by decide)
        · rintro rfl
          exact absurd hhigh (by decide)
  | inf neg =>
      have hall : ∀ c ∈ printFixed2 (.inf neg), c ∉ [0, newline, 61] := by
        cases neg <;> decide +kernel
      exact hall c hc
  | nan neg =>
      have hall : ∀ c ∈ printFixed2 (.nan neg), c ∉ [0, newline, 61] := by
        cases neg <;> decide +kernel
      exact hall c hc

theorem countHundredths_le {q : ℚ} (h : (CFloat.num q).InRange32) :
    countHundredths q ≤ (2 ^ 24 - 1) * 2 ^ 104 * 100 := by
  have hround : roundHalfEven (|q| * 100) ≤ ((2 ^ 24 - 1) * 2 ^ 104 * 100 : Int) := by
    refine roundHalfEven_le ?_
    have hq : |q| ≤ floatMax := h
    rw [floatMax] at hq
    push_cast
    linarith
  rw [countHundredths]
  omega

/-- A `float` has at most 39 digits before the point. -/
theorem length_printFixed2_le {x : CFloat} (h : x.InRange32) : (printFixed2 x).length ≤ 43 := by
  cases x with
  | num q =>
      have hcount : countHundredths q / 100 < 10 ^ 39 := by
        have hle := countHundredths_le h
        omega
      have hdigits := length_printNat_le (by decide) (by decide) hcount
      have hsign := length_minus_le (decide (q < 0))
      rw [printFixed2_num, List.length_append, printHundredths, List.length_append]
      simp only [List.length_cons, List.length_nil]
      omega
  | inf neg => cases neg <;> decide
  | nan neg => cases neg <;> decide

end Support
