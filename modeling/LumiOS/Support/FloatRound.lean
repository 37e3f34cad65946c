import Mathlib.Algebra.Order.Field.Power
import Mathlib.Data.Int.Log
import LumiOS.Support.FloatText

/-!
# Support — FloatRound

Rounding to a binary format, and the `float` nearest to a number.

The numbers of a format are the multiples of a power of two that are not too long: `Holds`.  Around a
number they are `lastExp` apart, so that rounding goes to the nearest multiple of that power, ties to
even.  A `float` that is rounded to hundredths, and then to a `float` again, is another one, but when
this is done a second time nothing changes (`round_hundredths_twice`): below 2¹⁷ the hundredths are
found back, because a `float` is closer to them than half a hundredth, and from there on the `float`
itself is.
-/

namespace Support

/-! ### The nearest integer -/

/-- The only integer that is nearer than a half. -/
theorem roundHalfEven_eq {q : ℚ} {n : Int} (h : |q - n| < 1 / 2) : roundHalfEven q = n := by
  have hnear := abs_le.mp (roundHalfEven_near q)
  obtain ⟨hlow, hhigh⟩ := abs_lt.mp h
  have hdiff : |((roundHalfEven q - n : Int) : ℚ)| < 1 := by
    push_cast
    rw [abs_lt]
    constructor <;> linarith [hnear.1, hnear.2]
  have hzero : |roundHalfEven q - n| < 1 := by exact_mod_cast hdiff
  exact sub_eq_zero.mp (Int.abs_lt_one_iff.mp hzero)

/-- A multiple of a power of two is one of any smaller power. -/
theorem exists_mul_zpow (m : Int) {e e' : Int} (h : e ≤ e') :
    ∃ m' : Int, (m : ℚ) * 2 ^ e' = m' * 2 ^ e := by
  obtain ⟨k, rfl⟩ := Int.le.dest h
  refine ⟨m * 2 ^ k, ?_⟩
  rw [zpow_add₀ two_ne_zero, zpow_natCast]
  push_cast
  ring

/-! ### Formats -/

/-- So many binary digits, of which the last stands for no less than a power of two. -/
structure BinaryFormat where
  digits : Nat
  minExp : Int

namespace BinaryFormat

variable (fmt : BinaryFormat)

/-- A number of the format, when its exponent has no upper bound. -/
def Holds (x : ℚ) : Prop := ∃ m e : Int, |m| < 2 ^ fmt.digits ∧ fmt.minExp ≤ e ∧ x = m * 2 ^ e

/-- The power of two the last digit of a number stands for. -/
def lastExp (x : ℚ) : Int := max (Int.log 2 |x| + 1 - fmt.digits) fmt.minExp

/-- The nearest number of the format, and of two the one with an even last digit. -/
def round (x : ℚ) : ℚ := roundHalfEven (x / 2 ^ fmt.lastExp x) * 2 ^ fmt.lastExp x

theorem minExp_le_lastExp (x : ℚ) : fmt.minExp ≤ fmt.lastExp x := le_max_right _ _

theorem abs_lt_lastExp (x : ℚ) : |x| < 2 ^ (fmt.lastExp x + fmt.digits) := by
  have hlog : Int.log 2 |x| + 1 ≤ fmt.lastExp x + fmt.digits := by
    have hle : Int.log 2 |x| + 1 - fmt.digits ≤ fmt.lastExp x := le_max_left _ _
    omega
  exact (Int.lt_zpow_succ_log_self (by decide) |x|).trans_le (zpow_le_zpow_right₀ one_le_two hlog)

theorem round_near (x : ℚ) : |fmt.round x - x| ≤ 2 ^ fmt.lastExp x / 2 := by
  have hunit : (0 : ℚ) < 2 ^ fmt.lastExp x := by positivity
  have hdiff : fmt.round x - x =
      (roundHalfEven (x / 2 ^ fmt.lastExp x) - x / 2 ^ fmt.lastExp x) * 2 ^ fmt.lastExp x := by
    rw [round, sub_mul, div_mul_cancel₀ _ hunit.ne']
  rw [hdiff, abs_mul, abs_of_pos hunit]
  have hnear := mul_le_mul_of_nonneg_right (roundHalfEven_near (x / 2 ^ fmt.lastExp x)) hunit.le
  linarith

variable {fmt} {x y : ℚ} {e : Int}

/-- A number with its digits from `e` on needs no smaller power. -/
theorem lastExp_le (hx : x ≠ 0) (h : |x| < 2 ^ (e + fmt.digits)) (he : fmt.minExp ≤ e) :
    fmt.lastExp x ≤ e := by
  have hlog : Int.log 2 |x| < e + fmt.digits :=
    (Int.lt_zpow_iff_log_lt (by decide) (abs_pos.mpr hx)).mp h
  refine max_le ?_ he
  omega

/-- A number whose last digit stands for more than the format needs is at least this large. -/
theorem le_abs_of_lastExp (hx : x ≠ 0) (he : fmt.minExp < e) (h : e ≤ fmt.lastExp x) :
    2 ^ (e + fmt.digits - 1) ≤ |x| := by
  have hlog : e + fmt.digits - 1 ≤ Int.log 2 |x| := by
    have hmax : e ≤ Int.log 2 |x| + 1 - fmt.digits := (le_max_iff.mp h).resolve_right (not_le.mpr he)
    omega
  exact (Int.zpow_le_iff_le_log (by decide) (abs_pos.mpr hx)).mpr hlog

/-- A number of the format is a multiple of its last digit, and has no more digits than that. -/
theorem Holds.exists_eq (h : fmt.Holds x) :
    ∃ m : Int, |m| < 2 ^ fmt.digits ∧ x = m * 2 ^ fmt.lastExp x := by
  by_cases hx : x = 0
  · exact ⟨0, by simp, by simp [hx]⟩
  obtain ⟨m, e, hm, he, hxe⟩ := h
  have hpos : (0 : ℚ) < 2 ^ e := by positivity
  have habs : |x| < 2 ^ (e + fmt.digits) := by
    have hm' : |(m : ℚ)| < 2 ^ fmt.digits := by exact_mod_cast hm
    rw [hxe, abs_mul, abs_of_pos hpos, zpow_add₀ two_ne_zero, zpow_natCast, mul_comm ((2 : ℚ) ^ e)]
    exact mul_lt_mul_of_pos_right hm' hpos
  obtain ⟨m', hm'⟩ := exists_mul_zpow m (lastExp_le hx habs he)
  have heq : x = m' * 2 ^ fmt.lastExp x := hxe.trans hm'
  refine ⟨m', ?_, heq⟩
  have hlast := fmt.abs_lt_lastExp x
  have hunit : (0 : ℚ) < 2 ^ fmt.lastExp x := by positivity
  rw [zpow_add₀ two_ne_zero, zpow_natCast, mul_comm] at hlast
  have hq : |(m' : ℚ)| * 2 ^ fmt.lastExp x < 2 ^ fmt.digits * 2 ^ fmt.lastExp x := by
    rw [← abs_of_pos hunit, ← abs_mul, ← heq, abs_of_pos hunit]
    exact hlast
  exact_mod_cast lt_of_mul_lt_mul_right hq hunit.le

/-- The only multiple of the last digit that is nearer than half of it. -/
theorem round_eq_of_near {m : Int} (hy : y = m * 2 ^ fmt.lastExp x)
    (h : |x - y| < 2 ^ fmt.lastExp x / 2) : fmt.round x = y := by
  have hunit : (0 : ℚ) < 2 ^ fmt.lastExp x := by positivity
  have hdiv : |x / 2 ^ fmt.lastExp x - m| < 1 / 2 := by
    have hdiff : x / 2 ^ fmt.lastExp x - m = (x - y) / 2 ^ fmt.lastExp x := by
      rw [hy, sub_div, mul_div_cancel_right₀ _ hunit.ne']
    rw [hdiff, abs_div, abs_of_pos hunit, div_lt_iff₀ hunit]
    linarith
  rw [round, roundHalfEven_eq hdiv, hy]

theorem round_of_holds (h : fmt.Holds x) : fmt.round x = x := by
  obtain ⟨m, -, hm⟩ := h.exists_eq
  refine round_eq_of_near hm ?_
  rw [sub_self, abs_zero]
  positivity

end BinaryFormat

/-! ### Hundredths -/

/-- A number rounded to hundredths. -/
def toHundredths (q : ℚ) : ℚ := ofHundredths (q < 0) (countHundredths q)

theorem hundredths_num (q : ℚ) : (CFloat.num q).hundredths = .num (toHundredths q) := rfl

theorem toHundredths_near (q : ℚ) : |toHundredths q - q| ≤ 1 / 200 :=
  CFloat.hundredths_near (hundredths_num q)

/-- The only hundredths that are nearer than half of one. -/
theorem toHundredths_eq_of_near {q : ℚ} {neg : Bool} {n : Nat}
    (h : |q - ofHundredths neg n| < 1 / 200) : toHundredths q = ofHundredths neg n := by
  have hcount : countHundredths q = n := by
    have hn := abs_ofHundredths neg n
    have habs := abs_le.mp (abs_abs_sub_abs_le q (ofHundredths neg n))
    have hround : roundHalfEven (|q| * 100) = n := by
      refine roundHalfEven_eq ?_
      rw [← hn, abs_lt]
      constructor <;> linarith [habs.1, habs.2]
    rw [countHundredths, hround, Int.toNat_natCast]
  rw [toHundredths, hcount]
  rcases Nat.eq_zero_or_pos n with rfl | hn
  · simp [ofHundredths]
  · have hpos : (1 : ℚ) / 100 ≤ n / 100 := by
      have hone : (1 : ℚ) ≤ n := by exact_mod_cast hn
      linarith
    obtain ⟨hlow, hhigh⟩ := abs_lt.mp h
    congr 1
    cases neg with
    | true =>
        rw [ofHundredths, if_pos rfl] at hlow hhigh
        exact decide_eq_true (by linarith)
    | false =>
        rw [ofHundredths, if_neg (by decide)] at hlow hhigh
        exact decide_eq_false (by linarith)

theorem abs_toHundredths_le {q : ℚ} (h : |q| ≤ 1) : |toHundredths q| ≤ 1 := by
  have hround : roundHalfEven (|q| * 100) ≤ 100 := by
    refine roundHalfEven_le ?_
    push_cast
    linarith
  have hcount : ((countHundredths q : Int) : ℚ) ≤ 100 := by
    have hle : countHundredths q ≤ 100 := Int.toNat_le.mpr hround
    exact_mod_cast hle
  rw [← abs_ofHundredths (decide (q < 0))] at hcount
  rw [toHundredths]
  linarith

/-! ### The floats -/

def binary32 : BinaryFormat := ⟨24, -149⟩

/-- A number from -1 to 1 loses very little. -/
theorem binary32_near {x : ℚ} (h : |x| ≤ 1) : |binary32.round x - x| ≤ 1 / 2 ^ 25 := by
  have hexact (hx : binary32.Holds x) : |binary32.round x - x| ≤ 1 / 2 ^ 25 := by
    rw [BinaryFormat.round_of_holds hx, sub_self, abs_zero]
    positivity
  by_cases hx : x = 0
  · exact hexact ⟨0, 0, by decide, by decide, by simp [hx]⟩
  rcases h.lt_or_eq with hlt | heq
  · have hlast : binary32.lastExp x ≤ -24 :=
      BinaryFormat.lastExp_le hx (by simpa [binary32] using hlt) (by decide)
    have hunit : (2 : ℚ) ^ binary32.lastExp x ≤ 2 ^ (-24 : Int) :=
      zpow_le_zpow_right₀ one_le_two hlast
    have hnear := binary32.round_near x
    norm_num at hunit ⊢
    linarith
  · rcases eq_or_eq_neg_of_abs_eq heq with rfl | rfl
    · exact hexact ⟨1, 0, by decide, by decide, by simp⟩
    · exact hexact ⟨-1, 0, by decide, by decide, by simp⟩

/-- A `float` this large is the one nearest to anything that is within half a hundredth of it. -/
theorem round_eq_of_large {x h : ℚ} (hx : binary32.Holds x) (hnear : |h - x| ≤ 1 / 200)
    (he : -6 ≤ binary32.lastExp h) : binary32.round h = x := by
  have hne : h ≠ 0 := by
    rintro rfl
    simp [BinaryFormat.lastExp, binary32] at he
  have hlarge : (2 : ℚ) ^ (17 : Int) ≤ |h| :=
    @BinaryFormat.le_abs_of_lastExp binary32 h (-6) hne (by decide) he
  obtain ⟨hlow, hhigh⟩ := abs_le.mp ((abs_abs_sub_abs_le h x).trans hnear)
  -- so large numbers are a hundredth apart and more
  have hunit : (2 : ℚ) ^ (-7 : Int) ≤ 2 ^ binary32.lastExp x := by
    have hxlarge : (2 : ℚ) ^ (16 : Int) ≤ |x| := by
      norm_num at hlarge ⊢
      linarith
    have hpos : 0 < |x| := (by norm_num : (0 : ℚ) < 2 ^ (16 : Int)).trans_le hxlarge
    have hlog : 16 ≤ Int.log 2 |x| := (Int.zpow_le_iff_le_log (by decide) hpos).mp hxlarge
    refine zpow_le_zpow_right₀ one_le_two (le_trans ?_ (le_max_left _ _))
    show -7 ≤ Int.log 2 |x| + 1 - 24
    omega
  obtain ⟨m, hm, hxm⟩ := hx.exists_eq
  have hexp : binary32.lastExp h ≤ binary32.lastExp x := by
    refine BinaryFormat.lastExp_le hne ?_ (binary32.minExp_le_lastExp x)
    have hm' : |(m : ℚ)| ≤ 2 ^ 24 - 1 := by
      have hle : |m| ≤ 2 ^ 24 - 1 := Int.le_sub_one_of_lt hm
      exact_mod_cast hle
    have hpos : (0 : ℚ) < 2 ^ binary32.lastExp x := by positivity
    have habs : |x| ≤ (2 ^ 24 - 1) * 2 ^ binary32.lastExp x := by
      conv_lhs => rw [hxm]
      rw [abs_mul, abs_of_pos hpos]
      exact mul_le_mul_of_nonneg_right hm' hpos.le
    rw [zpow_add₀ two_ne_zero, zpow_natCast]
    show |h| < 2 ^ binary32.lastExp x * 2 ^ 24
    norm_num at hunit
    linarith
  obtain ⟨m', hm'⟩ := exists_mul_zpow m hexp
  refine BinaryFormat.round_eq_of_near (hxm.trans hm') (hnear.trans_lt ?_)
  have hhalf : (2 : ℚ) ^ (-6 : Int) ≤ 2 ^ binary32.lastExp h := zpow_le_zpow_right₀ one_le_two he
  norm_num at hhalf ⊢
  linarith

/-- **Rounding to hundredths and to a `float`** a second time changes nothing. -/
theorem round_hundredths_twice {x : ℚ} (hx : binary32.Holds x) :
    binary32.round (toHundredths (binary32.round (toHundredths x))) =
      binary32.round (toHundredths x) := by
  have hnear := toHundredths_near x
  have hround := binary32.round_near (toHundredths x)
  generalize hh : toHundredths x = h at *
  by_cases he : binary32.lastExp h ≤ -7
  · -- the `float` is so near that its hundredths are the same
    have hunit : (2 : ℚ) ^ binary32.lastExp h ≤ 2 ^ (-7 : Int) := zpow_le_zpow_right₀ one_le_two he
    have hback : toHundredths (binary32.round h) = h := by
      rw [← hh] at hround hunit ⊢
      refine toHundredths_eq_of_near (hround.trans_lt ?_)
      norm_num at hunit ⊢
      linarith
    rw [hback]
  · -- the hundredths are so near that the `float` is the same
    rw [round_eq_of_large hx hnear (by omega), hh, round_eq_of_large hx hnear (by omega)]

namespace CFloat

/-- A value of a `float`. -/
def IsFloat : CFloat → Prop
  | .num q => binary32.Holds q ∧ |q| ≤ floatMax
  | _ => True

/-- The `float` nearest to a number: behind the largest there is infinity. -/
def toFloat : CFloat → CFloat
  | .num q =>
    if |binary32.round q| ≤ floatMax then .num (binary32.round q) else .inf (q < 0)
  | x => x

variable {x : CFloat}

theorem IsFloat.inRange32 (h : x.IsFloat) : x.InRange32 := by
  cases x with
  | num q => exact h.2
  | inf neg => trivial
  | nan neg => trivial

theorem inRange32_toFloat (x : CFloat) : x.toFloat.InRange32 := by
  cases x with
  | num q =>
      rw [toFloat]
      split
      · assumption
      · trivial
  | inf neg => trivial
  | nan neg => trivial

/-- **A level that was saved and loaded** is saved and loaded as it is. -/
theorem toFloat_hundredths_twice (h : x.IsFloat) :
    x.hundredths.toFloat.hundredths.toFloat = x.hundredths.toFloat := by
  cases x with
  | num q =>
      by_cases hmax : |binary32.round (toHundredths q)| ≤ floatMax
      · have hone : (CFloat.num q).hundredths.toFloat = .num (binary32.round (toHundredths q)) :=
          if_pos hmax
        rw [hone, hundredths_num, toFloat, round_hundredths_twice h.1, if_pos hmax]
      · have hinf : (CFloat.num q).hundredths.toFloat = .inf (toHundredths q < 0) := if_neg hmax
        rw [hinf]
        rfl
  | inf neg => rfl
  | nan neg => rfl

/-- **A level from -1 to 1** loses half a hundredth, and what a `float` cannot hold. -/
theorem toFloat_hundredths_near {q : ℚ} (h : |q| ≤ 1) :
    ∃ r, (CFloat.num q).hundredths.toFloat = .num r ∧ |r - q| ≤ 1 / 200 + 1 / 2 ^ 25 := by
  have hround := binary32_near (abs_toHundredths_le h)
  have hnear := toHundredths_near q
  have hsum : |binary32.round (toHundredths q) - q| ≤ 1 / 200 + 1 / 2 ^ 25 := by
    have htriangle := abs_sub_le (binary32.round (toHundredths q)) (toHundredths q) q
    linarith
  have hmax : |binary32.round (toHundredths q)| ≤ floatMax := by
    have htriangle := abs_sub_abs_le_abs_sub (binary32.round (toHundredths q)) q
    rw [floatMax]
    norm_num at hsum ⊢
    linarith
  exact ⟨_, if_pos hmax, hsum⟩

end CFloat

end Support
