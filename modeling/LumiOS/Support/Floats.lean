import Mathlib.Data.Rat.Floor
import LumiOS.Support.Numerals

/-!
# Support — Floats

The numbers `%.2f` writes and `%f` reads, each taken as the rational number it stands for.  What a
`float` makes of them is in FloatRound.

`%f` takes the longest text that starts a number, and fails if that is not a whole one (`1e`, `0x`,
`infin`).  A number from 0 to 1 that was written with `%.2f`, and lost any part of its end, reads as one
from 0 to 1 or not at all (`within_of_scanFloat`).
-/

namespace Support

/-- A `float`, as a rational number. -/
inductive CFloat where
  | num (q : ℚ)
  | inf (neg : Bool)
  | nan (neg : Bool)
deriving DecidableEq, Repr

namespace CFloat

/-- `<`, which is false for what is not a number. -/
def lt : CFloat → CFloat → Bool
  | .num a, .num b => a < b
  | .num _, .inf neg => !neg
  | .inf neg, .num _ => neg
  | .inf neg, .inf neg' => neg && !neg'
  | _, _ => false

/-- Between these two numbers, or not a number. -/
def Within (lo hi : ℚ) : CFloat → Prop
  | .num q => lo ≤ q ∧ q ≤ hi
  | .inf _ => False
  | .nan _ => True

instance (lo hi : ℚ) : ∀ x : CFloat, Decidable (x.Within lo hi)
  | .num _ => inferInstanceAs (Decidable (_ ∧ _))
  | .inf _ => inferInstanceAs (Decidable False)
  | .nan _ => inferInstanceAs (Decidable True)

end CFloat

/-! ### Writing -/

/-- The nearest integer, and of two the even one. -/
def roundHalfEven (q : ℚ) : Int :=
  if q - ⌊q⌋ < 1 / 2 then ⌊q⌋
  else if 1 / 2 < q - ⌊q⌋ then ⌊q⌋ + 1
  else if ⌊q⌋ % 2 = 0 then ⌊q⌋
  else ⌊q⌋ + 1

/-- So many hundredths, with two digits behind the point. -/
def printHundredths (n : Nat) : List UInt8 :=
  printNat 10 (n / 100) ++ [46, digitChar (n / 10 % 10), digitChar (n % 10)]

def minus (neg : Bool) : List UInt8 := if neg then [45] else []

/-- `%.2f`. -/
def printFixed2 : CFloat → List UInt8
  | .num q => minus (q < 0) ++ printHundredths (roundHalfEven (|q| * 100)).toNat
  | .inf neg => minus neg ++ ascii "inf"
  | .nan neg => minus neg ++ ascii "nan"

/-! ### Reading -/

def lower (c : UInt8) : UInt8 := if 65 ≤ c ∧ c ≤ 90 then c + 32 else c

/-- How many letters of a word a text starts with, in either case. -/
def agreement : List UInt8 → List UInt8 → Nat
  | w :: word, c :: s => if lower c = w then agreement word s + 1 else 0
  | _, _ => 0

/-- Behind `nan` there may be a name in parentheses. -/
def closesName : List UInt8 → Bool
  | 40 :: s => (s.dropWhile fun c => isDigit 36 c ∨ c = 95).head? = some 41
  | _ => true

/-- Digits with a point among them: the number they are without it, how many stand behind it, and what
is left. -/
def takeFraction (base : Nat) (s : List UInt8) : Option (Nat × Nat × List UInt8) :=
  let whole := s.takeWhile (isDigit base)
  let (fraction, rest) := match s.dropWhile (isDigit base) with
    | 46 :: s => (s.takeWhile (isDigit base), s.dropWhile (isDigit base))
    | s => ([], s)
  if whole = [] ∧ fraction = [] then none
  else some (digitsValue base (whole ++ fraction), fraction.length, rest)

/-- The exponent behind this letter, 0 without one. -/
def takeExponent (letter : UInt8) : List UInt8 → Option Int
  | [] => some 0
  | c :: s =>
    if lower c = letter then
      let (neg, s) := takeSign s
      (takeDigits 10 s).map fun p => if neg then -p.1 else p.1
    else some 0

/-- `m * base ^ e`. -/
def scaled (m base : Nat) (e : Int) : ℚ :=
  if 0 ≤ e then m * (base ^ e.toNat : Nat) else m / (base ^ (-e).toNat : Nat)

/-- A number in this base, whose exponent counts in powers of `unit`, `digit` to a digit. -/
def scanNumber (base unit digit : Nat) (letter : UInt8) (neg : Bool) (s : List UInt8) :
    Option CFloat :=
  match takeFraction base s with
  | none => none
  | some (m, places, s) =>
    (takeExponent letter s).map fun e =>
      let q := scaled m unit (e - digit * places)
      .num (if neg then -q else q)

/-- `%f` of the `scanf` family.  The number is the one that is written: it is not rounded to a `float`. -/
def scanFloat (s : List UInt8) : Option CFloat :=
  let (neg, s) := takeSign (trimLeft s)
  let infinity := agreement (ascii "infinity") s
  let nan := agreement (ascii "nan") s
  if infinity ≠ 0 then
    if infinity = 3 ∨ infinity = 8 then some (.inf neg) else none
  else if nan ≠ 0 then
    if nan = 3 ∧ closesName (s.drop 3) then some (.nan neg) else none
  else if agreement (ascii "0x") s = 2 then scanNumber 16 2 4 112 neg (s.drop 2)
  else scanNumber 10 10 1 101 neg s

example : scanFloat (ascii " -12.50e-1x") = some (.num (-5 / 4)) := by decide +kernel

example : scanFloat (ascii "0x.8p1") = some (.num 1) := by decide +kernel

example : scanFloat (ascii "1e") = none := by decide +kernel

/-! ### Reading what was written -/

/-- An integer bound is kept by rounding. -/
theorem roundHalfEven_le {q : ℚ} {n : Int} (h : q ≤ n) : roundHalfEven q ≤ n := by
  have hfloor : ⌊q⌋ ≤ n := Int.cast_le.mp ((Int.floor_le q).trans h)
  rcases hfloor.lt_or_eq with hlt | heq
  · rw [roundHalfEven]
    split_ifs <;> omega
  · -- nothing is left to round up
    have hq : q - ⌊q⌋ < 1 / 2 := by
      rw [heq]
      exact (sub_nonpos.mpr h).trans_lt one_half_pos
    rw [roundHalfEven, if_pos hq]
    exact hfloor

/-- A number from 0 to 1 has 0 to 100 hundredths. -/
theorem printFixed2_of_within {x : CFloat} (h : x.Within 0 1) :
    (∃ n ≤ 100, printFixed2 x = printHundredths n) ∨
      ∃ neg, printFixed2 x = minus neg ++ ascii "nan" := by
  cases x with
  | num q =>
      refine .inl ⟨_, ?_, by rw [printFixed2, decide_eq_false (not_lt.mpr h.1)]; rfl⟩
      have hle : |q| * 100 ≤ (100 : Int) := by
        rw [abs_of_nonneg h.1]
        exact mul_le_of_le_one_left (by decide) h.2
      exact Int.toNat_le.mpr (roundHalfEven_le hle)
  | inf neg => exact h.elim
  | nan neg => exact .inr ⟨neg, rfl⟩

/-- What may be left of such a text, with the end of the line or without. -/
theorem scanFloat_hundredths : ∀ n < 101, ∀ k < 5, ∀ eol ∈ [[], [newline]],
    ∀ v ∈ scanFloat ((printHundredths n).take k ++ eol), v.Within 0 1 := by
  decide +kernel

theorem length_hundredths : ∀ n < 101, (printHundredths n).length = 4 := by decide +kernel

theorem scanFloat_nan : ∀ neg, ∀ k < 5, ∀ eol ∈ [[], [newline]],
    ∀ v ∈ scanFloat ((minus neg ++ ascii "nan").take k ++ eol), v.Within 0 1 := by
  decide +kernel

/-- **A number from 0 to 1, cut at its end**, reads as one, if it reads. -/
theorem within_of_scanFloat {x v : CFloat} (h : x.Within 0 1) (k : Nat) {eol : List UInt8}
    (heol : eol ∈ [[], [newline]])
    (hv : scanFloat ((printFixed2 x).take k ++ eol) = some v) : v.Within 0 1 := by
  -- behind four bytes nothing more is cut
  have hmin : ∀ {s : List UInt8}, s.length ≤ 4 → s.take k = s.take (min k 4) := by
    intro s hs
    rcases Nat.le_total k 4 with hk | hk
    · rw [Nat.min_eq_left hk]
    · rw [Nat.min_eq_right hk, List.take_of_length_le (hs.trans hk), List.take_of_length_le hs]
  have hlt : min k 4 < 5 := Nat.lt_succ_of_le (Nat.min_le_right k 4)
  rcases printFixed2_of_within h with ⟨n, hn, htext⟩ | ⟨neg, htext⟩
  · have hn : n < 101 := Nat.lt_succ_of_le hn
    rw [htext, hmin (length_hundredths n hn).le] at hv
    exact scanFloat_hundredths n hn _ hlt eol heol v hv
  · have hlen : (minus neg ++ ascii "nan").length ≤ 4 := by cases neg <;> decide
    rw [htext, hmin hlen] at hv
    exact scanFloat_nan neg _ hlt eol heol v hv

/-- What a text is written with. -/
theorem mem_printFixed2 {x : CFloat} (h : x.Within 0 1) {c : UInt8} (hc : c ∈ printFixed2 x) :
    c ∉ [0, newline, 61] := by
  have hhundredths : ∀ n < 101, (printHundredths n).all (· ∉ [0, newline, 61]) := by decide +kernel
  have hnan : ∀ neg, ∀ c ∈ minus neg ++ ascii "nan", c ∉ [0, newline, 61] := by decide +kernel
  rcases printFixed2_of_within h with ⟨n, hn, htext⟩ | ⟨neg, htext⟩
  · have hall := List.all_eq_true.mp (hhundredths n (Nat.lt_succ_of_le hn)) c (htext ▸ hc)
    exact of_decide_eq_true hall
  · exact hnan neg c (htext ▸ hc)

theorem length_printFixed2 {x : CFloat} (h : x.Within 0 1) : (printFixed2 x).length ≤ 4 := by
  rcases printFixed2_of_within h with ⟨n, hn, htext⟩ | ⟨neg, htext⟩
  · rw [htext, length_hundredths n (Nat.lt_succ_of_le hn)]
  · rw [htext]
    cases neg <;> decide

end Support
