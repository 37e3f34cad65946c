import Mathlib.Data.Nat.Digits.Lemmas
import LumiOS.Support.Text

/-!
# Support — Numerals

The numbers `printf` writes and the `strtol` family reads, on a machine whose `long` has 64 bits.
Each reader gives back what the matching conversion wrote: `atoi` after `%d` and `%u`, `strtoul` with
base 0 after `0x%x` and `%lu`.
-/

namespace Support

/-! ### Digits -/

/-- The value of a digit, in the bases up to 36. -/
def digitVal (c : UInt8) : Option Nat :=
  if 48 ≤ c ∧ c ≤ 57 then some (c.toNat - 48)
  else if 97 ≤ c ∧ c ≤ 122 then some (c.toNat - 87)
  else if 65 ≤ c ∧ c ≤ 90 then some (c.toNat - 55)
  else none

/-- The digit `printf` writes for a value. -/
def digitChar (d : Nat) : UInt8 := UInt8.ofNat (if d < 10 then 48 + d else 87 + d)

/-- A byte that a number in this base goes on with. -/
def isDigit (base : Nat) (c : UInt8) : Bool := (digitVal c).any (· < base)

/-- A digit that is printed is read as what it was. -/
theorem digitVal_digitChar : ∀ d < 36, digitVal (digitChar d) = some d := by decide

/-- A digit that is printed in a base is a digit in it. -/
theorem isDigit_digitChar {base d : Nat} (hd : d < base) (hb : base ≤ 36) :
    isDigit base (digitChar d) = true := by
  simp [isDigit, digitVal_digitChar d (hd.trans_le hb), hd]

/-- What may stand before the digits is not a digit. -/
theorem isDigit_ne {base : Nat} {c : UInt8} (h : isDigit base c = true) :
    isSpace c = false ∧ c ≠ 43 ∧ c ≠ 45 := by
  have h48 : 48 ≤ c := by
    simp only [isDigit, digitVal] at h
    split at h
    · rename_i hc
      exact hc.1
    · split at h
      · rename_i hc
        exact UInt8.le_trans (by decide) hc.1
      · split at h
        · rename_i hc
          exact UInt8.le_trans (by decide) hc.1
        · cases h
  refine ⟨?_, ?_, ?_⟩
  · simp only [isSpace, decide_eq_false_iff_not, not_or, not_and]
    exact ⟨fun e => absurd (e ▸ h48) (by decide),
      fun _ hc => absurd (UInt8.le_trans h48 hc) (by decide)⟩
  · rintro rfl
    exact absurd h48 (by decide)
  · rintro rfl
    exact absurd h48 (by decide)

/-! ### Writing -/

/-- The digits of a number, the first one in front. -/
def printNat (base n : Nat) : List UInt8 :=
  if n = 0 then [digitChar 0] else (base.digits n).reverse.map digitChar

/-- `%d`. -/
def printInt (x : Int32) : List UInt8 :=
  if x < 0 then 45 :: printNat 10 x.toInt.natAbs else printNat 10 x.toInt.natAbs

/-- `%ld`. -/
def printLong (x : Int64) : List UInt8 :=
  if x < 0 then 45 :: printNat 10 x.toInt.natAbs else printNat 10 x.toInt.natAbs

/-- `0x%x`. -/
def printHex (x : UInt32) : List UInt8 := ascii "0x" ++ printNat 16 x.toNat

/-- `%u` and `%lu`. -/
def printUnsigned (n : Nat) : List UInt8 := printNat 10 n

/-! ### Reading -/

/-- What `strtol` finds in a string: the number, and what stands behind it. -/
structure Scanned where
  neg : Bool
  magnitude : Nat
  rest : List UInt8
deriving DecidableEq, Repr

/-- The sign behind the white space, if there is one. -/
def takeSign : List UInt8 → Bool × List UInt8
  | [] => (false, [])
  | c :: s => if c = 45 then (true, s) else if c = 43 then (false, s) else (false, c :: s)

/-- The base that base 0 stands for, and what is left behind the prefix. -/
def takePrefix : List UInt8 → Nat × List UInt8
  | 48 :: x :: c :: s =>
    if (x = 120 ∨ x = 88) ∧ isDigit 16 c = true then (16, c :: s) else (8, 48 :: x :: c :: s)
  | 48 :: s => (8, 48 :: s)
  | s => (10, s)

/-- The digits at the start of a string, read as a number. -/
def takeDigits (base : Nat) (s : List UInt8) : Option (Nat × List UInt8) :=
  let digits := s.takeWhile (isDigit base)
  if digits = [] then none
  else some (digits.foldl (fun n c => n * base + (digitVal c).getD 0) 0, s.dropWhile (isDigit base))

/-- The subject of the `strtol` family, in base 0 or a base without prefixes. -/
def scanInteger (base : Nat) (s : List UInt8) : Option Scanned :=
  let (neg, s) := takeSign (trimLeft s)
  let (base, s) := if base = 0 then takePrefix s else (base, s)
  (takeDigits base s).map fun p => ⟨neg, p.1, p.2⟩

/-- The value of `strtol` and `strtoll`: the nearest `long`. -/
def Scanned.toLong (n : Scanned) : Int64 :=
  Int64.ofInt (if n.neg then -(min n.magnitude (2 ^ 63) : Nat) else (min n.magnitude (2 ^ 63 - 1) : Nat))

/-- The value of `strtoul` and `strtoull`: `ULONG_MAX` out of range, and else modulo 2⁶⁴ when a sign
stands before it. -/
def Scanned.toUlong (n : Scanned) : UInt64 :=
  if 2 ^ 64 ≤ n.magnitude then -1
  else if n.neg then -UInt64.ofNat n.magnitude else UInt64.ofNat n.magnitude

/-- `strtol` and `strtoll`, without the place behind the number. -/
def strtol (base : Nat) (s : List UInt8) : Int64 := ((scanInteger base s).map Scanned.toLong).getD 0

/-- `strtoul`, likewise. -/
def strtoul (base : Nat) (s : List UInt8) : UInt64 :=
  ((scanInteger base s).map Scanned.toUlong).getD 0

/-- `atoi`: a `long`, cut to an `int`. -/
def atoi (s : List UInt8) : Int32 := (strtol 10 s).toInt32

/-! ### Reading what was written -/

section

variable {b n : Nat}

/-- A number is printed in digits. -/
theorem isDigit_of_mem_printNat (h1 : 1 < b) (h36 : b ≤ 36) {c : UInt8}
    (hc : c ∈ printNat b n) : isDigit b c = true := by
  rw [printNat] at hc
  split at hc
  · rw [List.mem_singleton.mp hc]
    exact isDigit_digitChar (Nat.zero_lt_of_lt h1) h36
  · obtain ⟨d, hd, rfl⟩ := List.mem_map.mp hc
    exact isDigit_digitChar (Nat.digits_lt_base h1 (List.mem_reverse.mp hd)) h36

/-- A number is printed in at least one digit. -/
theorem printNat_ne_nil (b n : Nat) : printNat b n ≠ [] := by
  rw [printNat]
  split
  · exact List.cons_ne_nil _ _
  · rename_i hn
    simpa [Nat.digits_eq_nil_iff_eq_zero] using hn

/-- A number below a power of the base has no more digits than that. -/
theorem length_printNat_le {k : Nat} (h1 : 1 < b) (hk : 0 < k) (hn : n < b ^ k) :
    (printNat b n).length ≤ k := by
  rw [printNat]
  split
  · exact hk
  · rw [List.length_map, List.length_reverse]
    exact (Nat.digits_length_le_iff h1 n).mpr hn

/-- The value is built up from the first digit on. -/
theorem foldl_digits {b : Nat} : ∀ digits : List Nat, (∀ d ∈ digits, d < 36) →
    (digits.reverse.map digitChar).foldl (fun n c => n * b + (digitVal c).getD 0) 0 =
      Nat.ofDigits b digits := by
  intro digits
  induction digits with
  | nil => intro _; rfl
  | cons d digits ih =>
      intro hd
      rw [List.reverse_cons, List.map_append, List.foldl_append,
        ih fun e he => hd e (List.mem_cons_of_mem d he)]
      simp only [List.map_cons, List.map_nil, List.foldl_cons, List.foldl_nil,
        digitVal_digitChar d (hd d List.mem_cons_self), Option.getD_some, Nat.ofDigits_cons]
      ring

/-- **A number that is printed is read as it was.** -/
theorem takeDigits_printNat (h1 : 1 < b) (h36 : b ≤ 36) (n : Nat) :
    takeDigits b (printNat b n) = some (n, []) := by
  have hall : ∀ c ∈ printNat b n, isDigit b c = true := fun _ => isDigit_of_mem_printNat h1 h36
  have hval : (printNat b n).foldl (fun n c => n * b + (digitVal c).getD 0) 0 = n := by
    rw [printNat]
    split
    · rename_i hn
      rw [hn, List.foldl_cons, List.foldl_nil, digitVal_digitChar 0 (by decide)]
      simp
    · rw [foldl_digits _ fun d hd => (Nat.digits_lt_base h1 hd).trans_le h36, Nat.ofDigits_digits]
  simp only [takeDigits, List.takeWhile_eq_self_iff.mpr hall, List.dropWhile_eq_nil_iff.mpr hall,
    if_neg (printNat_ne_nil b n), hval]

/-- Neither blanks nor a sign are taken from a text that starts with a digit. -/
theorem takeSign_of_isDigit {s : List UInt8} (hne : s ≠ [])
    (h : ∀ c ∈ s.head?, isDigit b c = true) : takeSign (trimLeft s) = (false, s) := by
  cases s with
  | nil => exact absurd rfl hne
  | cons c s =>
      obtain ⟨hs, hp, hm⟩ := isDigit_ne (h c rfl)
      simp [trimLeft, hs, takeSign, hp, hm]

/-- A number that is printed starts with a digit. -/
theorem head_printNat (h1 : 1 < b) (h36 : b ≤ 36) {c : UInt8}
    (hc : c ∈ (printNat b n).head?) : isDigit b c = true :=
  isDigit_of_mem_printNat h1 h36 (List.mem_of_mem_head? hc)

/-- A number that is printed is the subject of `strtol`. -/
theorem scanInteger_printNat (h1 : 1 < b) (h36 : b ≤ 36) (n : Nat) :
    scanInteger b (printNat b n) = some ⟨false, n, []⟩ := by
  rw [scanInteger, takeSign_of_isDigit (printNat_ne_nil b n) fun c => head_printNat h1 h36]
  simp only [if_neg (Nat.ne_of_gt (Nat.zero_lt_of_lt h1)), takeDigits_printNat h1 h36]
  rfl

/-- A number that is printed behind a minus is the subject of `strtol`. -/
theorem scanInteger_neg_printNat (h1 : 1 < b) (h36 : b ≤ 36) (n : Nat) :
    scanInteger b (45 :: printNat b n) = some ⟨true, n, []⟩ := by
  have hs : takeSign (trimLeft (45 :: printNat b n)) = (true, printNat b n) := rfl
  rw [scanInteger, hs]
  simp only [if_neg (Nat.ne_of_gt (Nat.zero_lt_of_lt h1)), takeDigits_printNat h1 h36]
  rfl

end

/-! ### Numbers in a text -/

/-- A digit does not end a string. -/
theorem isDigit_ne_zero {b : Nat} {c : UInt8} (h : isDigit b c = true) : c ≠ 0 := by
  rintro rfl
  cases h

/-- An `int` is printed in digits and a sign. -/
theorem mem_printInt {x : Int32} {c : UInt8} (hc : c ∈ printInt x) :
    c = 45 ∨ isDigit 10 c = true := by
  rw [printInt] at hc
  split at hc
  · exact (List.mem_cons.mp hc).imp id (isDigit_of_mem_printNat (by decide) (by decide))
  · exact .inr (isDigit_of_mem_printNat (by decide) (by decide) hc)

/-- An `int` is printed in at least one byte. -/
theorem printInt_ne_nil (x : Int32) : printInt x ≠ [] := by
  rw [printInt]
  split
  · exact List.cons_ne_nil _ _
  · exact printNat_ne_nil 10 _

theorem printUnsigned_ne_nil (n : Nat) : printUnsigned n ≠ [] := printNat_ne_nil 10 n

theorem printHex_ne_nil (x : UInt32) : printHex x ≠ [] := List.cons_ne_nil _ _

/-- An `int` is printed in eleven bytes at most. -/
theorem length_printInt_le (x : Int32) : (printInt x).length ≤ 11 := by
  have hb := x.toInt_lt
  have hb' := x.le_toInt
  have h := length_printNat_le (b := 10) (n := x.toInt.natAbs) (k := 10) (by decide) (by decide)
    (by omega)
  rw [printInt]
  split
  · exact Nat.succ_le_succ h
  · exact h.trans (by decide)

/-- A `long` is printed in twenty bytes at most. -/
theorem length_printLong_le (x : Int64) : (printLong x).length ≤ 20 := by
  have hb := x.toInt_lt
  have hb' := x.le_toInt
  have h := length_printNat_le (b := 10) (n := x.toInt.natAbs) (k := 19) (by decide) (by decide)
    (by omega)
  rw [printLong]
  split
  · exact Nat.succ_le_succ h
  · exact h.trans (by decide)

/-- No sign is printed of what is not negative. -/
theorem printInt_of_nonneg {x : Int32} (h : 0 ≤ x.toInt) : printInt x = printNat 10 x.toInt.toNat := by
  rw [printInt, if_neg fun hx => Int.not_lt.mpr h (Int32.lt_iff_toInt_lt.mp hx)]
  congr 1
  omega

/-- A number in base 16 is printed in its digits and an `x`. -/
theorem mem_printHex {x : UInt32} {c : UInt8} (hc : c ∈ printHex x) :
    c = 120 ∨ isDigit 16 c = true := by
  rcases List.mem_append.mp hc with hc | hc
  · rcases List.mem_pair.mp hc with rfl | rfl
    · exact .inr (by decide)
    · exact .inl rfl
  · exact .inr (isDigit_of_mem_printNat (by decide) (by decide) hc)

/-- A number in base 16 is printed in ten bytes at most. -/
theorem length_printHex_le (x : UInt32) : (printHex x).length ≤ 10 := by
  have h := length_printNat_le (b := 16) (n := x.toNat) (k := 8) (by decide) (by decide) x.toNat_lt
  rw [printHex, List.length_append]
  exact Nat.add_le_add_left h 2

/-- **An `int` survives** being printed and read. -/
theorem atoi_printInt (x : Int32) : atoi (printInt x) = x := by
  have hb := x.toInt_lt
  have hb' := x.le_toInt
  rw [printInt]
  split
  · rename_i hx
    have hx : x.toInt < 0 := Int32.lt_iff_toInt_lt.mp hx
    rw [atoi, strtol, scanInteger_neg_printNat (by decide) (by decide)]
    have e : Scanned.toLong ⟨true, x.toInt.natAbs, []⟩ = Int64.ofInt x.toInt := by
      simp only [Scanned.toLong, if_true]
      congr 1
      omega
    rw [Option.map_some, Option.getD_some, e]
    simp
  · rename_i hx
    have hx : ¬ x.toInt < 0 := fun h => hx (Int32.lt_iff_toInt_lt.mpr h)
    rw [atoi, strtol, scanInteger_printNat (by decide) (by decide)]
    have e : Scanned.toLong ⟨false, x.toInt.natAbs, []⟩ = Int64.ofInt x.toInt := by
      simp only [Scanned.toLong, Bool.false_eq_true, if_false]
      congr 1
      omega
    rw [Option.map_some, Option.getD_some, e]
    simp

/-- A number of 64 bits is read without a cut. -/
theorem toUlong_of_lt {n : Nat} (h : n < 2 ^ 64) (rest : List UInt8) :
    Scanned.toUlong ⟨false, n, rest⟩ = UInt64.ofNat n := by
  simp only [Scanned.toUlong, Nat.not_le.mpr h, if_false, Bool.false_eq_true]

/-- **An `unsigned int` survives**, though it is read as an `int`. -/
theorem atoi_printUnsigned (x : UInt32) : (atoi (printUnsigned x.toNat)).toUInt32 = x := by
  have hx := x.toNat_lt
  rw [printUnsigned, atoi, strtol, scanInteger_printNat (by decide) (by decide)]
  have e : Scanned.toLong ⟨false, x.toNat, []⟩ = Int64.ofNat x.toNat := by
    simp only [Scanned.toLong, Bool.false_eq_true, if_false]
    rw [Nat.min_eq_left (by omega)]
    rfl
  rw [Option.map_some, Option.getD_some, e]
  apply UInt32.toNat_inj.mp
  simp

/-- Where a digit stands behind `0x`, the prefix is taken. -/
theorem scanInteger_hex {s : List UInt8} (hne : s ≠ []) (hhead : ∀ c ∈ s.head?, isDigit 16 c = true) :
    scanInteger 0 (ascii "0x" ++ s) = (takeDigits 16 s).map fun p => ⟨false, p.1, p.2⟩ := by
  cases s with
  | nil => exact absurd rfl hne
  | cons c s =>
      have hprefix : takePrefix (48 :: 120 :: c :: s) = (16, c :: s) := if_pos ⟨.inl rfl, hhead c rfl⟩
      have hsign : takeSign (trimLeft (ascii "0x" ++ c :: s)) = (false, 48 :: 120 :: c :: s) := rfl
      rw [scanInteger, hsign]
      simp only [if_true, hprefix]

/-- **A number printed in base 16 survives.** -/
theorem strtoul_printHex (x : UInt32) : (strtoul 0 (printHex x)).toUInt32 = x := by
  have hx := x.toNat_lt
  have hscan : scanInteger 0 (printHex x) = some ⟨false, x.toNat, []⟩ := by
    rw [printHex, scanInteger_hex (printNat_ne_nil 16 _) fun c => head_printNat (by decide) (by decide),
      takeDigits_printNat (by decide) (by decide)]
    rfl
  rw [strtoul, hscan, Option.map_some, Option.getD_some, toUlong_of_lt (by omega)]
  apply UInt32.toNat_inj.mp
  simp

/-- The first digits of a number. -/
theorem takeDigits_take_printNat {b n j : Nat} (h1 : 1 < b) (h36 : b ≤ 36) (hn : n ≠ 0) (hj : j ≠ 0) :
    takeDigits b ((printNat b n).take j) = some (n / b ^ ((printNat b n).length - j), []) := by
  have hprint : printNat b n = (b.digits n).reverse.map digitChar := if_neg hn
  have hlen : (printNat b n).length = (b.digits n).length := by
    rw [hprint, List.length_map, List.length_reverse]
  have htake : (printNat b n).take j =
      ((b.digits n).drop ((b.digits n).length - j)).reverse.map digitChar := by
    rw [hprint, ← List.map_take, List.take_reverse]
  have hall : ∀ c ∈ (printNat b n).take j, isDigit b c = true := fun _ hc =>
    isDigit_of_mem_printNat h1 h36 (List.mem_of_mem_take hc)
  have hne : (printNat b n).take j ≠ [] := by
    simp [hj, printNat_ne_nil]
  have hval : ((printNat b n).take j).foldl (fun n c => n * b + (digitVal c).getD 0) 0 =
      n / b ^ ((printNat b n).length - j) := by
    rw [htake, foldl_digits _ fun d hd => (Nat.digits_lt_base h1 (List.mem_of_mem_drop hd)).trans_le h36,
      hlen, Nat.self_div_pow_eq_ofDigits_drop _ _ h1]
  simp only [takeDigits, List.takeWhile_eq_self_iff.mpr hall, List.dropWhile_eq_nil_iff.mpr hall,
    if_neg hne, hval]

/-- A number that lost digits at its end is another number. -/
theorem strtoul_take_printHex_ne {x : UInt32} (hx : x ≠ 0) {k : Nat} (hk : k < (printHex x).length) :
    (strtoul 0 ((printHex x).take k)).toUInt32 ≠ x := by
  have hn : x.toNat ≠ 0 := fun e => hx (UInt32.toNat_inj.mp e)
  have hlt := x.toNat_lt
  rcases k with _ | _ | _ | j
  · exact Ne.symm hx
  · exact Ne.symm hx
  · exact Ne.symm hx
  · -- at least one digit is left behind the prefix, and at least one is gone
    have hlen : j + 1 < (printNat 16 x.toNat).length := by
      have hprefix : (ascii "0x").length = 2 := rfl
      rw [printHex, List.length_append, hprefix] at hk
      omega
    have htake : (printHex x).take (j + 1 + 2) = ascii "0x" ++ (printNat 16 x.toNat).take (j + 1) := rfl
    have hne : (printNat 16 x.toNat).take (j + 1) ≠ [] := by
      simp [printNat_ne_nil]
    have hhead : ∀ c ∈ ((printNat 16 x.toNat).take (j + 1)).head?, isDigit 16 c = true := fun c hc =>
      isDigit_of_mem_printNat (by decide) (by decide) (List.mem_of_mem_take (List.mem_of_mem_head? hc))
    have hsmall : x.toNat / 16 ^ ((printNat 16 x.toNat).length - (j + 1)) < x.toNat :=
      Nat.div_lt_self (Nat.pos_of_ne_zero hn) (Nat.one_lt_pow (by omega) (by decide))
    have hj : j + 1 ≠ 0 := Nat.succ_ne_zero j
    intro e
    rw [htake, strtoul, scanInteger_hex hne hhead,
      takeDigits_take_printNat (by decide) (by decide) hn hj, Option.map_some,
      Option.map_some, Option.getD_some, toUlong_of_lt (by omega)] at e
    have he := congrArg UInt32.toNat e
    rw [UInt64.toNat_toUInt32, UInt64.toNat_ofNat', Nat.mod_mod_of_dvd _ (by decide),
      Nat.mod_eq_of_lt (by omega)] at he
    omega

/-- A zero stays one. -/
theorem strtoul_take_printHex_zero (k : Nat) : (strtoul 0 ((printHex 0).take k)).toUInt32 = 0 := by
  rcases k with _ | _ | _ | k
  · rfl
  · rfl
  · rfl
  · have htake : (printHex 0).take (k + 1 + 2) = printHex 0 :=
      List.take_of_length_le (Nat.le_add_left 3 k)
    rw [htake, strtoul_printHex]

/-- A number other than 0 does not start with a zero. -/
theorem printNat_head_ne {n : Nat} (hn : n ≠ 0) : ∃ c s, printNat 10 n = c :: s ∧ c ≠ 48 := by
  have hrev : (Nat.digits 10 n).reverse ≠ [] := fun e =>
    Nat.digits_ne_nil_iff_ne_zero.mpr hn (List.reverse_eq_nil_iff.mp e)
  obtain ⟨d, ds, hds⟩ := List.exists_cons_of_ne_nil hrev
  have hdigits : Nat.digits 10 n = ds.reverse ++ [d] := by
    rw [← List.reverse_cons, ← hds, List.reverse_reverse]
  have hlast := Nat.getLast_digit_ne_zero 10 hn
  have hd0 : d ≠ 0 := by simpa only [hdigits, List.getLast_concat] using hlast
  have hlt : d < 10 := Nat.digits_lt_base (by decide) (hdigits ▸ List.mem_concat_self)
  refine ⟨digitChar d, ds.map digitChar, ?_, ?_⟩
  · rw [printNat, if_neg hn, hds, List.map_cons]
  · intro e
    have hv := digitVal_digitChar d (hlt.trans (by decide))
    rw [e] at hv
    exact hd0 (Option.some.inj hv).symm

/-- There is no prefix without a zero. -/
theorem takePrefix_of_ne {c : UInt8} (hc : c ≠ 48) (s : List UInt8) :
    takePrefix (c :: s) = (10, c :: s) := by
  unfold takePrefix
  split
  · rename_i e
    exact absurd (List.cons.inj e).1 hc
  · rename_i e
    exact absurd (List.cons.inj e).1 hc
  · rfl

/-- **A number of 64 bits survives**, when it is not 0. -/
theorem strtoul_printUnsigned {x : UInt64} (h : x ≠ 0) :
    strtoul 0 (printUnsigned x.toNat) = x := by
  have hn : x.toNat ≠ 0 := fun e => h (UInt64.toNat_inj.mp e)
  have hscan : scanInteger 0 (printUnsigned x.toNat) = some ⟨false, x.toNat, []⟩ := by
    have hd := takeDigits_printNat (b := 10) (by decide) (by decide) x.toNat
    have hprefix : takePrefix (printNat 10 x.toNat) = (10, printNat 10 x.toNat) := by
      obtain ⟨c, s, hs, hc⟩ := printNat_head_ne hn
      rw [hs]
      exact takePrefix_of_ne hc s
    rw [printUnsigned, scanInteger,
      takeSign_of_isDigit (b := 10) (printNat_ne_nil 10 _) fun c =>
        head_printNat (by decide) (by decide)]
    simp only [if_true, hprefix, hd]
    rfl
  rw [strtoul, hscan, Option.map_some, Option.getD_some, toUlong_of_lt x.toNat_lt]
  simp

/-! ### The texts that are read -/

/-- The value of a row of digits. -/
def digitsValue (base : Nat) (digits : List UInt8) : Nat :=
  digits.foldl (fun n c => n * base + (digitVal c).getD 0) 0

/-- The text is white space, a sign, digits, and `rest`, which does not go on with a digit. -/
structure IsNumeral (base : Nat) (text : List UInt8) (neg : Bool) (digits rest : List UInt8) :
    Prop where
  text_eq : ∃ blank sign, text = blank ++ (sign ++ (digits ++ rest)) ∧
    (∀ c ∈ blank, isSpace c = true) ∧ (neg = true ∧ sign = [45] ∨ neg = false ∧ sign ∈ [[], [43]])
  digits_ne : digits ≠ []
  isDigit : ∀ c ∈ digits, isDigit base c = true
  stops : ∀ c ∈ rest.head?, Support.isDigit base c = false

/-- The number that was found. -/
def Scanned.value (n : Scanned) : Int := if n.neg then -n.magnitude else n.magnitude

section

variable {base : Nat} {s digits rest : List UInt8} {neg : Bool} {n : Scanned}

/-- Of a string the white space and a sign are taken. -/
theorem takeSign_eq (s : List UInt8) : ∃ sign, s = sign ++ (takeSign s).2 ∧
    ((takeSign s).1 = true ∧ sign = [45] ∨ (takeSign s).1 = false ∧ sign ∈ [[], [43]]) := by
  cases s with
  | nil => exact ⟨[], rfl, .inr ⟨rfl, List.mem_cons_self⟩⟩
  | cons c s =>
      rw [takeSign]
      split
      · rename_i hc
        exact ⟨[45], by rw [hc]; rfl, .inl ⟨rfl, rfl⟩⟩
      · split
        · rename_i hc
          exact ⟨[43], by rw [hc]; rfl, .inr ⟨rfl, List.mem_pair.mpr (.inr rfl)⟩⟩
        · exact ⟨[], rfl, .inr ⟨rfl, List.mem_cons_self⟩⟩

/-- The digits are taken as far as they go. -/
theorem takeDigits_eq_some {m : Nat} : takeDigits base s = some (m, rest) ↔
    ∃ digits, digits ≠ [] ∧ (∀ c ∈ digits, isDigit base c = true) ∧
      (∀ c ∈ rest.head?, isDigit base c = false) ∧ s = digits ++ rest ∧
      m = digitsValue base digits := by
  constructor
  · intro h
    simp only [takeDigits] at h
    split at h
    · cases h
    · rename_i hne
      cases h
      refine ⟨_, hne, fun c hc => List.mem_takeWhile_imp hc, fun c hc => ?_,
        List.takeWhile_append_dropWhile.symm, rfl⟩
      have hnot := List.head?_dropWhile_not (isDigit base) s
      rw [Option.mem_def.mp hc] at hnot
      exact hnot
  · rintro ⟨digits, hne, hall, hstop, rfl, rfl⟩
    have htake : (digits ++ rest).takeWhile (isDigit base) = digits := by
      rw [List.takeWhile_append_of_pos hall]
      cases rest with
      | nil => simp
      | cons c t => simp [hstop c rfl]
    have hdrop : (digits ++ rest).dropWhile (isDigit base) = rest := by
      rw [List.dropWhile_append_of_pos hall]
      cases rest with
      | nil => rfl
      | cons c t => simp [hstop c rfl]
    simp only [takeDigits, htake, hdrop, if_neg hne]
    rfl

/-- The subject of `strtol` in a base without prefixes: the numeral the string starts with. -/
theorem scanInteger_eq_some (hb : base ≠ 0) : scanInteger base s = some n ↔
    ∃ digits, IsNumeral base s n.neg digits n.rest ∧ n.magnitude = digitsValue base digits := by
  simp only [scanInteger, if_neg hb, Option.map_eq_some_iff]
  constructor
  · rintro ⟨⟨m, rest⟩, hd, rfl⟩
    obtain ⟨digits, hne, hall, hstop, hs, hm⟩ := takeDigits_eq_some.mp hd
    obtain ⟨sign, hsign, hneg⟩ := takeSign_eq (trimLeft s)
    refine ⟨digits, ⟨⟨s.takeWhile isSpace, sign, ?_, fun c hc => List.mem_takeWhile_imp hc, hneg⟩,
      hne, hall, hstop⟩, hm⟩
    rw [← hs, ← hsign]
    exact List.takeWhile_append_dropWhile.symm
  · rintro ⟨digits, ⟨⟨blank, sign, rfl, hblank, hneg⟩, hne, hall, hstop⟩, hm⟩
    obtain ⟨d, ds, rfl⟩ := List.exists_cons_of_ne_nil hne
    obtain ⟨hs, hplus, hminus⟩ := isDigit_ne (hall d List.mem_cons_self)
    have hsign : takeSign (trimLeft (blank ++ (sign ++ ((d :: ds) ++ n.rest)))) =
        (n.neg, (d :: ds) ++ n.rest) := by
      rw [trimLeft, List.dropWhile_append_of_pos hblank]
      -- neither the sign nor the first digit is white space
      rcases hneg with ⟨hn, rfl⟩ | ⟨hn, hm⟩
      · rw [hn]
        rfl
      · rw [hn]
        rcases List.mem_pair.mp hm with rfl | rfl
        · simp [hs, takeSign, hplus, hminus]
        · rfl
    refine ⟨(n.magnitude, n.rest), ?_, by rw [hsign]⟩
    rw [hsign]
    exact takeDigits_eq_some.mpr ⟨_, hne, hall, hstop, rfl, hm⟩

/-- The nearest `long` is the number itself when that is one. -/
theorem Scanned.toLong_toInt (hlo : -2 ^ 63 ≤ n.value) (hhi : n.value < 2 ^ 63) :
    n.toLong.toInt = n.value := by
  have e : n.toLong = Int64.ofInt n.value := by
    simp only [value] at hlo hhi
    simp only [value, toLong]
    congr 1
    cases hn : n.neg with
    | false =>
        rw [hn, if_neg Bool.false_ne_true] at hhi
        rw [if_neg Bool.false_ne_true, if_neg Bool.false_ne_true]
        omega
    | true =>
        rw [hn, if_pos rfl] at hlo
        rw [if_pos rfl, if_pos rfl]
        omega
  rw [e, Int64.toInt_ofInt_of_le hlo hhi]

end

end Support
