import Mathlib.Data.List.TakeWhile

/-!
# Support — CStr

NUL-terminated strings in arrays of `char`: the bytes before the NUL, which hold no NUL themselves
and leave room for it.  A string gets into such an array by `CStr.cut` only, which takes what has room,
as `strncpy` does with one byte less than the array has; so two strings that differ behind that room are
one in the array, and what was in an array of the size fits again (`CStr.cut_bytes`).
-/

namespace Support

/-- The bytes of an ASCII literal. -/
def ascii (s : String) : List UInt8 := s.toList.map fun c => UInt8.ofNat c.toNat

/-- A string in a `char[cap]`. -/
structure CStr (cap : Nat) where
  bytes : List UInt8
  nul_free : 0 ∉ bytes
  length_lt : bytes.length < cap
deriving DecidableEq, Repr

namespace CStr

/-! The arrays of a fixed size have room for the NUL. -/

theorem pos_16 : 0 < 16 := by decide

theorem pos_18 : 0 < 18 := by decide

theorem pos_32 : 0 < 32 := by decide

theorem pos_64 : 0 < 64 := by decide

theorem pos_128 : 0 < 128 := by decide

theorem pos_256 : 0 < 256 := by decide

/-- `strncpy(dst, src, sizeof(dst) - 1)` into an array of zeroes: the string of `src`, cut to fit. -/
def cut {cap : Nat} (h : 0 < cap) (src : List UInt8) : CStr cap where
  bytes := (src.takeWhile (· ≠ 0)).take (cap - 1)
  nul_free := by
    intro hm
    simpa using List.mem_takeWhile_imp (List.mem_of_mem_take hm)
  length_lt := by
    rw [List.length_take]
    omega

/-- A string is copied into an array of its size. -/
theorem cut_bytes {cap : Nat} (h : 0 < cap) (s : CStr cap) : cut h s.bytes = s := by
  have hb : (s.bytes.takeWhile (· ≠ 0)).take (cap - 1) = s.bytes := by
    rw [List.takeWhile_eq_self_iff.mpr fun c hc => by simpa using ne_of_mem_of_not_mem hc s.nul_free]
    exact List.take_of_length_le (Nat.le_sub_one_of_lt s.length_lt)
  cases s
  simp only [cut, hb]

/-- An array that holds no byte is the one that was cleared. -/
theorem eq_cut_nil {cap : Nat} (h : 0 < cap) {s : CStr cap} (hs : s.bytes = []) : s = cut h [] := by
  rw [← cut_bytes h s, hs]

/-- A literal that fits. -/
def lit {cap : Nat} (s : String) (h : 0 ∉ ascii s ∧ (ascii s).length < cap) : CStr cap :=
  ⟨ascii s, h.1, h.2⟩

end CStr

end Support
