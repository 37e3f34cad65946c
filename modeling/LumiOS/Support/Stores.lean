import Mathlib.Data.List.Basic
import LumiOS.Support.CStr

/-!
# Support — Stores

What a function stores into an array it is handed without a size: the indices, in and out of bounds
alike, with the bytes.  An array is the bytes behind a pointer, as many as one asks for.
-/

namespace Support

/-- A byte stored at an index. -/
abbrev Store := Nat × UInt8

/-- The array after these stores, in their order. -/
def storeAll (mem : Nat → UInt8) (stores : List Store) : Nat → UInt8 :=
  stores.foldl (fun (mem : Nat → UInt8) (p : Store) => fun i => if i = p.1 then p.2 else mem i) mem

/-- Bytes stored one behind the other. -/
def storesAt : Nat → List UInt8 → List Store
  | _, [] => []
  | i, b :: bytes => (i, b) :: storesAt (i + 1) bytes

/-- The array holds a string. -/
structure Holds (mem : Nat → UInt8) (s : List UInt8) : Prop where
  byte : ∀ i (h : i < s.length), mem i = s[i]
  nul : mem s.length = 0

section

variable {mem : Nat → UInt8} {s t : List UInt8} {i j : Nat} {stores : List Store}

theorem storeAll_append (mem : Nat → UInt8) (st₁ st₂ : List Store) :
    storeAll mem (st₁ ++ st₂) = storeAll (storeAll mem st₁) st₂ := List.foldl_append

/-- A byte keeps its value when nothing is stored there. -/
theorem storeAll_of_ne (h : ∀ p ∈ stores, p.1 ≠ i) : storeAll mem stores i = mem i := by
  induction stores generalizing mem with
  | nil => rfl
  | cons p stores ih =>
      have hp : i ≠ p.1 := Ne.symm (h p List.mem_cons_self)
      rw [storeAll, List.foldl_cons]
      exact (ih fun q hq => h q (List.mem_cons_of_mem p hq)).trans (if_neg hp)

/-- A byte that is zero, or set to zero, when nothing else is stored. -/
theorem storeAll_zero (hz : ∀ p ∈ stores, p.2 = 0) (hi : mem i = 0 ∨ ∃ p ∈ stores, p.1 = i) :
    storeAll mem stores i = 0 := by
  induction stores generalizing mem with
  | nil =>
      rcases hi with hi | ⟨p, hp, -⟩
      · exact hi
      · cases hp
  | cons p stores ih =>
      rw [storeAll, List.foldl_cons]
      refine ih (fun q hq => hz q (List.mem_cons_of_mem p hq)) ?_
      by_cases hpi : i = p.1
      · exact .inl ((if_pos hpi).trans (hz p List.mem_cons_self))
      · rcases hi with hi | ⟨q, hq, hqi⟩
        · exact .inl ((if_neg hpi).trans hi)
        · rcases List.mem_cons.mp hq with rfl | hq
          · exact absurd hqi.symm hpi
          · exact .inr ⟨q, hq, hqi⟩

theorem storesAt_append (i : Nat) (s t : List UInt8) :
    storesAt i (s ++ t) = storesAt i s ++ storesAt (i + s.length) t := by
  induction s generalizing i with
  | nil => rfl
  | cons b s ih =>
      rw [List.cons_append, storesAt, ih (i + 1), List.length_cons, Nat.add_assoc,
        Nat.add_comm 1 s.length]
      rfl

theorem mem_storesAt {p : Store} (h : p ∈ storesAt i s) : i ≤ p.1 ∧ p.1 < i + s.length := by
  induction s generalizing i with
  | nil => cases h
  | cons b s ih =>
      rcases List.mem_cons.mp h with rfl | h
      · exact ⟨Nat.le_refl i, Nat.lt_add_of_pos_right (Nat.succ_pos _)⟩
      · have := ih h
        rw [List.length_cons]
        omega

/-- The bytes stand where they were stored. -/
theorem storeAll_storesAt (h : j < s.length) : storeAll mem (storesAt i s) (i + j) = s[j] := by
  induction s generalizing i j mem with
  | nil => cases h
  | cons b s ih =>
      rw [storesAt, storeAll, List.foldl_cons]
      cases j with
      | zero =>
          refine (storeAll_of_ne fun p hp => ?_).trans (if_pos rfl)
          exact Nat.ne_of_gt (mem_storesAt hp).1
      | succ j =>
          have hidx : i + (j + 1) = i + 1 + j := by omega
          rw [hidx]
          exact ih (Nat.lt_of_succ_lt_succ h)

theorem storeAll_storesAt_zero (mem : Nat → UInt8) (h : j < s.length) :
    storeAll mem (storesAt 0 s) j = s[j] := by
  have hget : storeAll mem (storesAt 0 s) (0 + j) = s[j] := storeAll_storesAt h
  rwa [Nat.zero_add] at hget

/-- A string stored with its NUL. -/
theorem holds_storesAt (mem : Nat → UInt8) (s : List UInt8) :
    Holds (storeAll mem (storesAt 0 (s ++ [0]))) s := by
  have hlen : (s ++ [(0 : UInt8)]).length = s.length + 1 := List.length_append
  constructor
  · intro i h
    have hi : i < (s ++ [0]).length := hlen ▸ Nat.lt_succ_of_lt h
    rw [storeAll_storesAt_zero mem hi, List.getElem_append_left h]
  · have hi : s.length < (s ++ [0]).length := hlen ▸ Nat.lt_succ_self _
    rw [storeAll_storesAt_zero mem hi, List.getElem_concat_length rfl]

/-- Zeroes behind a string end it. -/
theorem Holds.of_zeroes {n : Nat} (h : Holds mem (s ++ List.replicate n 0)) : Holds mem s where
  byte := fun i hi => by
    have hlt : i < (s ++ List.replicate n 0).length := by
      rw [List.length_append]
      exact hi.trans_le (Nat.le_add_right _ _)
    rw [h.byte i hlt, List.getElem_append_left hi]
  nul := by
    cases n with
    | zero =>
        rw [List.replicate_zero, List.append_nil] at h
        exact h.nul
    | succ n =>
        have hlt : s.length < (s ++ List.replicate (n + 1) 0).length := by
          rw [List.length_append, List.length_replicate]
          exact Nat.lt_add_of_pos_right (Nat.succ_pos n)
        rw [h.byte s.length hlt, List.getElem_append_right (Nat.le_refl _), List.getElem_replicate]

/-- A string is shortened by a NUL. -/
theorem Holds.cut (h : Holds mem s) (ht : t <+: s) :
    Holds (storeAll mem [(t.length, 0)]) t where
  byte := fun i hi => by
    have hne : ∀ p ∈ [((t.length, 0) : Store)], p.1 ≠ i := fun p hp => by
      rw [List.mem_singleton.mp hp]
      exact Nat.ne_of_gt hi
    rw [storeAll_of_ne hne, h.byte i (hi.trans_le ht.length_le), ht.getElem hi]
  nul := if_pos rfl

end

end Support
