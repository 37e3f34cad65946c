import Mathlib.Tactic.NormNum
import LumiOS.Support.Text

/-!
# Support — Appends

A text written piece by piece with `off += snprintf(buf + off, len - off, ...)`.  `snprintf` answers with
the length of the whole piece, also of one it cuts, so an offset may pass the end of the buffer, and
`len - off` then wraps around.  All calls are within the buffer exactly when the pieces before the last
fit it (`appendTexts_fit_iff`).
-/

namespace Support

/-- A call `snprintf(buf + off, size, ...)` that formats `text`. -/
structure SnprintfCall where
  off : Nat
  size : UInt64
  text : List UInt8

/-- The indices into `buf` that are written: the part of the text that fits, and a NUL. -/
def SnprintfCall.writes (call : SnprintfCall) : List Nat :=
  if call.size = 0 then []
  else List.range' call.off (min call.text.length (call.size.toNat - 1) + 1)

/-- The calls that append these texts, from an offset on. -/
def appendTexts (len : UInt64) : Nat → List (List UInt8) → List SnprintfCall
  | _, [] => []
  | off, text :: texts =>
    ⟨off, len - UInt64.ofNat off, text⟩ :: appendTexts len (off + text.length) texts

/-- The call stays within the buffer. -/
structure SnprintfCall.Fits (call : SnprintfCall) (len : UInt64) : Prop where
  off_le : call.off ≤ len.toNat
  size_le : call.size.toNat ≤ len.toNat - call.off
  writes_lt : ∀ i ∈ call.writes, i < len.toNat

section

variable {len : UInt64} {off : Nat} {text : List UInt8}

/-- The room that is left, when there is any. -/
theorem toNat_sub_ofNat (h : off ≤ len.toNat) : (len - UInt64.ofNat off).toNat = len.toNat - off := by
  have hlt : off < 2 ^ 64 := h.trans_lt len.toNat_lt
  have hoff : (UInt64.ofNat off).toNat = off := by
    rw [UInt64.toNat_ofNat', Nat.mod_eq_of_lt hlt]
  rw [UInt64.toNat_sub_of_le, hoff]
  rwa [UInt64.le_iff_toNat_le, hoff]

/-- A call that starts in the buffer, or at its end, stays within it. -/
theorem fits_iff : SnprintfCall.Fits ⟨off, len - UInt64.ofNat off, text⟩ len ↔ off ≤ len.toNat := by
  refine ⟨fun h => h.off_le, fun h => ⟨h, (toNat_sub_ofNat h).le, fun i hi => ?_⟩⟩
  have hsize := toNat_sub_ofNat h
  rw [SnprintfCall.writes] at hi
  split at hi
  · cases hi
  · rename_i hne
    have hpos : (len - UInt64.ofNat off).toNat ≠ 0 := fun e => hne (UInt64.toNat_inj.mp e)
    have hlt : i < off + (min text.length ((len - UInt64.ofNat off).toNat - 1) + 1) :=
      (List.mem_range'_1.mp hi).2
    have hmin := Nat.min_le_right text.length ((len - UInt64.ofNat off).toNat - 1)
    omega

/-- **Appending texts.**  Every call stays within the buffer exactly when all texts but the last fit
it. -/
theorem appendTexts_fit_iff (len : UInt64) (off : Nat) (texts : List (List UInt8)) (last : List UInt8) :
    (∀ call ∈ appendTexts len off (texts ++ [last]), call.Fits len) ↔
      off + texts.flatten.length ≤ len.toNat := by
  induction texts generalizing off with
  | nil => simpa [appendTexts] using fits_iff
  | cons text texts ih =>
      rw [List.cons_append, appendTexts, List.forall_mem_cons, fits_iff, ih, List.flatten_cons,
        List.length_append, Nat.add_assoc]
      omega

end

end Support
