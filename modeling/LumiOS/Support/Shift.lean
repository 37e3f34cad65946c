import Mathlib.Data.List.Basic

/-!
# Support — Shift

An entry taken out of an array in place: those behind it move down, one after the other.  The array keeps
its length, and what it held last stands in it twice.
-/

namespace Support

universe u

variable {α : Type u}

/-- `a[j] = a[j + 1]`. -/
def moveDown (a : List α) (j : Nat) : List α :=
  match a[j + 1]? with
  | none => a
  | some x => a.set j x

/-- `moveDown` at `k` places, from `j` on. -/
def shiftDown : Nat → Nat → List α → List α
  | _, 0, a => a
  | j, k + 1, a => shiftDown (j + 1) k (moveDown a j)

theorem moveDown_length (a : List α) (j : Nat) : (moveDown a j).length = a.length := by
  rw [moveDown]
  split
  · rfl
  · exact List.length_set

theorem shiftDown_length (j k : Nat) (a : List α) : (shiftDown j k a).length = a.length := by
  induction k generalizing j a with
  | zero => rfl
  | succ k ih => rw [shiftDown, ih, moveDown_length]

theorem moveDown_append (pre post : List α) (x y : α) :
    moveDown (pre ++ x :: y :: post) pre.length = pre ++ y :: y :: post := by
  have hget : (pre ++ x :: y :: post)[pre.length + 1]? = some y := by simp
  rw [moveDown, hget]
  simp

/-- **The entries move down** over the one that goes. -/
theorem shiftDown_append (pre mid post : List α) (x : α) : ∃ z,
    shiftDown pre.length mid.length (pre ++ x :: (mid ++ post)) = pre ++ mid ++ z :: post := by
  induction mid generalizing pre x with
  | nil => exact ⟨x, by rw [List.append_nil]; rfl⟩
  | cons y mid ih =>
      obtain ⟨z, hz⟩ := ih (pre ++ [y]) y
      refine ⟨z, ?_⟩
      rw [List.length_append, List.length_singleton, List.append_assoc, List.singleton_append] at hz
      rw [List.length_cons, shiftDown, List.cons_append, moveDown_append, hz]
      simp

/-- An entry of an array, written to. -/
theorem modify_append_cons (f : α → α) (pre post : List α) (x : α) :
    (pre ++ x :: post).modify pre.length f = pre ++ f x :: post := by
  rw [List.modify_eq_take_cons_drop (by simp)]
  simp

/-- **An entry is taken out** of the first `n`, whatever was written to it before. -/
theorem take_shiftDown {a pre post : List α} {x : α} {n : Nat} (f : α → α) (hn : n ≤ a.length)
    (ha : a.take n = pre ++ x :: post) :
    (shiftDown pre.length (n - 1 - pre.length) (a.modify pre.length f)).take (n - 1) =
      pre ++ post := by
  have hlen : n = pre.length + (post.length + 1) := by
    have := congrArg List.length ha
    rwa [List.length_take, Nat.min_eq_left hn, List.length_append, List.length_cons] at this
  have hsplit : a = pre ++ x :: (post ++ a.drop n) := by
    conv_lhs => rw [← List.take_append_drop n a, ha]
    rw [List.append_assoc, List.cons_append]
  obtain ⟨z, hz⟩ := shiftDown_append pre post (a.drop n) (f x)
  have hcount : n - 1 - pre.length = post.length := by omega
  rw [hcount]
  conv_lhs => rw [hsplit]
  rw [modify_append_cons, hz]
  refine List.take_left' ?_
  rw [List.length_append]
  omega

end Support
