import LumiOS.Support.Text

/-!
# Support — MountView

The files a process sees by their paths, and the mounts that change them.  A mount lies over what stood at
and beneath a path.  Where the mount it lies on is shared, others receive it too; a process with mounts of
its own can make them private, and from then on nobody receives anything (`Isolated.cover`).

Paths are taken as they are: there are no links.
-/

namespace Support

/-- What stands at a path: a directory, or anything else. -/
inductive FileKind where
  | dir
  | other
deriving DecidableEq, Repr

/-- The path leads on from a directory. -/
def Beneath (dir path : List UInt8) : Prop := dir ++ [47] <+: path

instance (dir path : List UInt8) : Decidable (Beneath dir path) :=
  inferInstanceAs (Decidable (_ <+: _))

/-- What a process sees, and what those received that it shares mounts with. -/
structure MountView where
  kind : List UInt8 → Option FileKind
  /-- Its mounts are its own, and not simply those of everybody. -/
  own : Bool
  /-- Whether the mount that a path lies on is shared with others. -/
  shared : List UInt8 → Bool
  /-- The paths on which others saw a change, the last one in front. -/
  received : List (List UInt8)

namespace MountView

/-- A change on a path is seen by others. -/
def Public (v : MountView) (path : List UInt8) : Prop := v.own = false ∨ v.shared path = true

instance (v : MountView) (path : List UInt8) : Decidable (v.Public path) :=
  inferInstanceAs (Decidable (_ ∨ _))

/-- A file made at a path. -/
def make (v : MountView) (path : List UInt8) (k : FileKind) : MountView :=
  { v with kind := fun q => if q = path then some k else v.kind q }

/-- A mount on a path: what stands there now, and beneath it, and whether what is mounted is shared by
itself. -/
def cover (v : MountView) (path : List UInt8) (top : FileKind) (inside : List UInt8 → Option FileKind)
    (joined : Bool) : MountView where
  kind q := if q = path then some top else if Beneath path q then inside q else v.kind q
  own := v.own
  shared q := if q = path ∨ Beneath path q then v.shared path || joined else v.shared q
  received := if v.Public path then path :: v.received else v.received

/-- All mounts made private, from the root on. -/
def makePrivate (v : MountView) : MountView :=
  if v.own then { v with shared := fun _ => false } else { v with received := [47] :: v.received }

/-- Nothing the process mounts is seen by others. -/
structure Isolated (v : MountView) : Prop where
  own : v.own = true
  unshared : ∀ path, v.shared path = false

section

variable {v : MountView} {path q : List UInt8} {k top : FileKind}
  {inside : List UInt8 → Option FileKind} {joined : Bool}

theorem Isolated.not_public (h : v.Isolated) (path : List UInt8) : ¬ v.Public path := by
  rintro (hown | hshared)
  · exact nomatch hown.symm.trans h.own
  · exact nomatch hshared.symm.trans (h.unshared path)

theorem isolated_makePrivate (h : v.own = true) : v.makePrivate.Isolated := by
  rw [makePrivate, if_pos h]
  exact ⟨h, fun _ => rfl⟩

theorem Isolated.make (h : v.Isolated) : (v.make path k).Isolated := ⟨h.own, h.unshared⟩

theorem Isolated.cover (h : v.Isolated) : (v.cover path top inside false).Isolated where
  own := h.own
  unshared q := by
    simp only [MountView.cover, h.unshared, Bool.or_false, ite_self]

theorem Isolated.received_cover (h : v.Isolated) :
    (v.cover path top inside joined).received = v.received := if_neg (h.not_public path)

/-- Others never see less. -/
theorem received_suffix_cover : v.received <:+ (v.cover path top inside joined).received := by
  simp only [cover]
  split
  · exact List.suffix_cons _ _
  · exact List.suffix_refl _

theorem not_beneath_self (path : List UInt8) : ¬ Beneath path path := fun h => by
  have hle := h.length_le
  rw [List.length_append, List.length_singleton] at hle
  omega

theorem cover_kind_beneath (h : Beneath path q) :
    (v.cover path top inside joined).kind q = inside q := by
  have hne : q ≠ path := fun e => not_beneath_self path (e ▸ h)
  simp only [cover, if_neg hne, if_pos h]

theorem cover_kind_apart (hne : q ≠ path) (h : ¬ Beneath path q) :
    (v.cover path top inside joined).kind q = v.kind q := by
  simp only [cover, if_neg hne, if_neg h]

theorem make_kind_self : (v.make path k).kind path = some k := if_pos rfl

theorem make_kind_ne (h : q ≠ path) : (v.make path k).kind q = v.kind q := if_neg h

end

end MountView

end Support
