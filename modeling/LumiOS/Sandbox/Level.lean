import LumiOS.Sandbox.PolicyFile

/-!
# Sandbox — Level

The level of a policy from a file.  `sbx_policy_load` starts from an all-zero policy and reads a value
with `atoi`; so a file loads as `SBX_LEVEL_NONE`, which turns the sandbox off, when no line sets the
level as well as when the value of the last one that does is no number (`level_none_iff`).
-/

namespace LumiOS.Sandbox

open Support

/-! ### Level lines -/

/-- The value of a line `level=value`, up to the blanks around it. -/
def levelLine (line : List UInt8) : Option (List UInt8) :=
  match breakAt 61 line with
  | some (key, rest) =>
    if key = ascii "level" then some ((trimLeft rest).takeWhile (!isSpace ·)) else none
  | none => none

/-- The value of the last level line of a text. -/
def lastLevelLine (text : List UInt8) : Option (List UInt8) :=
  ((text.splitOn newline).filterMap levelLine).getLast?

/-- A decimal numeral equal to 0. -/
def ZeroNumeral (val : List UInt8) : Prop := val ≠ [] ∧ ∀ c ∈ val, c = 48

instance (val : List UInt8) : Decidable (ZeroNumeral val) :=
  haveI : Decidable (∀ c ∈ val, c = 48) := List.decidableBAll _ val
  inferInstanceAs (Decidable (_ ∧ _))

/-! ### What the loader takes for the level -/

/-- The value the loop of `sbx_policy_load` gives to `atoi`, if it takes the line for a level. -/
def levelSetting (piece : List UInt8) : Option (List UInt8) :=
  match parsePolicyLine (policyLine piece) with
  | some (.level, val) => some val
  | _ => none

/-- The last such value of a text. -/
def lastLevelSetting (text : List UInt8) : Option (List UInt8) :=
  ((pieces (policyLineSize - 1) text).filterMap levelSetting).getLast?

section

variable {disk : Disk} {policy before : Policy} {path text : List UInt8}

theorem level_loadPiece (policy : Policy) (piece : List UInt8) :
    (loadPiece policy piece).level = ((levelSetting piece).map atoi).getD policy.level := by
  rw [loadPiece, levelSetting]
  cases parsePolicyLine (policyLine piece) with
  | none => rfl
  | some kv =>
      obtain ⟨key, val⟩ := kv
      cases key with
      | path =>
          simp only [Policy.assign, landlockAddPath]
          repeat' split
          all_goals rfl
      | name | level | net | ipc | hw | apparmor | maxMemory | maxPids | maxFds => rfl

theorem level_foldl (ps : List (List UInt8)) (policy : Policy) :
    (ps.foldl loadPiece policy).level =
      (((ps.filterMap levelSetting).getLast?).map atoi).getD policy.level := by
  induction ps generalizing policy with
  | nil => rfl
  | cons piece ps ih =>
      rw [List.foldl_cons, ih, level_loadPiece, List.filterMap_cons]
      cases levelSetting piece with
      | none => rfl
      | some val =>
          rw [List.getLast?_cons]
          cases (ps.filterMap levelSetting).getLast? <;> rfl

/-- The level of a text: that of its last setting, and 0 without one. -/
theorem level_policyOfText (text : List UInt8) :
    (policyOfText text).level = ((lastLevelSetting text).map atoi).getD levelNone :=
  level_foldl _ _

/-! ### Files without a sandbox -/

/-- **A file without a sandbox.**  That the level is `SBX_LEVEL_NONE` only if the last level line says
so in digits holds exactly of the files whose last setting of the level is a number other than 0, and
of those whose last level line does say so. -/
theorem level_none_iff (htext : disk.read path = some text)
    (hload : sbxPolicyLoad disk before path = (0, policy)) :
    (policy.level = levelNone → ∃ val, lastLevelLine text = some val ∧ ZeroNumeral val) ↔
      (∃ val, lastLevelSetting text = some val ∧ atoi val ≠ 0) ∨
        ∃ val, lastLevelLine text = some val ∧ ZeroNumeral val := by
  obtain ⟨text', htext', rfl⟩ := sbxPolicyLoad_zero hload
  obtain rfl := Option.some.inj (htext.symm.trans htext')
  have hlevel : (policyOfText text).level = levelNone ↔
      ¬ ∃ val, lastLevelSetting text = some val ∧ atoi val ≠ 0 := by
    rw [level_policyOfText]
    cases lastLevelSetting text with
    | none => simp
    | some val => simp [levelNone]
  rw [hlevel, not_imp_comm, or_iff_not_imp_right]

end

/-- A file for a system service says so. -/
theorem level_none_iff_zero :
    (policyOfText (ascii "level=0\n")).level = levelNone ∧
      ∃ val, lastLevelLine (ascii "level=0\n") = some val ∧ ZeroNumeral val := by
  have hlevel : (policyOfText (ascii "level=0\n")).level = levelNone := by decide
  exact ⟨hlevel, (level_none_iff (blank_read _) (sbxPolicyLoad_write rfl .zero _)).mpr
    (.inr ⟨ascii "0", by decide, by decide⟩) hlevel⟩

/-- A file that names its level, as the command line does, is loaded without a sandbox. -/
theorem level_name_none :
    ¬ ∀ (disk : Disk) (path text : List UInt8) (before policy : Policy), disk.read path = some text →
      sbxPolicyLoad disk before path = (0, policy) → policy.level = levelNone →
        ∃ val, lastLevelLine text = some val ∧ ZeroNumeral val := by
  intro h
  obtain ⟨val, hval, hzero⟩ := h _ policyPath (ascii "level=strict\n") .zero _ (blank_read _)
    (sbxPolicyLoad_write rfl .zero _) (by decide)
  have hstrict : lastLevelLine (ascii "level=strict\n") = some (ascii "strict") := by decide
  obtain rfl := Option.some.inj (hstrict.symm.trans hval)
  exact absurd hzero (by decide)

end LumiOS.Sandbox
