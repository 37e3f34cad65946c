import Mathlib.Logic.Relation
import LumiOS.Sandbox.Apply

/-!
# Sandbox — Landlock

What a process may do with files once `landlock_apply` returned 0.  A ruleset restricts the rights it
handles, and allows of them what its rules say for the files at and beneath their paths.

* `landlockApply_sound_iff`: no more is allowed than the policy says, but for the five rights that
  `landlock.c` defines and leaves out of the mask it handles.
* `landlockApply_complete_iff`: what the policy says is allowed, but where a rule on a file that is no
  directory has a flag that is mapped to a right of directories too; the kernel takes no such rule.
-/

namespace LumiOS.Sandbox

open Support Relation

/-! ### Rights -/

/-- The `LANDLOCK_ACCESS_FS_` names of `landlock.c`. -/
inductive AccessFs where
  | execute | writeFile | readFile | readDir | removeDir | removeFile | makeChar | makeDir | makeReg
  | makeSock | makeFifo | makeBlock | makeSym | truncate
deriving DecidableEq, Repr

namespace AccessFs

/-- The bits as `landlock.c` defines them.  Its bit for `truncate` is bit 13, which the kernel has for
`LANDLOCK_ACCESS_FS_REFER`; the kernel's own `TRUNCATE` is bit 14. -/
def bit : AccessFs → UInt64
  | execute => accessExecute
  | writeFile => accessWriteFile
  | readFile => accessReadFile
  | readDir => accessReadDir
  | removeDir => accessRemoveDir
  | removeFile => accessRemoveFile
  | makeChar => (1 : UInt64) <<< 6
  | makeDir => accessMakeDir
  | makeReg => accessMakeReg
  | makeSock => (1 : UInt64) <<< 9
  | makeFifo => (1 : UInt64) <<< 10
  | makeBlock => (1 : UInt64) <<< 11
  | makeSym => (1 : UInt64) <<< 12
  | truncate => accessTruncate

/-- A mask has the right. -/
def In (right : AccessFs) (mask : UInt64) : Prop := mask &&& right.bit ≠ 0

instance (right : AccessFs) (mask : UInt64) : Decidable (right.In mask) :=
  inferInstanceAs (Decidable (_ ≠ _))

/-- The right makes sense for a file that is no directory. -/
def OnFile (right : AccessFs) : Prop :=
  right = execute ∨ right = writeFile ∨ right = readFile ∨ right = truncate

instance (right : AccessFs) : Decidable right.OnFile := inferInstanceAs (Decidable (_ ∨ _))

end AccessFs

/-- The `SBX_FS_` flags. -/
def fsFlags : List UInt32 := [fsRead, fsWrite, fsExecute, fsCreate, fsDelete, fsTruncate]

/-- The rights `landlock.c` defines and `landlock_apply` does not handle. -/
def unhandledRights : List AccessFs := [.makeChar, .makeSock, .makeFifo, .makeBlock, .makeSym]

/-- The flags that `sbx_to_landlock` maps to a right that only makes sense for a directory. -/
def dirFlags : UInt32 := fsRead ||| fsCreate ||| fsDelete

section

variable {right : AccessFs} {flags : UInt32}

theorem or_and_ne_zero (a b c : UInt64) : (a ||| b) &&& c ≠ 0 ↔ a &&& c ≠ 0 ∨ b &&& c ≠ 0 := by
  have e : (a ||| b) &&& c = (a &&& c) ||| (b &&& c) := by
    apply UInt64.toBitVec_inj.mp
    simp only [UInt64.toBitVec_and, UInt64.toBitVec_or, BitVec.and_or_distrib_right]
  rw [e, ne_eq, UInt64.or_eq_zero_iff, not_and_or]

theorem and_or_ne_zero (a b c : UInt32) : a &&& (b ||| c) ≠ 0 ↔ a &&& b ≠ 0 ∨ a &&& c ≠ 0 := by
  have e : a &&& (b ||| c) = (a &&& b) ||| (a &&& c) := by
    apply UInt32.toBitVec_inj.mp
    simp only [UInt32.toBitVec_and, UInt32.toBitVec_or, BitVec.and_or_distrib_left]
  rw [e, ne_eq, UInt32.or_eq_zero_iff, not_and_or]

/-- The mapping is flag by flag. -/
theorem in_sbxToLandlock (right : AccessFs) (flags : UInt32) : right.In (sbxToLandlock flags) ↔
    ∃ flag ∈ fsFlags, flags &&& flag ≠ 0 ∧ right.In (sbxToLandlock flag) := by
  have when_iff : ∀ (p : Prop) [Decidable p] (access : UInt64),
      (if p then access else 0) &&& right.bit ≠ 0 ↔ p ∧ access &&& right.bit ≠ 0 := by
    intro p _ access
    by_cases h : p
    · rw [if_pos h, and_iff_right h]
    · simp [h]
  have hflags : sbxToLandlock fsRead = accessReadFile ||| accessReadDir ∧
      sbxToLandlock fsWrite = accessWriteFile ∧ sbxToLandlock fsExecute = accessExecute ∧
      sbxToLandlock fsCreate = accessMakeReg ||| accessMakeDir ∧
      sbxToLandlock fsDelete = accessRemoveFile ||| accessRemoveDir ∧
      sbxToLandlock fsTruncate = accessTruncate := by decide
  obtain ⟨hr, hw, hx, hc, hd, ht⟩ := hflags
  simp only [fsFlags, List.mem_cons, List.not_mem_nil, or_false, exists_eq_or_imp, exists_eq_left, hr,
    hw, hx, hc, hd, ht, AccessFs.In]
  rw [sbxToLandlock]
  simp only [or_and_ne_zero _ _ right.bit, when_iff, or_assoc]

theorem forall_fsFlags {P : UInt32 → Prop} : (∀ flag ∈ fsFlags, P flag) ↔
    P fsRead ∧ P fsWrite ∧ P fsExecute ∧ P fsCreate ∧ P fsDelete ∧ P fsTruncate := by
  simp only [fsFlags, List.forall_mem_cons, List.not_mem_nil, false_imp_iff, implies_true, and_true]

/-- Every right a flag is mapped to is handled. -/
theorem in_handledAccess_of_flags (h : right.In (sbxToLandlock flags)) : right.In handledAccess := by
  obtain ⟨flag, hflag, -, hin⟩ := (in_sbxToLandlock right flags).mp h
  have hall : ∀ flag ∈ fsFlags, right.In (sbxToLandlock flag) → right.In handledAccess :=
    forall_fsFlags.mpr (by cases right <;> decide)
  exact hall flag hflag hin

theorem in_handledAccess (right : AccessFs) : right.In handledAccess ↔ right ∉ unhandledRights := by
  cases right <;> decide

/-- The flags that are mapped to a right of directories only. -/
theorem dirFlags_iff (flags : UInt32) : flags &&& dirFlags ≠ 0 ↔
    ∃ right : AccessFs, right.In (sbxToLandlock flags) ∧ ¬ right.OnFile := by
  have hsplit : flags &&& dirFlags ≠ 0 ↔
      flags &&& fsRead ≠ 0 ∨ flags &&& fsCreate ≠ 0 ∨ flags &&& fsDelete ≠ 0 := by
    rw [dirFlags, and_or_ne_zero, and_or_ne_zero, or_assoc]
  rw [hsplit]
  constructor
  · have hright : ∀ (flag : UInt32) (right : AccessFs), flag ∈ fsFlags → flags &&& flag ≠ 0 →
        right.In (sbxToLandlock flag) → right.In (sbxToLandlock flags) :=
      fun flag right hflag hne hin => (in_sbxToLandlock right flags).mpr ⟨flag, hflag, hne, hin⟩
    rintro (hne | hne | hne)
    · exact ⟨.readDir, hright fsRead _ (by decide) hne (by decide), by decide⟩
    · exact ⟨.makeReg, hright fsCreate _ (by decide) hne (by decide), by decide⟩
    · exact ⟨.removeFile, hright fsDelete _ (by decide) hne (by decide), by decide⟩
  · rintro ⟨right, hin, hno⟩
    obtain ⟨flag, hflag, hne, hin⟩ := (in_sbxToLandlock right flags).mp hin
    have hall : ∀ flag ∈ fsFlags, right.In (sbxToLandlock flag) →
        right.OnFile ∨ flag = fsRead ∨ flag = fsCreate ∨ flag = fsDelete :=
      forall_fsFlags.mpr (by cases right <;> decide)
    rcases (hall flag hflag hin).resolve_left hno with rfl | rfl | rfl
    · exact .inl hne
    · exact .inr (.inl hne)
    · exact .inr (.inr hne)

end

/-! ### Rules on files -/

/-- The files of a system: what a path names, and the directory a file is in. -/
structure Files (ι : Type) where
  lookup : List UInt8 → Option ι
  parent : ι → Option ι
  isDir : ι → Bool

section

variable {ι : Type}

namespace Files

/-- The file is this one, or is beneath it. -/
def Beneath (files : Files ι) (x y : ι) : Prop := ReflTransGen (fun x y => files.parent x = some y) x y

/-- The path names the file, or an ancestor of it. -/
def Covers (files : Files ι) (path : List UInt8) (x : ι) : Prop :=
  ∃ y, files.lookup path = some y ∧ files.Beneath x y

/-- The rules the kernel takes for a file: they allow something, and for a file that is no directory
nothing but the rights of such files. -/
def Takes (files : Files ι) (y : ι) (mask : UInt64) : Prop :=
  mask ≠ 0 ∧ (files.isDir y = true ∨ ∀ right : AccessFs, right.In mask → right.OnFile)

end Files

/-- What the kernel lets a process under the ruleset do: a right the ruleset handles is denied unless a
rule on the file or an ancestor allows it, and any other is not restricted. -/
def Ruleset.Allows (files : Files ι) (ruleset : Ruleset) (right : AccessFs) (x : ι) : Prop :=
  right.In ruleset.handledAccessFs →
    ∃ rule ∈ ruleset.pathBeneath, right.In rule.2 ∧ files.Covers rule.1.bytes x

/-- The process may exercise the right on the path, as far as its rulesets go. -/
def Task.May (files : Files ι) (task : Task) (right : AccessFs) (path : List UInt8) : Prop :=
  ∃ x, files.lookup path = some x ∧ ∀ ruleset ∈ task.domains, ruleset.Allows files right x

variable {files : Files ι} {env : LandlockEnv} {policy : Policy} {task task' : Task}
  {right : AccessFs} {path : List UInt8} {x : ι}

theorem mem_addPathRules {i : Nat} {rules : List PathRule} {r : CStr 256 × UInt64} :
    r ∈ addPathRules env i rules ↔ ∃ j rule, rules[j]? = some rule ∧ env.openPath (i + j) = true ∧
      env.addRule (i + j) = true ∧ r = (rule.path, sbxToLandlock rule.flags) := by
  -- on the rules left; `i` is the index of the first of them
  induction rules generalizing i with
  | nil => simp [addPathRules]
  | cons rule rules ih =>
      have hrest : (∃ j rule', (rule :: rules)[j]? = some rule' ∧ env.openPath (i + j) = true ∧
          env.addRule (i + j) = true ∧ r = (rule'.path, sbxToLandlock rule'.flags)) ↔
          (env.openPath i = true ∧ env.addRule i = true ∧ r = (rule.path, sbxToLandlock rule.flags)) ∨
            r ∈ addPathRules env (i + 1) rules := by
        rw [ih]
        constructor
        · rintro ⟨j, rule', hj, h⟩
          cases j with
          | zero =>
              cases hj
              exact .inl h
          | succ j =>
              have e : i + (j + 1) = i + 1 + j := by omega
              rw [e] at h
              exact .inr ⟨j, rule', hj, h⟩
        · rintro (h | ⟨j, rule', hj, h⟩)
          · exact ⟨0, rule, rfl, h⟩
          · have e : i + 1 + j = i + (j + 1) := by omega
            rw [e] at h
            exact ⟨j + 1, rule', hj, h⟩
      rw [hrest, addPathRules]
      split
      · rename_i hc
        simp only [List.mem_cons, hc, true_and]
      · rename_i hc
        rw [or_iff_right fun h => hc ⟨h.1, h.2.1⟩]

theorem landlockApply_zero (h : landlockApply env policy task = (0, task')) :
    task'.domains = landlockRuleset env policy :: task.domains := by
  obtain ⟨hd, -⟩ := landlockApply_domains env policy task
  rw [h] at hd
  rw [hd, if_pos]
  by_contra hs
  simp only [landlockApply] at h
  repeat' split at h
  all_goals cases h
  rename_i hp hc hn hr
  exact hs ⟨Bool.eq_true_of_not_eq_false hp, Bool.eq_true_of_not_eq_false hc,
    Bool.eq_true_of_not_eq_false hn, Bool.eq_true_of_not_eq_false hr⟩

/-- What a process may do afterwards: what it might before, and the new ruleset allows. -/
theorem may_of_apply (h : landlockApply env policy task = (0, task')) :
    task'.May files right path ↔ ∃ x, files.lookup path = some x ∧
      (landlockRuleset env policy).Allows files right x ∧
        ∀ ruleset ∈ task.domains, ruleset.Allows files right x := by
  simp only [Task.May, landlockApply_zero h, List.forall_mem_cons]

/-! ### Nothing more than the policy says -/

/-- **`landlock_apply` allows no more than the policy**, on any path: the right is one it handles, or
the process did not have it there before. -/
theorem landlockApply_sound_iff (files : Files ι) (h : landlockApply env policy task = (0, task'))
    (right : AccessFs) (path : List UInt8) :
    (task'.May files right path →
      ∃ rule ∈ policy.pathRules,
        (∃ x, files.lookup path = some x ∧ files.Covers rule.path.bytes x) ∧
        ∃ flag ∈ fsFlags, rule.flags &&& flag ≠ 0 ∧ right.In (sbxToLandlock flag)) ↔
      right ∉ unhandledRights ∨ ¬ task.May files right path := by
  rw [may_of_apply h, ← in_handledAccess]
  constructor
  · intro hsound
    by_contra hno
    obtain ⟨hunhandled, x, hx, hmay⟩ := not_or.mp hno |>.imp id not_not.mp
    obtain ⟨rule, -, -, flag, -, -, hin⟩ := hsound ⟨x, hx, fun hin => absurd hin hunhandled, hmay⟩
    exact hunhandled (in_handledAccess_of_flags hin)
  · rintro hor ⟨x, hx, hallows, hmay⟩
    have hhandled : right.In handledAccess := hor.resolve_right fun hno => hno ⟨x, hx, hmay⟩
    obtain ⟨r, hr, hin, hcovers⟩ := hallows hhandled
    obtain ⟨j, rule, hj, -, -, rfl⟩ := mem_addPathRules.mp hr
    exact ⟨rule, List.mem_of_getElem? hj, ⟨x, hx, hcovers⟩, (in_sbxToLandlock right rule.flags).mp hin⟩

end

/-! ### Everything the policy says -/

section

variable {ι : Type} {files : Files ι} {env : LandlockEnv} {policy : Policy} {task task' : Task}
  {right : AccessFs} {x : ι}

/-- The outcomes of the calls about the rules, where every path is found and can be opened. -/
structure LandlockEnv.On (env : LandlockEnv) (files : Files ι) (policy : Policy) : Prop where
  openPath : ∀ (i : Nat) (rule : PathRule), policy.pathRules[i]? = some rule →
    env.openPath i = true ∧ ∃ y, files.lookup rule.path.bytes = some y
  addRule : ∀ (i : Nat) (rule : PathRule) (y : ι), policy.pathRules[i]? = some rule →
    files.lookup rule.path.bytes = some y →
      (env.addRule i = true ↔ files.Takes y (sbxToLandlock rule.flags))

/-- A rule grants a right on a file: it is on the file or an ancestor, its flags are mapped to the
right, and the kernel takes it. -/
def PathRule.Grants (files : Files ι) (rule : PathRule) (right : AccessFs) (x : ι) : Prop :=
  right.In (sbxToLandlock rule.flags) ∧ ∃ y, files.lookup rule.path.bytes = some y ∧
    files.Beneath x y ∧ (files.isDir y = true ∨ rule.flags &&& dirFlags = 0)

theorem takes_iff {y : ι} {flags : UInt32} (hin : right.In (sbxToLandlock flags)) :
    files.Takes y (sbxToLandlock flags) ↔ files.isDir y = true ∨ flags &&& dirFlags = 0 := by
  have hne : sbxToLandlock flags ≠ 0 := fun e => hin (by rw [e, UInt64.zero_and])
  have hdir : (∀ right : AccessFs, right.In (sbxToLandlock flags) → right.OnFile) ↔
      flags &&& dirFlags = 0 := by
    rw [← not_iff_not, ← ne_eq (flags &&& dirFlags), dirFlags_iff]
    simp only [not_forall, exists_prop]
  rw [Files.Takes, and_iff_right hne, hdir]

/-- What the ruleset allows of the rights that flags are mapped to. -/
theorem allows_iff (hon : env.On files policy) {flags : UInt32}
    (hflags : right.In (sbxToLandlock flags)) :
    (landlockRuleset env policy).Allows files right x ↔
      ∃ rule ∈ policy.pathRules, rule.Grants files right x := by
  have hhandled : right.In (landlockRuleset env policy).handledAccessFs :=
    in_handledAccess_of_flags hflags
  rw [Ruleset.Allows, forall_prop_of_true hhandled]
  constructor
  · rintro ⟨r, hr, hin, y, hy, hb⟩
    obtain ⟨j, rule, hj, -, hadd, rfl⟩ := mem_addPathRules.mp hr
    rw [Nat.zero_add] at hadd
    have htakes := (hon.addRule j rule y hj hy).mp hadd
    exact ⟨rule, List.mem_of_getElem? hj, hin, y, hy, hb, (takes_iff hin).mp htakes⟩
  · rintro ⟨rule, hrule, hin, y, hy, hb, htakes⟩
    obtain ⟨j, hj⟩ := List.mem_iff_getElem?.mp hrule
    have hadd := (hon.addRule j rule y hj hy).mpr ((takes_iff hin).mpr htakes)
    refine ⟨_, mem_addPathRules.mpr ⟨j, rule, hj, ?_, ?_, rfl⟩, hin, y, hy, hb⟩
    · rw [Nat.zero_add]
      exact (hon.openPath j rule hj).1
    · rwa [Nat.zero_add]

/-- **`landlock_apply` allows what the policy says**, as far as it makes sense for the file and the
process might do it before: a rule on a file that is no directory, with a flag that is mapped to rights
of directories too, has each of its rights from another rule. -/
theorem landlockApply_complete_iff (hon : env.On files policy)
    (h : landlockApply env policy task = (0, task')) :
    (∀ rule ∈ policy.pathRules, ∀ x, files.lookup rule.path.bytes = some x →
        ∀ right : AccessFs, right.In (sbxToLandlock rule.flags) →
          (files.isDir x = true ∨ right.OnFile) →
          task.May files right rule.path.bytes → task'.May files right rule.path.bytes) ↔
      ∀ rule ∈ policy.pathRules, ∀ x, files.lookup rule.path.bytes = some x →
        files.isDir x = false → rule.flags &&& dirFlags ≠ 0 →
        ∀ right : AccessFs, right.In (sbxToLandlock rule.flags) → right.OnFile →
          task.May files right rule.path.bytes →
          ∃ rule' ∈ policy.pathRules, rule'.Grants files right x := by
  have hmay : ∀ (rule : PathRule) (x : ι) (right : AccessFs), files.lookup rule.path.bytes = some x →
      right.In (sbxToLandlock rule.flags) → task.May files right rule.path.bytes →
        (task'.May files right rule.path.bytes ↔
          ∃ rule' ∈ policy.pathRules, rule'.Grants files right x) := by
    rintro rule x right hx hin ⟨x', hx', hbefore⟩
    obtain rfl := Option.some.inj (hx.symm.trans hx')
    rw [may_of_apply h, ← allows_iff hon hin]
    constructor
    · rintro ⟨x', hx', hallows, -⟩
      obtain rfl := Option.some.inj (hx.symm.trans hx')
      exact hallows
    · intro hallows
      exact ⟨x, hx, hallows, hbefore⟩
  constructor
  · intro hcomplete rule hrule x hx hfile _ right hin hsense hbefore
    exact (hmay rule x right hx hin hbefore).mp (hcomplete rule hrule x hx right hin (.inr hsense) hbefore)
  · intro hother rule hrule x hx right hin hsense hbefore
    rw [hmay rule x right hx hin hbefore]
    by_cases hself : files.isDir x = true ∨ rule.flags &&& dirFlags = 0
    · exact ⟨rule, hrule, hin, x, hx, .refl, hself⟩
    · obtain ⟨hfile, hflags⟩ := not_or.mp hself
      exact hother rule hrule x hx (Bool.eq_false_of_not_eq_true hfile) hflags right hin
        (hsense.resolve_left hfile) hbefore

end

/-! ### On a file system -/

/-- Some of the files of a system. -/
inductive RootFile where
  | root | usr | etc | tmp | dev | null | urandom
deriving DecidableEq, Repr

def rootFiles : Files RootFile where
  lookup path :=
    if path = ascii "/" then some .root
    else if path = ascii "/usr" then some .usr
    else if path = ascii "/etc" then some .etc
    else if path = ascii "/tmp" then some .tmp
    else if path = ascii "/dev" then some .dev
    else if path = ascii "/dev/null" then some .null
    else if path = ascii "/dev/urandom" then some .urandom
    else none
  parent
    | .root => none
    | .usr | .etc | .tmp | .dev => some .root
    | .null | .urandom => some .dev
  isDir x := x ≠ .null ∧ x ≠ .urandom

/-- A kernel with Landlock on which these files can be opened. -/
def rootEnv : LandlockEnv where
  -- `ENOMSG`: a ruleset that handles no right
  probe := .errno 42
  createRuleset := true
  openPath _ := true
  -- in the policy of `NORMAL`, the rules from index 3 on are on devices
  addRule i := i < 3
  setNoNewPrivs := true
  restrictSelf := true

theorem landlockApply_rootEnv (policy : Policy) :
    landlockApply rootEnv policy .free =
      (0, { Task.free with noNewPrivs := true, domains := [landlockRuleset rootEnv policy] }) := rfl

/-- On a process under no sandbox, `/usr` may not be written to under `TRUSTED`. -/
theorem landlockApply_sound_iff_usr :
    ∃ task', landlockApply rootEnv (sbxPolicyDefault .x86 levelTrusted) .free = (0, task') ∧
      (task'.May rootFiles .writeFile (ascii "/usr") →
        ∃ rule ∈ (sbxPolicyDefault .x86 levelTrusted).pathRules,
          (∃ x, rootFiles.lookup (ascii "/usr") = some x ∧ rootFiles.Covers rule.path.bytes x) ∧
          ∃ flag ∈ fsFlags, rule.flags &&& flag ≠ 0 ∧ AccessFs.writeFile.In (sbxToLandlock flag)) :=
  ⟨_, landlockApply_rootEnv _,
    (landlockApply_sound_iff rootFiles (landlockApply_rootEnv _) .writeFile (ascii "/usr")).mpr
      (.inl (by decide))⟩

/-- A process under `TRUSTED` may make symbolic links in `/usr`. -/
theorem landlockApply_symlink :
    ¬ ∀ (env : LandlockEnv) (policy : Policy) (task task' : Task) (right : AccessFs)
        (path : List UInt8), landlockApply env policy task = (0, task') →
      task'.May rootFiles right path →
        ∃ rule ∈ policy.pathRules,
          (∃ x, rootFiles.lookup path = some x ∧ rootFiles.Covers rule.path.bytes x) ∧
          ∃ flag ∈ fsFlags, rule.flags &&& flag ≠ 0 ∧ right.In (sbxToLandlock flag) := by
  intro h
  have hmay : Task.May rootFiles
      { Task.free with
        noNewPrivs := true
        domains := [landlockRuleset rootEnv (sbxPolicyDefault .x86 levelTrusted)] }
      .makeSym (ascii "/usr") := by
    refine ⟨.usr, by decide, fun ruleset hr hin => ?_⟩
    obtain rfl := List.mem_singleton.mp hr
    exact absurd hin (by decide)
  obtain ⟨-, -, -, flag, hflag, -, hin⟩ := h rootEnv _ .free _ .makeSym (ascii "/usr")
    (landlockApply_rootEnv (sbxPolicyDefault .x86 levelTrusted)) hmay
  have hnone : ∀ flag ∈ fsFlags, ¬ AccessFs.makeSym.In (sbxToLandlock flag) :=
    forall_fsFlags.mpr (by decide)
  exact hnone flag hflag hin

/-- Where every rule has `SBX_FS_READ`, the kernel takes those on directories. -/
theorem rootEnv_on {policy : Policy}
    (h : ∀ p ∈ policy.pathRules.zipIdx, p.1.flags &&& fsRead ≠ 0 ∧
      (rootFiles.lookup p.1.path.bytes).any
        fun y => rootEnv.addRule p.2 == rootFiles.isDir y) :
    rootEnv.On rootFiles policy := by
  have hrule : ∀ (i : Nat) (rule : PathRule), policy.pathRules[i]? = some rule →
      rule.flags &&& fsRead ≠ 0 ∧ ∃ y, rootFiles.lookup rule.path.bytes = some y ∧
        rootEnv.addRule i = rootFiles.isDir y := by
    intro i rule hi
    obtain ⟨hflags, hany⟩ := h (rule, i) (List.mk_mem_zipIdx_iff_getElem?.mpr hi)
    cases hy : rootFiles.lookup rule.path.bytes with
    | none =>
        rw [hy] at hany
        cases hany
    | some y =>
        rw [hy] at hany
        exact ⟨hflags, y, rfl, eq_of_beq hany⟩
  refine ⟨fun i rule hi => ⟨rfl, ?_⟩, fun i rule y hi hy => ?_⟩
  · obtain ⟨-, y, hy, -⟩ := hrule i rule hi
    exact ⟨y, hy⟩
  · obtain ⟨hflags, y', hy', hadd⟩ := hrule i rule hi
    obtain rfl := Option.some.inj (hy.symm.trans hy')
    have hin : AccessFs.readFile.In (sbxToLandlock rule.flags) :=
      (in_sbxToLandlock .readFile rule.flags).mpr ⟨fsRead, by decide, hflags, by decide⟩
    have hdir : rule.flags &&& dirFlags ≠ 0 := by
      rw [dirFlags, and_or_ne_zero, and_or_ne_zero]
      exact .inl (.inl hflags)
    rw [takes_iff hin, or_iff_left hdir, hadd]

theorem landlockApply_complete_iff_trusted :
    ∃ task', landlockApply rootEnv (sbxPolicyDefault .x86 levelTrusted) .free = (0, task') ∧
      ∀ rule ∈ (sbxPolicyDefault .x86 levelTrusted).pathRules,
        ∀ x, rootFiles.lookup rule.path.bytes = some x →
        ∀ right : AccessFs, right.In (sbxToLandlock rule.flags) →
          (rootFiles.isDir x = true ∨ right.OnFile) →
          Task.free.May rootFiles right rule.path.bytes → task'.May rootFiles right rule.path.bytes := by
  have hdirs : ∀ rule ∈ (sbxPolicyDefault .x86 levelTrusted).pathRules,
      (rootFiles.lookup rule.path.bytes).any rootFiles.isDir := by decide
  refine ⟨_, landlockApply_rootEnv _,
    (landlockApply_complete_iff (rootEnv_on (by decide)) (landlockApply_rootEnv _)).mpr ?_⟩
  intro rule hrule x hx hfile
  have hdir := hdirs rule hrule
  rw [hx] at hdir
  exact absurd hdir (by simp [hfile])

/-- `/dev/null` is beneath itself, `/dev` and `/`. -/
theorem beneath_null {y : RootFile} (h : rootFiles.Beneath .null y) :
    y = .null ∨ y = .dev ∨ y = .root := by
  induction h with
  | refl => exact .inl rfl
  | tail _ hstep ih =>
      rcases ih with rfl | rfl | rfl
      · exact .inr (.inl (Option.some.inj hstep).symm)
      · exact .inr (.inr (Option.some.inj hstep).symm)
      · cases hstep

/-- Nothing the policy of `NORMAL` says of `/dev/null` is allowed. -/
theorem landlockApply_devNull :
    ¬ ∀ (env : LandlockEnv) (policy : Policy) (task task' : Task), env.On rootFiles policy →
      landlockApply env policy task = (0, task') →
      ∀ rule ∈ policy.pathRules, ∀ x, rootFiles.lookup rule.path.bytes = some x →
        ∀ right : AccessFs, right.In (sbxToLandlock rule.flags) →
          (rootFiles.isDir x = true ∨ right.OnFile) →
          task.May rootFiles right rule.path.bytes → task'.May rootFiles right rule.path.bytes := by
  intro h
  have hon : rootEnv.On rootFiles (sbxPolicyDefault .x86 levelNormal) := rootEnv_on (by decide +kernel)
  have hrule : (⟨.cut (by decide) (ascii "/dev/null"), fsRead ||| fsWrite⟩ : PathRule) ∈
      (sbxPolicyDefault .x86 levelNormal).pathRules := by decide +kernel
  have hread : AccessFs.readFile.In (sbxToLandlock fsRead) := by decide
  have hbefore : Task.free.May rootFiles .readFile (ascii "/dev/null") :=
    ⟨.null, by decide, fun _ hr => absurd hr List.not_mem_nil⟩
  obtain ⟨x, hx, hallows, -⟩ := (may_of_apply (landlockApply_rootEnv _)).mp
    (h rootEnv _ .free _ hon (landlockApply_rootEnv _) _ hrule .null (by decide) .readFile
      (by decide) (by decide) hbefore)
  obtain rfl := Option.some.inj ((by decide : rootFiles.lookup _ = some RootFile.null).symm.trans hx)
  obtain ⟨rule, hmem, -, y, hy, hbeneath, htakes⟩ :=
    (allows_iff hon hread).mp hallows
  -- the rules on the three files above it are the one on itself, which is not taken
  have hall : ∀ rule ∈ (sbxPolicyDefault .x86 levelNormal).pathRules,
      (rootFiles.lookup rule.path.bytes).all fun y =>
        (y ≠ .dev ∧ y ≠ .root) ∧ (rootFiles.isDir y = true → y ≠ .null) ∧
          rule.flags &&& dirFlags ≠ 0 := by decide +kernel
  have hy' := hall rule hmem
  rw [hy, Option.all_some, decide_eq_true_iff] at hy'
  rcases beneath_null hbeneath with rfl | rfl | rfl
  · exact htakes.elim (by decide) hy'.2.2
  · exact hy'.1.1 rfl
  · exact hy'.1.2 rfl

end LumiOS.Sandbox
