import LumiOS.Sandbox.Policy

/-!
# Sandbox — Apply

`landlock_apply`, `apparmor_apply`, `sbx_apply`, and the end of `main`, which runs the command after
it.  Every call to the kernel may fail: a `SandboxEnv` holds the outcomes, those of a probe that is
made twice for each time.

A layer that fails, or that the kernel does not support, is left out with a warning, and the command
is run all the same.  `sbxApply_layers` says which layers are in force then: each layer depends on its
own outcomes only.
-/

namespace LumiOS.Sandbox

open Support

/-! ### Landlock -/

/-- `LANDLOCK_ACCESS_FS_EXECUTE`. -/
def accessExecute : UInt64 := (1 : UInt64) <<< 0

/-- `LANDLOCK_ACCESS_FS_WRITE_FILE`. -/
def accessWriteFile : UInt64 := (1 : UInt64) <<< 1

/-- `LANDLOCK_ACCESS_FS_READ_FILE`. -/
def accessReadFile : UInt64 := (1 : UInt64) <<< 2

/-- `LANDLOCK_ACCESS_FS_READ_DIR`. -/
def accessReadDir : UInt64 := (1 : UInt64) <<< 3

/-- `LANDLOCK_ACCESS_FS_REMOVE_DIR`. -/
def accessRemoveDir : UInt64 := (1 : UInt64) <<< 4

/-- `LANDLOCK_ACCESS_FS_REMOVE_FILE`. -/
def accessRemoveFile : UInt64 := (1 : UInt64) <<< 5

/-- `LANDLOCK_ACCESS_FS_MAKE_DIR`. -/
def accessMakeDir : UInt64 := (1 : UInt64) <<< 7

/-- `LANDLOCK_ACCESS_FS_MAKE_REG`. -/
def accessMakeReg : UInt64 := (1 : UInt64) <<< 8

/-- `LANDLOCK_ACCESS_FS_TRUNCATE`, as `landlock.c` has it. -/
def accessTruncate : UInt64 := (1 : UInt64) <<< 13

/-- `sbx_to_landlock`. -/
def sbxToLandlock (sbxFlags : UInt32) : UInt64 :=
  let when (flag : UInt32) (access : UInt64) : UInt64 := if sbxFlags &&& flag ≠ 0 then access else 0
  when fsRead (accessReadFile ||| accessReadDir) ||| when fsWrite accessWriteFile |||
    when fsExecute accessExecute ||| when fsCreate (accessMakeReg ||| accessMakeDir) |||
    when fsDelete (accessRemoveFile ||| accessRemoveDir) ||| when fsTruncate accessTruncate

/-- The access rights a ruleset of `landlock_apply` handles. -/
def handledAccess : UInt64 :=
  accessExecute ||| accessWriteFile ||| accessReadFile ||| accessReadDir ||| accessRemoveDir |||
    accessRemoveFile ||| accessMakeReg ||| accessMakeDir ||| accessTruncate

/-- What `ll_create_ruleset` answers: a descriptor, or an `errno`. -/
inductive Ruleset.Answer where
  | fd
  | errno (e : Int)
deriving DecidableEq, Repr

/-- `ENOSYS`. -/
def enosys : Int := 38

/-- `EOPNOTSUPP`. -/
def eopnotsupp : Int := 95

/-- `landlock_supported`, from the answer to its probe. -/
def landlockSupported : Ruleset.Answer → Bool
  | .fd => true
  | .errno e => e ≠ enosys ∧ e ≠ eopnotsupp

/-- The outcomes of the calls of `landlock_apply`; those about a rule are given by its index. -/
structure LandlockEnv where
  probe : Ruleset.Answer
  createRuleset : Bool
  openPath : Nat → Bool
  addRule : Nat → Bool
  setNoNewPrivs : Bool
  restrictSelf : Bool

/-- A ruleset: the rights it handles, and those it allows beneath a path. -/
structure Ruleset where
  handledAccessFs : UInt64
  pathBeneath : List (CStr 256 × UInt64)
deriving DecidableEq, Repr

/-- The loop of `landlock_apply` over the rules, from index `i`. -/
def addPathRules (env : LandlockEnv) : Nat → List PathRule → List (CStr 256 × UInt64)
  | _, [] => []
  | i, r :: rules =>
    if env.openPath i ∧ env.addRule i then
      (r.path, sbxToLandlock r.flags) :: addPathRules env (i + 1) rules
    else addPathRules env (i + 1) rules

/-- The ruleset `landlock_apply` enforces. -/
def landlockRuleset (env : LandlockEnv) (policy : Policy) : Ruleset where
  handledAccessFs := handledAccess
  pathBeneath := addPathRules env 0 policy.pathRules

/-- A process under a sandbox. -/
structure Task extends Process where
  /-- The Landlock rulesets in force, the last one enforced in front. -/
  domains : List Ruleset
  /-- The AppArmor profile it was switched to. -/
  profile : Option (List UInt8)

/-- `landlock_apply`: nothing is enforced if one of its four steps fails. -/
def landlockApply (env : LandlockEnv) (policy : Policy) (task : Task) : Int × Task :=
  if landlockSupported env.probe = false then (-1, task)
  else if env.createRuleset = false then (-1, task)
  else if env.setNoNewPrivs = false then (-1, task)
  else
    let task := { task with noNewPrivs := true }
    if env.restrictSelf = false then (-1, task)
    else (0, { task with domains := landlockRuleset env policy :: task.domains })

/-! ### AppArmor -/

/-- The outcomes of the calls of `apparmor_apply`. -/
structure AppArmorEnv where
  openAttr : Bool
  write : Bool

/-- `apparmor_apply`. -/
def apparmorApply (env : AppArmorEnv) (profile : List UInt8) (task : Task) : Int × Task :=
  if profile = [] then (-1, task)
  else if env.openAttr = false then (-1, task)
  else if env.write = false then (-1, task)
  else (0, { task with profile := some profile })

/-! ### All layers -/

/-- The outcomes of everything `sbx_apply` calls. -/
structure SandboxEnv where
  probe : Ruleset.Answer
  landlock : LandlockEnv
  seccomp : ApplyEnv
  /-- `apparmor_supported`. -/
  apparmorSupported : Bool
  apparmor : AppArmorEnv

/-! The layers of `sbx_apply`, with its variable `ret`, which a layer that is not attempted leaves as it
is. -/

/-- Landlock, when the kernel has it and the policy has path rules. -/
def landlockLayer (env : SandboxEnv) (policy : Policy) (ret : Int) (task : Task) : Int × Task :=
  if landlockSupported env.probe ∧ policy.pathRules ≠ [] then landlockApply env.landlock policy task
  else (ret, task)

/-- The filter, when the policy has rules for it. -/
def seccompLayer (target : Target) (order : EvalOrder) (env : SandboxEnv) (policy : Policy)
    (ret : Int) (task : Task) : Int × Task :=
  if policy.syscallRules ≠ [] then
    let (ret, proc) := seccompApply target order env.seccomp policy.toSyscallPolicy task.toProcess
    (ret, { task with toProcess := proc })
  else (ret, task)

/-- AppArmor, when the kernel has it and the policy names a profile. -/
def apparmorLayer (env : SandboxEnv) (policy : Policy) (ret : Int) (task : Task) : Int × Task :=
  if policy.apparmorProfile.bytes ≠ [] ∧ env.apparmorSupported then
    apparmorApply env.apparmor policy.apparmorProfile.bytes task
  else (ret, task)

section

variable (target : Target) (order : EvalOrder) (env : SandboxEnv) (policy : Policy) (task : Task)

/-- `sbx_apply`. -/
def sbxApply : Int × Task :=
  if policy.level = levelNone then (0, task)
  else
    let (ret, task) := landlockLayer env policy 0 task
    let (ret, task) := seccompLayer target order env policy ret task
    let (_, task) := apparmorLayer env policy ret task
    -- `ret` decides between a note and a warning on `stderr`, and is not returned
    (0, task)

/-- The end of `main`: whether it warns that layers failed, and the process that calls `execvp`. -/
def execSandboxed : Bool × Task :=
  let (ret, task) := sbxApply target order env policy task
  (ret < 0, task)

end

/-! ### Which layers are in force -/

/-- The steps of `landlock_apply` that it cannot do without. -/
def LandlockEnv.Succeeds (env : LandlockEnv) : Prop :=
  landlockSupported env.probe = true ∧ env.createRuleset = true ∧ env.setNoNewPrivs = true ∧
    env.restrictSelf = true

/-- The steps of `apparmor_apply`. -/
def AppArmorEnv.Succeeds (env : AppArmorEnv) : Prop := env.openAttr = true ∧ env.write = true

/-- The steps of `seccomp_apply`. -/
def ApplyEnv.Succeeds (env : ApplyEnv) : Prop :=
  env.calloc = true ∧ env.setNoNewPrivs = true ∧ env.setSeccomp = true

instance (env : LandlockEnv) : Decidable env.Succeeds := inferInstanceAs (Decidable (_ ∧ _))

instance (env : AppArmorEnv) : Decidable env.Succeeds := inferInstanceAs (Decidable (_ ∧ _))

instance (env : ApplyEnv) : Decidable env.Succeeds := inferInstanceAs (Decidable (_ ∧ _))

section

variable {target : Target} {order : EvalOrder} {env : SandboxEnv} {policy : Policy} {task : Task}
  {ret : Int}

/-- `landlock_apply` adds its ruleset, or nothing. -/
theorem landlockApply_domains (env : LandlockEnv) (policy : Policy) (task : Task) :
    (landlockApply env policy task).2.domains =
        (if env.Succeeds then landlockRuleset env policy :: task.domains else task.domains) ∧
      (landlockApply env policy task).2.filters = task.filters ∧
      (landlockApply env policy task).2.profile = task.profile := by
  by_cases hs : env.Succeeds
  · rw [if_pos hs]
    obtain ⟨hp, hc, hn, hr⟩ := hs
    simp [landlockApply, hp, hc, hn, hr]
  · rw [if_neg hs]
    simp only [landlockApply]
    split
    · exact ⟨rfl, rfl, rfl⟩
    · split
      · exact ⟨rfl, rfl, rfl⟩
      · split
        · exact ⟨rfl, rfl, rfl⟩
        · split
          · exact ⟨rfl, rfl, rfl⟩
          · rename_i hp hc hn hr
            exact absurd ⟨Bool.eq_true_of_not_eq_false hp, Bool.eq_true_of_not_eq_false hc,
              Bool.eq_true_of_not_eq_false hn, Bool.eq_true_of_not_eq_false hr⟩ hs

/-- `seccomp_apply` succeeds when its steps do. -/
theorem seccompApply_succeeds (env : ApplyEnv) {policy : SyscallPolicy} {proc : Process}
    (h : policy.syscallRules ≠ []) :
    (seccompApply target order env policy proc).1 = 0 ↔ env.Succeeds := by
  have hlen : policy.syscallRules.length ≠ 0 := fun e => h (List.length_eq_zero_iff.mp e)
  simp only [seccompApply, ApplyEnv.Succeeds, if_neg hlen]
  cases env.calloc with
  | false => simp [enomem]
  | true =>
      cases env.setNoNewPrivs with
      | false => simp
      | true => cases env.setSeccomp <;> simp

/-- `apparmor_apply` changes the profile, or nothing. -/
theorem apparmorApply_profile (env : AppArmorEnv) {profile : List UInt8} (h : profile ≠ [])
    (task : Task) :
    (apparmorApply env profile task).2.toProcess = task.toProcess ∧
      (apparmorApply env profile task).2.domains = task.domains ∧
      (apparmorApply env profile task).2.profile =
        if env.Succeeds then some profile else task.profile := by
  by_cases hs : env.Succeeds
  · rw [if_pos hs]
    simp [apparmorApply, h, hs.1, hs.2]
  · rw [if_neg hs]
    simp only [apparmorApply, if_neg h]
    split
    · exact ⟨rfl, rfl, rfl⟩
    · split
      · exact ⟨rfl, rfl, rfl⟩
      · rename_i ho hw
        exact absurd ⟨Bool.eq_true_of_not_eq_false ho, Bool.eq_true_of_not_eq_false hw⟩ hs

/-! Each layer changes its own part of the process. -/

/-- The layer of Landlock. -/
theorem landlockLayer_task (env : SandboxEnv) (policy : Policy) (ret : Int) (task : Task) :
    (landlockLayer env policy ret task).2.domains =
        (if policy.pathRules ≠ [] ∧ landlockSupported env.probe = true ∧ env.landlock.Succeeds then
          landlockRuleset env.landlock policy :: task.domains
        else task.domains) ∧
      (landlockLayer env policy ret task).2.filters = task.filters ∧
      (landlockLayer env policy ret task).2.profile = task.profile := by
  simp only [landlockLayer]
  split
  · rename_i hc
    have h := landlockApply_domains env.landlock policy task
    simpa only [hc.1, hc.2, ne_eq, not_false_eq_true, true_and] using h
  · rename_i hc
    rw [if_neg fun h => hc ⟨h.2.1, h.1⟩]
    exact ⟨rfl, rfl, rfl⟩

/-- The layer of the filter. -/
theorem seccompLayer_task (env : SandboxEnv) (policy : Policy) (ret : Int) (task : Task) :
    (seccompLayer target order env policy ret task).2.domains = task.domains ∧
      (seccompLayer target order env policy ret task).2.filters =
        (if policy.syscallRules ≠ [] ∧ env.seccomp.Succeeds then
          seccompProg target order policy.toSyscallPolicy :: task.filters
        else task.filters) ∧
      (seccompLayer target order env policy ret task).2.profile = task.profile := by
  simp only [seccompLayer]
  split
  · rename_i hc
    refine ⟨rfl, ?_, rfl⟩
    rw [seccompApply_filters hc]
    simp only [seccompApply_succeeds env.seccomp hc, hc, ne_eq, not_false_eq_true, true_and]
  · rename_i hc
    rw [if_neg fun h => hc h.1]
    exact ⟨rfl, rfl, rfl⟩

/-- The layer of AppArmor. -/
theorem apparmorLayer_task (env : SandboxEnv) (policy : Policy) (ret : Int) (task : Task) :
    (apparmorLayer env policy ret task).2.domains = task.domains ∧
      (apparmorLayer env policy ret task).2.filters = task.filters ∧
      (apparmorLayer env policy ret task).2.profile =
        if policy.apparmorProfile.bytes ≠ [] ∧ env.apparmorSupported = true ∧ env.apparmor.Succeeds
        then some policy.apparmorProfile.bytes
        else task.profile := by
  simp only [apparmorLayer]
  split
  · rename_i hc
    obtain ⟨hproc, hd, hp⟩ := apparmorApply_profile env.apparmor hc.1 task
    refine ⟨hd, congrArg Process.filters hproc, ?_⟩
    simpa only [hc.1, hc.2, ne_eq, not_false_eq_true, true_and] using hp
  · rename_i hc
    rw [if_neg fun h => hc ⟨h.1, h.2.1⟩]
    exact ⟨rfl, rfl, rfl⟩

/-- The three layers, one after another. -/
theorem sbxApply_task (target : Target) (order : EvalOrder) (env : SandboxEnv) (task : Task)
    (hlevel : policy.level ≠ levelNone) :
    (sbxApply target order env policy task).2.domains =
        (if policy.pathRules ≠ [] ∧ landlockSupported env.probe = true ∧ env.landlock.Succeeds then
          landlockRuleset env.landlock policy :: task.domains
        else task.domains) ∧
      (sbxApply target order env policy task).2.filters =
        (if policy.syscallRules ≠ [] ∧ env.seccomp.Succeeds then
          seccompProg target order policy.toSyscallPolicy :: task.filters
        else task.filters) ∧
      (sbxApply target order env policy task).2.profile =
        (if policy.apparmorProfile.bytes ≠ [] ∧ env.apparmorSupported = true ∧
            env.apparmor.Succeeds then some policy.apparmorProfile.bytes
        else task.profile) := by
  let r₁ := landlockLayer env policy 0 task
  let r₂ := seccompLayer target order env policy r₁.1 r₁.2
  obtain ⟨hd₁, hf₁, hp₁⟩ : _ ∧ r₁.2.filters = task.filters ∧ r₁.2.profile = task.profile :=
    landlockLayer_task env policy 0 task
  obtain ⟨hd₂, hf₂, hp₂⟩ : r₂.2.domains = r₁.2.domains ∧ _ ∧ r₂.2.profile = r₁.2.profile :=
    seccompLayer_task env policy r₁.1 r₁.2
  obtain ⟨hd₃, hf₃, hp₃⟩ := apparmorLayer_task env policy r₂.1 r₂.2
  have e : (sbxApply target order env policy task).2 = (apparmorLayer env policy r₂.1 r₂.2).2 := by
    simp only [sbxApply, if_neg hlevel]
    rfl
  rw [e]
  refine ⟨hd₃.trans (hd₂.trans hd₁), ?_, ?_⟩
  · rw [hf₃, hf₂, hf₁]
  · rw [hp₃, hp₂, hp₁]

/-- **The layers after `sbx_apply`.**  Whatever the outcomes, each layer the policy configures is in
force exactly when the probes report its support and its own steps succeed, whatever became of the
others; and the process that calls `execvp` is the one `sbx_apply` left. -/
theorem sbxApply_layers (target : Target) (order : EvalOrder) (env : SandboxEnv) (task : Task)
    (hlevel : policy.level ≠ levelNone) :
    (execSandboxed target order env policy task).2.domains =
        (if policy.pathRules ≠ [] ∧ landlockSupported env.probe = true ∧ env.landlock.Succeeds then
          landlockRuleset env.landlock policy :: task.domains
        else task.domains) ∧
      (execSandboxed target order env policy task).2.filters =
        (if policy.syscallRules ≠ [] ∧ env.seccomp.Succeeds then
          seccompProg target order policy.toSyscallPolicy :: task.filters
        else task.filters) ∧
      (execSandboxed target order env policy task).2.profile =
        (if policy.apparmorProfile.bytes ≠ [] ∧ env.apparmorSupported = true ∧
            env.apparmor.Succeeds then some policy.apparmorProfile.bytes
        else task.profile) ∧
      (execSandboxed target order env policy task).2 =
        (sbxApply target order env policy task).2 := by
  have e : (execSandboxed target order env policy task).2 =
      (sbxApply target order env policy task).2 := rfl
  obtain ⟨hd, hf, hp⟩ := sbxApply_task target order env task hlevel
  rw [e]
  exact ⟨hd, hf, hp, rfl⟩

end

/-- A kernel without Landlock and AppArmor, on which everything else succeeds. -/
def SandboxEnv.plainKernel : SandboxEnv where
  probe := .errno enosys
  landlock :=
    { probe := .errno enosys
      createRuleset := false
      openPath := fun _ => true
      addRule := fun _ => true
      setNoNewPrivs := true
      restrictSelf := false }
  seccomp := { calloc := true, setNoNewPrivs := true, setSeccomp := true }
  apparmorSupported := false
  apparmor := { openAttr := false, write := false }

/-- A process under no sandbox. -/
def Task.free : Task where
  noNewPrivs := false
  filters := []
  domains := []
  profile := none

theorem sbxApply_layers_trusted :
    (execSandboxed .x86_64 .placeFirst .plainKernel (sbxPolicyDefault .x86 levelTrusted)
      .free).2.domains = [] :=
  (sbxApply_layers .x86_64 .placeFirst .plainKernel .free (by decide)).1.trans
    (if_neg fun h => absurd h.2.1 (by decide))

/-- Every layer the policy configures is in force. -/
def Policy.InForce (target : Target) (order : EvalOrder) (policy : Policy) (task task' : Task) :
    Prop :=
  (policy.pathRules ≠ [] → ∃ ruleset, task'.domains = ruleset :: task.domains) ∧
  (policy.syscallRules ≠ [] →
    task'.filters = seccompProg target order policy.toSyscallPolicy :: task.filters) ∧
  (policy.apparmorProfile.bytes ≠ [] → task'.profile = some policy.apparmorProfile.bytes)

/-- On a kernel without Landlock a policy with path rules is applied with success, and the command is
run. -/
theorem sbxApply_without_landlock :
    ¬ ∀ target order env policy task, policy.level ≠ levelNone →
      ((sbxApply target order env policy task).1 = 0 →
        policy.InForce target order task (sbxApply target order env policy task).2) ∧
      policy.InForce target order task (execSandboxed target order env policy task).2 := by
  intro h
  obtain ⟨hforce, -⟩ := h .x86_64 .placeFirst .plainKernel (sbxPolicyDefault .x86 levelTrusted) .free
    (by decide)
  obtain ⟨ruleset, hd⟩ := (hforce rfl).1 (by decide)
  cases hd

end LumiOS.Sandbox
