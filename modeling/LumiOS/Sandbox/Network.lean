import LumiOS.Sandbox.PolicyFile

/-!
# Sandbox — Network

A policy without network: `net_flags` is `SBX_NET_NONE`, and the only thing that keeps a process off
the network is a syscall rule that denies `socket`.  The presets of `STRICT` and `UNTRUSTED` add one;
a file has none (`socket_killed_iff`).
-/

namespace LumiOS.Sandbox

open Support

/-! ### Where policies come from -/

/-- The rule a call adds. -/
def PolicyCall.rule : PolicyCall → Option SyscallRule
  | .addPath _ _ => none
  | .addRule syscallNr action => some ⟨syscallNr, action⟩

/-- A way a policy comes into being. -/
inductive PolicySource where
  | built (level : Int32) (calls : List PolicyCall)
  | loaded (disk : Disk) (path : List UInt8)

/-- The policies that come into being this way. -/
def PolicySource.Gives (sys : SyscallTable) (policy : Policy) : PolicySource → Prop
  | .built level calls => buildPolicy sys level calls = policy
  | .loaded disk path => ∃ before, sbxPolicyLoad disk before path = (0, policy)

/-- The ways that bring a rule against the call with this number, if `net_flags` is `SBX_NET_NONE`. -/
def PolicySource.Denies (nr : Int32) : PolicySource → Prop
  | .built level calls => level = levelStrict ∨ level = levelUntrusted ∨
      ⟨nr, .deny⟩ ∈ (calls.filterMap PolicyCall.rule).take maxSyscallRules
  | .loaded _ _ => False

/-- Every step that `sbx_apply` attempts for the policy succeeds. -/
structure SandboxEnv.Succeeds (env : SandboxEnv) (policy : Policy) : Prop where
  landlock : landlockSupported env.probe = true ∧ policy.pathRules ≠ [] → env.landlock.Succeeds
  seccomp : policy.syscallRules ≠ [] → env.seccomp.Succeeds
  apparmor : policy.apparmorProfile.bytes ≠ [] ∧ env.apparmorSupported = true → env.apparmor.Succeeds

/-- After `sbx_apply` there is a new filter, and it kills the call. -/
def Policy.Kills (policy : Policy) (nr : Int32) : Prop :=
  ∀ target order env task, env.Succeeds policy →
    ∃ prog : SockFprog, (sbxApply target order env policy task).2.filters = prog :: task.filters ∧
      prog.Answers ⟨nr, target.auditArchCurrent⟩ seccompRetKillProcess

/-! ### The rules of a policy -/

section

variable {sys : SyscallTable} {policy : Policy} {level nr : Int32}

theorem plainKernel_succeeds (policy : Policy) : SandboxEnv.plainKernel.Succeeds policy where
  landlock h := absurd h.1 (by decide)
  seccomp _ := by decide
  apparmor h := absurd h.2 (by decide)

theorem kills_iff (hlevel : policy.level ≠ levelNone) :
    policy.Kills nr ↔ Denied policy.syscallRules nr := by
  constructor
  · intro hkills
    obtain ⟨prog, hprog, hkill⟩ := hkills .x86_64 .placeFirst .plainKernel .free
      (plainKernel_succeeds policy)
    obtain ⟨-, hfilters, -⟩ := sbxApply_task .x86_64 .placeFirst .plainKernel .free hlevel
    rw [hfilters] at hprog
    by_cases hrules : policy.syscallRules = []
    · rw [if_neg fun h => h.1 hrules] at hprog
      cases hprog
    · rw [if_pos ⟨hrules, by decide⟩] at hprog
      obtain ⟨rfl, -⟩ := List.cons.inj hprog
      exact seccompProg_kills_iff.mp hkill
  · intro hdenied target order env task henv
    obtain ⟨-, hfilters, -⟩ := sbxApply_task target order env task hlevel
    have hrules : policy.syscallRules ≠ [] := by
      obtain ⟨r, hr, -⟩ := hdenied
      exact List.ne_nil_of_mem hr
    rw [if_pos ⟨hrules, henv.seccomp hrules⟩] at hfilters
    exact ⟨_, hfilters, seccompProg_kills_iff.mpr hdenied⟩

theorem denied_iff {rules : List SyscallRule} :
    Denied rules nr ↔ (⟨nr, .deny⟩ : SyscallRule) ∈ rules := by
  constructor
  · rintro ⟨⟨nr', action⟩, hr, rfl, rfl⟩
    exact hr
  · intro hr
    exact ⟨_, hr, rfl, rfl⟩

/-! A policy takes the rules that come first, as many as it has room for. -/

theorem addRule_rules (policy : Policy) (nr : Int32) (action : SyscallAction) :
    (policy.addRule nr action).2.syscallRules =
      (policy.syscallRules ++ [SyscallRule.mk nr action]).take maxSyscallRules := by
  have hle := policy.length_le
  simp only [Policy.addRule, seccompAddRule]
  split
  · rename_i hfull
    rw [List.take_append_of_le_length hfull, List.take_of_length_le hle]
  · rename_i hroom
    rw [List.take_of_length_le]
    rw [List.length_append]
    exact Nat.not_le.mp hroom

theorem denyAll_rules (nrs : List Int32) (policy : Policy) (h : ∀ nr ∈ nrs, 0 ≤ nr) :
    (denyAll nrs policy).syscallRules =
      (policy.syscallRules ++ nrs.map (SyscallRule.mk · .deny)).take maxSyscallRules := by
  induction nrs generalizing policy with
  | nil =>
      rw [denyAll, List.map_nil, List.append_nil, List.take_of_length_le policy.length_le]
  | cons nr nrs ih =>
      rw [denyAll, if_pos (h nr List.mem_cons_self), ih _ fun nr' hm => h nr' (List.mem_cons_of_mem nr hm),
        addRule_rules, take_take_append, List.map_cons, List.append_assoc, List.singleton_append]

theorem call_rules (policy : Policy) (call : PolicyCall) : (policy.call call).syscallRules =
    (policy.syscallRules ++ call.rule.toList).take maxSyscallRules := by
  cases call with
  | addPath path flags =>
      rw [PolicyCall.rule, Option.toList_none, List.append_nil, List.take_of_length_le policy.length_le,
        Policy.call, landlockAddPath]
      split <;> rfl
  | addRule nr action => exact addRule_rules policy nr action

theorem foldl_call_rules (calls : List PolicyCall) (policy : Policy) :
    (calls.foldl Policy.call policy).syscallRules =
      (policy.syscallRules ++ calls.filterMap PolicyCall.rule).take maxSyscallRules := by
  induction calls generalizing policy with
  | nil =>
      rw [List.foldl_nil, List.filterMap_nil, List.append_nil, List.take_of_length_le policy.length_le]
  | cons call calls ih =>
      have hcons : (call :: calls).filterMap PolicyCall.rule =
          call.rule.toList ++ calls.filterMap PolicyCall.rule := by
        rw [List.filterMap_cons]
        cases call.rule <;> rfl
      rw [List.foldl_cons, ih, call_rules, take_take_append, List.append_assoc, hcons]

/-- What calls leave as it was. -/
theorem foldl_call_fields (calls : List PolicyCall) (policy : Policy) :
    (calls.foldl Policy.call policy).level = policy.level ∧
      (calls.foldl Policy.call policy).netFlags = policy.netFlags := by
  induction calls generalizing policy with
  | nil => exact ⟨rfl, rfl⟩
  | cons call calls ih =>
      have hcall : (policy.call call).level = policy.level ∧
          (policy.call call).netFlags = policy.netFlags := by
        cases call with
        | addPath path flags =>
            rw [Policy.call, landlockAddPath]
            split <;> exact ⟨rfl, rfl⟩
        | addRule nr action => exact ⟨rfl, rfl⟩
      obtain ⟨hlevel, hnet⟩ := ih (policy.call call)
      exact ⟨hlevel.trans hcall.1, hnet.trans hcall.2⟩

theorem withPath_rules (policy : Policy) (path : String) (flags : UInt32) :
    (policy.withPath path flags).syscallRules = policy.syscallRules := by
  rw [Policy.withPath, landlockAddPath]
  split <;> rfl

/-- The preset of `STRICT` denies `socket`, in a policy with no rule before it. -/
theorem mem_presetStrict (hsys : ∀ name nr, sys name = some nr → 0 ≤ nr) (hnr : sys .socket = some nr)
    (hrules : policy.syscallRules = []) :
    (⟨nr, .deny⟩ : SyscallRule) ∈ (seccompPresetStrict sys policy).syscallRules := by
  have hnonneg : ∀ names : List SyscallName, ∀ nr ∈ names.filterMap sys, 0 ≤ nr := by
    intro names nr hm
    obtain ⟨name, -, hname⟩ := List.mem_filterMap.mp hm
    exact hsys name nr hname
  have hlen : ∀ names : List SyscallName, (names.filterMap sys).length ≤ names.length := fun names =>
    List.length_filterMap_le sys names
  have hsocket : nr ∈ blockedStrict.filterMap sys := List.mem_filterMap.mpr ⟨.socket, by decide, hnr⟩
  have hn := hlen blockedNormal
  have hs := hlen blockedStrict
  have hblocked : blockedNormal.length = 16 ∧ blockedStrict.length = 21 := by decide
  rw [seccompPresetStrict, denyAll_rules _ _ (hnonneg _), seccompPresetNormal,
    denyAll_rules _ _ (hnonneg _), hrules, List.nil_append, take_take_append, List.take_of_length_le]
  · exact List.mem_append_right _ (List.mem_map_of_mem hsocket)
  · rw [List.length_append, List.length_map, List.length_map, maxSyscallRules]
    omega

/-- The rules `sbx_policy_default` adds against `socket`, at the levels without network. -/
theorem sbxPolicyDefault_rules (hsys : ∀ name nr, sys name = some nr → 0 ≤ nr)
    (hnr : sys .socket = some nr) (hlevel : level ≠ levelNone)
    (hnet : (sbxPolicyDefault sys level).netFlags = netNone) :
    (level = levelStrict ∨ level = levelUntrusted) ∧
        (⟨nr, .deny⟩ : SyscallRule) ∈ (sbxPolicyDefault sys level).syscallRules ∨
      ¬ (level = levelStrict ∨ level = levelUntrusted) ∧
        (sbxPolicyDefault sys level).syscallRules = [] := by
  rw [sbxPolicyDefault, if_neg hlevel] at hnet ⊢
  split at hnet
  · exact absurd hnet (by decide : netFull ≠ netNone)
  · split at hnet
    · exact absurd hnet (by decide : netTcpConnect ||| netDns ≠ netNone)
    · rename_i htrusted hnormal
      rw [if_neg htrusted, if_neg hnormal]
      by_cases hstrict : level = levelStrict
      · rw [if_pos hstrict]
        refine .inl ⟨.inl hstrict, mem_presetStrict hsys hnr ?_⟩
        simp only [withPath_rules]
        rfl
      · rw [if_neg hstrict]
        by_cases huntrusted : level = levelUntrusted
        · rw [if_pos huntrusted]
          refine .inl ⟨.inr huntrusted, mem_presetStrict hsys hnr ?_⟩
          simp only [withPath_rules]
          rfl
        · rw [if_neg huntrusted]
          exact .inr ⟨not_or.mpr ⟨hstrict, huntrusted⟩, rfl⟩

/-- A file adds no syscall rule. -/
theorem policyOfText_rules (text : List UInt8) : (policyOfText text).syscallRules = [] := by
  have hassign : ∀ (policy : Policy) (key : PolicyKey) (val : List UInt8),
      (policy.assign key val).syscallRules = policy.syscallRules := by
    intro policy key val
    cases key with
    | path =>
        simp only [Policy.assign, landlockAddPath]
        repeat' split
        all_goals rfl
    | name | level | net | ipc | hw | apparmor | maxMemory | maxPids | maxFds => rfl
  have hfold : ∀ (ps : List (List UInt8)) (policy : Policy),
      (ps.foldl loadPiece policy).syscallRules = policy.syscallRules := by
    intro ps
    induction ps with
    | nil => intro _; rfl
    | cons piece ps ih =>
        intro policy
        rw [List.foldl_cons, ih, loadPiece]
        split
        · rfl
        · exact hassign _ _ _
  exact hfold _ _

/-! ### The socket call -/

/-- **A policy without network.**  However it came into being, the filter that `sbx_apply` installs
for it kills `socket` exactly when it is a built one, of the levels whose preset denies the call, or
of no level the library knows and with a rule of its own against it. -/
theorem socket_killed_iff (hsys : ∀ name nr, sys name = some nr → 0 ≤ nr)
    (hnr : sys .socket = some nr) {source : PolicySource} (hgives : source.Gives sys policy)
    (hnet : policy.netFlags = netNone) (hlevel : policy.level ≠ levelNone) :
    policy.Kills nr ↔ source.Denies nr := by
  rw [kills_iff hlevel, denied_iff]
  cases source with
  | loaded disk path =>
      obtain ⟨before, hload⟩ := hgives
      obtain ⟨text, -, rfl⟩ := sbxPolicyLoad_zero hload
      rw [policyOfText_rules]
      exact iff_of_false List.not_mem_nil id
  | built level calls =>
      obtain rfl : buildPolicy sys level calls = policy := hgives
      obtain ⟨hl, hn⟩ := foldl_call_fields calls (sbxPolicyDefault sys level)
      have hl' : (sbxPolicyDefault sys level).level = level := (sbxPolicyDefault_okAt sys level).level_eq
      rw [buildPolicy, hl, hl'] at hlevel
      rw [buildPolicy, hn] at hnet
      rw [buildPolicy, foldl_call_rules, PolicySource.Denies]
      rcases sbxPolicyDefault_rules hsys hnr hlevel hnet with ⟨hpreset, hmem⟩ | ⟨hno, hnil⟩
      · refine iff_of_true ?_ (or_assoc.mp (.inl hpreset))
        rw [List.take_append, List.take_of_length_le (sbxPolicyDefault sys level).length_le]
        exact List.mem_append_left _ hmem
      · rw [hnil, List.nil_append, ← or_assoc, or_iff_right hno]

end

theorem SyscallTable.x86_nonneg : ∀ name nr, SyscallTable.x86 name = some nr → 0 ≤ nr := by
  intro name nr h
  cases name <;> (obtain rfl := Option.some.inj h; decide)

/-- A policy of `STRICT` to which a path was added. -/
theorem socket_killed_iff_strict : (buildPolicy .x86 levelStrict [appPath]).Kills 41 := by
  have hgives : PolicySource.Gives .x86 (buildPolicy .x86 levelStrict [appPath])
      (.built levelStrict [appPath]) := rfl
  exact (socket_killed_iff SyscallTable.x86_nonneg rfl hgives (by decide +kernel)
    (by decide +kernel)).mpr (.inl rfl)

/-- A file that asks for `STRICT` and no network gives a process that may call `socket`. -/
theorem socket_not_killed :
    ¬ ∀ (sys : SyscallTable) (nr : Int32) (source : PolicySource) (policy : Policy),
      (∀ name nr, sys name = some nr → 0 ≤ nr) → sys .socket = some nr → source.Gives sys policy →
      policy.netFlags = netNone → policy.level ≠ levelNone → policy.Kills nr := by
  intro h
  let disk := Disk.blank.write policyPath (ascii "level=3\nnet=0\n")
  have hload : sbxPolicyLoad disk .zero policyPath = (0, policyOfText (ascii "level=3\nnet=0\n")) :=
    sbxPolicyLoad_write rfl .zero _
  have hkills := h .x86 41 (.loaded disk policyPath) _ SyscallTable.x86_nonneg rfl ⟨_, hload⟩
    (by decide) (by decide)
  have hlevel : (policyOfText (ascii "level=3\nnet=0\n")).level ≠ levelNone := by decide
  rw [kills_iff hlevel, denied_iff, policyOfText_rules] at hkills
  cases hkills

end LumiOS.Sandbox
