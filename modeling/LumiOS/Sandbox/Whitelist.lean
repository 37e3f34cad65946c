import Mathlib.Data.Finset.Card
import LumiOS.Sandbox.Seccomp

/-!
# Sandbox — Whitelist

The mode of a policy.  `sandbox.h` says what `syscall_whitelist` means, and `seccomp_apply` does not read
it: the program is that of a blacklist (`seccompProg_mode`).  No policy has rules for all numbers, so
whatever the mode some call that no rule names is allowed (`whitelist_not_enforced`).
-/

namespace LumiOS.Sandbox

/-- Some rule lets the call through. -/
def Permitted (rules : List SyscallRule) (nr : Int32) : Prop :=
  ∃ r ∈ rules, (r.action = .allow ∨ r.action = .log) ∧ r.nr = nr

instance (rules : List SyscallRule) (nr : Int32) : Decidable (Permitted rules nr) :=
  inferInstanceAs (Decidable (∃ r ∈ rules, _))

/-- The rules as a whitelist: only the calls that are let through and not denied are allowed, and every
other is killed. -/
structure Whitelisted (target : Target) (order : EvalOrder) (policy : SyscallPolicy) : Prop where
  allowed : ∀ nr, (seccompProg target order policy).Answers ⟨nr, target.auditArchCurrent⟩ seccompRetAllow →
    Permitted policy.syscallRules nr ∧ ¬ Denied policy.syscallRules nr
  killed : ∀ nr, ¬ (Permitted policy.syscallRules nr ∧ ¬ Denied policy.syscallRules nr) →
    (seccompProg target order policy).Answers ⟨nr, target.auditArchCurrent⟩ seccompRetKillProcess

/-- The mode does not change the program. -/
theorem seccompProg_mode (target : Target) (order : EvalOrder) (policy : SyscallPolicy) (mode : Bool) :
    seccompProg target order { policy with syscallWhitelist := mode } =
      seccompProg target order policy := rfl

/-- There are more system call numbers than rules. -/
theorem exists_unnamed (policy : SyscallPolicy) : ∃ nr, ∀ r ∈ policy.syscallRules, r.nr ≠ nr := by
  let named := (policy.syscallRules.map (·.nr)).toFinset
  let numbers := (Finset.range (maxSyscallRules + 1)).image fun n => Int32.ofNat n
  have hnamed : named.card ≤ maxSyscallRules := by
    refine (List.toFinset_card_le _).trans ?_
    rw [List.length_map]
    exact policy.length_le
  have hnumbers : numbers.card = maxSyscallRules + 1 := by
    refine (Finset.card_image_of_injOn fun m hm n hn e => ?_).trans (Finset.card_range _)
    have hm : m < 129 := Finset.mem_range.mp hm
    have hn : n < 129 := Finset.mem_range.mp hn
    have he := congrArg Int32.toInt e
    rw [Int32.toInt_ofNat_of_lt (hm.trans (by decide)), Int32.toInt_ofNat_of_lt (hn.trans (by decide))] at he
    exact Int.ofNat_inj.mp he
  obtain ⟨nr, -, hnr⟩ := Finset.exists_mem_notMem_of_card_lt_card (s := named) (t := numbers) (by omega)
  refine ⟨nr, fun r hr hrn => hnr ?_⟩
  exact List.mem_toFinset.mpr (List.mem_map.mpr ⟨r, hr, hrn⟩)

/-- **No whitelist is enforced.**  Some call that no rule names is allowed. -/
theorem whitelist_not_enforced (target : Target) (order : EvalOrder) (policy : SyscallPolicy) :
    ¬ Whitelisted target order policy := by
  intro h
  obtain ⟨nr, hnr⟩ := exists_unnamed policy
  have hdenied : ¬ Denied policy.syscallRules nr := fun ⟨r, hr, _, e⟩ => hnr r hr e
  have hallow := (seccompProg_blacklist target order policy nr).2.mpr hdenied
  obtain ⟨⟨r, hr, -, e⟩, -⟩ := h.allowed nr hallow
  exact hnr r hr e

/-- A whitelist of `read`, as `x86_64` numbers it. -/
def readOnly : SyscallPolicy :=
  { (seccompAddRule .empty 0 .allow).2 with syscallWhitelist := true }

/-- Under it `mount` is allowed. -/
theorem whitelist_allows_mount :
    ¬ ∀ (target : Target) (order : EvalOrder) (policy : SyscallPolicy),
      policy.syscallWhitelist = true → policy.syscallRules ≠ [] → Whitelisted target order policy := by
  intro h
  have hwhite := h .x86_64 .placeFirst readOnly rfl (by decide)
  have hmount : (seccompProg .x86_64 .placeFirst readOnly).Answers
      ⟨165, Target.x86_64.auditArchCurrent⟩ seccompRetAllow := by decide
  exact absurd (hwhite.allowed 165 hmount).1 (by decide)

end LumiOS.Sandbox
