import Mathlib.Tactic.NormNum
import LumiOS.Support.Bpf

/-!
# Sandbox — Seccomp

The system call filter of `seccomp.c`: the rules of a policy, the BPF program `seccomp_apply` builds
from them, and what the kernel does with a call the program is run on.

* `seccompProg_blacklist`: on a call of the native architecture, the program kills exactly when a rule
  denies the call.
* `seccompProg_foreign_iff`: on a call of another architecture, it kills exactly when the compiler
  evaluates the right side of the architecture check's assignment first.  The two instructions at the
  end of the program are counted as one in `prog_len`, and `idx` is read for the jump to the second in
  the expression that increments it.
-/

namespace LumiOS.Sandbox

open Support.Bpf

/-! ### Policies -/

def maxSyscallRules : Nat := 128

inductive SyscallAction where
  | allow
  | deny
  | log
deriving DecidableEq, Repr

structure SyscallRule where
  nr : Int32
  action : SyscallAction
deriving DecidableEq, Repr

/-- The seccomp part of `sbx_policy_t`; the rules are those below `num_syscall_rules`. -/
structure SyscallPolicy where
  syscallRules : List SyscallRule
  length_le : syscallRules.length ≤ maxSyscallRules
  syscallWhitelist : Bool

def SyscallPolicy.empty : SyscallPolicy := ⟨[], Nat.zero_le _, false⟩

def seccompAddRule (policy : SyscallPolicy) (syscallNr : Int32) (action : SyscallAction) :
    Int × SyscallPolicy :=
  if h : maxSyscallRules ≤ policy.syscallRules.length then (-1, policy)
  else
    (0, { policy with
      syscallRules := policy.syscallRules ++ [⟨syscallNr, action⟩]
      length_le := by
        rw [List.length_append]
        exact Nat.not_le.mp h })

/-! ### The program -/

/-- The machine `seccomp.c` is compiled for. -/
inductive Target where
  | x86_64
  | aarch64
  | i386
  | other
deriving DecidableEq, Repr

/-- `AUDIT_ARCH_CURRENT`. -/
def Target.auditArchCurrent : Target → UInt32
  | x86_64 => 0xC000003E
  | aarch64 => 0xC00000B7
  | i386 => 0x40000003
  | other => 0

def seccompRetAllow : UInt32 := 0x7FFF0000

def seccompRetKillProcess : UInt32 := 0x80000000

/-- What a filter sees of a call, as far as this one looks: `nr` and `arch` of
`struct seccomp_data`. -/
structure SeccompData where
  nr : Int32
  arch : UInt32
deriving DecidableEq, Repr

def offsetNr : UInt32 := 0

def offsetArch : UInt32 := 4

def SeccompData.load (data : SeccompData) : Load := fun offset =>
  if offset = offsetNr then some data.nr.toUInt32
  else if offset = offsetArch then some data.arch
  else none

/-- Which side of the architecture check's assignment is evaluated first: the place
`filter[idx++]`, or the instruction, which reads `idx` for its jump.  C leaves it open. -/
inductive EvalOrder where
  | placeFirst
  | valueFirst
deriving DecidableEq, Repr

/-- The `idx` the instruction's side reads, where the place is `filter[idx]`. -/
def EvalOrder.reads : EvalOrder → Int → Int
  | placeFirst, idx => idx + 1
  | valueFirst, idx => idx

/-- The instruction of the rule at index `i`. -/
def ruleFilter (numRules i : Int) (r : SyscallRule) : SockFilter :=
  match r.action with
  | .deny =>
      let remaining := numRules - i - 1
      bpfJump (bpfJmp ||| bpfJeq ||| bpfK) r.nr.toUInt32 (UInt8.ofInt (remaining + 1)) 0
  | .log => bpfJump (bpfJmp ||| bpfJeq ||| bpfK) r.nr.toUInt32 0 0
  | .allow => bpfJump (bpfJmp ||| bpfJeq ||| bpfK) r.nr.toUInt32 0 0

/-- The loop over the rules, from index `i`. -/
def ruleFilters (numRules : Int) : Int → List SyscallRule → List SockFilter
  | _, [] => []
  | i, r :: rules => ruleFilter numRules i r :: ruleFilters numRules (i + 1) rules

/-- The two returns at the end. -/
def returnFilters : List SockFilter :=
  [bpfStmt (bpfRet ||| bpfK) seccompRetAllow, bpfStmt (bpfRet ||| bpfK) seccompRetKillProcess]

def progLen (numRules : Int) : Int := 3 + numRules + 1

/-- The instructions `seccomp_apply` stores, in the order of their places.  The array has room for
`progLen` of them, which is one too few; here nothing depends on what lies behind it. -/
def seccompFilter (target : Target) (order : EvalOrder) (rules : List SyscallRule) :
    List SockFilter :=
  let numRules : Int := rules.length
  bpfStmt (bpfLd ||| bpfW ||| bpfAbs) offsetArch ::
  bpfJump (bpfJmp ||| bpfJeq ||| bpfK) target.auditArchCurrent 0
    (UInt8.ofInt (progLen numRules - order.reads 1 - 1)) ::
  bpfStmt (bpfLd ||| bpfW ||| bpfAbs) offsetNr ::
  (ruleFilters numRules 0 rules ++ returnFilters)

/-- `struct sock_fprog`. -/
structure SockFprog where
  len : UInt16
  filter : List SockFilter

/-- The program `seccomp_apply` gives to the kernel. -/
def seccompProg (target : Target) (order : EvalOrder) (policy : SyscallPolicy) : SockFprog where
  len := UInt16.ofNat (seccompFilter target order policy.syscallRules).length
  filter := seccompFilter target order policy.syscallRules

/-- Whether `calloc` and the two `prctl` calls of `seccomp_apply` succeed. -/
structure ApplyEnv where
  calloc : Bool
  setNoNewPrivs : Bool
  setSeccomp : Bool

/-- The part of the process `seccomp_apply` changes. -/
structure Process where
  noNewPrivs : Bool
  /-- The filters in force, the last one installed in front. -/
  filters : List SockFprog

def enomem : Int := 12

def seccompApply (target : Target) (order : EvalOrder) (env : ApplyEnv) (policy : SyscallPolicy)
    (proc : Process) : Int × Process :=
  if policy.syscallRules.length = 0 then (0, proc)
  else if env.calloc = false then (-enomem, proc)
  else if env.setNoNewPrivs = false then (-1, proc)
  else
    let proc := { proc with noNewPrivs := true }
    if env.setSeccomp = false then (-1, proc)
    else (0, { proc with filters := seccompProg target order policy :: proc.filters })

/-- A policy with rules is applied with success when its filter is in force, and only then; and
otherwise the filters are as they were. -/
theorem seccompApply_filters {target : Target} {order : EvalOrder} {env : ApplyEnv}
    {policy : SyscallPolicy} {proc : Process} (h : policy.syscallRules ≠ []) :
    (seccompApply target order env policy proc).2.filters =
      if (seccompApply target order env policy proc).1 = 0 then
        seccompProg target order policy :: proc.filters
      else proc.filters := by
  have hlen : policy.syscallRules.length ≠ 0 := fun e => h (List.length_eq_zero_iff.mp e)
  simp only [seccompApply, if_neg hlen]
  cases env.calloc with
  | false => rfl
  | true =>
      cases env.setNoNewPrivs with
      | false => rfl
      | true =>
          cases env.setSeccomp with
          | false => rfl
          | true => rfl

/-- The kernel's answer to a call: what the first `len` instructions return. -/
def SockFprog.Answers (prog : SockFprog) (data : SeccompData) (v : UInt32) : Prop :=
  Returns data.load (prog.filter.take prog.len.toNat) v

instance (prog : SockFprog) (data : SeccompData) (v : UInt32) : Decidable (prog.Answers data v) :=
  inferInstanceAs (Decidable (Returns _ _ _))

/-! ### Running it -/

/-- Some rule denies the call. -/
def Denied (rules : List SyscallRule) (nr : Int32) : Prop :=
  ∃ r ∈ rules, r.action = .deny ∧ r.nr = nr

instance (rules : List SyscallRule) (nr : Int32) : Decidable (Denied rules nr) :=
  inferInstanceAs (Decidable (∃ r ∈ rules, _))

section

variable {load : Load} {numRules i : Int} {rules : List SyscallRule} {r : SyscallRule} {nr : Int32}
  {target : Target} {order : EvalOrder} {policy : SyscallPolicy} {data : SeccompData} {v : UInt32}

@[simp] theorem ruleFilters_length : (ruleFilters numRules i rules).length = rules.length := by
  induction rules generalizing i with
  | nil => rfl
  | cons r rules ih => simp [ruleFilters, ih]

/-- An offset of at most 255 fits. -/
theorem toNat_ofInt_natCast {n : Nat} (h : n < 256) : (UInt8.ofInt n).toNat = n := by
  simp only [UInt8.ofInt, UInt8.toNat_ofNat']
  omega

theorem denied_cons : Denied (r :: rules) nr ↔ r.action = .deny ∧ r.nr = nr ∨ Denied rules nr := by
  simp [Denied]

/-- Past the rules. -/
theorem run_past_rules {skip : Nat} {acc : UInt32} :
    run load (ruleFilters numRules i rules ++ returnFilters) (rules.length + skip) acc =
      run load returnFilters skip acc := by
  have h : run load (ruleFilters numRules i rules ++ returnFilters)
      ((ruleFilters numRules i rules).length + skip) acc = run load returnFilters skip acc :=
    run_skip _
  rwa [ruleFilters_length] at h

/-- A rule that denies the call jumps to the second return. -/
theorem run_ruleFilter_deny (hi : numRules - i - 1 = rules.length)
    (hlen : rules.length < maxSyscallRules) (hr : r.action = .deny ∧ r.nr = nr) :
    run load (ruleFilter numRules i r :: (ruleFilters numRules (i + 1) rules ++ returnFilters)) 0
      nr.toUInt32 = some seccompRetKillProcess := by
  have hoff : (UInt8.ofInt (numRules - i - 1 + 1)).toNat = rules.length + 1 := by
    rw [hi]
    exact toNat_ofInt_natCast (Nat.lt_of_lt_of_le (Nat.succ_lt_succ hlen) (by decide))
  simp only [ruleFilter, hr.1, hr.2, run_jeq, if_true, hoff, run_past_rules]
  rfl

/-- Any other rule passes the call on. -/
theorem run_ruleFilter_pass {prog : List SockFilter} (hr : ¬ (r.action = .deny ∧ r.nr = nr)) :
    run load (ruleFilter numRules i r :: prog) 0 nr.toUInt32 = run load prog 0 nr.toUInt32 := by
  cases ha : r.action with
  | deny =>
      have hne : nr.toUInt32 ≠ r.nr.toUInt32 := fun e =>
        hr ⟨ha, (congrArg UInt32.toInt32 e).symm⟩
      simp only [ruleFilter, ha, run_jeq, if_neg hne]
      rfl
  | log =>
      simp only [ruleFilter, ha, run_jeq, ite_self]
      rfl
  | allow =>
      simp only [ruleFilter, ha, run_jeq, ite_self]
      rfl

/-- The rules from index `i` on, with the number of the call in the accumulator. -/
theorem run_ruleFilters (hi : numRules - i = rules.length)
    (hlen : rules.length ≤ maxSyscallRules) :
    run load (ruleFilters numRules i rules ++ returnFilters) 0 nr.toUInt32 =
      some (if Denied rules nr then seccompRetKillProcess else seccompRetAllow) := by
  -- on the rules left; `i` is the index of the first of them
  induction rules generalizing i with
  | nil => simp [ruleFilters, returnFilters, Denied]
  | cons r rules ih =>
      rw [List.length_cons] at hi hlen
      have hi' : numRules - i - 1 = rules.length := by omega
      by_cases hr : r.action = .deny ∧ r.nr = nr
      · rw [if_pos (denied_cons.mpr (.inl hr))]
        exact run_ruleFilter_deny hi' hlen hr
      · have hd : Denied (r :: rules) nr ↔ Denied rules nr := denied_cons.trans (or_iff_right hr)
        simp only [hd]
        exact (run_ruleFilter_pass hr).trans (ih (by omega) (Nat.le_of_succ_le hlen))

theorem seccompFilter_length :
    (seccompFilter target order rules).length = rules.length + 5 := by
  simp [seccompFilter, returnFilters]

/-- The kernel gets the whole program. -/
theorem answers_iff : (seccompProg target order policy).Answers data v ↔
    run data.load (seccompFilter target order policy.syscallRules) 0 0 = some v := by
  have hlen : (seccompFilter target order policy.syscallRules).length < 2 ^ 16 := by
    rw [seccompFilter_length]
    exact Nat.lt_of_le_of_lt (Nat.add_le_add_right policy.length_le 5) (by decide)
  simp only [SockFprog.Answers, seccompProg, UInt16.toNat_ofNat', Nat.mod_eq_of_lt hlen,
    List.take_length, returns_iff_run]

/-- A call of the native architecture gets to the rules. -/
theorem run_seccompFilter_native (ha : data.arch = target.auditArchCurrent) :
    run data.load (seccompFilter target order rules) 0 0 =
      run data.load (ruleFilters rules.length 0 rules ++ returnFilters) 0 data.nr.toUInt32 := by
  have harch : data.load offsetArch = some data.arch := rfl
  have hnr : data.load offsetNr = some data.nr.toUInt32 := rfl
  simp only [seccompFilter, run_ld, harch, Option.bind_some, run_jeq, if_pos ha]
  exact (run_ld).trans (congrArg (Option.bind · _) hnr)

/-- The jump of the architecture check, past the load of the number and the rules: to the second
return if the value is evaluated first, and to the first if not. -/
theorem archJump_toNat (hlen : rules.length ≤ maxSyscallRules) :
    (UInt8.ofInt (progLen rules.length - order.reads 1 - 1)).toNat =
      rules.length + (if order = .valueFirst then 1 else 0) + 1 := by
  have hlt : rules.length + 2 < 256 :=
    Nat.lt_of_le_of_lt (Nat.add_le_add_right hlen 2) (by decide)
  cases order with
  | placeFirst =>
      have he : progLen rules.length - EvalOrder.placeFirst.reads 1 - 1 =
          ((rules.length + 1 : Nat) : Int) := by
        simp only [progLen, EvalOrder.reads]
        omega
      rw [he, toNat_ofInt_natCast (Nat.lt_of_succ_lt hlt)]
      rfl
  | valueFirst =>
      have he : progLen rules.length - EvalOrder.valueFirst.reads 1 - 1 =
          ((rules.length + 2 : Nat) : Int) := by
        simp only [progLen, EvalOrder.reads]
        omega
      rw [he, toNat_ofInt_natCast hlt]
      rfl

/-- A call of another architecture gets past the rules. -/
theorem run_seccompFilter_foreign (ha : data.arch ≠ target.auditArchCurrent)
    (hlen : rules.length ≤ maxSyscallRules) :
    run data.load (seccompFilter target order rules) 0 0 =
      some (if order = .valueFirst then seccompRetKillProcess else seccompRetAllow) := by
  have harch : data.load offsetArch = some data.arch := rfl
  simp only [seccompFilter, run_ld, harch, Option.bind_some, run_jeq, if_neg ha,
    archJump_toNat hlen]
  refine run_past_rules.trans ?_
  cases order with
  | placeFirst => rfl
  | valueFirst => rfl

end

/-! ### What the program answers -/

/-- **The filter of a policy**, on a call of the native architecture: it kills exactly when a rule
denies the call, and allows it otherwise, whichever side of the assignment is evaluated first. -/
theorem seccompProg_blacklist (target : Target) (order : EvalOrder) (policy : SyscallPolicy)
    (nr : Int32) :
    ((seccompProg target order policy).Answers ⟨nr, target.auditArchCurrent⟩ seccompRetKillProcess ↔
      Denied policy.syscallRules nr) ∧
    ((seccompProg target order policy).Answers ⟨nr, target.auditArchCurrent⟩ seccompRetAllow ↔
      ¬ Denied policy.syscallRules nr) := by
  have hrun : run (SeccompData.load ⟨nr, target.auditArchCurrent⟩)
      (seccompFilter target order policy.syscallRules) 0 0 =
      some (if Denied policy.syscallRules nr then seccompRetKillProcess else seccompRetAllow) :=
    (run_seccompFilter_native rfl).trans (run_ruleFilters (Int.sub_zero _) policy.length_le)
  rw [answers_iff, answers_iff, hrun]
  by_cases hd : Denied policy.syscallRules nr
  · rw [if_pos hd]
    exact ⟨iff_of_true rfl hd, iff_of_false (by decide) (not_not.mpr hd)⟩
  · rw [if_neg hd]
    exact ⟨iff_of_false (by decide) hd, iff_of_true rfl hd⟩

theorem seccompProg_kills_iff {target : Target} {order : EvalOrder} {policy : SyscallPolicy}
    {nr : Int32} :
    (seccompProg target order policy).Answers ⟨nr, target.auditArchCurrent⟩ seccompRetKillProcess ↔
      Denied policy.syscallRules nr := by
  have hrun : run (SeccompData.load ⟨nr, target.auditArchCurrent⟩)
      (seccompFilter target order policy.syscallRules) 0 0 =
      some (if Denied policy.syscallRules nr then seccompRetKillProcess else seccompRetAllow) :=
    (run_seccompFilter_native rfl).trans (run_ruleFilters (Int.sub_zero _) policy.length_le)
  rw [answers_iff, hrun]
  split
  · exact iff_of_true rfl ‹_›
  · exact iff_of_false (by decide) ‹_›

/-- **The architecture check.**  A call of another architecture is killed exactly when the value is
evaluated first. -/
theorem seccompProg_foreign_iff (target : Target) (order : EvalOrder) (policy : SyscallPolicy)
    (data : SeccompData) (ha : data.arch ≠ target.auditArchCurrent) :
    (seccompProg target order policy).Answers data seccompRetKillProcess ↔ order = .valueFirst := by
  rw [answers_iff, run_seccompFilter_foreign ha policy.length_le]
  cases order with
  | placeFirst => decide
  | valueFirst => decide

/-- A policy that denies `mount`, as `x86_64` numbers it. -/
def denyMount : SyscallPolicy := (seccompAddRule .empty 165 .deny).2

theorem seccompProg_foreign_iff_i386 :
    (seccompProg .x86_64 .valueFirst denyMount).Answers
      ⟨165, Target.i386.auditArchCurrent⟩ seccompRetKillProcess :=
  (seccompProg_foreign_iff .x86_64 .valueFirst denyMount ⟨165, Target.i386.auditArchCurrent⟩
    (by decide)).mpr rfl

/-- With the place first, a call by the 32-bit entry is allowed, whatever its number. -/
theorem seccompProg_foreign_allowed :
    ¬ ∀ (target : Target) (order : EvalOrder) (policy : SyscallPolicy) (data : SeccompData),
      policy.syscallRules ≠ [] → data.arch ≠ target.auditArchCurrent →
        (seccompProg target order policy).Answers data seccompRetKillProcess := by
  intro h
  exact absurd (h .x86_64 .placeFirst denyMount ⟨165, Target.i386.auditArchCurrent⟩
    (by decide) (by decide)) (by decide)

end LumiOS.Sandbox
