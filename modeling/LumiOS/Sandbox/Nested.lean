import LumiOS.Support.BpfCheck
import LumiOS.Sandbox.Landlock

/-!
# Sandbox — Nested

What a task under several sandboxes may do, as when `lumi-sandbox` runs `lumi-sandbox`.

* `seccompProg_checked`: every filter `seccomp_apply` builds passes the kernel's check, so installing it
  cannot fail for its form, and on every call it answers, with one of its two returns.
* `sbxApplyEach_mono`: neither the order of the sandboxes nor repeating one matters, and one more never
  gives anything back: no call is let through again, and no right on a file.
-/

namespace LumiOS.Sandbox

open Support Support.Bpf

/-! ### The kernel's check -/

/-- The offsets a filter may load from: the words of `struct seccomp_data`, which has 64 bytes. -/
def seccompWord (offset : UInt32) : Bool := offset &&& 3 = 0 ∧ offset < 64

section

variable {target : Target} {order : EvalOrder} {policy : SyscallPolicy} {rules : List SyscallRule}
  {numRules i : Int}

theorem checkFrom_ruleFilters (hi : numRules - i = rules.length)
    (hlen : rules.length ≤ maxSyscallRules) :
    checkFrom seccompWord (ruleFilters numRules i rules ++ returnFilters) = true := by
  -- on the rules left; `i` is the index of the first of them
  induction rules generalizing i with
  | nil => rfl
  | cons r rules ih =>
      rw [List.length_cons] at hi hlen
      have hrest := ih (i := i + 1) (by omega) (Nat.le_of_succ_le hlen)
      have hlen' : (ruleFilters numRules (i + 1) rules ++ returnFilters).length =
          rules.length + 2 := by simp [returnFilters]
      have h0 : (0 : UInt8).toNat < rules.length + 2 := Nat.succ_pos _
      have hoff : (UInt8.ofInt (numRules - i - 1 + 1)).toNat = rules.length + 1 := by
        have e : numRules - i - 1 + 1 = ((rules.length + 1 : Nat) : Int) := by omega
        rw [e]
        exact toNat_ofInt_natCast (Nat.lt_of_le_of_lt hlen (by decide))
      simp only [ruleFilters, List.cons_append]
      cases ha : r.action with
      | deny => simp only [ruleFilter, ha, checkFrom_jeq, hlen', hrest, hoff, h0, Nat.lt_succ_self,
          decide_true, Bool.and_true]
      | log => simp only [ruleFilter, ha, checkFrom_jeq, hlen', hrest, h0, decide_true, Bool.and_true]
      | allow => simp only [ruleFilter, ha, checkFrom_jeq, hlen', hrest, h0, decide_true, Bool.and_true]

theorem checkFrom_seccompFilter (hlen : rules.length ≤ maxSyscallRules) :
    checkFrom seccompWord (seccompFilter target order rules) = true := by
  have hrest : checkFrom seccompWord (ruleFilters rules.length 0 rules ++ returnFilters) = true :=
    checkFrom_ruleFilters (Int.sub_zero _) hlen
  have hjump : (UInt8.ofInt (progLen rules.length - order.reads 1 - 1)).toNat <
      rules.length + 3 := by
    rw [archJump_toNat hlen]
    split <;> omega
  have harch : seccompWord offsetArch = true := by decide
  have hnr : seccompWord offsetNr = true := by decide
  have h0 : (0 : UInt8).toNat < rules.length + 3 := Nat.succ_pos _
  have hlen' : (bpfStmt (bpfLd ||| bpfW ||| bpfAbs) offsetNr ::
      (ruleFilters rules.length 0 rules ++ returnFilters)).length = rules.length + 3 := by
    rw [List.length_cons, List.length_append, ruleFilters_length]
    rfl
  simp only [seccompFilter, checkFrom_ld, checkFrom_jeq, harch, hnr, hrest, hlen', h0,
    decide_eq_true hjump, decide_true, Bool.and_true]

/-- The returns of the filter are the last two instructions. -/
theorem seccompFilter_ret {i : SockFilter} (hm : i ∈ seccompFilter target order rules)
    (hc : i.code = bpfRet ||| bpfK) : i.k = seccompRetAllow ∨ i.k = seccompRetKillProcess := by
  have hrule : ∀ {n : Int} {rules : List SyscallRule} {j : Int},
      i ∉ ruleFilters n j rules := by
    intro n rules
    induction rules with
    | nil => exact List.not_mem_nil
    | cons r rules ih =>
        intro j h
        rcases List.mem_cons.mp h with rfl | h
        · revert hc
          have hcode : (ruleFilter n j r).code = bpfJmp ||| bpfJeq ||| bpfK := by
            cases ha : r.action <;> simp only [ruleFilter, ha, bpfJump]
          rw [hcode]
          exact fun hc => absurd hc (by decide)
        · exact ih h
  simp only [seccompFilter, List.mem_cons, List.mem_append] at hm
  rcases hm with rfl | rfl | rfl | h | h
  · exact absurd hc (by decide)
  · exact absurd (show bpfJmp ||| bpfJeq ||| bpfK = bpfRet ||| bpfK from hc) (by decide)
  · exact absurd hc (by decide)
  · exact absurd h hrule
  · simp only [returnFilters, List.mem_cons, List.not_mem_nil, or_false] at h
    rcases h with rfl | rfl
    · exact .inl rfl
    · exact .inr rfl

end

/-- **Every filter passes the kernel's check.**  Of every policy, the program `seccomp_apply` gives to
the kernel is accepted, whichever side of the assignment is evaluated first, and on every record it
has exactly one answer: to allow the call, or to kill the process. -/
theorem seccompProg_checked (target : Target) (order : EvalOrder) (policy : SyscallPolicy) :
    Accepted seccompWord ((seccompProg target order policy).filter.take
      (seccompProg target order policy).len.toNat) ∧
    ∀ load : Load, (∀ k, seccompWord k = true → (load k).isSome) →
      ∃ v, (v = seccompRetAllow ∨ v = seccompRetKillProcess) ∧
        ∀ v', Returns load ((seccompProg target order policy).filter.take
          (seccompProg target order policy).len.toNat) v' ↔ v' = v := by
  have hlt : (seccompFilter target order policy.syscallRules).length < 2 ^ 16 := by
    rw [seccompFilter_length]
    exact Nat.lt_of_le_of_lt (Nat.add_le_add_right policy.length_le 5) (by decide)
  have htake : (seccompProg target order policy).filter.take
      (seccompProg target order policy).len.toNat =
        seccompFilter target order policy.syscallRules := by
    simp only [seccompProg, UInt16.toNat_ofNat', Nat.mod_eq_of_lt hlt, List.take_length]
  rw [htake]
  have hacc : Accepted seccompWord (seccompFilter target order policy.syscallRules) := by
    refine ⟨?_, checkFrom_seccompFilter policy.length_le⟩
    rw [seccompFilter_length]
    exact Nat.le_trans (Nat.add_le_add_right policy.length_le 5) (by decide)
  refine ⟨hacc, fun load hload => ?_⟩
  obtain ⟨i, hi, hc, hr⟩ := hacc.returns hload
  exact ⟨i.k, seccompFilter_ret hi hc, fun v' => ⟨fun h => h.unique hr, fun e => e ▸ hr⟩⟩

/-! ### Sandboxes in turn -/

/-- One `sbx_apply`: the policy, and the outcomes of its calls. -/
structure Attempt where
  env : SandboxEnv
  policy : Policy

/-- `sbx_apply` in turn, as by one `lumi-sandbox` that runs another. -/
def sbxApplyEach (target : Target) (order : EvalOrder) : List Attempt → Task → Task
  | [], task => task
  | a :: attempts, task =>
    sbxApplyEach target order attempts (sbxApply target order a.env a.policy task).2

/-- Of the answers of its filters the kernel takes the most severe. -/
def Task.Kills (task : Task) (data : SeccompData) : Prop :=
  ∃ prog ∈ task.filters, prog.Answers data seccompRetKillProcess

/-- The attempt enforces its ruleset. -/
def Attempt.Restricts (a : Attempt) : Prop :=
  a.policy.level ≠ levelNone ∧ a.policy.pathRules ≠ [] ∧ landlockSupported a.env.probe = true ∧
    a.env.landlock.Succeeds

/-- The attempt installs its filter. -/
def Attempt.Filters (a : Attempt) : Prop :=
  a.policy.level ≠ levelNone ∧ a.policy.syscallRules ≠ [] ∧ a.env.seccomp.Succeeds

section

variable {target : Target} {order : EvalOrder} {a : Attempt} {attempts attempts' : List Attempt}
  {task : Task} {ι : Type} {files : Files ι}

/-- One attempt adds its ruleset and its filter, where it gets to, and takes nothing away. -/
theorem sbxApply_adds (target : Target) (order : EvalOrder) (a : Attempt) (task : Task) :
    (∀ ruleset, ruleset ∈ (sbxApply target order a.env a.policy task).2.domains ↔
      a.Restricts ∧ ruleset = landlockRuleset a.env.landlock a.policy ∨ ruleset ∈ task.domains) ∧
    ∀ prog, prog ∈ (sbxApply target order a.env a.policy task).2.filters ↔
      a.Filters ∧ prog = seccompProg target order a.policy.toSyscallPolicy ∨
        prog ∈ task.filters := by
  by_cases hlevel : a.policy.level = levelNone
  · have e : (sbxApply target order a.env a.policy task).2 = task := by
      simp only [sbxApply, if_pos hlevel]
    rw [e]
    exact ⟨fun _ => (or_iff_right fun h => h.1.1 hlevel).symm,
      fun _ => (or_iff_right fun h => h.1.1 hlevel).symm⟩
  · obtain ⟨hd, hf, -⟩ := sbxApply_task target order a.env task hlevel
    rw [hd, hf]
    constructor
    · intro ruleset
      split
      · rename_i h
        have hr : a.Restricts := ⟨hlevel, h⟩
        rw [List.mem_cons, and_iff_right hr]
      · rename_i h
        exact (or_iff_right fun k => h k.1.2).symm
    · intro prog
      split
      · rename_i h
        have hr : a.Filters := ⟨hlevel, h⟩
        rw [List.mem_cons, and_iff_right hr]
      · rename_i h
        exact (or_iff_right fun k => h k.1.2).symm

theorem sbxApplyEach_adds (target : Target) (order : EvalOrder) : ∀ (attempts : List Attempt)
    (task : Task),
    (∀ ruleset, ruleset ∈ (sbxApplyEach target order attempts task).domains ↔
      (∃ a ∈ attempts, a.Restricts ∧ ruleset = landlockRuleset a.env.landlock a.policy) ∨
        ruleset ∈ task.domains) ∧
    ∀ prog, prog ∈ (sbxApplyEach target order attempts task).filters ↔
      (∃ a ∈ attempts, a.Filters ∧ prog = seccompProg target order a.policy.toSyscallPolicy) ∨
        prog ∈ task.filters
  | [], task => by simp [sbxApplyEach]
  | a :: attempts, task => by
      obtain ⟨hd, hf⟩ := sbxApply_adds target order a task
      obtain ⟨hd', hf'⟩ := sbxApplyEach_adds target order attempts
        (sbxApply target order a.env a.policy task).2
      constructor
      · intro ruleset
        simp only [sbxApplyEach, hd', hd, List.mem_cons, exists_eq_or_imp, or_left_comm, or_assoc]
      · intro prog
        simp only [sbxApplyEach, hf', hf, List.mem_cons, exists_eq_or_imp, or_left_comm, or_assoc]

end

/-- **Sandboxes compose.**  Of two sequences of `sbx_apply` on one task, whatever the outcomes of their
calls, when every attempt of the first is one of the second, then the second kills every call the
first kills, and leaves no right on any file that the first does not.  So neither the order nor a
repetition matters, and a sandbox inside another only tightens it. -/
theorem sbxApplyEach_mono (target : Target) (order : EvalOrder) {attempts attempts' : List Attempt}
    (h : attempts ⊆ attempts') (task : Task) :
    (∀ data, (sbxApplyEach target order attempts task).Kills data →
      (sbxApplyEach target order attempts' task).Kills data) ∧
    ∀ {ι : Type} (files : Files ι) (right : AccessFs) (path : List UInt8),
      (sbxApplyEach target order attempts' task).May files right path →
        (sbxApplyEach target order attempts task).May files right path := by
  obtain ⟨hd, hf⟩ := sbxApplyEach_adds target order attempts task
  obtain ⟨hd', hf'⟩ := sbxApplyEach_adds target order attempts' task
  constructor
  · rintro data ⟨prog, hm, hk⟩
    exact ⟨prog, (hf' prog).mpr (((hf prog).mp hm).imp_left fun ⟨a, ha, h'⟩ => ⟨a, h ha, h'⟩), hk⟩
  · rintro ι files right path ⟨x, hx, hall⟩
    exact ⟨x, hx, fun ruleset hm => hall ruleset ((hd' ruleset).mpr
      (((hd ruleset).mp hm).imp_left fun ⟨a, ha, h'⟩ => ⟨a, h ha, h'⟩))⟩

/-- The call for a level, on a kernel with Landlock and without AppArmor. -/
def rootAttempt (level : Int32) : Attempt where
  env := ⟨rootEnv.probe, rootEnv, ⟨true, true, true⟩, false, ⟨false, false⟩⟩
  policy := sbxPolicyDefault .x86 level

/-- `NORMAL` inside `STRICT` is not looser than `NORMAL` alone. -/
theorem sbxApplyEach_mono_strict :
    [rootAttempt levelNormal] ⊆ [rootAttempt levelStrict, rootAttempt levelNormal] ∧
    (∀ data, (sbxApplyEach .x86_64 .placeFirst [rootAttempt levelNormal] .free).Kills data →
      (sbxApplyEach .x86_64 .placeFirst [rootAttempt levelStrict, rootAttempt levelNormal] .free).Kills
        data) ∧
    ∀ right path,
      (sbxApplyEach .x86_64 .placeFirst [rootAttempt levelStrict, rootAttempt levelNormal] .free).May
        rootFiles right path →
      (sbxApplyEach .x86_64 .placeFirst [rootAttempt levelNormal] .free).May rootFiles right path := by
  have hsub : [rootAttempt levelNormal] ⊆ [rootAttempt levelStrict, rootAttempt levelNormal] :=
    List.subset_cons_self _ _
  obtain ⟨hkills, hmay⟩ := sbxApplyEach_mono .x86_64 .placeFirst hsub .free
  exact ⟨hsub, hkills, hmay rootFiles⟩

/-- **What is killed.**  A call of the native architecture is killed exactly when it was before, or one
of the attempts that installed its filter denies it. -/
theorem sbxApplyEach_kills (target : Target) (order : EvalOrder) (attempts : List Attempt)
    (task : Task) (nr : Int32) :
    (sbxApplyEach target order attempts task).Kills ⟨nr, target.auditArchCurrent⟩ ↔
      task.Kills ⟨nr, target.auditArchCurrent⟩ ∨
        ∃ a ∈ attempts, a.Filters ∧ Denied a.policy.syscallRules nr := by
  obtain ⟨-, hf⟩ := sbxApplyEach_adds target order attempts task
  simp only [Task.Kills, hf]
  constructor
  · rintro ⟨prog, ⟨a, ha, hfil, rfl⟩ | hm, hk⟩
    · exact .inr ⟨a, ha, hfil, seccompProg_kills_iff.mp hk⟩
    · exact .inl ⟨prog, hm, hk⟩
  · rintro (⟨prog, hm, hk⟩ | ⟨a, ha, hfil, hden⟩)
    · exact ⟨prog, .inr hm, hk⟩
    · exact ⟨_, .inl ⟨a, ha, hfil, rfl⟩, seccompProg_kills_iff.mpr hden⟩

end LumiOS.Sandbox
