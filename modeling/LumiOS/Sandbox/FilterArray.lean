import LumiOS.Sandbox.Seccomp

/-!
# Sandbox — FilterArray

The array `seccomp_apply` builds its program in: the indices it stores to, and the length of which it
tells the kernel.

`prog_len` counts the two returns at the end as one, so the second is stored behind the array, whatever
the rules (`apply_stores_outside`).  It is the only store there (`mem_build_outside_iff`), and the length
is the number of the instructions stored (`build_len`).
-/

namespace LumiOS.Sandbox

open Support.Bpf

/-! ### The stores -/

/-- An instruction stored to `filter`. -/
structure FilterStore where
  index : Int
  insn : SockFilter

/-- `idx`, and the stores so far. -/
structure FilterArray where
  idx : Int
  stores : List FilterStore

/-- `filter[idx++] = insn`. -/
def FilterArray.store (a : FilterArray) (insn : SockFilter) : FilterArray where
  idx := a.idx + 1
  stores := a.stores ++ [⟨a.idx, insn⟩]

/-- The loop over the rules, from index `i`. -/
def FilterArray.storeRules (numRules : Int) : Int → List SyscallRule → FilterArray → FilterArray
  | _, [], a => a
  | i, r :: rules, a => storeRules numRules (i + 1) rules (a.store (ruleFilter numRules i r))

/-- What `seccomp_apply` stores once the array is allocated. -/
def buildFilter (target : Target) (order : EvalOrder) (rules : List SyscallRule) : FilterArray :=
  let numRules : Int := rules.length
  let a : FilterArray := ⟨0, []⟩
  let a := a.store (bpfStmt (bpfLd ||| bpfW ||| bpfAbs) offsetArch)
  let a := a.store (bpfJump (bpfJmp ||| bpfJeq ||| bpfK) target.auditArchCurrent 0
    (UInt8.ofInt (progLen numRules - order.reads a.idx - 1)))
  let a := a.store (bpfStmt (bpfLd ||| bpfW ||| bpfAbs) offsetNr)
  let a := a.storeRules numRules 0 rules
  let a := a.store (bpfStmt (bpfRet ||| bpfK) seccompRetAllow)
  a.store (bpfStmt (bpfRet ||| bpfK) seccompRetKillProcess)

/-- What `seccomp_apply` stores for a policy when `calloc` succeeds. -/
def applyStores (target : Target) (order : EvalOrder) (policy : SyscallPolicy) : List FilterStore :=
  if policy.syscallRules.length = 0 then [] else (buildFilter target order policy.syscallRules).stores

/-- The stores lie inside the array of `prog_len` instructions, and `prog.len` counts them. -/
structure StoresFit (target : Target) (order : EvalOrder) (policy : SyscallPolicy) : Prop where
  inside : ∀ st ∈ applyStores target order policy,
    0 ≤ st.index ∧ st.index < progLen policy.syscallRules.length
  len_eq : (seccompProg target order policy).len.toNat = (applyStores target order policy).length

/-! ### The program they make -/

section

variable {numRules i : Int} {rules : List SyscallRule} {target : Target} {order : EvalOrder}
  {policy : SyscallPolicy} {a : FilterArray} {insns : List SockFilter} {st : FilterStore}

/-- The array holds these instructions, one behind the other. -/
structure FilterArray.Stored (a : FilterArray) (insns : List SockFilter) : Prop where
  idx_eq : a.idx = insns.length
  insns_eq : a.stores.map FilterStore.insn = insns
  indices : a.stores.map FilterStore.index = (List.range insns.length).map Int.ofNat

theorem FilterArray.Stored.store (h : a.Stored insns) (insn : SockFilter) :
    (a.store insn).Stored (insns ++ [insn]) where
  idx_eq := by
    rw [FilterArray.store, h.idx_eq, List.length_append]
    rfl
  insns_eq := by rw [FilterArray.store, List.map_append, h.insns_eq]; rfl
  indices := by
    rw [FilterArray.store, List.map_append, h.indices, List.length_append, List.length_singleton,
      List.range_succ, List.map_append, h.idx_eq]
    rfl

theorem FilterArray.Stored.storeRules (h : a.Stored insns) :
    (a.storeRules numRules i rules).Stored (insns ++ ruleFilters numRules i rules) := by
  induction rules generalizing a i insns with
  | nil =>
      rw [ruleFilters, List.append_nil]
      exact h
  | cons r rules ih =>
      have hr := ih (i := i + 1) (h.store (ruleFilter numRules i r))
      rw [List.append_assoc] at hr
      exact hr

/-- **The stores make the program**, in the order of its instructions. -/
theorem buildFilter_stored (target : Target) (order : EvalOrder) (rules : List SyscallRule) :
    (buildFilter target order rules).Stored (seccompFilter target order rules) := by
  have happend : seccompFilter target order rules =
      [] ++ [bpfStmt (bpfLd ||| bpfW ||| bpfAbs) offsetArch] ++
      [bpfJump (bpfJmp ||| bpfJeq ||| bpfK) target.auditArchCurrent 0
        (UInt8.ofInt (progLen rules.length - order.reads 1 - 1))] ++
      [bpfStmt (bpfLd ||| bpfW ||| bpfAbs) offsetNr] ++ ruleFilters rules.length 0 rules ++
      [bpfStmt (bpfRet ||| bpfK) seccompRetAllow] ++
      [bpfStmt (bpfRet ||| bpfK) seccompRetKillProcess] := by
    simp only [seccompFilter, returnFilters, List.nil_append, List.append_assoc, List.cons_append]
  have hempty : FilterArray.Stored ⟨0, []⟩ [] := ⟨rfl, rfl, rfl⟩
  rw [happend]
  exact (((((hempty.store _).store _).store _).storeRules).store _).store _

theorem build_len (target : Target) (order : EvalOrder) (policy : SyscallPolicy) :
    (seccompProg target order policy).len.toNat =
      (buildFilter target order policy.syscallRules).stores.length := by
  have h := congrArg List.length (buildFilter_stored target order policy.syscallRules).insns_eq
  rw [List.length_map] at h
  have hlt : (seccompFilter target order policy.syscallRules).length < 2 ^ 16 := by
    rw [seccompFilter_length]
    exact Nat.lt_of_le_of_lt (Nat.add_le_add_right policy.length_le 5) (by decide)
  rw [h, seccompProg, UInt16.toNat_ofNat', Nat.mod_eq_of_lt hlt]

/-- The indices are those from 0 up to and including `prog_len`. -/
theorem exists_store_iff {k : Int} :
    (∃ st ∈ (buildFilter target order rules).stores, st.index = k) ↔
      0 ≤ k ∧ k ≤ progLen rules.length := by
  rw [← List.mem_map, (buildFilter_stored target order rules).indices, seccompFilter_length, progLen,
    List.mem_map]
  constructor
  · rintro ⟨n, hn, rfl⟩
    have := List.mem_range.mp hn
    simp only [Int.ofNat_eq_natCast]
    omega
  · rintro ⟨h0, hle⟩
    refine ⟨k.toNat, List.mem_range.mpr (by omega), ?_⟩
    simp only [Int.ofNat_eq_natCast]
    omega

/-- Only the store at `prog_len` is outside. -/
theorem mem_build_outside_iff (h : st ∈ (buildFilter target order rules).stores) :
    ¬ (0 ≤ st.index ∧ st.index < progLen rules.length) ↔ st.index = progLen rules.length := by
  have := exists_store_iff.mp ⟨st, h, rfl⟩
  omega

/-- **The last store is behind the array**, whatever the rules. -/
theorem apply_stores_outside (target : Target) (order : EvalOrder) (policy : SyscallPolicy)
    (h : policy.syscallRules ≠ []) : ¬ StoresFit target order policy := by
  intro hfit
  have hlen : policy.syscallRules.length ≠ 0 := fun e => h (List.length_eq_zero_iff.mp e)
  have happly : applyStores target order policy =
      (buildFilter target order policy.syscallRules).stores := if_neg hlen
  have hpos : 0 ≤ progLen policy.syscallRules.length := by
    rw [progLen]
    omega
  have hlast : ∃ st ∈ (buildFilter target order policy.syscallRules).stores,
      st.index = progLen policy.syscallRules.length := exists_store_iff.mpr ⟨hpos, Int.le_refl _⟩
  obtain ⟨st, hst, hidx⟩ := hlast
  have hin := hfit.inside st (happly ▸ hst)
  exact Int.lt_irrefl _ (hidx ▸ hin.2)

end

theorem apply_stores_outside_mount : ¬ StoresFit .x86_64 .placeFirst denyMount :=
  apply_stores_outside .x86_64 .placeFirst denyMount (by decide)

/-- With one rule, six instructions are stored into an array of five. -/
theorem mount_stores_outside :
    ¬ ∀ (target : Target) (order : EvalOrder) (policy : SyscallPolicy), policy.syscallRules ≠ [] →
      StoresFit target order policy := by
  intro h
  have hfit := h .x86_64 .placeFirst denyMount (by decide)
  have hst : ∃ st ∈ applyStores .x86_64 .placeFirst denyMount, st.index = 5 :=
    ⟨⟨5, _⟩, List.mem_of_getLast? rfl, rfl⟩
  obtain ⟨st, hst, hidx⟩ := hst
  have hin := hfit.inside st hst
  rw [hidx] at hin
  exact absurd hin.2 (by decide)

end LumiOS.Sandbox
