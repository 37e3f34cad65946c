import LumiOS.Support.Bpf

/-!
# Support — BpfCheck

The check a kernel makes of a classic BPF program before it runs it, for the instructions of
`Bpf.lean`: the program is not too long, every instruction is a known one, every load lies inside the
record, every jump lands inside the program, and the last instruction returns.  A program that passes
needs no check while it runs: on every record it comes to an end, with a value that one of its returns
names (`Accepted.returns`).
-/

namespace Support.Bpf

/-- `BPF_MAXINSNS`. -/
def maxInsns : Nat := 4096

/-- The check of each instruction, against the instructions that follow it. -/
def checkFrom (inside : UInt32 → Bool) : List SockFilter → Bool
  | [] => false
  | i :: rest =>
    if i.code = bpfLd ||| bpfW ||| bpfAbs then inside i.k && checkFrom inside rest
    else if i.code = bpfJmp ||| bpfJeq ||| bpfK then
      i.jt.toNat < rest.length && i.jf.toNat < rest.length && checkFrom inside rest
    else if i.code = bpfRet ||| bpfK then rest.isEmpty || checkFrom inside rest
    else false

/-- The kernel accepts the program, for records whose words lie at the offsets in `inside`. -/
def Accepted (inside : UInt32 → Bool) (prog : List SockFilter) : Prop :=
  prog.length ≤ maxInsns ∧ checkFrom inside prog = true

instance (inside : UInt32 → Bool) (prog : List SockFilter) : Decidable (Accepted inside prog) :=
  inferInstanceAs (Decidable (_ ∧ _))

section

variable {inside : UInt32 → Bool} {load : Load} {prog : List SockFilter} {i : SockFilter}
  {v v' : UInt32}

@[simp] theorem checkFrom_ld {k : UInt32} :
    checkFrom inside (bpfStmt (bpfLd ||| bpfW ||| bpfAbs) k :: prog) =
      (inside k && checkFrom inside prog) := rfl

@[simp] theorem checkFrom_jeq {k : UInt32} {jt jf : UInt8} :
    checkFrom inside (bpfJump (bpfJmp ||| bpfJeq ||| bpfK) k jt jf :: prog) =
      (jt.toNat < prog.length && jf.toNat < prog.length && checkFrom inside prog) := rfl

@[simp] theorem checkFrom_ret {k : UInt32} :
    checkFrom inside (bpfStmt (bpfRet ||| bpfK) k :: prog) =
      (prog.isEmpty || checkFrom inside prog) := rfl

/-- From every instruction of a checked program the evaluator comes to a return. -/
theorem run_of_check (hload : ∀ k, inside k = true → (load k).isSome) :
    ∀ {prog : List SockFilter} {skip : Nat} (acc : UInt32), checkFrom inside prog = true →
      skip < prog.length →
      ∃ i ∈ prog, i.code = bpfRet ||| bpfK ∧ run load prog skip acc = some i.k
  | [], _, _, h, _ => nomatch h
  | i :: rest, skip + 1, acc, h, hlt => by
      -- the instructions after a checked one are checked, unless there are none
      have hrest : checkFrom inside rest = true := by
        simp only [checkFrom] at h
        split at h
        · exact ((Bool.and_eq_true _ _).mp h).2
        · split at h
          · exact ((Bool.and_eq_true _ _).mp h).2
          · split at h
            · refine ((Bool.or_eq_true _ _).mp h).resolve_left fun he => ?_
              rw [List.isEmpty_iff.mp he] at hlt
              exact absurd hlt (by simp)
            · cases h
      obtain ⟨j, hj, hc, hr⟩ := run_of_check hload acc hrest (Nat.lt_of_succ_lt_succ hlt)
      exact ⟨j, List.mem_cons_of_mem i hj, hc, hr⟩
  | i :: rest, 0, acc, h, _ => by
      simp only [checkFrom] at h
      split at h
      · -- a load
        rename_i hc
        obtain ⟨hk, hrest⟩ := (Bool.and_eq_true _ _).mp h
        obtain ⟨w, hw⟩ := Option.isSome_iff_exists.mp (hload i.k hk)
        have hpos : 0 < rest.length := by
          cases rest with
          | nil => cases hrest
          | cons _ _ => exact Nat.succ_pos _
        obtain ⟨j, hj, hcj, hr⟩ := run_of_check hload w hrest hpos
        refine ⟨j, List.mem_cons_of_mem i hj, hcj, ?_⟩
        simpa only [run, SockFilter.effect, if_pos hc, hw, Option.map_some] using hr
      · rename_i hld
        split at h
        · -- a comparison, and the jump it decides
          rename_i hc
          obtain ⟨hlt, hrest⟩ := (Bool.and_eq_true _ _).mp h
          obtain ⟨ht, hf⟩ := (Bool.and_eq_true _ _).mp hlt
          have hjump : (if acc = i.k then i.jt else i.jf).toNat < rest.length := by
            split
            · exact of_decide_eq_true ht
            · exact of_decide_eq_true hf
          obtain ⟨j, hj, hcj, hr⟩ := run_of_check hload acc hrest hjump
          refine ⟨j, List.mem_cons_of_mem i hj, hcj, ?_⟩
          simpa only [run, SockFilter.effect, if_neg hld, if_pos hc] using hr
        · rename_i hjmp
          split at h
          · rename_i hc
            refine ⟨i, List.mem_cons_self, hc, ?_⟩
            simp only [run, SockFilter.effect, if_neg hld, if_neg hjmp, if_pos hc]
          · cases h

/-- The machine returns one value. -/
theorem Returns.unique (h : Returns load prog v) (h' : Returns load prog v') : v = v' :=
  Option.some.inj ((returns_iff_run.mp h).symm.trans (returns_iff_run.mp h'))

/-- **An accepted program returns on every record**, with the value of one of its returns. -/
theorem Accepted.returns (h : Accepted inside prog)
    (hload : ∀ k, inside k = true → (load k).isSome) :
    ∃ i ∈ prog, i.code = bpfRet ||| bpfK ∧ Returns load prog i.k := by
  have hpos : 0 < prog.length := by
    cases prog with
    | nil => exact nomatch h.2
    | cons _ _ => exact Nat.succ_pos _
  obtain ⟨i, hi, hc, hr⟩ := run_of_check hload 0 h.2 hpos
  exact ⟨i, hi, hc, returns_iff_run.mpr hr⟩

end

end Support.Bpf
