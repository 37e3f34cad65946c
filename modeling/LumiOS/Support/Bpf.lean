import Mathlib.Logic.Relation

/-!
# Support — Bpf

The classic BPF machine, with the three instructions a system call filter needs: load a word of the
record under test, compare with a constant, return a constant.  Jumps are forward and relative to the
next instruction, with offsets of eight bits.

`Step` is the machine as it is specified, on a program counter.  `run` is the evaluator, by recursion
on the program, which counts the instructions a jump still has to pass; it computes what the machine
returns (`returns_iff_run`), and the `run_` lemmas are its rules, one for each instruction.
-/

namespace Support.Bpf

open Relation

/-! ### Instructions -/

/-- `struct sock_filter`. -/
structure SockFilter where
  code : UInt16
  jt : UInt8
  jf : UInt8
  k : UInt32
deriving DecidableEq, Repr

/-- `BPF_LD`: a load into the accumulator. -/
def bpfLd : UInt16 := 0x00

/-- `BPF_W`: of a word. -/
def bpfW : UInt16 := 0x00

/-- `BPF_ABS`: from a fixed offset. -/
def bpfAbs : UInt16 := 0x20

/-- `BPF_JMP`: a jump. -/
def bpfJmp : UInt16 := 0x05

/-- `BPF_JEQ`: on equality. -/
def bpfJeq : UInt16 := 0x10

/-- `BPF_RET`: a return. -/
def bpfRet : UInt16 := 0x06

/-- `BPF_K`: with the constant of the instruction. -/
def bpfK : UInt16 := 0x00

/-- `BPF_STMT`. -/
def bpfStmt (code : UInt16) (k : UInt32) : SockFilter := ⟨code, 0, 0, k⟩

/-- `BPF_JUMP`. -/
def bpfJump (code : UInt16) (k : UInt32) (jt jf : UInt8) : SockFilter := ⟨code, jt, jf, k⟩

/-- What an instruction does: go on, past `skip` further instructions, or return. -/
inductive Effect where
  | goto (skip : Nat) (acc : UInt32)
  | ret (v : UInt32)

/-- The word of the record at an offset, where there is one. -/
abbrev Load := UInt32 → Option UInt32

/-- An instruction on the accumulator `acc`; nothing is said of the other instructions of BPF, nor of
a load outside the record. -/
def SockFilter.effect (load : Load) (i : SockFilter) (acc : UInt32) : Option Effect :=
  if i.code = bpfLd ||| bpfW ||| bpfAbs then (load i.k).map (.goto 0)
  else if i.code = bpfJmp ||| bpfJeq ||| bpfK then
    some (.goto (if acc = i.k then i.jt else i.jf).toNat acc)
  else if i.code = bpfRet ||| bpfK then some (.ret i.k)
  else none

/-! ### The machine -/

/-- The machine between two instructions. -/
structure State where
  pc : Nat
  acc : UInt32

/-- One instruction that does not return. -/
inductive Step (load : Load) (prog : List SockFilter) : State → State → Prop
  | mk {pc skip acc acc' i} (h : prog[pc]? = some i) (he : i.effect load acc = some (.goto skip acc')) :
      Step load prog ⟨pc, acc⟩ ⟨pc + 1 + skip, acc'⟩

/-- The instruction at the program counter returns `v`. -/
def Halts (load : Load) (prog : List SockFilter) (st : State) (v : UInt32) : Prop :=
  ∃ i, prog[st.pc]? = some i ∧ i.effect load st.acc = some (.ret v)

/-- A run from the first instruction, with an accumulator of zero, returns `v`. -/
def Returns (load : Load) (prog : List SockFilter) (v : UInt32) : Prop :=
  ∃ st, ReflTransGen (Step load prog) ⟨0, 0⟩ st ∧ Halts load prog st v

/-! ### The evaluator -/

/-- Runs a program, past its first `skip` instructions. -/
def run (load : Load) : List SockFilter → Nat → UInt32 → Option UInt32
  | [], _, _ => none
  | _ :: prog, skip + 1, acc => run load prog skip acc
  | i :: prog, 0, acc =>
    match i.effect load acc with
    | some (.goto skip acc) => run load prog skip acc
    | some (.ret v) => some v
    | none => none

section

variable {load : Load} {prog : List SockFilter} {i : SockFilter} {skip pc : Nat}
  {acc acc' v x : UInt32} {st st' : State}

/-- A jump over a whole part of the program. -/
theorem run_skip (pre : List SockFilter) :
    run load (pre ++ prog) (pre.length + skip) acc = run load prog skip acc := by
  induction pre with
  | nil => simp
  | cons i pre ih =>
      rw [List.length_cons, Nat.add_right_comm]
      exact ih

/-- A load goes on with the word, if there is one. -/
@[simp] theorem run_ld {k : UInt32} :
    run load (bpfStmt (bpfLd ||| bpfW ||| bpfAbs) k :: prog) 0 acc =
      (load k).bind (run load prog 0) := by
  simp only [run, SockFilter.effect, bpfStmt, if_true]
  cases load k <;> rfl

/-- A comparison goes on at one of two places behind it. -/
@[simp] theorem run_jeq {k : UInt32} {jt jf : UInt8} :
    run load (bpfJump (bpfJmp ||| bpfJeq ||| bpfK) k jt jf :: prog) 0 acc =
      run load prog (if acc = k then jt else jf).toNat acc := rfl

/-- A return ends the run. -/
@[simp] theorem run_ret {k : UInt32} :
    run load (bpfStmt (bpfRet ||| bpfK) k :: prog) 0 acc = some k := rfl

/-! ### The evaluator computes what the machine returns -/

/-- To skip instructions is to do without them. -/
theorem run_eq_run_drop : run load prog skip acc = run load (prog.drop skip) 0 acc := by
  induction prog generalizing skip with
  | nil => simp [run]
  | cons i prog ih =>
      cases skip with
      | zero => rfl
      | succ skip => exact ih

/-- The program from an instruction on. -/
theorem drop_of_getElem (h : prog[pc]? = some i) : prog.drop pc = i :: prog.drop (pc + 1) := by
  obtain ⟨hlt, rfl⟩ := List.getElem?_eq_some_iff.mp h
  exact List.drop_eq_getElem_cons hlt

/-- **One step** does not change what the rest returns. -/
theorem Step.run_eq (h : Step load prog st st') :
    run load (prog.drop st.pc) 0 st.acc = run load (prog.drop st'.pc) 0 st'.acc := by
  cases h with
  | mk h he =>
      rw [drop_of_getElem h]
      simp only [run, he]
      rw [run_eq_run_drop, List.drop_drop]

/-- **Several steps** do not change what the rest returns. -/
theorem run_eq_of_steps (h : ReflTransGen (Step load prog) st st') :
    run load (prog.drop st.pc) 0 st.acc = run load (prog.drop st'.pc) 0 st'.acc := by
  induction h with
  | refl => rfl
  | tail _ h ih => exact ih.trans h.run_eq

/-- At the end it is what the machine returns. -/
theorem Halts.run_eq (h : Halts load prog st v) : run load (prog.drop st.pc) 0 st.acc = some v := by
  obtain ⟨i, hi, he⟩ := h
  rw [drop_of_getElem hi]
  simp only [run, he]

/-- The machine follows the evaluator, from wherever it is. -/
theorem halts_of_run {rest : List SockFilter} (hr : prog.drop pc = rest)
    (h : run load rest skip acc = some v) :
    ∃ st, ReflTransGen (Step load prog) ⟨pc + skip, acc⟩ st ∧ Halts load prog st v := by
  -- the evaluator goes through the rest of the program; `pc` is where it has got to
  induction rest generalizing pc skip acc with
  | nil => exact nomatch h
  | cons i rest ih =>
      have hi : prog[pc]? = some i := by
        rw [← List.head?_drop, hr]
        rfl
      have hrest : prog.drop (pc + 1) = rest := by
        rw [← List.tail_drop, hr]
        rfl
      cases skip with
      | succ skip =>
          have := ih hrest h
          rwa [Nat.add_assoc, Nat.add_comm 1] at this
      | zero =>
          cases he : i.effect load acc with
          | none => simp only [run, he] at h; exact nomatch h
          | some e =>
              cases e with
              | goto skip acc' =>
                  simp only [run, he] at h
                  obtain ⟨st, hs, hv⟩ := ih hrest h
                  exact ⟨st, .head (.mk hi he) hs, hv⟩
              | ret w =>
                  simp only [run, he, Option.some.injEq] at h
                  exact ⟨⟨pc, acc⟩, .refl, i, hi, h ▸ he⟩

/-- **The evaluator is the machine.** -/
theorem returns_iff_run : Returns load prog v ↔ run load prog 0 0 = some v := by
  constructor
  · rintro ⟨st, hs, hv⟩
    exact (run_eq_of_steps hs).trans hv.run_eq
  · exact fun h => halts_of_run List.drop_zero h

/-- What a program returns can be computed. -/
instance : Decidable (Returns load prog v) := decidable_of_iff _ returns_iff_run.symm

end

end Support.Bpf
