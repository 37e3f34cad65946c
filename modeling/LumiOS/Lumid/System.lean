import LumiOS.Support.Children
import LumiOS.Lumid.Service

/-!
# Lumid — System

The state lumid and the kernel share while lumid runs: the globals of `service.c` and
`supervisor.c`, lumid's unreaped children, the monotonic clock, and a trace of what lumid did, newest
first.

An operation that depends on the world outside lumid takes its answers from an `Env`: what `fork`
returns, how a process it stops terminates, and what the clock reads.  Answers are indexed by the
service concerned, which one operation asks about at most once.  The kernel gives a new child no pid
an unreaped child holds (`Children.fork`), and the clock never runs backwards (`Sys.readClock`).

A state changes in four ways: a service is written to (`upd`), something is done (`emit`), the kernel
has other children (`withChildren`), and time has passed (`readClock`).  The simp set says which field
each of them changes, and that a write to a service can be put behind the others; so the states that two
orders of the same changes leave are brought to one form.
-/

namespace LumiOS.Lumid

open Support

/-- What lumid does to the world, and the points of a run that later conditions refer to: the calls
of `service_start` on an operator's behalf and on the supervisor's, and the exits that
`supervisor_handle_sigchld` attributes to a service. -/
inductive Action where
  | operatorStart (n : Name)
  | autoStart (n : Name)
  | fork (n : Name) (pid : Int)
  | forkFailed (n : Name)
  | reap (n : Name) (st : WaitStatus)
  | cgroupSetup (n : Name) (limits : CgroupLimits) (pid : Int)
  | cgroupRemove (n : Name)
  | kill (pid : Int) (sig : Nat)
  | killSelf (sig : Nat)
  | usleep (us : UInt32)
  | waitpid (pid : Int) (res : WaitResult)
  /-- `WIFEXITED` reads a `status` no `waitpid` assigned. -/
  | uninitStatus (n : Name)
deriving DecidableEq, Repr

/-- A `fork` for `n`. -/
def Action.isFork (n : Name) : Action → Bool
  | .fork m _ => m = n
  | _ => false

/-- `SIGKILL`. -/
def sigKill : Nat := 9

/-- `SIGTERM`. -/
def sigTerm : Nat := 15

/-- The answers of the world to one operation. -/
structure Env where
  /-- What `fork` returns to the parent; `none` is a failure. -/
  fork : Name → Option Int
  /-- How the process terminates within half a second of `SIGTERM`, if it does. -/
  grace : Name → Option WaitStatus
  /-- How it terminates once it is sent `SIGKILL`. -/
  killed : Name → WaitStatus
  /-- The indeterminate content of the `status` variable of `service_stop`. -/
  junk : Name → WaitStatus
  /-- The reading of `util_monotonic_ns`. -/
  clock : Name → UInt64

/-- lumid and its kernel at one moment. -/
structure Sys where
  services : Registry
  serviceCount : Int
  /-- `g_start_order`, up to `g_start_order_count`. -/
  startOrder : List Name
  lastCheckTime : UInt64
  children : Children Name
  clock : UInt64
  trace : List Action

namespace Sys

/-- lumid when `supervisor_init` has run, with no service loaded and no child. -/
def init (now : UInt64) : Sys where
  services := .empty
  serviceCount := 0
  startOrder := []
  lastCheckTime := now
  children := .empty
  clock := now
  trace := []

/-- A write to a registered service. -/
def upd (s : Sys) (n : Name) (f : ServiceRuntime → ServiceRuntime) : Sys :=
  { s with services := s.services.modify n f }

/-- lumid does something. -/
def emit (s : Sys) (a : Action) : Sys := { s with trace := a :: s.trace }

/-- The kernel has these children. -/
def withChildren (s : Sys) (k : Children Name) : Sys := { s with children := k }

/-- `util_monotonic_ns`, when the clock would read `t`. -/
def readClock (s : Sys) (t : UInt64) : Sys := { s with clock := if s.clock ≤ t then t else s.clock }

/-- The processes forked for `n` so far. -/
def forkCount (s : Sys) (n : Name) : Nat := s.trace.countP (Action.isFork n)

variable (s : Sys) (n : Name) (f g : ServiceRuntime → ServiceRuntime) (a : Action) (t : UInt64)
  (k : Children Name)

@[simp] theorem upd_services : (s.upd n f).services = s.services.modify n f := rfl
@[simp] theorem upd_children : (s.upd n f).children = s.children := rfl
@[simp] theorem upd_clock : (s.upd n f).clock = s.clock := rfl
@[simp] theorem upd_trace : (s.upd n f).trace = s.trace := rfl

@[simp] theorem emit_services : (s.emit a).services = s.services := rfl
@[simp] theorem emit_children : (s.emit a).children = s.children := rfl
@[simp] theorem emit_clock : (s.emit a).clock = s.clock := rfl
@[simp] theorem emit_trace : (s.emit a).trace = a :: s.trace := rfl

@[simp] theorem withChildren_services : (s.withChildren k).services = s.services := rfl
@[simp] theorem withChildren_children : (s.withChildren k).children = k := rfl
@[simp] theorem withChildren_clock : (s.withChildren k).clock = s.clock := rfl
@[simp] theorem withChildren_trace : (s.withChildren k).trace = s.trace := rfl

@[simp] theorem readClock_services : (s.readClock t).services = s.services := rfl
@[simp] theorem readClock_children : (s.readClock t).children = s.children := rfl
@[simp] theorem readClock_trace : (s.readClock t).trace = s.trace := rfl

variable {s t} in
/-- A later reading is the time then. -/
theorem readClock_of_le (h : s.clock ≤ t) : s.readClock t = { s with clock := t } := by
  rw [readClock, if_pos h]

variable {s t} in
/-- An earlier reading the clock does not give. -/
theorem readClock_of_not_le (h : ¬ s.clock ≤ t) : s.readClock t = s := by
  rw [readClock, if_neg h]

/-- A clock that stands still. -/
@[simp] theorem readClock_clock : s.readClock s.clock = s := by
  rw [readClock, ite_self]

/-- The clock does not run backwards. -/
theorem le_readClock : s.clock ≤ (s.readClock t).clock := by
  by_cases h : s.clock ≤ t
  · rw [readClock_of_le h]
    exact h
  · rw [readClock_of_not_le h]
    exact UInt64.le_refl _

/-- Two readings leave what one leaves. -/
theorem exists_readClock_readClock (u : UInt64) : ∃ v, (s.readClock t).readClock u = s.readClock v := by
  by_cases h : (s.readClock t).clock ≤ u
  · refine ⟨u, ?_⟩
    rw [readClock_of_le h, readClock_of_le (UInt64.le_trans (s.le_readClock t) h)]
    rfl
  · exact ⟨t, readClock_of_not_le h⟩

/-- Two writes to a service are one. -/
theorem upd_upd : (s.upd n f).upd n g = s.upd n (g ∘ f) := by
  simp only [upd, Registry.modify_modify]

/-- A write of what is there already changes nothing. -/
theorem upd_eq_self {svc : Service} (h : s.services.find n = some svc)
    (hf : f svc.toServiceRuntime = svc.toServiceRuntime) : s.upd n f = s := by
  simp only [upd, Registry.modify_eq_self h hf]

@[simp] theorem forkCount_upd (m : Name) : (s.upd n f).forkCount m = s.forkCount m := rfl

@[simp] theorem forkCount_readClock (m : Name) :
    (s.readClock t).forkCount m = s.forkCount m := rfl

@[simp] theorem forkCount_withChildren (m : Name) :
    (s.withChildren k).forkCount m = s.forkCount m := rfl

/-- An action counts if it is a `fork`. -/
@[simp] theorem forkCount_emit (m : Name) :
    (s.emit a).forkCount m = s.forkCount m + if a.isFork m then 1 else 0 := List.countP_cons

/-! Changes of the registry go last. -/

theorem upd_emit : (s.upd n f).emit a = (s.emit a).upd n f := rfl

theorem upd_withChildren : (s.upd n f).withChildren k = (s.withChildren k).upd n f := rfl

theorem upd_readClock : (s.upd n f).readClock t = (s.readClock t).upd n f := rfl

end Sys

end LumiOS.Lumid
