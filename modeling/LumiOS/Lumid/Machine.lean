import LumiOS.Support.Runs
import LumiOS.Lumid.Resolve
import LumiOS.Lumid.Socket
import LumiOS.Lumid.Supervisor

/-!
# Lumid — Machine

Runs of lumid: what `main`, the event loop and `handle_signal` let happen, one event at a time.

Three events are the kernel's: a child terminates, an orphan becomes lumid's child, time passes.  The
others are lumid's: `load_and_start_services`, an IPC request, the handling of `SIGCHLD` and of
`SIGHUP`, and a supervisor pass.  `main` calls `load_and_start_services` once, before the event loop;
here it may happen at any time, and a run of lumid is one in which it happens first.  Signals are
blocked outside the event loop, so no event interrupts another.
-/

namespace LumiOS.Lumid

open Support

/-- A file of the service directory, in `readdir` order: its name, and what `config_parse_service`
makes of it, which is nothing when it fails. -/
structure DirEntry where
  fileName : List UInt8
  config : Option ServiceConfig
deriving DecidableEq, Repr

/-- A service directory; nothing when `opendir` fails. -/
abbrev Dir := Option (List DirEntry)

/-- Only `.svc` files with a name before the suffix are service files. -/
def isServiceFile (fileName : List UInt8) : Bool :=
  5 ≤ fileName.length ∧ fileName.drop (fileName.length - 4) = ascii ".svc"

def serviceRegister (s : Sys) (svc : Service) : Sys :=
  match h : s.services.find svc.name with
  | some _ => s
  | none => { s with services := s.services.cons svc h, serviceCount := s.serviceCount + 1 }

/-- The loop of `service_load_all` over the directory, counting the files loaded. -/
def loadLoop : List DirEntry → Int → Sys → Int × Sys
  | [], loaded, s => (loaded, s)
  | entry :: entries, loaded, s =>
    if isServiceFile entry.fileName then
      match entry.config with
      | none => loadLoop entries loaded s
      | some cfg => loadLoop entries (loaded + 1) (serviceRegister s (serviceCreate cfg))
    else loadLoop entries loaded s

def serviceLoadAll (dir : Dir) (s : Sys) : Int × Sys :=
  match dir with
  | none => (-1, s)
  | some entries => loadLoop entries 0 s

/-- `service_resolve_deps`, with the order it writes. -/
def Sys.resolve (s : Sys) : Int × Sys :=
  let (ret, order) := serviceResolveDeps s.services.list
  (ret, { s with startOrder := order })

def loadAndStartServices (dir : Dir) (env : Env) (s : Sys) : Int × Sys :=
  let (loaded, s) := serviceLoadAll dir s
  if loaded < 0 then (-1, s)
  else
    let (ret, s) := s.resolve
    if ret < 0 then (-1, s) else (0, (serviceStartAll env s).2)

/-- The `SIGHUP` branch of `handle_signal`. -/
def reload (dir : Dir) (s : Sys) : Sys := (serviceLoadAll dir s).2.resolve.2

inductive Event where
  | exit (pid : Int) (st : WaitStatus)
  | adopt (pid : Int)
  | tick (t : UInt64)
  | boot (dir : Dir) (env : Env)
  | request (read : Option Request) (env : Env)
  | sigchld (reports : List (Int × WaitStatus)) (env : Env)
  | sighup (dir : Dir)
  | check (env : Env)

/-- One event.  The reports of a `SIGCHLD` are the terminated children, in some order. -/
def step (s : Sys) : Event → Option Sys
  | .exit pid st => some (s.childExit pid st)
  | .adopt pid => some (s.withChildren (s.children.adopt pid))
  | .tick t => some (s.readClock t)
  | .boot dir env => some (loadAndStartServices dir env s).2
  | .request read env => some (socketHandleRequest env s read).2
  | .sigchld reports env =>
    if reports.Perm s.children.zombies then some (supervisorHandleSigchld env reports s) else none
  | .sighup dir => some (reload dir s)
  | .check env => some (supervisorCheckServices env s)

def Step (s : Sys) (e : Event) (s' : Sys) : Prop := step s e = some s'

/-- Events in turn. -/
def exec : List Event → Sys → Option Sys
  | [], s => some s
  | e :: es, s => (step s e).bind (exec es)

theorem run_of_exec {s s' : Sys} {es : List Event} (h : exec es s = some s') : Run Step s es s' := by
  induction es generalizing s with
  | nil => cases h; exact .nil _
  | cons e es ih =>
      obtain ⟨s₁, h₁, h₂⟩ := Option.bind_eq_some_iff.mp h
      exact .cons h₁ (ih h₂)

theorem Step.sigchld {s : Sys} {env : Env} {reports : List (Int × WaitStatus)}
    (h : reports.Perm s.children.zombies) :
    Step s (.sigchld reports env) (supervisorHandleSigchld env reports s) := by
  simp only [Step, step, if_pos h]

theorem Step.sigchld_inv {s s' : Sys} {env : Env} {reports : List (Int × WaitStatus)}
    (h : Step s (.sigchld reports env) s') :
    reports.Perm s.children.zombies ∧ s' = supervisorHandleSigchld env reports s := by
  simp only [Step, step, Option.ite_none_right_eq_some] at h
  exact ⟨h.1, (Option.some.inj h.2).symm⟩

theorem Step.det {s s₁ s₂ : Sys} {e : Event} (h₁ : Step s e s₁) (h₂ : Step s e s₂) : s₁ = s₂ :=
  Option.some.inj (h₁.symm.trans h₂)

/-- A state of a run of lumid that started at some time `now`. -/
def Reached (s : Sys) : Prop := ∃ now, Reachable Step (Sys.init now) s

end LumiOS.Lumid
