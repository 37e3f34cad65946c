import LumiOS.Lumid.System

/-!
# Lumid — Lifecycle

`service_start`, `service_stop`, `service_restart`, `service_start_all` and `service_stop_all` of
`service.c`, on the state of `System.lean`.  A service pointer is the service's name, and a name the
registry does not know is `NULL`.  Each function returns its `int` with the state it leaves.

The child's side of `service_start` ends in `execl` or `_exit` and does not touch lumid's state: to
lumid it is the child's later exit.
-/

namespace LumiOS.Lumid

open Support

/-- The dependency check of `service_start`: no registered service in `requires` is in another state
than `SVC_STATE_RUNNING`. -/
def requiresMet (r : Registry) (svc : Service) : Bool :=
  svc.requires.all fun n =>
    match r.find n with
    | some dep => dep.state = .running
    | none => true

/-- `cgroup_create`, `cgroup_apply_limits` and `cgroup_add_pid`, for a service with limits. -/
def Sys.limited (s : Sys) (cfg : ServiceConfig) (pid : Int) : Sys :=
  if 0 < cfg.cgroup.memoryMax ∨ 0 < cfg.cgroup.cpuMax then
    s.emit (.cgroupSetup cfg.name cfg.cgroup pid)
  else s

/-- The parent's side of `service_start` after a `fork` that returned `pid`. -/
def Sys.launched (s : Sys) (t : UInt64) (svc : Service) (pid : Int) : Sys :=
  let s := s.readClock t
  let s := s.upd svc.name fun rt => { rt with pid := pid, startTime := s.clock, restartCount := 0 }
  let s := s.limited svc.toServiceConfig pid
  if svc.type = .simple then s.upd svc.name ({ · with state := .running }) else s

def serviceStart (env : Env) (s : Sys) (n : Name) : Int × Sys :=
  match s.services.find n with
  | none => (-1, s)
  | some svc =>
    if svc.state = .running then (0, s)
    else
      let s := s.upd n ({ · with state := .starting })
      if requiresMet s.services svc then
        match s.children.fork (env.fork n) n with
        | none => (-1, (s.emit (.forkFailed n)).upd n ({ · with state := .failed }))
        | some (pid, children) =>
          (0, ((s.withChildren children).emit (.fork n pid)).launched (env.clock n) svc pid)
      else (-1, s.upd n ({ · with state := .failed }))

/-- A child of lumid terminates while lumid sleeps or waits. -/
def Sys.childExit (s : Sys) (pid : Int) (st : WaitStatus) : Sys :=
  s.withChildren (s.children.exit pid st)

/-- The `SIGTERM` of `service_stop`, and the pause after it. -/
def terminate (env : Env) (s : Sys) (n : Name) (pid : Int) : Sys :=
  let s := if 0 < pid then s.emit (.kill pid sigTerm) else s
  let s := s.emit (.usleep 500000)
  match env.grace n with
  | some st => s.childExit pid st
  | none => s

/-- One `waitpid(pid, &status, _)` of `service_stop`. -/
def Sys.waitpid (s : Sys) (pid : Int) : WaitResult × Sys :=
  let (res, children) := s.children.waitpid pid
  (res, (s.withChildren children).emit (.waitpid pid res))

/-- The two `waitpid` calls of `service_stop`, and what they leave in `status`: nothing, if neither
finds the child. -/
def collect (env : Env) (s : Sys) (n : Name) (pid : Int) : Option WaitStatus × Sys :=
  match s.waitpid pid with
  | (.echild, s) => (none, s)
  | (.reaped st, s) => (some st, s)
  | (.alive, s) =>
    -- the second call blocks until `SIGKILL` has had its effect
    match ((s.emit (.kill pid sigKill)).childExit pid (env.killed n)).waitpid pid with
    | (.reaped st, s) => (some st, s)
    | (_, s) => (none, s)

/-- The `exit_code` after `WIFEXITED(status)` is read; a `status` nobody assigned holds `junk`. -/
def exitCodeAfterStop (junk : WaitStatus) (status : Option WaitStatus) (exitCode : Int) : Int :=
  match status.getD junk with
  | .exited code => code.toNat
  | .signaled _ => exitCode

/-- The part of `service_stop` that waits for a recorded process. -/
def stopProcess (env : Env) (s : Sys) (n : Name) (pid : Int) : Sys :=
  let (status, s) := collect env s n pid
  let s := if status = none then s.emit (.uninitStatus n) else s
  s.upd n fun rt => { rt with exitCode := exitCodeAfterStop (env.junk n) status rt.exitCode }

def serviceStop (env : Env) (s : Sys) (n : Name) : Int × Sys :=
  match s.services.find n with
  | none => (-1, s)
  | some svc =>
    if svc.state ≠ .running ∧ svc.state ≠ .starting then (0, s)
    else
      let s := terminate env (s.upd n ({ · with state := .stopping })) n svc.pid
      let s := if 0 < svc.pid then stopProcess env s n svc.pid else s
      let s := s.readClock (env.clock n)
      let s := s.upd n fun rt => { rt with state := .stopped, stopTime := s.clock, pid := -1 }
      (0, s.emit (.cgroupRemove n))

/-- `usleep((useconds_t)svc->restart_delay_ms * 1000)`. -/
def restartSleep (delayMs : Int) : UInt32 := UInt32.ofInt delayMs * 1000

def serviceRestart (env : Env) (s : Sys) (n : Name) : Int × Sys :=
  match s.services.find n with
  | none => (-1, s)
  | some svc =>
    let s := s.upd n ({ · with state := .restarting })
    let (_, s) := serviceStop env s n
    let s :=
      if 0 < svc.restartDelayMs then s.emit (.usleep (restartSleep svc.restartDelayMs)) else s
    serviceStart env (s.emit (.operatorStart n)) n

/-- The loop of `service_start_all`, counting the failed starts. -/
def startAllLoop (env : Env) : List Name → Nat → Sys → Nat × Sys
  | [], failed, s => (failed, s)
  | n :: ns, failed, s =>
    match s.services.find n with
    | none => startAllLoop env ns failed s
    | some svc =>
      if svc.enabled then
        let (ret, s) := serviceStart env (s.emit (.operatorStart n)) n
        startAllLoop env ns (if ret < 0 then failed + 1 else failed) s
      else startAllLoop env ns failed s

def serviceStartAll (env : Env) (s : Sys) : Int × Sys :=
  let (failed, s) := startAllLoop env s.startOrder 0 s
  (if 0 < failed then -1 else 0, s)

/-- `service_stop` on a list of services in turn. -/
def stopEach (env : Env) : List Name → Sys → Sys
  | [], s => s
  | n :: ns, s => stopEach env ns (serviceStop env s n).2

/-- `service_stop_all`: the start order, backwards. -/
def serviceStopAll (env : Env) (s : Sys) : Sys := stopEach env s.startOrder.reverse s

end LumiOS.Lumid
