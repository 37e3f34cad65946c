import LumiOS.Lumid.Lifecycle

/-!
# Lumid — Supervisor

`supervisor_handle_sigchld` and `supervisor_check_services` of `supervisor.c`.

The kernel reports terminated children in an order of its own: `supervisorHandleSigchld` takes the
reports of its `waitpid(-1, &status, WNOHANG)` calls, up to the call that finds none.
-/

namespace LumiOS.Lumid

open Support

/-- The exit code `supervisor_handle_sigchld` records for a status. -/
def exitCodeOf : WaitStatus → Int
  | .exited code => code.toNat
  | .signaled sig => -sig

/-- `should_restart`, from the policy and the recorded exit code. -/
def shouldRestart (policy : RestartPolicy) (exitCode : Int) : Bool :=
  match policy with
  | .always => true
  | .onFailure => exitCode ≠ 0
  | .onAbnormal => exitCode < 0
  | .never => false

/-- The policy of a service wants it restarted after an exit with status `st`. -/
def ServiceConfig.wantsRestart (cfg : ServiceConfig) (st : WaitStatus) : Bool :=
  shouldRestart cfg.restartPolicy (exitCodeOf st)

/-- What the exit of its process with status `st`, noticed at time `now`, does to a service. -/
def reapRuntime (cfg : ServiceConfig) (st : WaitStatus) (now : UInt64) (rt : ServiceRuntime) :
    ServiceRuntime :=
  let rt := { rt with exitCode := exitCodeOf st, pid := -1, stopTime := now }
  if cfg.wantsRestart st && rt.restartCount < cfg.restartMaxRetries then
    { rt with state := .restarting, restartCount := rt.restartCount + 1 }
  else if cfg.wantsRestart st then { rt with state := .failed }
  else { rt with state := .stopped }

/-- The first service of the list that records `pid`. -/
def findByPid (r : Registry) (pid : Int) : Option Service := r.list.find? (·.pid = pid)

/-- One pass of the loop of `supervisor_handle_sigchld`. -/
def reapOne (env : Env) (s : Sys) (report : Int × WaitStatus) : Sys :=
  let s := s.withChildren (s.children.remove report.1)
  match findByPid s.services report.1 with
  | none => s
  | some found =>
    let s := s.readClock (env.clock found.name)
    (s.emit (.reap found.name report.2)).upd found.name
      (reapRuntime found.toServiceConfig report.2 s.clock)

def supervisorHandleSigchld (env : Env) : List (Int × WaitStatus) → Sys → Sys
  | [], s => s
  | report :: reports, s => supervisorHandleSigchld env reports (reapOne env s report)

def checkIntervalNs : UInt64 := 5 * 1000000000

/-- The whole milliseconds since a service stopped; the subtraction wraps. -/
def elapsedMs (now stopTime : UInt64) : UInt64 := (now - stopTime) / 1000000

/-- `elapsed_ms >= (uint64_t)svc->restart_delay_ms`. -/
def restartDue (now : UInt64) (svc : Service) : Bool :=
  UInt64.ofInt svc.restartDelayMs ≤ elapsedMs now svc.stopTime

/-- One pass of the loop of `supervisor_check_services`. -/
def checkOne (env : Env) (now : UInt64) (s : Sys) (n : Name) : Sys :=
  match s.services.find n with
  | none => s
  | some svc =>
    if svc.state = .restarting ∧ restartDue now svc then
      let (ret, s) := serviceStart env (s.emit (.autoStart n)) n
      if ret < 0 then s.upd n ({ · with state := .failed }) else s
    else s

/-- The loop of `supervisor_check_services`, along the list. -/
def checkLoop (env : Env) (now : UInt64) : List Name → Sys → Sys
  | [], s => s
  | n :: ns, s => checkLoop env now ns (checkOne env now s n)

def supervisorCheckServices (env : Env) (s : Sys) : Sys :=
  let now := s.clock
  if now - s.lastCheckTime < checkIntervalNs then s
  else checkLoop env now s.services.names { s with lastCheckTime := now }

end LumiOS.Lumid
