import LumiOS.Lumid.Lifecycle

/-!
# Lumid — Socket

`socket_handle_request` of `socket.c`: the commands lumid answers, with the responses it writes.

`service_name` arrives as 64 bytes; a `Request` holds the string that begins there, as `strcmp` and
`%s` read it.  Whatever the command, the state becomes one of six things (`socketHandleRequest_cases`);
most commands only ask, and then no more happens to it than that the clock is read.
-/

namespace LumiOS.Lumid

open Support

inductive IpcCmd where
  | start
  | stop
  | restart
  | status
  | statusAll
  | enable
  | disable
  | log
  | poweroff
  | reboot
  /-- A value that is no `ipc_cmd_t`. -/
  | other (value : Int)
deriving DecidableEq, Repr

def IpcCmd.toInt : IpcCmd → Int
  | .start => 1
  | .stop => 2
  | .restart => 3
  | .status => 4
  | .statusAll => 5
  | .enable => 6
  | .disable => 7
  | .log => 8
  | .poweroff => 9
  | .reboot => 10
  | .other value => value

structure Request where
  cmd : IpcCmd
  serviceName : List UInt8
deriving DecidableEq, Repr

/-- `ipc_response_t`; a field left out is zero. -/
structure Response where
  code : Int := 0
  message : List UInt8 := []
  state : SvcState := .stopped
  pid : Int := 0
  exitCode : Int := 0
  uptime : UInt64 := 0
deriving DecidableEq, Repr

/-- `snprintf` into `message`. -/
def message (text : List UInt8) : List UInt8 := text.take (maxPathLen - 1)

/-- `service_find` with the name of a request; an empty name finds nothing. -/
def Request.service (req : Request) (r : Registry) : Option Service :=
  if req.serviceName = [] then none else r.list.find? (·.name.bytes = req.serviceName)

def notFound (req : Request) : Response where
  code := -1
  message := message (ascii "service '" ++ req.serviceName ++ ascii "' not found")

/-- The response to an operation that answered `code`. -/
def done (code : Int) (ok failed : String) : Response where
  code := code
  message := message (ascii (if code = 0 then ok else failed))

def serviceStateStr : SvcState → String
  | .stopped => "stopped"
  | .starting => "starting"
  | .running => "running"
  | .stopping => "stopping"
  | .failed => "failed"
  | .restarting => "restarting"

/-- The status fields of a response. -/
def statusOf (now : UInt64) (svc : Service) (text : List UInt8) : Response where
  state := svc.state
  pid := svc.pid
  exitCode := svc.exitCode
  uptime := if svc.state = .running ∧ 0 < svc.startTime then now - svc.startTime else 0
  message := message text

/-- The record of a service; if it is running the clock is read for its uptime. -/
def reportStatus (env : Env) (s : Sys) (svc : Service) (text : List UInt8) : Response × Sys :=
  let s :=
    if svc.state = .running ∧ 0 < svc.startTime then s.readClock (env.clock svc.name) else s
  (statusOf s.clock svc text, s)

/-- The loop of `CMD_STATUS_ALL`. -/
def reportAll (env : Env) : List Service → Sys → List Response × Sys
  | [], s => ([], s)
  | svc :: svcs, s =>
    let (resp, s) := reportStatus env s svc svc.name.bytes
    let (resps, s) := reportAll env svcs s
    (resp :: resps, s)

/-- `socket_handle_request` on what it reads from a client, which is nothing for a read of another
length than `sizeof(ipc_request_t)`.  It returns the responses written, in order. -/
def socketHandleRequest (env : Env) (s : Sys) (read : Option Request) : List Response × Sys :=
  match read with
  | none => ([{ code := -1, message := message (ascii "invalid request") }], s)
  | some req =>
    let svc := req.service s.services
    match req.cmd with
    | .start =>
      match svc with
      | none => ([notFound req], s)
      | some svc =>
        let (code, s) := serviceStart env (s.emit (.operatorStart svc.name)) svc.name
        ([done code "started" "start failed"], s)
    | .stop =>
      match svc with
      | none => ([notFound req], s)
      | some svc =>
        let (code, s) := serviceStop env s svc.name
        ([done code "stopped" "stop failed"], s)
    | .restart =>
      match svc with
      | none => ([notFound req], s)
      | some svc =>
        let (code, s) := serviceRestart env s svc.name
        ([done code "restarted" "restart failed"], s)
    | .status =>
      match svc with
      | none => ([notFound req], s)
      | some svc =>
        let (resp, s) := reportStatus env s svc (ascii (serviceStateStr svc.state))
        ([resp], s)
    | .statusAll =>
      let count := s.serviceCount
      let (resps, s) := reportAll env s.services.list s
      ({ code := count,
         message := message (ascii (toString count) ++ ascii " services loaded") } :: resps, s)
    | .enable =>
      match svc with
      | none => ([{}], s)
      | some svc =>
        ([{ message := message (ascii "enabled") }], s.upd svc.name ({ · with enabled := true }))
    | .disable =>
      match svc with
      | none => ([{}], s)
      | some svc =>
        ([{ message := message (ascii "disabled") }], s.upd svc.name ({ · with enabled := false }))
    | .poweroff =>
      ([{ message := message (ascii "powering off") }], s.emit (.killSelf sigTerm))
    | .reboot =>
      ([{ message := message (ascii "rebooting") }], s.emit (.killSelf sigTerm))
    | .log | .other _ =>
      ([{ code := -1,
          message := message (ascii "unknown command " ++ ascii (toString req.cmd.toInt)) }], s)

/-! ### Status records -/

section

variable {s : Sys}

/-- A record is as of the moment the clock was read. -/
theorem reportStatus_eq (env : Env) (s : Sys) (svc : Service) (text : List UInt8) :
    ∃ t, reportStatus env s svc text = (statusOf (s.readClock t).clock svc text, s.readClock t) := by
  rw [reportStatus]
  split
  · exact ⟨_, rfl⟩
  · exact ⟨s.clock, by rw [s.readClock_clock]⟩

/-- Nothing but the clock goes on during the loop. -/
theorem reportAll_snd (env : Env) (svcs : List Service) (s : Sys) :
    ∃ t, (reportAll env svcs s).2 = s.readClock t := by
  induction svcs generalizing s with
  | nil => exact ⟨s.clock, s.readClock_clock.symm⟩
  | cons svc svcs ih =>
      obtain ⟨t, ht⟩ := reportStatus_eq env s svc svc.name.bytes
      obtain ⟨u, hu⟩ := ih (s.readClock t)
      obtain ⟨v, hv⟩ := s.exists_readClock_readClock t u
      refine ⟨v, ?_⟩
      simp only [reportAll, ht]
      exact hu.trans hv

/-- **The loop writes a record for each service**, as of some moment on the way. -/
theorem reportAll_records (env : Env) (svcs : List Service) (s : Sys) :
    List.Forall₂ (fun resp svc => ∃ now, s.clock ≤ now ∧ now ≤ (reportAll env svcs s).2.clock ∧
      resp = statusOf now svc svc.name.bytes) (reportAll env svcs s).1 svcs := by
  induction svcs generalizing s with
  | nil => exact .nil
  | cons svc svcs ih =>
      obtain ⟨t, ht⟩ := reportStatus_eq env s svc svc.name.bytes
      obtain ⟨u, hu⟩ := reportAll_snd env svcs (s.readClock t)
      simp only [reportAll, ht]
      have hle : (s.readClock t).clock ≤ (reportAll env svcs (s.readClock t)).2.clock := by
        rw [hu]
        exact (s.readClock t).le_readClock u
      refine .cons ⟨_, s.le_readClock t, hle, rfl⟩ ((ih (s.readClock t)).imp ?_)
      rintro resp svc' ⟨now, hlow, hhigh, hresp⟩
      exact ⟨now, UInt64.le_trans (s.le_readClock t) hlow, hhigh, hresp⟩

/-! ### What a request does -/

/-- **The cases of a request**, by what becomes of the state. -/
theorem socketHandleRequest_cases {motive : Sys → Prop} (env : Env) (req : Request)
    (asked : ∀ t, motive (s.readClock t))
    (start : ∀ svc, req.service s.services = some svc → req.cmd = .start →
      motive (serviceStart env (s.emit (.operatorStart svc.name)) svc.name).2)
    (stop : ∀ svc, req.service s.services = some svc → req.cmd = .stop →
      motive (serviceStop env s svc.name).2)
    (restart : ∀ svc, req.service s.services = some svc → req.cmd = .restart →
      motive (serviceRestart env s svc.name).2)
    (admin : ∀ svc b, req.service s.services = some svc →
      motive (s.upd svc.name ({ · with enabled := b })))
    (power : req.cmd = .poweroff ∨ req.cmd = .reboot → motive (s.emit (.killSelf sigTerm))) :
    motive (socketHandleRequest env s (some req)).2 := by
  have same : motive s := s.readClock_clock ▸ asked s.clock
  cases hc : req.cmd with
  | start =>
      cases hsvc : req.service s.services with
      | none => simpa only [socketHandleRequest, hc, hsvc] using same
      | some svc => simpa only [socketHandleRequest, hc, hsvc] using start svc hsvc hc
  | stop =>
      cases hsvc : req.service s.services with
      | none => simpa only [socketHandleRequest, hc, hsvc] using same
      | some svc => simpa only [socketHandleRequest, hc, hsvc] using stop svc hsvc hc
  | restart =>
      cases hsvc : req.service s.services with
      | none => simpa only [socketHandleRequest, hc, hsvc] using same
      | some svc => simpa only [socketHandleRequest, hc, hsvc] using restart svc hsvc hc
  | status =>
      cases hsvc : req.service s.services with
      | none => simpa only [socketHandleRequest, hc, hsvc] using same
      | some svc =>
          obtain ⟨t, ht⟩ := reportStatus_eq env s svc (ascii (serviceStateStr svc.state))
          simpa only [socketHandleRequest, hc, hsvc, ht] using asked t
  | statusAll =>
      obtain ⟨t, ht⟩ := reportAll_snd env s.services.list s
      simpa only [socketHandleRequest, hc, ht] using asked t
  | enable =>
      cases hsvc : req.service s.services with
      | none => simpa only [socketHandleRequest, hc, hsvc] using same
      | some svc => simpa only [socketHandleRequest, hc, hsvc] using admin svc true hsvc
  | disable =>
      cases hsvc : req.service s.services with
      | none => simpa only [socketHandleRequest, hc, hsvc] using same
      | some svc => simpa only [socketHandleRequest, hc, hsvc] using admin svc false hsvc
  | poweroff => simpa only [socketHandleRequest, hc] using power (.inl hc)
  | reboot => simpa only [socketHandleRequest, hc] using power (.inr hc)
  | log | other _ => simpa only [socketHandleRequest, hc] using same

end

end LumiOS.Lumid
