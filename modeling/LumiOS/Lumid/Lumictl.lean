import LumiOS.Lumid.CheckOrder
import LumiOS.Lumid.Loading

/-!
# Lumid — Lumictl

The client of `lumictl.c`: the request it makes of its arguments, and what it does with the responses
that arrive.  The two sides of the protocol are kept in different files of the source; here they meet.
A `CMD_STATUS_ALL` is answered by as many records as the client reads (`Reached.statusAll`).  A
request about an unknown service is refused, except that `CMD_ENABLE` and `CMD_DISABLE` answer 0
(`unknown_refused_iff`).

`argv` is the list of arguments after the program's name.  A connection is the list of the responses
that arrive on it until it ends.
-/

namespace LumiOS.Lumid

open Support

/-- What `main` makes of its arguments. -/
inductive Invocation where
  /-- The usage text, and exit status 1. -/
  | usage
  | showLog (svcName : List UInt8)
  | request (req : Request) (svcName : List UInt8)
deriving DecidableEq, Repr

/-- The request built with `memset` and `strncpy`. -/
def buildRequest (cmd : IpcCmd) (svcName : List UInt8) : Invocation :=
  .request ⟨cmd, svcName.take (maxNameLen - 1)⟩ svcName

/-- A command that has to be given a service. -/
def buildNamed (cmd : IpcCmd) (svcName : List UInt8) : Invocation :=
  if svcName = [] then .usage else buildRequest cmd svcName

def parseArgs : List (List UInt8) → Invocation
  | [] => .usage
  | cmd :: args =>
    let svcName := args.headD []
    if cmd = ascii "log" then if svcName = [] then .usage else .showLog svcName
    else if cmd = ascii "start" then buildNamed .start svcName
    else if cmd = ascii "stop" then buildNamed .stop svcName
    else if cmd = ascii "restart" then buildNamed .restart svcName
    else if cmd = ascii "status" then
      buildRequest (if svcName ≠ [] then .status else .statusAll) svcName
    else if cmd = ascii "enable" then buildRequest .enable svcName
    else if cmd = ascii "disable" then buildRequest .disable svcName
    else if cmd = ascii "poweroff" then buildRequest .poweroff svcName
    else if cmd = ascii "reboot" then buildRequest .reboot svcName
    else .usage

/-- What lumictl writes to its standard streams. -/
inductive Output where
  | listHeader (count : Int)
  | service (svcName : List UInt8)
  | status (svcName : List UInt8) (resp : Response)
  | text (message : List UInt8)
  | error (message : List UInt8)
deriving DecidableEq, Repr

structure Outcome where
  exitCode : Int
  output : List Output := []
  /-- The responses it has not read when it closes the connection. -/
  unread : List Response := []
deriving DecidableEq, Repr

/-- The loop that reads the statuses of the services, up to a `socket_recv_response` that fails. -/
def recvStatuses : Nat → List Response → List Output × List Response
  | 0, stream => ([], stream)
  | _ + 1, [] => ([], [])
  | count + 1, resp :: stream =>
    let (output, unread) := recvStatuses count stream
    (.status resp.message resp :: output, unread)

/-- `main` from the first `socket_recv_response` on. -/
def handleResponses (cmd : IpcCmd) (svcName : List UInt8) : List Response → Outcome
  | [] => { exitCode := 1 }
  | resp :: stream =>
    match cmd with
    | .statusAll =>
      let (output, unread) := recvStatuses resp.code.toNat stream
      { exitCode := 0, output := .listHeader resp.code :: output, unread := unread }
    | .status =>
      if resp.code < 0 then { exitCode := 1, output := [.error resp.message], unread := stream }
      else { exitCode := 0, output := [.service svcName, .status svcName resp], unread := stream }
    | _ =>
      if resp.code < 0 then { exitCode := 1, output := [.error resp.message], unread := stream }
      else { exitCode := 0, output := [.text resp.message], unread := stream }

/-- `main` of lumictl: `connect` is what arrives after a request is sent, and nothing when there is
no connection or the request cannot be sent. -/
def lumictl (showLog : List UInt8 → Int) (connect : Request → Option (List Response))
    (argv : List (List UInt8)) : Outcome :=
  match parseArgs argv with
  | .usage => { exitCode := 1 }
  | .showLog svcName => { exitCode := showLog svcName }
  | .request req svcName =>
    match connect req with
    | none => { exitCode := 1 }
    | some stream => handleResponses req.cmd svcName stream

/-- The connection to a lumid in state `s`. -/
def Sys.serve (s : Sys) (env : Env) (req : Request) : Option (List Response) :=
  some (socketHandleRequest env s (some req)).1

section

variable {s : Sys} {env : Env} {req : Request}

/-! ### The list of statuses -/

theorem recvStatuses_length (stream : List Response) :
    recvStatuses stream.length stream =
      (stream.map fun resp => .status resp.message resp, []) := by
  induction stream with
  | nil => rfl
  | cons resp stream ih => simp only [List.length_cons, recvStatuses, ih, List.map_cons]

/-- **The registry and its listing.**  In every state of a run of lumid the names in the list are
distinct and `g_service_count` is its length; a load leaves every registered service as it is, and puts
in front of them new services, stopped and without a process; and a `CMD_STATUS_ALL` is answered by a
count and as many records, one for each service as of a moment during the request, which lumictl reads
to the last. -/
theorem Reached.statusAll (h : Reached s) :
    s.services.names.Nodup ∧ s.serviceCount = s.services.list.length ∧
    (∀ dir, ∃ new, (serviceLoadAll dir s).2.services.list = new ++ s.services.list ∧
      (∀ svc ∈ new, svc.state = .stopped ∧ svc.pid = -1 ∧
        ∃ entry ∈ dir.entries, ∃ cfg, entry.loads cfg ∧ svc = serviceCreate cfg) ∧
      ∀ entry ∈ dir.entries, ∀ cfg, entry.loads cfg →
        cfg.name ∈ (serviceLoadAll dir s).2.services.names) ∧
    ∀ env req, req.cmd = .statusAll →
      ∃ first records, (socketHandleRequest env s (some req)).1 = first :: records ∧
        first.code = records.length ∧
        List.Forall₂ (fun resp svc => ∃ now, s.clock ≤ now ∧
          now ≤ (socketHandleRequest env s (some req)).2.clock ∧
            resp = statusOf now svc svc.name.bytes) records s.services.list ∧
        ∀ svcName, handleResponses req.cmd svcName (first :: records) =
          { exitCode := 0,
            output := .listHeader first.code :: records.map fun resp => .status resp.message resp,
            unread := [] } := by
  refine ⟨s.services.nodup, h.serviceCount, fun dir => serviceLoadAll_list dir s,
    fun env req hreq => ?_⟩
  have hrecords := reportAll_records env s.services.list s
  have hcount : s.serviceCount = (reportAll env s.services.list s).1.length := by
    rw [hrecords.length_eq]
    exact h.serviceCount
  simp only [socketHandleRequest, hreq]
  refine ⟨_, _, rfl, hcount, hrecords, fun svcName => ?_⟩
  have hread : s.serviceCount.toNat = (reportAll env s.services.list s).1.length := by
    rw [hcount, Int.toNat_natCast]
  simp only [handleResponses, hread, recvStatuses_length]

/-- Of a session with two services lumictl shows two records, and reads them all. -/
theorem Reached.statusAll_session :
    bootedSession.services.names.Nodup ∧
    ∃ first r₁ r₂,
      (socketHandleRequest Env.session bootedSession (some ⟨.statusAll, []⟩)).1 = [first, r₁, r₂] ∧
        first.code = 2 ∧
        handleResponses .statusAll [] [first, r₁, r₂] =
          { exitCode := 0,
            output := [.listHeader first.code, .status r₁.message r₁, .status r₂.message r₂],
            unread := [] } := by
  have hreached : Reached bootedSession := ⟨0, .one (e := .boot restartedDir Env.session) rfl⟩
  obtain ⟨hnodup, -, -, hlist⟩ := Reached.statusAll hreached
  obtain ⟨first, records, hresp, hcode, hrecords, hshown⟩ := hlist Env.session ⟨.statusAll, []⟩ rfl
  have hlen : records.length = 2 := hrecords.length_eq
  obtain ⟨r₁, r₂, rfl⟩ := List.length_eq_two.mp hlen
  exact ⟨hnodup, first, r₁, r₂, hresp, hcode, hshown []⟩

/-! ### Unknown services -/

/-- The commands that act on one service. -/
def IpcCmd.OnService : IpcCmd → Prop
  | .start | .stop | .restart | .status | .enable | .disable => True
  | _ => False

/-- No registered service has the name of the request. -/
def Request.Unknown (req : Request) (r : Registry) : Prop :=
  ∀ svc ∈ r.list, svc.name.bytes ≠ req.serviceName

instance (req : Request) (r : Registry) : Decidable (req.Unknown r) :=
  inferInstanceAs (Decidable (∀ svc ∈ r.list, svc.name.bytes ≠ req.serviceName))

/-- A request is refused: one response with a negative code, no service changed, and a lumictl that
sends it exits with a failure. -/
def Refused (env : Env) (s : Sys) (req : Request) : Prop :=
  (∃ resp, (socketHandleRequest env s (some req)).1 = [resp] ∧ resp.code < 0) ∧
  (socketHandleRequest env s (some req)).2.services = s.services ∧
  ∀ showLog argv svcName, parseArgs argv = .request req svcName →
    (lumictl showLog (s.serve env) argv).exitCode ≠ 0

theorem Request.service_unknown {r : Registry} (h : req.Unknown r) : req.service r = none := by
  simp only [Request.service]
  split
  · rfl
  · exact List.find?_eq_none.mpr fun svc hm => by simpa using h svc hm

theorem notFound_code (req : Request) : (notFound req).code < 0 := Int.negSucc_lt_zero 0

/-- One response with a negative code fails the client. -/
theorem handleResponses_negative {cmd : IpcCmd} {svcName : List UInt8} {resp : Response}
    (hcmd : cmd ≠ .statusAll) (h : resp.code < 0) :
    (handleResponses cmd svcName [resp]).exitCode = 1 := by
  cases cmd with
  | statusAll => exact absurd rfl hcmd
  | _ => simp only [handleResponses, if_pos h]

theorem lumictl_request {showLog : List UInt8 → Int} {argv : List (List UInt8)}
    {svcName : List UInt8} (h : parseArgs argv = .request req svcName) :
    lumictl showLog (s.serve env) argv =
      handleResponses req.cmd svcName (socketHandleRequest env s (some req)).1 := by
  simp only [lumictl, h, Sys.serve]

/-- **Requests about unknown services** are refused exactly when they are not `CMD_ENABLE` or
`CMD_DISABLE`. -/
theorem unknown_refused_iff (s : Sys) (env : Env) (hcmd : req.cmd.OnService)
    (hun : req.Unknown s.services) :
    Refused env s req ↔
      req.cmd = .start ∨ req.cmd = .stop ∨ req.cmd = .restart ∨ req.cmd = .status := by
  have hsvc := Request.service_unknown hun
  -- the four branches that look at `svc` answer alike
  have refused : socketHandleRequest env s (some req) = ([notFound req], s) →
      req.cmd ≠ .statusAll → Refused env s req := by
    intro e hne
    refine ⟨⟨notFound req, by rw [e], notFound_code req⟩, by rw [e], fun showLog argv svcName hargs => ?_⟩
    rw [lumictl_request hargs, e, handleResponses_negative hne (notFound_code req)]
    exact one_ne_zero
  have answered : socketHandleRequest env s (some req) = ([{}], s) → ¬ Refused env s req := by
    rintro e ⟨⟨resp, hr, hneg⟩, -⟩
    rw [e] at hr
    obtain rfl : ({} : Response) = resp := by simpa using hr
    exact absurd hneg (by decide)
  cases hc : req.cmd with
  | start | stop | restart | status =>
      refine iff_of_true (refused ?_ (by rw [hc]; exact IpcCmd.noConfusion)) (by simp)
      simp only [socketHandleRequest, hc, hsvc]
  | enable | disable =>
      refine iff_of_false (answered ?_) (by simp)
      simp only [socketHandleRequest, hc, hsvc]
  | statusAll | log | poweroff | reboot | other _ => simp only [hc, IpcCmd.OnService] at hcmd

end

/-- A request to stop a service nobody registered. -/
def stopUnknown : Request := ⟨.stop, ascii "audiod"⟩

theorem unknown_refused_iff_stop : Refused (Env.plain 11 0) restartingDevd stopUnknown :=
  (unknown_refused_iff restartingDevd (Env.plain 11 0) (by trivial) (by decide)).mpr (by decide)

/-- A request to enable a service nobody registered is answered with code 0. -/
theorem unknown_enable_answered :
    ¬ ∀ s env req, Reached s → req.cmd.OnService → req.Unknown s.services → Refused env s req := by
  intro h
  obtain ⟨⟨resp, hr, hneg⟩, -⟩ :=
    h (Sys.init 0) (Env.plain 11 0) ⟨.enable, ascii "audiod"⟩ ⟨0, .refl _⟩ trivial (by decide)
  have he : (socketHandleRequest (Env.plain 11 0) (Sys.init 0)
      (some ⟨.enable, ascii "audiod"⟩)).1 = [{}] := by decide
  obtain rfl : ({} : Response) = resp := by simpa using he.symm.trans hr
  exact absurd hneg (by decide)

end LumiOS.Lumid
