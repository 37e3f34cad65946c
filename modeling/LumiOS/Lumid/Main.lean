import Mathlib.Logic.Function.Basic
import LumiOS.Lumid.Loading
import LumiOS.Lumid.Stop

/-!
# Lumid — Main

`main.c`: the command line, the event loop with its signals, and the shutdown.  A `Main` is the state
of the process, with a program counter (`Phase`); an `Occurrence` is one thing that happens to it, from
outside or in the loop.  What the loop does to lumid's services is the events of `Machine.lean`
(`Main.reached`).

A `CMD_POWEROFF` and a `CMD_REBOOT` end the loop by way of a signal lumid sends itself.  `pending`
records who sent a pending signal, and `stoppedBy` who sent the one that cleared `g_running`.  The
shutdown looks at `g_reboot`, which the command line sets and no request does, so it does what was
asked only when the command line happens to agree (`reboot_call_iff`).
-/

namespace LumiOS.Lumid

open Support

/-- The signals lumid reads from its `signalfd`. -/
inductive Signal where
  | chld
  | term
  | int
  | hup
deriving DecidableEq, Repr

/-- Who sent a signal: another process or the kernel, or lumid for a request. -/
inductive Sender where
  | outside
  | request (cmd : IpcCmd)
deriving DecidableEq, Repr

/-- The file descriptors of the event loop. -/
inductive Fd where
  | signal
  | server
deriving DecidableEq, Repr

/-- `LINUX_REBOOT_CMD_RESTART` and `LINUX_REBOOT_CMD_POWER_OFF`. -/
inductive RebootCmd where
  | restart
  | powerOff
deriving DecidableEq, Repr

inductive Phase where
  /-- At the head of the loop, or in `epoll_wait`. -/
  | waiting
  /-- With these descriptors of a batch still to be served. -/
  | batch (ready : List Fd)
  /-- `event_loop` has returned. -/
  | left
  /-- `shutdown_system` has made this call of `reboot`, or none. -/
  | halted (call : Option RebootCmd)
deriving DecidableEq, Repr

structure Main where
  sys : Sys
  pid : Int
  /-- `g_reboot`. -/
  reboot : Bool
  /-- `g_running`. -/
  running : Bool := true
  /-- The senders of each pending signal; a signal sent again while it is pending stays one. -/
  pending : Signal → List Sender := fun _ => []
  stoppedBy : List Sender := []
  phase : Phase := .waiting

/-- The loop of `main` over the arguments: `g_reboot` after it, and nothing when `--version` ends the
program. -/
def parseMainArgs : List (List UInt8) → Bool → Option Bool
  | [], reboot => some reboot
  | arg :: args, reboot =>
    if arg = ascii "--version" then none
    else if arg = ascii "--debug" then parseMainArgs args reboot
    else if arg = ascii "--reboot" then parseMainArgs args true
    else parseMainArgs args reboot

/-- `main` up to the event loop, when the early initialisation succeeds. -/
def mainStart (pid : Int) (args : List (List UInt8)) (now : UInt64) (dir : Dir) (env : Env) :
    Option Main :=
  if pid ≠ 1 ∧ args.head? ≠ some (ascii "--test") then none
  else (parseMainArgs args false).map fun reboot =>
    { sys := (loadAndStartServices dir env (Sys.init now)).2, pid := pid, reboot := reboot }

namespace Main

def raise (m : Main) (sig : Signal) (who : Sender) : Main :=
  { m with pending := Function.update m.pending sig (who :: m.pending sig) }

/-- The signal is read, and no longer pending. -/
def taken (m : Main) (sig : Signal) : Main :=
  { m with pending := Function.update m.pending sig [] }

def nonePending (m : Main) : Bool :=
  [Signal.chld, .term, .int, .hup].all fun sig => m.pending sig = []

end Main

/-- A `signalfd_siginfo`, with the answers of the world to what it makes lumid do. -/
inductive SigInfo where
  | chld (reports : List (Int × WaitStatus)) (env : Env)
  | term
  | int
  | hup (dir : Dir)

def SigInfo.signal : SigInfo → Signal
  | .chld _ _ => .chld
  | .term => .term
  | .int => .int
  | .hup _ => .hup

namespace Main

/-- An event of `Machine.lean`. -/
def onSys (m : Main) (e : Event) : Option Main := (step m.sys e).map fun sys => { m with sys := sys }

def stop (m : Main) (sig : Signal) : Main :=
  { m with
    running := false
    stoppedBy := if m.running then m.pending sig else m.stoppedBy }

/-- One pass of the loop of `handle_signal`. -/
def handleSignal (m : Main) : SigInfo → Option Main
  | .chld reports env => m.onSys (.sigchld reports env)
  | .term => some (m.stop .term)
  | .int => some (m.stop .int)
  | .hup dir => m.onSys (.sighup dir)

/-- `socket_handle_request` on a client's request, whose `kill(getpid(), SIGTERM)` makes the signal
pending. -/
def answer (m : Main) (read : Option Request) (env : Env) : Main :=
  let sys := (socketHandleRequest env m.sys read).2
  let m' := { m with sys := sys }
  match read with
  | none => m'
  | some req =>
    if sys.trace = .killSelf sigTerm :: m.sys.trace then m'.raise .term (.request req.cmd) else m'

/-- The call of `reboot` in `shutdown_system`. -/
def rebootCall (m : Main) : Option RebootCmd :=
  if m.pid = 1 then some (if m.reboot then .restart else .powerOff) else none

end Main

inductive Occurrence where
  | exit (pid : Int) (st : WaitStatus)
  | adopt (pid : Int)
  | tick (t : UInt64)
  | kill (sig : Signal)
  | epollWait (ready : List Fd)
  | epollFails (eintr : Bool)
  | read (info : SigInfo)
  /-- The `read` of the `signalfd` that finds no signal. -/
  | drained
  /-- A client is served; nothing when `socket_server_accept` fails. -/
  | accept (client : Option (Option Request)) (env : Env)
  /-- The supervisor pass after a batch. -/
  | check (env : Env)
  | leave
  | shutdown (env : Env)

namespace Main

def step (m : Main) : Occurrence → Option Main
  | .exit pid st => m.onSys (.exit pid st)
  | .adopt pid => m.onSys (.adopt pid)
  | .tick t => m.onSys (.tick t)
  | .kill sig => some (m.raise sig .outside)
  | .epollWait ready =>
    if m.phase = .waiting ∧ m.running then some { m with phase := .batch ready } else none
  | .epollFails eintr =>
    if m.phase = .waiting ∧ m.running then some (if eintr then m else { m with phase := .left })
    else none
  | .read info =>
    match m.phase with
    | .batch (.signal :: _) =>
      if m.pending info.signal = [] then none
      else (m.handleSignal info).map (·.taken info.signal)
    | _ => none
  | .drained =>
    match m.phase with
    | .batch (.signal :: ready) =>
      if m.nonePending then some { m with phase := .batch ready } else none
    | _ => none
  | .accept client env =>
    match m.phase with
    | .batch (.server :: ready) =>
      match client with
      | none => some { m with phase := .batch ready }
      | some read => some { m.answer read env with phase := .batch ready }
    | _ => none
  | .check env =>
    match m.phase with
    | .batch [] => (m.onSys (.check env)).map fun m => { m with phase := .waiting }
    | _ => none
  | .leave =>
    if m.phase = .waiting ∧ m.running = false then some { m with phase := .left } else none
  | .shutdown env =>
    if m.phase = .left then
      some { m with sys := serviceStopAll env m.sys, phase := .halted m.rebootCall }
    else none

def Step (m : Main) (o : Occurrence) (m' : Main) : Prop := m.step o = some m'

/-- Occurrences in turn. -/
def exec : List Occurrence → Main → Option Main
  | [], m => some m
  | o :: os, m => (m.step o).bind (exec os)

end Main

/-- The call that a request asks for. -/
def rebootFor : IpcCmd → Option RebootCmd
  | .reboot => some .restart
  | .poweroff => some .powerOff
  | _ => none

/-! ### Requests that signal lumid -/

section

variable {s : Sys} {env : Env} {n : Name} {req : Request}

theorem trace_append_ne {new t : List Action} (mid : List Action) {a b : Action} (h : a ≠ b) :
    new ++ a :: (mid ++ t) ≠ b :: t := by
  intro e
  have hl := congrArg List.length e
  simp only [List.length_append, List.length_cons] at hl
  obtain rfl : new = [] := List.eq_nil_of_length_eq_zero (by omega)
  exact h (List.cons.inj e).1

theorem serviceStart_trace (env : Env) (s : Sys) (n : Name) :
    ∃ new, (serviceStart env s n).2.trace = new ++ s.trace := by
  cases hn : s.services.find n with
  | none => exact ⟨[], by rw [serviceStart_unregistered hn]; rfl⟩
  | some svc =>
      refine serviceStart_cases (motive := fun r => ∃ new, r.2.trace = new ++ s.trace) hn
        ?_ ?_ ?_ ?_
      · exact fun _ => ⟨[], rfl⟩
      · exact fun _ _ => ⟨[], rfl⟩
      · exact fun _ _ _ => ⟨[.forkFailed n], rfl⟩
      · intro pid hf _ _ _
        simp only [Sys.limited]
        split
        · exact ⟨[.cgroupSetup _ _ pid, .fork n pid], rfl⟩
        · exact ⟨[.fork n pid], rfl⟩

/-- A restart takes at least the action that marks its start. -/
theorem serviceRestart_trace (env : Env) {svc : Service} (hn : s.services.find n = some svc) :
    ∃ new mid, (serviceRestart env s n).2.trace = new ++ .operatorStart n :: (mid ++ s.trace) := by
  rw [serviceRestart_eq hn]
  split
  · obtain ⟨new, h⟩ := serviceStart_trace env
      (((s.emit (.usleep (restartSleep svc.restartDelayMs))).emit (.operatorStart n)).upd n
        ({ · with state := .restarting })) n
    exact ⟨new, [.usleep (restartSleep svc.restartDelayMs)], h⟩
  · obtain ⟨new, h⟩ := serviceStart_trace env
      ((s.emit (.operatorStart n)).upd n ({ · with state := .restarting })) n
    exact ⟨new, [], h⟩

theorem serviceStop_trace_ne :
    (serviceStop env s n).2.trace ≠ .killSelf sigTerm :: s.trace := by
  have hself : s.trace ≠ .killSelf sigTerm :: s.trace := fun e => List.cons_ne_self _ _ e.symm
  simp only [serviceStop]
  split
  · exact hself
  · split
    · exact hself
    · exact fun e => Action.noConfusion (List.cons.inj e).1

/-- Only the two requests that end lumid signal it. -/
theorem socketHandleRequest_killSelf
    (h : (socketHandleRequest env s (some req)).2.trace = .killSelf sigTerm :: s.trace) :
    req.cmd = .reboot ∨ req.cmd = .poweroff := by
  revert h
  have hself : s.trace ≠ .killSelf sigTerm :: s.trace := fun e => List.cons_ne_self _ _ e.symm
  refine socketHandleRequest_cases (motive := fun s' => s'.trace = .killSelf sigTerm :: s.trace →
    req.cmd = .reboot ∨ req.cmd = .poweroff) env req ?asked ?start ?stop ?restart ?admin ?power
  case asked =>
    intro t h
    exact absurd h hself
  case start =>
    intro svc _ _ h
    obtain ⟨new, hn⟩ := serviceStart_trace env (s.emit (.operatorStart svc.name)) svc.name
    exact absurd (hn.symm.trans h) (trace_append_ne [] Action.noConfusion)
  case stop =>
    intro svc _ _ h
    exact absurd h serviceStop_trace_ne
  case restart =>
    intro svc hsvc _ h
    obtain ⟨new, mid, hn⟩ := serviceRestart_trace env (Request.service_eq_some hsvc).1
    exact absurd (hn.symm.trans h) (trace_append_ne mid Action.noConfusion)
  case admin =>
    intro svc b _ h
    exact absurd h hself
  case power =>
    intro hc _
    exact hc.symm

end

/-! ### Runs of lumid -/

theorem parseMainArgs_eq {args : List (List UInt8)} {reboot r : Bool}
    (h : parseMainArgs args reboot = some r) :
    r = true ↔ reboot = true ∨ ascii "--reboot" ∈ args := by
  induction args generalizing reboot with
  | nil =>
      cases h
      simp
  | cons arg args ih =>
      simp only [parseMainArgs] at h
      rw [List.mem_cons]
      split at h
      · cases h
      · split at h
        · rename_i hd
          subst hd
          rw [ih h]
          have hne : ascii "--reboot" ≠ ascii "--debug" := by decide
          simp [hne]
        · split at h
          · rename_i hr
            rw [ih h]
            simp [hr]
          · rename_i hr
            rw [ih h]
            simp [Ne.symm hr]

namespace Main

def Halted (m : Main) : Prop := ∃ call, m.phase = .halted call

/-- What an occurrence does: what happens outside is an event of lumid or a signal, and the loop goes on
to a phase that is not the last. -/
inductive Does (m : Main) : Occurrence → Main → Prop where
  | outside {o : Occurrence} {m' : Main} (e : Event) (h : m.onSys e = some m') : Does m o m'
  | kill (sig : Signal) : Does m (.kill sig) (m.raise sig .outside)
  | goto {o : Occurrence} (p : Phase) (hn : ¬ m.Halted) (hp : ∀ call, p ≠ .halted call) :
      Does m o { m with phase := p }
  | read {m₁ : Main} (info : SigInfo) (hn : ¬ m.Halted) (h : m.handleSignal info = some m₁) :
      Does m (.read info) (m₁.taken info.signal)
  | answer (read : Option Request) (env : Env) (p : Phase) (hn : ¬ m.Halted)
      (hp : ∀ call, p ≠ .halted call) :
      Does m (.accept (some read) env) { m.answer read env with phase := p }
  | check {m₁ : Main} (env : Env) (p : Phase) (hn : ¬ m.Halted) (hp : ∀ call, p ≠ .halted call)
      (h : m.onSys (.check env) = some m₁) : Does m (.check env) { m₁ with phase := p }
  | shutdown (env : Env) :
      Does m (.shutdown env)
        { m with sys := serviceStopAll env m.sys, phase := .halted m.rebootCall }

theorem Step.does {m m' : Main} {o : Occurrence} (hs : Step m o m') : m.Does o m' := by
  have live : ∀ {p : Phase}, m.phase = p → (∀ call, p ≠ .halted call) → ¬ m.Halted := by
    rintro p hp hne ⟨call, e⟩
    exact hne call (hp.symm.trans e)
  cases o with
  | exit _ _ => exact .outside _ hs
  | adopt _ => exact .outside _ hs
  | tick _ => exact .outside _ hs
  | kill sig => cases hs; exact .kill sig
  | epollWait ready =>
      obtain ⟨hc, e⟩ := Option.ite_none_right_eq_some.mp hs
      cases e
      exact .goto _ (live hc.1 fun _ => Phase.noConfusion) fun _ => Phase.noConfusion
  | epollFails eintr =>
      obtain ⟨hc, e⟩ := Option.ite_none_right_eq_some.mp hs
      have hn := live hc.1 fun _ => Phase.noConfusion
      cases eintr with
      | true => cases e; exact .goto m.phase hn fun call e => hn ⟨call, e⟩
      | false => cases e; exact .goto _ hn fun _ => Phase.noConfusion
  | read info =>
      simp only [Step, step] at hs
      split at hs
      · rename_i ready hp
        split at hs
        · cases hs
        · obtain ⟨m₁, h₁, rfl⟩ := Option.map_eq_some_iff.mp hs
          exact .read info (live hp fun _ => Phase.noConfusion) h₁
      · cases hs
  | drained =>
      simp only [Step, step] at hs
      split at hs
      · rename_i ready hp
        obtain ⟨-, e⟩ := Option.ite_none_right_eq_some.mp hs
        cases e
        exact .goto _ (live hp fun _ => Phase.noConfusion) fun _ => Phase.noConfusion
      · cases hs
  | accept client env =>
      simp only [Step, step] at hs
      split at hs
      · rename_i ready hp
        have hn := live hp fun _ => Phase.noConfusion
        cases client with
        | none => cases hs; exact .goto _ hn fun _ => Phase.noConfusion
        | some read => cases hs; exact .answer read env _ hn fun _ => Phase.noConfusion
      · cases hs
  | check env =>
      simp only [Step, step] at hs
      split at hs
      · rename_i hp
        obtain ⟨m₁, h₁, rfl⟩ := Option.map_eq_some_iff.mp hs
        exact .check env _ (live hp fun _ => Phase.noConfusion) (fun _ => Phase.noConfusion) h₁
      · cases hs
  | leave =>
      obtain ⟨hc, e⟩ := Option.ite_none_right_eq_some.mp hs
      cases e
      exact .goto _ (live hc.1 fun _ => Phase.noConfusion) fun _ => Phase.noConfusion
  | shutdown env =>
      obtain ⟨-, e⟩ := Option.ite_none_right_eq_some.mp hs
      cases e
      exact .shutdown env

/-- What every occurrence keeps: the pid and `g_reboot` stay, the requests that have signalled lumid
are the two that end it, and the call of `reboot` is the one those two globals give. -/
structure Kept (pid : Int) (reboot : Bool) (m : Main) : Prop where
  pid_eq : m.pid = pid
  reboot_eq : m.reboot = reboot
  pending : ∀ sig cmd, .request cmd ∈ m.pending sig → cmd = .reboot ∨ cmd = .poweroff
  stopped : ∀ cmd, .request cmd ∈ m.stoppedBy → cmd = .reboot ∨ cmd = .poweroff
  call : ∀ call, m.phase = .halted call → call = m.rebootCall

section

variable {m m' : Main} {pid : Int} {reboot : Bool}

/-- A change of the services alone. -/
theorem Kept.sys (h : m.Kept pid reboot) (sys : Sys) : Kept pid reboot { m with sys := sys } :=
  ⟨h.pid_eq, h.reboot_eq, h.pending, h.stopped, h.call⟩

theorem Kept.phase (h : m.Kept pid reboot) {p : Phase}
    (hp : ∀ call, p = .halted call → call = m.rebootCall) :
    Kept pid reboot { m with phase := p } :=
  ⟨h.pid_eq, h.reboot_eq, h.pending, h.stopped, hp⟩

theorem Kept.onSys (h : m.Kept pid reboot) {e : Event} (he : m.onSys e = some m') :
    m'.Kept pid reboot := by
  obtain ⟨sys, -, rfl⟩ := Option.map_eq_some_iff.mp he
  exact h.sys sys

theorem Kept.raise (h : m.Kept pid reboot) {sig : Signal} {who : Sender}
    (hw : ∀ cmd, who = .request cmd → cmd = .reboot ∨ cmd = .poweroff) :
    (m.raise sig who).Kept pid reboot := by
  refine ⟨h.pid_eq, h.reboot_eq, fun sig' cmd hm => ?_, h.stopped, h.call⟩
  simp only [Main.raise] at hm
  by_cases e : sig' = sig
  · subst e
    rw [Function.update_self] at hm
    rcases List.mem_cons.mp hm with hm | hm
    · exact hw cmd hm.symm
    · exact h.pending sig' cmd hm
  · rw [Function.update_of_ne e] at hm
    exact h.pending sig' cmd hm

theorem Kept.taken (h : m.Kept pid reboot) (sig : Signal) : (m.taken sig).Kept pid reboot := by
  refine ⟨h.pid_eq, h.reboot_eq, fun sig' cmd hm => ?_, h.stopped, h.call⟩
  simp only [Main.taken] at hm
  by_cases e : sig' = sig
  · subst e
    rw [Function.update_self] at hm
    cases hm
  · rw [Function.update_of_ne e] at hm
    exact h.pending sig' cmd hm

theorem Kept.stop (h : m.Kept pid reboot) (sig : Signal) : (m.stop sig).Kept pid reboot := by
  refine ⟨h.pid_eq, h.reboot_eq, h.pending, fun cmd hm => ?_, h.call⟩
  simp only [Main.stop] at hm
  split at hm
  · exact h.pending sig cmd hm
  · exact h.stopped cmd hm

theorem Kept.handleSignal (h : m.Kept pid reboot) {info : SigInfo}
    (hi : m.handleSignal info = some m') : m'.Kept pid reboot := by
  cases info with
  | chld reports env => exact h.onSys hi
  | term => cases hi; exact h.stop .term
  | int => cases hi; exact h.stop .int
  | hup dir => exact h.onSys hi

theorem Kept.answer (h : m.Kept pid reboot) (read : Option Request) (env : Env) :
    (m.answer read env).Kept pid reboot := by
  cases read with
  | none => exact h.sys _
  | some req =>
      simp only [Main.answer]
      split
      · rename_i hk
        refine (h.sys _).raise ?_
        rintro _ ⟨⟩
        exact socketHandleRequest_killSelf hk
      · exact h.sys _

/-- **Every occurrence keeps them.** -/
theorem Step.kept {o : Occurrence} (hs : Step m o m') (h : m.Kept pid reboot) :
    m'.Kept pid reboot := by
  cases hs.does with
  | outside e he => exact h.onSys he
  | kill sig => exact h.raise (by rintro _ ⟨⟩)
  | goto p _ hp => exact h.phase fun call e => absurd e (hp call)
  | read info _ hi => exact (h.handleSignal hi).taken _
  | answer read env p _ hp => exact (h.answer read env).phase fun call e => absurd e (hp call)
  | check env p _ hp he => exact (h.onSys he).phase fun call e => absurd e (hp call)
  | shutdown env => exact (h.sys _).phase fun call e => (Phase.halted.inj e).symm

/-! The loop's runs are runs of `Machine.lean`. -/

/-- What an occurrence does to the services is an event, until the shutdown. -/
theorem Step.events {o : Occurrence} (hs : Step m o m') :
    m'.Halted ∨ ¬ m.Halted ∧ m'.sys = m.sys ∨
      (m.Halted → m'.Halted) ∧ ∃ e, Lumid.Step m.sys e m'.sys := by
  have event : ∀ {e m₁}, m.onSys e = some m₁ →
      m₁.phase = m.phase ∧ Lumid.Step m.sys e m₁.sys := by
    intro e m₁ he
    obtain ⟨sys, hsys, rfl⟩ := Option.map_eq_some_iff.mp he
    exact ⟨rfl, hsys⟩
  cases hs.does with
  | outside e he =>
      obtain ⟨hp, he⟩ := event he
      exact .inr (.inr ⟨fun ⟨call, h⟩ => ⟨call, hp.trans h⟩, e, he⟩)
  | kill sig =>
      by_cases h : m.Halted
      · exact .inl h
      · exact .inr (.inl ⟨h, rfl⟩)
  | goto p hn _ => exact .inr (.inl ⟨hn, rfl⟩)
  | @read m₁ info hn hi =>
      cases info with
      | chld reports env => exact .inr (.inr ⟨fun h => absurd h hn, _, (event hi).2⟩)
      | term => cases hi; exact .inr (.inl ⟨hn, rfl⟩)
      | int => cases hi; exact .inr (.inl ⟨hn, rfl⟩)
      | hup dir => exact .inr (.inr ⟨fun h => absurd h hn, _, (event hi).2⟩)
  | answer read env p hn _ =>
      refine .inr (.inr ⟨fun h => absurd h hn, .request read env, ?_⟩)
      cases read with
      | none => rfl
      | some req =>
          simp only [Lumid.Step, Lumid.step, Main.answer]
          split <;> rfl
  | check env p hn _ he => exact .inr (.inr ⟨fun h => absurd h hn, _, (event he).2⟩)
  | shutdown env => exact .inl ⟨_, rfl⟩

end

theorem run_of_exec {m m' : Main} {os : List Occurrence} (h : exec os m = some m') :
    Run Step m os m' := by
  induction os generalizing m with
  | nil => cases h; exact .nil _
  | cons o os ih =>
      obtain ⟨m₁, h₁, h₂⟩ := Option.bind_eq_some_iff.mp h
      exact .cons h₁ (ih h₂)

end Main

section

variable {args : List (List UInt8)} {pid : Int} {now : UInt64} {dir : Dir} {env : Env}
  {m₀ m : Main} {os : List Occurrence}

theorem mainStart_kept (h : mainStart pid args now dir env = some m₀) :
    ∃ reboot, (reboot = true ↔ ascii "--reboot" ∈ args) ∧ m₀.Kept pid reboot ∧
      m₀.sys = (loadAndStartServices dir env (Sys.init now)).2 ∧ ¬ m₀.Halted := by
  simp only [mainStart] at h
  split at h
  · cases h
  · obtain ⟨reboot, hr, rfl⟩ := Option.map_eq_some_iff.mp h
    refine ⟨reboot, by simpa using parseMainArgs_eq hr, ?_, rfl, ?_⟩
    · exact ⟨rfl, rfl, by rintro _ _ ⟨⟩, by rintro _ ⟨⟩, by rintro _ ⟨⟩⟩
    · rintro ⟨_, ⟨⟩⟩

theorem mainStart_reached (h : mainStart pid args now dir env = some m₀) : Reached m₀.sys := by
  obtain ⟨-, -, -, hsys, -⟩ := mainStart_kept h
  rw [hsys]
  exact ⟨now, .one (e := .boot dir env) rfl⟩

theorem Main.Step.halted {m m' : Main} {o : Occurrence} (hs : Main.Step m o m') (h : m.Halted) :
    m'.Halted := by
  rcases Main.Step.events hs with h' | ⟨hn, -⟩ | ⟨hh, -⟩
  · exact h'
  · exact absurd h hn
  · exact hh h

theorem Main.Step.reached {m m' : Main} {o : Occurrence} (hs : Main.Step m o m')
    (h : m.Halted ∨ Reached m.sys) : m'.Halted ∨ Reached m'.sys := by
  rcases Main.Step.events hs with h' | ⟨hn, e⟩ | ⟨hh, e, he⟩
  · exact .inl h'
  · rw [e]
    exact .inr (h.resolve_left hn)
  · rcases h with h | ⟨now, h⟩
    · exact .inl (hh h)
    · exact .inr ⟨now, h.step he⟩

/-- **The runs of `main` are runs of lumid**: until the shutdown, its services are in a state that
`Machine.lean` reaches. -/
theorem Main.reached (h₀ : mainStart pid args now dir env = some m₀)
    (hrun : Run Main.Step m₀ os m) : m.Halted ∨ Reached m.sys :=
  hrun.invariant (I := fun m => m.Halted ∨ Reached m.sys) (fun _ _ _ h hs => Main.Step.reached hs h)
    (.inr (mainStart_reached h₀))

/-- **The shutdown after a request** to reboot or to power off.  It makes the call the request asks for
exactly when `--reboot` is among the arguments of lumid and the request is `CMD_REBOOT`, or it is not
and the request is `CMD_POWEROFF`. -/
theorem reboot_call_iff {call : Option RebootCmd} {cmd : IpcCmd}
    (h₀ : mainStart 1 args now dir env = some m₀) (hrun : Run Main.Step m₀ os m)
    (hh : m.phase = .halted call) (hcmd : .request cmd ∈ m.stoppedBy) :
    call = rebootFor cmd ↔ (cmd = .reboot ↔ ascii "--reboot" ∈ args) := by
  obtain ⟨reboot, hr, hk₀, -⟩ := mainStart_kept h₀
  have hk : m.Kept 1 reboot := hrun.invariant (fun _ _ _ h hs => Main.Step.kept hs h) hk₀
  have hcall : call = some (if reboot then .restart else .powerOff) := by
    rw [hk.call call hh, Main.rebootCall, hk.pid_eq, hk.reboot_eq]
    rfl
  rw [hcall, ← hr]
  rcases hk.stopped cmd hcmd with rfl | rfl <;> cases reboot <;> decide

end

/-- One request, and then the shutdown it leads to. -/
def shutdownBy (cmd : IpcCmd) : List Occurrence :=
  [.epollWait [.server], .accept (some (some ⟨cmd, []⟩)) (Env.plain 10 0), .check (Env.plain 10 0),
    .epollWait [.signal], .read .term, .drained, .check (Env.plain 10 0), .leave,
    .shutdown (Env.plain 10 0)]

/-- lumid as PID 1, without arguments and without a service directory. -/
def bareMain : Main := { sys := Sys.init 0, pid := 1, reboot := false }

def bareHalted (cmd : IpcCmd) : Main := ((Main.exec (shutdownBy cmd) bareMain).getD bareMain)

theorem bareHalted_run (cmd : IpcCmd) (h : cmd = .reboot ∨ cmd = .poweroff) :
    Run Main.Step bareMain (shutdownBy cmd) (bareHalted cmd) ∧
      (bareHalted cmd).phase = .halted (some .powerOff) ∧
      (bareHalted cmd).stoppedBy = [.request cmd] := by
  rcases h with rfl | rfl <;> exact ⟨Main.run_of_exec rfl, rfl, rfl⟩

theorem reboot_call_iff_poweroff : some RebootCmd.powerOff = rebootFor .poweroff := by
  obtain ⟨hrun, hh, hcmd⟩ := bareHalted_run .poweroff (.inr rfl)
  have h₀ : mainStart 1 [] 0 none (Env.plain 10 0) = some bareMain := rfl
  exact (reboot_call_iff h₀ hrun hh (by rw [hcmd]; exact .head _)).mpr (by decide)

/-- A lumid without arguments powers off when it is asked to reboot. -/
theorem reboot_powers_off :
    ¬ ∀ args now dir env m₀ os m call cmd, mainStart 1 args now dir env = some m₀ →
      Run Main.Step m₀ os m → m.phase = .halted call → Sender.request cmd ∈ m.stoppedBy →
      (cmd = .reboot ∨ cmd = .poweroff) → call = rebootFor cmd := by
  intro h
  obtain ⟨hrun, hh, hcmd⟩ := bareHalted_run .reboot (.inl rfl)
  have := h [] 0 none (Env.plain 10 0) bareMain _ _ _ .reboot rfl hrun hh
    (by rw [hcmd]; exact .head _) (.inl rfl)
  exact absurd this (by decide)

end LumiOS.Lumid
