import LumiOS.Lumid.Child
import LumiOS.Lumid.Main

/-!
# Lumid — SignalMask

The signal mask of lumid, from `setup_signals` to the processes of the services.  lumid blocks the
signals it reads from its `signalfd`, before it starts any service, and unblocks none.  `fork` and
`execl` keep the mask, so a service's process has `SIGTERM` blocked, and the one that `service_stop`
sends stays pending (`service_blocks_sigterm`).
-/

namespace LumiOS.Lumid

open Support

/-! ### Masks -/

/-- A signal mask, of the signals lumid reads. -/
abbrev SigMask := Signal → Bool

/-- `sigprocmask(SIG_BLOCK, &set, NULL)`. -/
def SigMask.block (mask : SigMask) (set : List Signal) : SigMask := fun sig => mask sig || sig ∈ set

/-- Whether the calls of `setup_signals` succeed. -/
structure SignalEnv where
  sigprocmask : Bool
  signalfd : Bool

def setupSignals (env : SignalEnv) (mask : SigMask) : Int × SigMask :=
  if env.sigprocmask = false then (-1, mask)
  else
    let mask := mask.block [.chld, .term, .int, .hup]
    if env.signalfd = false then (-1, mask) else (0, mask)

/-! ### The processes of services -/

/-- A process that executes a service's binary. -/
structure ServiceProcess where
  name : Name
  pid : Int
  child : ChildProcess
  blocked : SigMask

/-- What the child's side of `service_start` depends on: the rest of the service files, the answers of
the system to the child with a pid, and the process that forks. -/
structure ExecWorld where
  config : Name → ExecConfig
  db : UserDb
  kernel : Int → Kernel
  parent : ChildProcess

/-- The process that comes of an action of a parent with this mask: no call of the child changes the
mask it was forked with, and `execl` keeps it. -/
def ExecWorld.exec (w : ExecWorld) (blocked : SigMask) : Action → Option ServiceProcess
  | .fork n pid =>
    match childMain w.db (w.kernel pid) (w.config n) w.parent with
    | .exit _ => none
    | .execl _ child => some ⟨n, pid, child, blocked⟩
  | _ => none

/-- lumid as a process, with the processes that have executed a service's binary so far. -/
structure MainProcess where
  main : Main
  blocked : SigMask
  execs : List ServiceProcess

namespace MainProcess

/-- `main` up to the event loop, in a process with this mask. -/
def start (w : ExecWorld) (signals : SignalEnv) (mask : SigMask) (pid : Int)
    (args : List (List UInt8)) (now : UInt64) (dir : Dir) (env : Env) : Option MainProcess :=
  let (ret, blocked) := setupSignals signals mask
  if ret < 0 then none
  else (mainStart pid args now dir env).map fun main =>
    { main := main, blocked := blocked, execs := main.sys.trace.filterMap (w.exec blocked) }

/-- The actions of an occurrence. -/
def newActions (main main' : Main) : List Action :=
  main'.sys.trace.take (main'.sys.trace.length - main.sys.trace.length)

def step (w : ExecWorld) (m : MainProcess) (o : Occurrence) : Option MainProcess :=
  (m.main.step o).map fun main =>
    { main := main
      blocked := m.blocked
      execs := (newActions m.main main).filterMap (w.exec m.blocked) ++ m.execs }

def Step (w : ExecWorld) (m : MainProcess) (o : Occurrence) (m' : MainProcess) : Prop :=
  m.step w o = some m'

end MainProcess

namespace ServiceProcess

/-- How the process terminates within half a second of a `SIGTERM` it is sent, if `onTerm` is what it
does once the signal is delivered: a blocked signal stays pending, in a process that leaves its mask as
it is. -/
def grace (p : ServiceProcess) (onTerm : Option WaitStatus) : Option WaitStatus :=
  if p.blocked .term then none else onTerm

/-- lumid has the process for its service's, and it has not terminated. -/
structure Live (p : ServiceProcess) (s : Sys) : Prop where
  recorded : ∃ svc, s.services.find p.name = some svc ∧ svc.pid = p.pid ∧
    (svc.state = .running ∨ svc.state = .starting)
  alive : ∃ c, s.children.find p.pid = some c ∧ c.status = none

/-- The process does not have `SIGTERM` blocked; and if it terminates on it in time, `service_stop`
does without `SIGKILL`. -/
def StopsOnTerm (p : ServiceProcess) (s : Sys) : Prop :=
  p.blocked .term = false ∧
    ∀ (env : Env) (st : WaitStatus), p.Live s → env.grace p.name = p.grace (some st) →
      ∃ new, (serviceStop env s p.name).2.trace = new ++ s.trace ∧ .kill p.pid sigKill ∉ new

end ServiceProcess

section

variable {w : ExecWorld} {signals : SignalEnv} {mask : SigMask} {pid : Int}
  {args : List (List UInt8)} {now : UInt64} {dir : Dir} {env : Env} {m₀ m m' : MainProcess}
  {os : List Occurrence} {o : Occurrence} {s : Sys} {n : Name} {p : ServiceProcess}

theorem exec_blocked {blocked : SigMask} {actions : List Action}
    (hp : p ∈ actions.filterMap (w.exec blocked)) : p.blocked = blocked := by
  obtain ⟨a, -, ha⟩ := List.mem_filterMap.mp hp
  cases a with
  | fork n pid =>
      simp only [ExecWorld.exec] at ha
      split at ha
      · cases ha
      · exact (Option.some.inj ha) ▸ rfl
  | _ => cases ha

/-- lumid has `SIGTERM` blocked, and so has every process it made. -/
structure MainProcess.TermBlocked (m : MainProcess) : Prop where
  self : m.blocked .term = true
  execs : ∀ p ∈ m.execs, p.blocked .term = true

theorem setupSignals_block (h : ¬ (setupSignals signals mask).1 < 0) :
    (setupSignals signals mask).2 .term = true := by
  revert h
  cases hs : signals.sigprocmask <;> cases hf : signals.signalfd <;>
    simp [setupSignals, hs, hf, SigMask.block]

theorem MainProcess.start_termBlocked
    (h : MainProcess.start w signals mask pid args now dir env = some m₀) : m₀.TermBlocked := by
  simp only [MainProcess.start] at h
  split at h
  · cases h
  · rename_i hret
    obtain ⟨main, -, rfl⟩ := Option.map_eq_some_iff.mp h
    have hterm := setupSignals_block hret
    exact ⟨hterm, fun p hp => by rw [exec_blocked hp, hterm]⟩

/-- An occurrence changes no mask. -/
theorem MainProcess.TermBlocked.step (h : m.TermBlocked) (hs : MainProcess.Step w m o m') :
    m'.TermBlocked := by
  obtain ⟨main, -, rfl⟩ := Option.map_eq_some_iff.mp hs
  refine ⟨h.self, fun p hp => ?_⟩
  rcases List.mem_append.mp hp with hp | hp
  · rw [exec_blocked hp, h.self]
  · exact h.execs p hp

/-- Until the shutdown, the new actions of an occurrence stand before the history. -/
theorem newActions_append {main main' : Main} (hs : Main.Step main o main') (hr : Reached main.sys)
    (hn : ¬ main'.Halted) :
    MainProcess.newActions main main' ++ main.sys.trace = main'.sys.trace := by
  obtain ⟨new, e⟩ : ∃ new, main'.sys.trace = new ++ main.sys.trace := by
    rcases Main.Step.events hs with hh | ⟨-, e⟩ | ⟨-, ev, he⟩
    · exact absurd hh hn
    · exact ⟨[], by rw [e]; rfl⟩
    · refine (he.moves hr.sound).invariant (I := fun s => ∃ new, s.trace = new ++ main.sys.trace)
        ?_ hr.sound ⟨[], rfl⟩
      rintro s l s' - - hm ⟨new, e⟩
      obtain ⟨new', e', -⟩ := hm.trace
      exact ⟨new' ++ new, by rw [e', e, List.append_assoc]⟩
  rw [MainProcess.newActions, e, List.length_append, Nat.add_sub_cancel, List.take_left]

/-- **The processes of services** are, until the shutdown, what comes of the forks in lumid's
history. -/
theorem execs_eq (h₀ : MainProcess.start w signals mask pid args now dir env = some m₀)
    (hrun : Run (MainProcess.Step w) m₀ os m) :
    m.main.Halted ∨ m.execs = m.main.sys.trace.filterMap (w.exec m.blocked) := by
  have hinv : m.main.Halted ∨ Reached m.main.sys ∧
      m.execs = m.main.sys.trace.filterMap (w.exec m.blocked) := by
    refine hrun.invariant (I := fun m => m.main.Halted ∨ Reached m.main.sys ∧
      m.execs = m.main.sys.trace.filterMap (w.exec m.blocked)) ?_ (.inr ?_)
    · intro m o m' h hs
      obtain ⟨main, hmain, rfl⟩ := Option.map_eq_some_iff.mp hs
      by_cases hh : main.Halted
      · exact .inl hh
      · have hlive : ¬ m.main.Halted := fun hm => hh (Main.Step.halted hmain hm)
        obtain ⟨hr, he⟩ := h.resolve_left hlive
        refine .inr ⟨(Main.Step.reached hmain (.inr hr)).resolve_left hh, ?_⟩
        rw [← newActions_append hmain hr hh, List.filterMap_append, he]
    · simp only [MainProcess.start] at h₀
      split at h₀
      · cases h₀
      · obtain ⟨main, hmain, rfl⟩ := Option.map_eq_some_iff.mp h₀
        exact ⟨mainStart_reached hmain, rfl⟩
  exact hinv.imp id And.right

/-! ### Stopping them -/

/-- A process that is still alive after the pause gets `SIGKILL`. -/
theorem collect_alive {c : Child Name} (hc : s.children.find pid = some c) (ha : c.status = none) :
    ∃ res, (collect env s n pid).2.trace =
      .waitpid pid res :: .kill pid sigKill :: .waitpid pid .alive :: s.trace := by
  have hw : s.waitpid pid = (.alive, s.emit (.waitpid pid .alive)) := by
    simp only [Sys.waitpid, Children.waitpid, hc, ha]
    rfl
  simp only [collect, hw]
  split <;> rename_i h <;> exact ⟨_, congrArg (·.2.trace) h.symm |>.trans rfl⟩

/-- A process that does not terminate within half a second of `SIGTERM` gets `SIGKILL`. -/
theorem serviceStop_kills (hp : p.Live s) (hg : env.grace p.name = none) :
    ∃ new, (serviceStop env s p.name).2.trace = new ++ s.trace ∧ .kill p.pid sigKill ∈ new := by
  obtain ⟨⟨svc, hn, hpid, hstate⟩, c, hc, ha⟩ := hp
  obtain ⟨hmem, hcpid⟩ := Children.find_eq_some.mp hc
  have hpos : 0 < p.pid := hcpid ▸ s.children.pos c hmem
  have hlive : ¬ (svc.state ≠ .running ∧ svc.state ≠ .starting) := by
    rcases hstate with e | e <;> simp [e]
  let s₁ := ((s.upd p.name ({ · with state := .stopping })).emit (.kill p.pid sigTerm)).emit
    (.usleep 500000)
  have hterm : terminate env (s.upd p.name ({ · with state := .stopping })) p.name p.pid = s₁ := by
    simp only [terminate, if_pos hpos, hg, s₁]
  obtain ⟨res, hcollect⟩ : ∃ res, (collect env s₁ p.name p.pid).2.trace =
      .waitpid p.pid res :: .kill p.pid sigKill :: .waitpid p.pid .alive :: s₁.trace :=
    collect_alive hc ha
  obtain ⟨new, hstop⟩ : ∃ new, (stopProcess env s₁ p.name p.pid).trace =
      new ++ (collect env s₁ p.name p.pid).2.trace := by
    simp only [stopProcess]
    split
    · exact ⟨[.uninitStatus p.name], rfl⟩
    · exact ⟨[], rfl⟩
  have htrace : (serviceStop env s p.name).2.trace =
      .cgroupRemove p.name :: (stopProcess env s₁ p.name p.pid).trace := by
    simp only [serviceStop, hn, if_neg hlive, hpid, hterm, if_pos hpos]
    rfl
  refine ⟨.cgroupRemove p.name :: (new ++ [.waitpid p.pid res, .kill p.pid sigKill,
    .waitpid p.pid .alive, .usleep 500000, .kill p.pid sigTerm]), ?_, by simp⟩
  rw [htrace, hstop, hcollect]
  simp [s₁]

/-- **A service's process has `SIGTERM` blocked**, whenever lumid started it: the `SIGTERM` of
`service_stop` has no effect, whatever the service would do on it, and `SIGKILL` follows. -/
theorem service_blocks_sigterm
    (h₀ : MainProcess.start w signals mask pid args now dir env = some m₀)
    (hrun : Run (MainProcess.Step w) m₀ os m) (hp : p ∈ m.execs) :
    ¬ p.StopsOnTerm m.main.sys ∧ p.blocked .term = true ∧
      ∀ (env : Env) (onTerm : Option WaitStatus), p.Live m.main.sys →
        env.grace p.name = p.grace onTerm →
        ∃ new, (serviceStop env m.main.sys p.name).2.trace = new ++ m.main.sys.trace ∧
          .kill p.pid sigKill ∈ new := by
  have hinv : m.TermBlocked := hrun.invariant (fun _ _ _ h hs => h.step hs)
    (MainProcess.start_termBlocked h₀)
  have hblocked := hinv.execs p hp
  refine ⟨fun hstops => ?_, hblocked, fun env onTerm hlive hgrace => ?_⟩
  · exact Bool.noConfusion (hblocked.symm.trans hstops.1)
  · rw [ServiceProcess.grace, if_pos hblocked] at hgrace
    exact serviceStop_kills hlive hgrace

end

/-- Service files that say of the process what that of `audiod` says. -/
def plainWorld : ExecWorld where
  config _ := audiod
  db := audioDb
  kernel _ := .grants
  parent := rootChild

/-- lumid when it has started `devd` as process 10. -/
def bootedProcess : MainProcess where
  main := { sys := booted { name := devd }, pid := 1, reboot := false }
  blocked := SigMask.block (fun _ => false) [.chld, .term, .int, .hup]
  execs :=
    [{ name := devd
       pid := 10
       child := audiodChild
       blocked := SigMask.block (fun _ => false) [.chld, .term, .int, .hup] }]

theorem bootedProcess_start :
    MainProcess.start plainWorld ⟨true, true⟩ (fun _ => false) 1 [] 0 (devdDir { name := devd })
      (Env.plain 10 0) = some bootedProcess := rfl

/-- `devd`, which would exit on `SIGTERM` at once. -/
theorem service_blocks_sigterm_devd :
    ∃ p ∈ bootedProcess.execs, p.blocked .term = true ∧
      ∃ new, (serviceStop (Env.plain 11 0) bootedProcess.main.sys p.name).2.trace =
        new ++ bootedProcess.main.sys.trace ∧ .kill p.pid sigKill ∈ new := by
  obtain ⟨-, hblocked, hkill⟩ := service_blocks_sigterm bootedProcess_start (.nil _) (.head _)
  refine ⟨_, .head _, hblocked, hkill (Env.plain 11 0) (some (.exited 0)) ⟨?_, ?_⟩ rfl⟩
  · exact ⟨_, rfl, rfl, .inl rfl⟩
  · exact ⟨_, rfl, rfl⟩

/-- A service does not stop on `SIGTERM`, as lumid starts it. -/
theorem devd_sigterm_blocked :
    ¬ ∀ (w : ExecWorld) (signals : SignalEnv) (mask : SigMask) (pid : Int) (args : List (List UInt8))
        (now : UInt64) (dir : Dir) (env : Env) (m₀ m : MainProcess) (os : List Occurrence),
      MainProcess.start w signals mask pid args now dir env = some m₀ →
      Run (MainProcess.Step w) m₀ os m → ∀ p ∈ m.execs, p.StopsOnTerm m.main.sys := by
  intro h
  have hstops := h _ _ _ _ _ _ _ _ _ _ [] bootedProcess_start (.nil _) _ (.head _)
  exact Bool.noConfusion (show true = false from hstops.1)

end LumiOS.Lumid
