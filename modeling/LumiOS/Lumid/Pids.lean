import LumiOS.Lumid.Refine
import LumiOS.Lumid.StartOrder

/-!
# Lumid — Pids

What the pid fields mean in every state of a run of lumid.  A recorded pid is that of a child that has
not been reaped, and of one service only, so `supervisor_handle_sigchld` attributes an exit to the
right service, and the `waitpid` calls of `service_stop` find the child they wait for
(`Reached.pids`).
-/

namespace LumiOS.Lumid

open Support

/-- The actions that show a sound bookkeeping: all but a `waitpid` for what is no child, and the
reading of a status nobody assigned. -/
def Action.Clean : Action → Prop
  | .waitpid _ res => res ≠ .echild
  | .uninitStatus _ => False
  | _ => True

theorem Label.Emits.clean {l : Label} {a : Action} (h : l.Emits a) : a.Clean := by
  cases l with
  | silent => cases a <;> trivial
  | start o n =>
      rcases h with rfl | ⟨pid, rfl⟩
      · cases o <;> trivial
      · trivial
  | reap n =>
      obtain ⟨st, rfl⟩ := h
      trivial
  | register n => exact h.elim
  | halt n => exact h.elim

/-- Every action of the trace is clean. -/
def Sys.Clean (s : Sys) : Prop := ∀ a ∈ s.trace, a.Clean

theorem Move.clean {s s' : Sys} {l : Label} (hm : Move s l s') (h : s.Clean) : s'.Clean := by
  obtain ⟨new, ht, he⟩ := hm.trace
  intro a ha
  rw [ht, List.mem_append] at ha
  rcases ha with ha | ha
  · exact (he a ha).clean
  · exact h a ha

theorem Reached.clean {s : Sys} (h : Reached s) : s.Clean :=
  h.invariant (fun _ => List.forall_mem_nil _) fun _ _ _ _ hm hc => hm.clean hc

theorem stopEach_moves {P : Label → Prop} {env : Env} (hP : ∀ l, l = .silent ∨ (∃ n, l = .halt n) → P l) :
    ∀ (ns : List Name) {s : Sys}, Sound s → Moves P s (stopEach env ns s)
  | [], s, _ => .refl s
  | n :: ns, s, h => by
      simp only [stopEach]
      cases hn : s.services.find n with
      | none =>
          have hs : serviceStop env s n = (-1, s) := by simp only [serviceStop, hn]
          rw [hs]
          exact stopEach_moves hP ns h
      | some svc =>
          have hm : Moves P s (serviceStop env s n).2 :=
            serviceStop_moves h hn fun l hl => hP l (hl.imp id fun e => ⟨n, e⟩)
          exact hm.trans (stopEach_moves hP ns (hm.sound h))

/-- `service_stop_all` is some moves. -/
theorem serviceStopAll_moves {s : Sys} (h : Sound s) (env : Env) :
    Moves (fun l => l = .silent ∨ ∃ n, l = .halt n) s (serviceStopAll env s) :=
  stopEach_moves (fun _ h => h) _ h

/-- **The pid fields.**  In every state of a run of lumid, a recorded pid is that of an unreaped
child, no two services record one, a running service has one and a stopped service has none; and
no `service_stop` so far, nor one of a `service_stop_all` now, has waited for what is no child or read
a status nobody assigned. -/
theorem Reached.pids {s : Sys} (h : Reached s) :
    (∀ svc ∈ s.services.list, svc.pid = -1 ∨ ∃ c ∈ s.children.list, c.pid = svc.pid) ∧
    (∀ svc ∈ s.services.list, ∀ svc' ∈ s.services.list,
      svc.pid = svc'.pid → svc.pid ≠ -1 → svc = svc') ∧
    (∀ svc ∈ s.services.list, svc.state = .running → 0 < svc.pid) ∧
    (∀ svc ∈ s.services.list, svc.state = .stopped → svc.pid = -1) ∧
    ∀ env, ∀ a ∈ s.trace ++ (serviceStopAll env s).trace,
      (∀ pid, a ≠ .waitpid pid .echild) ∧ ∀ n, a ≠ .uninitStatus n := by
  have hs := h.sound
  have find : ∀ {svc : Service}, svc ∈ s.services.list → s.services.find svc.name = some svc :=
    Registry.find_of_mem
  refine ⟨fun svc hm => ?_, fun svc hm svc' hm' e hp => ?_, fun svc hm hr => ?_,
    fun svc hm hst => ?_, fun env a ha => ?_⟩
  · by_cases hp : svc.pid = -1
    · exact .inl hp
    · exact .inr (hs.child _ _ (find hm) hp)
  · have hn := hs.inj _ _ _ _ (find hm) (find hm') e hp
    exact Option.some.inj ((find hm).symm.trans (hn ▸ find hm'))
  · obtain ⟨c, hc, hp⟩ := hs.child _ _ (find hm) (hs.pid_ne (find hm) (.inl hr))
    exact hp ▸ s.children.pos c hc
  · have hc := (hs.consistent _ _ (find hm)).2
    rw [hst] at hc
    exact hc
  · have hc : (serviceStopAll env s).Clean :=
      (serviceStopAll_moves hs env).invariant (fun _ _ _ _ _ hm hc => hm.clean hc) hs h.clean
    have hcl : a.Clean := (List.mem_append.mp ha).elim (h.clean a) (hc a)
    refine ⟨fun pid e => ?_, fun n e => ?_⟩
    · subst e
      exact hcl rfl
    · subst e
      exact hcl

/-- A world in which `fork` returns `pid`, a process ignores `SIGTERM`, and the clock reads `t`. -/
def Env.plain (pid : Int) (t : UInt64) : Env where
  fork _ := some pid
  grace _ := none
  killed _ := .signaled 9
  junk _ := .exited 0
  clock _ := t

/-- A world in which `devd` is process 10, and any other service process 11. -/
def Env.session : Env := { Env.plain 11 0 with fork := fun n => some (if n = devd then 10 else 11) }

/-- A service directory with one file, `devd.svc`. -/
def devdDir (cfg : ServiceConfig) : Dir := some [{ fileName := ascii "devd.svc", config := some cfg }]

/-- lumid when it has started `cfg` as process 10. -/
def booted (cfg : ServiceConfig) : Sys :=
  (loadAndStartServices (devdDir cfg) (Env.plain 10 0) (Sys.init 0)).2

theorem booted_reached (cfg : ServiceConfig) : Reached (booted cfg) :=
  ⟨0, .one (e := .boot (devdDir cfg) (Env.plain 10 0)) rfl⟩

def netd : Name := .lit "netd" (by decide)

/-- lumid when it has started `devd` as process 10 and `netd` as process 11; neither requires anything,
and both are to be restarted whenever they end. -/
def bootedPair : Sys :=
  (loadAndStartServices
    (some [{ fileName := ascii "devd.svc", config := some { name := devd, restartPolicy := .always } },
      { fileName := ascii "netd.svc", config := some { name := netd, restartPolicy := .always } }])
    Env.session (Sys.init 0)).2

/-- Both have ended, one of them by a signal. -/
def endedPair : Sys := (bootedPair.childExit 10 (.exited 1)).childExit 11 (.signaled 9)

theorem endedPair_reached : Reached endedPair := by
  have hboot : Reachable Step (Sys.init 0) bootedPair := .one (e := .boot _ Env.session) rfl
  have hdevd : Step bootedPair (.exit 10 (.exited 1)) (bootedPair.childExit 10 (.exited 1)) := rfl
  have hnetd : Step (bootedPair.childExit 10 (.exited 1)) (.exit 11 (.signaled 9)) endedPair := rfl
  exact ⟨0, (hboot.step hdevd).step hnetd⟩

theorem Reached.pids_devd :
    (booted { name := devd }).services.list.map (·.state) = [.running] ∧
    ∀ svc ∈ (booted { name := devd }).services.list, svc.state = .running → 0 < svc.pid :=
  ⟨by decide, (Reached.pids (booted_reached _)).2.2.1⟩

end LumiOS.Lumid
