import LumiOS.Lumid.Lifecycle

/-!
# Lumid — Start

What one `service_start` does: nothing to a running service, and otherwise a failure or a fork
(`serviceStart_cases`).  A fork is one change of the registered service (`forkedRuntime`), and no
start touches another service or its processes (`serviceStart_find_ne`, `serviceStart_liveOf_ne`).

In the source a start goes through several states of the service: `SVC_STATE_STARTING` before the check of
what it requires, then `SVC_STATE_FAILED`, or the pid and the time of the start, the limits, and
`SVC_STATE_RUNNING` for a simple service.  Nothing looks at the service in between but the check, which a
service that requires itself fails (`Sys.ready`).  So the states are put together here, and whatever is
proved about starts is proved from the four cases: `serviceStart` itself is unfolded in this module only.
-/

namespace LumiOS.Lumid

open Support

/-- A started service, before its process does anything. -/
def forkedRuntime (cfg : ServiceConfig) (pid : Int) (now : UInt64) (rt : ServiceRuntime) :
    ServiceRuntime :=
  { rt with
    pid := pid
    startTime := now
    restartCount := 0
    state := if cfg.type = .simple then .running else .starting }

/-- The state behind a successful `fork` for `n`: there is a new child, the fork is in the trace, and the
service has what a start gives it. -/
def Sys.forked (s : Sys) (n : Name) (cfg : ServiceConfig) (pid : Int) (h : s.children.Fresh pid) :
    Sys :=
  ((s.withChildren (s.children.insert pid (some n) h)).emit (.fork n pid)).upd n
    (forkedRuntime cfg pid s.clock)

section

variable {s : Sys} {n m : Name} {svc : Service} {env : Env} {pid : Int}

/-- The dependency check of `service_start`, on the state that has the service in
`SVC_STATE_STARTING`. -/
def Sys.ready (s : Sys) (n : Name) (svc : Service) : Bool :=
  requiresMet (s.services.modify n ({ · with state := .starting })) svc

/-- Setting limits does not look at the services. -/
theorem Sys.limited_upd (s : Sys) (n : Name) (f : ServiceRuntime → ServiceRuntime)
    (cfg : ServiceConfig) (pid : Int) :
    (s.upd n f).limited cfg pid = (s.limited cfg pid).upd n f := by
  simp only [limited]
  split <;> rfl

/-- Setting limits leaves the services alone. -/
@[simp] theorem Sys.limited_services (s : Sys) (cfg : ServiceConfig) (pid : Int) :
    (s.limited cfg pid).services = s.services := by
  simp only [limited]
  split <;> rfl

/-- Setting limits leaves the processes alone. -/
@[simp] theorem Sys.limited_children (s : Sys) (cfg : ServiceConfig) (pid : Int) :
    (s.limited cfg pid).children = s.children := by
  simp only [limited]
  split <;> rfl

/-- Setting limits forks nothing. -/
@[simp] theorem Sys.forkCount_limited (s : Sys) (cfg : ServiceConfig) (pid : Int) (m : Name) :
    (s.limited cfg pid).forkCount m = s.forkCount m := by
  simp only [limited]
  split
  · simp [Action.isFork]
  · rfl

/-- A fork counts for its own service. -/
@[simp] theorem Sys.forkCount_forked (s : Sys) (n : Name) (cfg : ServiceConfig)
    (h : s.children.Fresh pid) (m : Name) :
    (s.forked n cfg pid h).forkCount m = s.forkCount m + if n = m then 1 else 0 := by
  simp [forked, Action.isFork]

/-- The writes behind the fork, with the one before it, are `forkedRuntime`. -/
theorem Sys.launched_starting (s : Sys) (t : UInt64) (svc : Service) (pid : Int) :
    (s.upd svc.name ({ · with state := .starting })).launched t svc pid =
      ((s.readClock t).limited svc.toServiceConfig pid).upd svc.name
        (forkedRuntime svc.toServiceConfig pid (s.readClock t).clock) := by
  by_cases ht : svc.type = .simple
  · simp only [launched, if_pos ht, limited_upd, upd_readClock, upd_upd]
    exact congrArg (upd _ _) (funext fun rt => by simp [forkedRuntime, ht])
  · simp only [launched, if_neg ht, limited_upd, upd_readClock, upd_upd]
    exact congrArg (upd _ _) (funext fun rt => by simp [forkedRuntime, ht])

/-- A fork overwrites the state. -/
theorem Sys.upd_forked (s : Sys) (t : UInt64) (x : SvcState) (cfg : ServiceConfig)
    (hf : s.children.Fresh pid) :
    ((s.upd n ({ · with state := x })).readClock t).forked n cfg pid hf =
      (s.readClock t).forked n cfg pid hf := by
  simp only [forked, upd_readClock, upd_withChildren, upd_emit, upd_upd]
  rfl

/-- A running service is left as it is. -/
theorem serviceStart_running (hn : s.services.find n = some svc) (hr : svc.state = .running) :
    serviceStart env s n = (0, s) := by
  simp only [serviceStart, hn, if_pos hr]

/-- A service whose requirements are not running has failed. -/
theorem serviceStart_unready (hn : s.services.find n = some svc) (hr : svc.state ≠ .running)
    (hd : s.ready n svc = false) :
    serviceStart env s n = (-1, s.upd n ({ · with state := .failed })) := by
  simp only [Sys.ready] at hd
  simp only [serviceStart, hn, if_neg hr, Sys.upd_services, hd, Sys.upd_upd]
  rfl

/-- A service whose `fork` fails has failed. -/
theorem serviceStart_forkFailed (hn : s.services.find n = some svc) (hr : svc.state ≠ .running)
    (hd : s.ready n svc = true) (hf : s.children.fork (env.fork n) n = none) :
    serviceStart env s n =
      (-1, (s.emit (.forkFailed n)).upd n ({ · with state := .failed })) := by
  simp only [Sys.ready] at hd
  simp only [serviceStart, hn, if_neg hr, Sys.upd_services, hd, if_true, Sys.upd_children, hf,
    Sys.upd_emit, Sys.upd_upd]
  rfl

/-- A service that is ready, and whose `fork` succeeds, has a process. -/
theorem serviceStart_forked (hn : s.services.find n = some svc) (hr : svc.state ≠ .running)
    (hd : s.ready n svc = true) (he : env.fork n = some pid) (hf : s.children.Fresh pid) :
    serviceStart env s n =
      (0, ((s.readClock (env.clock n)).forked n svc.toServiceConfig pid hf).limited
        svc.toServiceConfig pid) := by
  obtain rfl := Registry.name_of_find hn
  have hk : s.children.fork (env.fork svc.name) svc.name =
      some (pid, s.children.insert pid (some svc.name) hf) := by
    rw [he]
    exact dif_pos hf
  simp only [Sys.ready] at hd
  simp only [serviceStart, hn, if_neg hr, Sys.upd_services, hd, if_true, Sys.upd_children, hk]
  simp only [Sys.upd_withChildren, Sys.upd_emit, Sys.launched_starting, Sys.forked, Sys.limited_upd]
  rfl

/-- **The cases of a start**, of a registered service. -/
theorem serviceStart_cases {motive : Int × Sys → Prop} (hn : s.services.find n = some svc)
    (running : svc.state = .running → motive (0, s))
    (unready : svc.state ≠ .running → s.ready n svc = false →
      motive (-1, s.upd n ({ · with state := .failed })))
    (forkFailed : svc.state ≠ .running → s.ready n svc = true →
      s.children.fork (env.fork n) n = none →
      motive (-1, (s.emit (.forkFailed n)).upd n ({ · with state := .failed })))
    (forked : ∀ pid (hf : s.children.Fresh pid), svc.state ≠ .running → s.ready n svc = true →
      env.fork n = some pid →
      motive (0, ((s.readClock (env.clock n)).forked n svc.toServiceConfig pid hf).limited
        svc.toServiceConfig pid)) :
    motive (serviceStart env s n) := by
  by_cases hr : svc.state = .running
  · rw [serviceStart_running hn hr]
    exact running hr
  cases hd : s.ready n svc with
  | false =>
      rw [serviceStart_unready hn hr hd]
      exact unready hr hd
  | true =>
      cases hk : s.children.fork (env.fork n) n with
      | none =>
          rw [serviceStart_forkFailed hn hr hd hk]
          exact forkFailed hr hd hk
      | some r =>
          obtain ⟨hf, he, -⟩ := Children.fork_eq_some hk
          rw [serviceStart_forked hn hr hd he hf]
          exact forked r.1 hf hr hd he

/-- There is no start without a service. -/
theorem serviceStart_unregistered (hn : s.services.find n = none) :
    serviceStart env s n = (-1, s) := by
  simp only [serviceStart, hn]

/-- A failed start leaves the service failed. -/
theorem serviceStart_failed (hn : s.services.find n = some svc)
    (h : (serviceStart env s n).1 < 0) :
    (serviceStart env s n).2.upd n ({ · with state := .failed }) = (serviceStart env s n).2 := by
  revert h
  refine serviceStart_cases
    (motive := fun r => r.1 < 0 → r.2.upd n ({ · with state := .failed }) = r.2) hn ?_ ?_ ?_ ?_
  · exact fun _ h => absurd h (lt_irrefl 0)
  · intro _ _ _
    rw [Sys.upd_upd]
    rfl
  · intro _ _ _ _
    rw [Sys.upd_upd]
    rfl
  · exact fun _ _ _ _ _ h => absurd h (lt_irrefl 0)

/-! ### What a start leaves alone -/

/-- A start changes no other service. -/
theorem serviceStart_find_ne (h : m ≠ n) :
    (serviceStart env s n).2.services.find m = s.services.find m := by
  cases hn : s.services.find n with
  | none => rw [serviceStart_unregistered hn]
  | some svc =>
      refine serviceStart_cases (motive := fun r => r.2.services.find m = s.services.find m) hn
        ?_ ?_ ?_ ?_
      · exact fun _ => rfl
      · exact fun _ _ => Registry.find_modify_ne h
      · exact fun _ _ _ => Registry.find_modify_ne h
      · intro pid hf _ _ _
        rw [Sys.limited_services]
        exact Registry.find_modify_ne h

/-- A start changes no other service's processes. -/
theorem serviceStart_liveOf_ne (h : m ≠ n) :
    (serviceStart env s n).2.children.liveOf m = s.children.liveOf m := by
  cases hn : s.services.find n with
  | none => rw [serviceStart_unregistered hn]
  | some svc =>
      refine serviceStart_cases (motive := fun r => r.2.children.liveOf m = s.children.liveOf m) hn
        ?_ ?_ ?_ ?_
      · exact fun _ => rfl
      · exact fun _ _ => rfl
      · exact fun _ _ _ => rfl
      · intro pid hf _ _ _
        rw [Sys.limited_children]
        exact Children.liveOf_insert_ne (h := hf) (Ne.symm h)

/-- A start forks for no other service. -/
theorem serviceStart_forkCount_ne (h : m ≠ n) :
    (serviceStart env s n).2.forkCount m = s.forkCount m := by
  cases hn : s.services.find n with
  | none => rw [serviceStart_unregistered hn]
  | some svc =>
      refine serviceStart_cases (motive := fun r => r.2.forkCount m = s.forkCount m) hn ?_ ?_ ?_ ?_
      · exact fun _ => rfl
      · exact fun _ _ => rfl
      · exact fun _ _ _ => by simp [Action.isFork]
      · intro pid hf _ _ _
        have hc := Sys.forkCount_forked (s.readClock (env.clock n)) n svc.toServiceConfig hf m
        simpa [Ne.symm h] using hc

end

end LumiOS.Lumid
