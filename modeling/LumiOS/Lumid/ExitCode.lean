import LumiOS.Lumid.Reaping

/-!
# Lumid — ExitCode

The two places that record how a process of a service terminated.

`supervisor_handle_sigchld` encodes an exit as its code and a signal as its negative number.
`service_stop` reads the status with `WIFEXITED` only, so a process that a signal killed, which is what
its own `SIGKILL` does, leaves the exit code of an earlier run (`stop_exitCode_iff`).
-/

namespace LumiOS.Lumid

open Support

/-- The status with which a process terminates that `service_stop` stops. -/
def Env.stopStatus (env : Env) (n : Name) : WaitStatus := (env.grace n).getD (env.killed n)

/-- `exit_code` of a service. -/
def Sys.exitCodeOf (s : Sys) (n : Name) : Option Int := (s.services.find n).map (·.exitCode)

section

variable {s s' : Sys} {n : Name} {svc : Service} {env env' : Env} {c : Child Name}
  {reports : List (Int × WaitStatus)}

/-! ### service_stop -/

/-- The status `service_stop` collects of a live child. -/
theorem collect_stopStatus (env : Env) (n : Name) (hc : c ∈ s.children.list)
    (hlive : c.status = none) : ∃ s₁, s₁.services = s.services ∧
      collect env (terminate env s n c.pid) n c.pid = (some (env.stopStatus n), s₁) := by
  have hpos := s.children.pos c hc
  let s₀ := (s.emit (.kill c.pid sigTerm)).emit (.usleep 500000)
  cases hg : env.grace n with
  | some st =>
      -- it terminates within the pause
      have hterm : terminate env s n c.pid = s₀.childExit c.pid st := by
        simp only [terminate, if_pos hpos, hg, s₀]
      have hz : (c.pid, st) ∈ (s₀.childExit c.pid st).children.zombies :=
        Children.zombie_of_exit hc hlive
      let s₁ := ((s₀.childExit c.pid st).withChildren
        ((s₀.childExit c.pid st).children.remove c.pid)).emit (.waitpid c.pid (.reaped st))
      have hcol : collect env (s₀.childExit c.pid st) n c.pid = (some st, s₁) := by
        simp only [collect, Sys.waitpid, Children.waitpid_reaped hz, s₁]
      have hservices : s₁.services = s.services := rfl
      rw [hterm, Env.stopStatus, hg, Option.getD_some]
      exact ⟨s₁, hservices, hcol⟩
  | none =>
      -- it gets `SIGKILL`
      have hterm : terminate env s n c.pid = s₀ := by
        simp only [terminate, if_pos hpos, hg, s₀]
      let s₁ := ((s₀.emit (.waitpid c.pid .alive)).emit (.kill c.pid sigKill)).childExit c.pid
        (env.killed n)
      have hz : (c.pid, env.killed n) ∈ s₁.children.zombies := Children.zombie_of_exit hc hlive
      have ha : s₀.waitpid c.pid = (.alive, s₀.emit (.waitpid c.pid .alive)) := by
        have hw : s₀.children.waitpid c.pid = (.alive, s₀.children) := Children.waitpid_alive hc hlive
        simp only [Sys.waitpid, hw]
        rfl
      let s₂ := (s₁.withChildren (s₁.children.remove c.pid)).emit
        (.waitpid c.pid (.reaped (env.killed n)))
      have hr : s₁.waitpid c.pid = (.reaped (env.killed n), s₂) := by
        simp only [Sys.waitpid, Children.waitpid_reaped hz, s₂]
      have hcol : collect env s₀ n c.pid = (some (env.killed n), s₂) := by
        simp only [collect, ha]
        rw [show (((s₀.emit (.waitpid c.pid .alive)).emit (.kill c.pid sigKill)).childExit c.pid
          (env.killed n)).waitpid c.pid = (.reaped (env.killed n), s₂) from hr]
      have hservices : s₂.services = s.services := by
        simp only [s₂, s₁, s₀, Sys.childExit, Sys.emit_services, Sys.withChildren_services]
      rw [hterm, Env.stopStatus, hg, Option.getD_none]
      exact ⟨s₂, hservices, hcol⟩

theorem serviceStop_exitCode (hn : s.services.find n = some svc)
    (hs : svc.state = .running ∨ svc.state = .starting) (hc : c ∈ s.children.list)
    (hpid : c.pid = svc.pid) (hlive : c.status = none) :
    (serviceStop env s n).2.exitCodeOf n =
      some (exitCodeAfterStop (env.junk n) (some (env.stopStatus n)) svc.exitCode) := by
  obtain ⟨s₁, hs₁, hcol⟩ := collect_stopStatus env n hc hlive
  rw [hpid] at hcol
  have hfind : s₁.services.find n = some svc := hs₁ ▸ hn
  rw [serviceStop_live hn hs (hpid ▸ s.children.pos c hc) hcol, Sys.exitCodeOf]
  simp [hfind, haltedRuntime, exitCodeAfterStop]

/-! ### supervisor_handle_sigchld -/

theorem reapRuntime_exitCode (cfg : ServiceConfig) (st : WaitStatus) (now : UInt64)
    (rt : ServiceRuntime) : (reapRuntime cfg st now rt).exitCode = exitCodeOf st := by
  simp only [reapRuntime]
  split
  · rfl
  · split <;> rfl

/-- Related lists agree on what is found first. -/
theorem find_of_forall₂ {α β : Type} {R : α → β → Prop} {p : α → Bool} {q : β → Bool} {a : α}
    {l : List α} {l' : List β} (h : List.Forall₂ R l l') (hpq : ∀ a b, R a b → p a = q b)
    (ha : l.find? p = some a) : ∃ b, l'.find? q = some b ∧ R a b := by
  induction h with
  | nil => cases ha
  | @cons a' b' l l' hab _ ih =>
      rw [List.find?_cons] at ha ⊢
      rw [← hpq a' b' hab]
      cases hp : p a' with
      | true =>
          rw [hp] at ha
          obtain rfl := Option.some.inj ha
          exact ⟨b', rfl, hab⟩
      | false =>
          rw [hp] at ha
          exact ih ha

theorem ReapOutcome.name_eq {zombies : List (Int × WaitStatus)} {svc' : Service}
    (h : ReapOutcome zombies svc svc') : svc'.name = svc.name := by
  cases h <;> rfl

/-- A service whose process has terminated has its status encoded. -/
theorem Reaps.exitCode (h : Reaps s reports s') (hd : s.DistinctPids)
    (hn : s.services.find n = some svc) {st : WaitStatus} (hz : (svc.pid, st) ∈ s.children.zombies) :
    s'.exitCodeOf n = some (exitCodeOf st) := by
  obtain ⟨svc', hn', ho⟩ := find_of_forall₂ (q := fun svc => decide (svc.name = n)) (h.outcome hd)
    (fun a b hab => by rw [hab.name_eq]) hn
  have hfind : s'.services.find n = some svc' := hn'
  rw [Sys.exitCodeOf, hfind, Option.map_some]
  cases ho with
  | reaped st' now hz' =>
      obtain rfl := Children.zombies_unique hz hz'
      exact congrArg some (reapRuntime_exitCode _ _ _ _)
  | kept hk => exact absurd hz (hk st)

/-! ### The two -/

/-- **`service_stop` records what the supervisor would exactly when no signal killed the process, or
the service carried the code of the signal already.** -/
theorem stop_exitCode_iff (h : Reached s) (hn : s.services.find n = some svc)
    (hs : svc.state = .running ∨ svc.state = .starting) (hc : c ∈ s.children.list)
    (hpid : c.pid = svc.pid) (hlive : c.status = none) (env env' : Env)
    (hr : reports.Perm (s.childExit svc.pid (env.stopStatus n)).children.zombies) :
    (serviceStop env s n).2.exitCodeOf n =
        (supervisorHandleSigchld env' reports (s.childExit svc.pid (env.stopStatus n))).exitCodeOf n ↔
      ∀ sig, env.stopStatus n = .signaled sig → svc.exitCode = -sig := by
  have hz : (svc.pid, env.stopStatus n) ∈
      (s.childExit svc.pid (env.stopStatus n)).children.zombies :=
    hpid ▸ Children.zombie_of_exit hc hlive
  have hd : (s.childExit svc.pid (env.stopStatus n)).DistinctPids := h.distinctPids
  rw [serviceStop_exitCode hn hs hc hpid hlive, (reaps_handleSigchld env' hr).exitCode hd hn hz,
    Option.some_inj]
  cases env.stopStatus n with
  | exited code => exact ⟨fun _ _ e => WaitStatus.noConfusion e, fun _ => rfl⟩
  | signaled sig =>
      refine ⟨fun e sig' hsig => ?_, fun hk => hk sig rfl⟩
      cases hsig
      exact e

end

/-- `devd`, just started. -/
def startedDevd : Service :=
  (serviceCreate { name := devd }).update ({ · with state := .running, pid := 10 })

theorem startedDevd_find :
    (booted { name := devd }).services.find devd = some startedDevd := by decide

theorem startedDevd_child :
    ⟨10, some devd, none⟩ ∈ (booted { name := devd }).children.list := by decide

/-- When `devd` does not terminate on `SIGTERM`, `service_stop` records the exit code of a service that
has never run. -/
theorem stop_exitCode_killed : startedDevd.state = .running ∧ startedDevd.pid = 10 ∧
    (booted { name := devd }).children.list = [⟨10, some devd, none⟩] ∧
    (serviceStop (Env.plain 11 0) (booted { name := devd }) devd).2.exitCodeOf devd = some (-1) ∧
    (supervisorHandleSigchld (Env.plain 11 0) [(10, .signaled 9)]
      ((booted { name := devd }).childExit 10 (.signaled 9))).exitCodeOf devd = some (-9) := by
  decide

/-- A world in which a process terminates on `SIGTERM` with exit code 3. -/
def Env.graceful : Env := { Env.plain 11 0 with grace := fun _ => some (.exited 3) }

theorem stop_exitCode_graceful :
    (serviceStop Env.graceful (booted { name := devd }) devd).2.exitCodeOf devd =
      (supervisorHandleSigchld (Env.plain 11 0) [(10, .exited 3)]
        ((booted { name := devd }).childExit 10 (.exited 3))).exitCodeOf devd :=
  (stop_exitCode_iff (booted_reached { name := devd }) startedDevd_find (.inl rfl)
    startedDevd_child rfl rfl Env.graceful (Env.plain 11 0) (.refl _)).mpr
    fun _ e => WaitStatus.noConfusion e

end LumiOS.Lumid
