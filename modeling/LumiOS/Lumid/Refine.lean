import LumiOS.Lumid.Moves

/-!
# Lumid — Refine

The code refines the moves of `Moves.lean`: from a sound state, an event of `Machine.lean` is some
moves with labels the event allows (`Step.moves`).  Each function of the code has one lemma here,
and the loops compose theirs.  So an event keeps the pid fields sound (`Step.sound`), every state of
a run of lumid is sound (`Reached.sound`), and what every move keeps holds in every state of a run
(`Reached.invariant`).

The lemmas are about any set `P` of labels that has the ones a function needs, so that the event a
function is called for chooses it.  Where the code writes to a service several times, a move is one
write: the earlier ones are overwritten, and a move that only reads the clock, or only writes to the
trace, can be put in front of the others.  A stop is the longest: `service_stop` sends its signals and
waits, all of it silent moves, until it has the status of the process, and the halt is the one move that
changes the service (`serviceStop_halts`).
-/

namespace LumiOS.Lumid

open Support

section

variable {s s' : Sys} {n : Name} {svc : Service} {env : Env} {pid : Int} {P : Label → Prop}

/-! ### Starting -/

/-- Setting limits is silent. -/
theorem limited_moves (hs : P .silent) (s : Sys) (cfg : ServiceConfig) (pid : Int) :
    Moves P s (s.limited cfg pid) := by
  simp only [Sys.limited]
  split
  · exact .one ⟨hs, .note s trivial⟩
  · exact .refl s

/-- A service marked in any other state than `running`, and then started. -/
theorem serviceStart_upd_moves (env : Env) (o : Origin) (hn : s.services.find n = some svc)
    (ho : o = .supervisor → svc.state = .restarting) {x : SvcState} (hx : x ≠ .running)
    (hP : ∀ l, l = .silent ∨ l = .start o n → P l) :
    Moves P s (serviceStart env ((s.emit (o.mark n)).upd n ({ · with state := x })) n).2 := by
  have hs := hP _ (.inl rfl)
  have hl := hP _ (.inr rfl)
  have hn' : ((s.emit (o.mark n)).upd n ({ · with state := x })).services.find n =
      some (svc.update ({ · with state := x })) := by simp [hn]
  refine serviceStart_cases (motive := fun r => Moves P s r.2) hn' ?_ ?_ ?_ ?_
  · exact fun hr => absurd hr hx
  · intro _ _
    -- the failure overwrites the mark `x`
    rw [Sys.upd_upd]
    exact .one ⟨hl, .startFail s o hn ho⟩
  · intro _ _ _
    rw [Sys.upd_emit, Sys.upd_upd, ← Sys.upd_emit]
    exact (Reachable.one ⟨hl, .startFail s o hn ho⟩).step ⟨hs, .note _ trivial⟩
  · intro pid hf _ _ _
    -- so does the fork; the code reads the clock after it, and the move before
    have e := Sys.upd_forked (n := n) (s.emit (o.mark n)) (env.clock n) x svc.toServiceConfig hf
    have h : Moves P s (((s.readClock (env.clock n)).emit (o.mark n)).forked n
        svc.toServiceConfig pid hf) :=
      (Reachable.one ⟨hs, .clock s _⟩).step ⟨hl, .startFork (s.readClock _) o hn ho hf⟩
    have h' := h.trans (limited_moves hs _ svc.toServiceConfig pid)
    exact (congrArg (fun s' : Sys => Moves P s (s'.limited svc.toServiceConfig pid)) e).mpr h'

/-- A start, of a service in the state it was found in. -/
theorem serviceStart_moves (o : Origin) (hn : s.services.find n = some svc)
    (ho : o = .supervisor → svc.state = .restarting)
    (hP : ∀ l, l = .silent ∨ l = .start o n → P l) :
    Moves P s (serviceStart env (s.emit (o.mark n)) n).2 := by
  by_cases hr : svc.state = .running
  · cases o with
    | supervisor => exact absurd (hr.symm.trans (ho rfl)) (by decide)
    | operator =>
        rw [serviceStart_running (s := s.emit _) hn hr]
        exact .one ⟨hP _ (.inr rfl), .startNoop s hn hr⟩
  · have h := serviceStart_upd_moves env o hn ho hr hP
    rwa [Sys.upd_eq_self (s.emit (o.mark n)) n _ hn rfl] at h

/-! ### Stopping -/

/-- The waiting does not look at the services. -/
theorem collect_upd (env : Env) (s : Sys) (m n : Name) (f : ServiceRuntime → ServiceRuntime)
    (pid : Int) :
    collect env (s.upd m f) n pid = ((collect env s n pid).1, (collect env s n pid).2.upd m f) := by
  have hw : ∀ s : Sys, (s.upd m f).waitpid pid = ((s.waitpid pid).1, (s.waitpid pid).2.upd m f) :=
    fun _ => rfl
  simp only [collect, hw]
  rcases s.waitpid pid with ⟨_ | _ | st, s₁⟩
  · rfl
  · have hk : ((s₁.upd m f).emit (.kill pid sigKill)).childExit pid (env.killed n) =
        ((s₁.emit (.kill pid sigKill)).childExit pid (env.killed n)).upd m f := rfl
    simp only [hk, hw]
    rcases ((s₁.emit (.kill pid sigKill)).childExit pid (env.killed n)).waitpid pid with
      ⟨_ | _ | st, s₂⟩ <;> rfl
  · rfl

/-- The two `waitpid` calls of `service_stop` collect a child that is there. -/
theorem collect_moves (env : Env) (n : Name) (hs : P .silent) {c : Child Name}
    (hc : c ∈ s.children.list) :
    ∃ st s₁, Moves P s s₁ ∧ s₁.services = s.services ∧ (c.pid, st) ∈ s₁.children.zombies ∧
      collect env s n c.pid = (some st, s₁.reaped c.pid) := by
  have hw : ∀ {s : Sys} {st : WaitStatus}, (c.pid, st) ∈ s.children.zombies →
      s.waitpid c.pid = (.reaped st, (s.emit (.waitpid c.pid (.reaped st))).reaped c.pid) := by
    intro s st hz
    simp only [Sys.waitpid, Children.waitpid_reaped hz]
    rfl
  cases hst : c.status with
  | some st =>
      have hz := Children.mem_zombies.mpr ⟨c, hc, rfl, hst⟩
      refine ⟨st, s.emit (.waitpid c.pid (.reaped st)), .one ⟨hs, .note s ?_⟩, rfl, hz, ?_⟩
      · exact WaitResult.noConfusion
      · simp only [collect, hw hz]
  | none =>
      let s₁ := (s.emit (.waitpid c.pid .alive)).emit (.kill c.pid sigKill)
      let s₂ := s₁.childExit c.pid (env.killed n)
      have hz : (c.pid, env.killed n) ∈ s₂.children.zombies := Children.zombie_of_exit hc hst
      have hm : Moves P s s₂ :=
        ((Reachable.one ⟨hs, .note s WaitResult.noConfusion⟩).step ⟨hs, .note _ trivial⟩).step
          ⟨hs, .exit s₁ _ _⟩
      refine ⟨env.killed n, s₂.emit (.waitpid c.pid (.reaped (env.killed n))),
        hm.step ⟨hs, .note s₂ WaitResult.noConfusion⟩, rfl, hz, ?_⟩
      have ha : s.waitpid c.pid = (.alive, s.emit (.waitpid c.pid .alive)) := by
        simp only [Sys.waitpid, Children.waitpid_alive hc hst]
        rfl
      have hr := hw hz
      simp only [s₁, s₂] at hr
      simp only [collect, ha, hr, s₁, s₂]

/-- A service without a process is not stopped. -/
theorem serviceStop_of_not_live (hn : s.services.find n = some svc)
    (hs : svc.state ≠ .running ∧ svc.state ≠ .starting) : serviceStop env s n = (0, s) := by
  simp only [serviceStop, hn, if_pos hs]

/-- The `SIGTERM` does not look at the services. -/
theorem terminate_upd (env : Env) (s : Sys) (m n : Name) (f : ServiceRuntime → ServiceRuntime)
    (pid : Int) : terminate env (s.upd m f) n pid = (terminate env s n pid).upd m f := by
  simp only [terminate]
  by_cases h : 0 < pid <;> cases env.grace n <;> simp only [h, if_true, if_false] <;> rfl

/-- The `SIGTERM` leaves the services as they are. -/
@[simp] theorem terminate_services : (terminate env s n pid).services = s.services := by
  simp only [terminate]
  by_cases h : 0 < pid <;> cases env.grace n <;> simp only [h, if_true, if_false] <;> rfl

/-- The `SIGTERM`, and what it does to the process, is silent. -/
theorem terminate_moves (hs : P .silent) (s : Sys) : Moves P s (terminate env s n pid) := by
  have hk : Moves P s (if 0 < pid then s.emit (.kill pid sigTerm) else s) := by
    split
    · exact .one ⟨hs, .note s trivial⟩
    · exact .refl s
  simp only [terminate]
  cases env.grace n with
  | none => exact hk.step ⟨hs, .note _ (a := .usleep 500000) trivial⟩
  | some st => exact (hk.step ⟨hs, .note _ (a := .usleep 500000) trivial⟩).step ⟨hs, .exit _ _ _⟩

/-- `service_stop` of a service with a process. -/
theorem serviceStop_live (hn : s.services.find n = some svc)
    (hs : svc.state = .running ∨ svc.state = .starting) (hp : 0 < svc.pid) {st : WaitStatus}
    {s₁ : Sys} (hc : collect env (terminate env s n svc.pid) n svc.pid = (some st, s₁)) :
    serviceStop env s n =
      (0, ((s₁.readClock (env.clock n)).upd n
        (haltedRuntime st (s₁.readClock (env.clock n)).clock)).emit (.cgroupRemove n)) := by
  have hs' : ¬ (svc.state ≠ .running ∧ svc.state ≠ .starting) := by
    rintro ⟨h₁, h₂⟩
    exact hs.elim h₁ h₂
  simp only [serviceStop, hn, if_neg hs', if_pos hp, stopProcess, terminate_upd, collect_upd, hc,
    reduceCtorEq, if_false, Sys.upd_upd, Sys.upd_readClock, Sys.upd_emit]
  rfl

/-- A stop of a service with a process: some silent moves, up to a state in which the process has
terminated, and then the halt. -/
theorem serviceStop_halts (env : Env) (hs₀ : P .silent) (h : Sound s) (hn : s.services.find n = some svc)
    (hs : svc.state = .running ∨ svc.state = .starting) :
    ∃ st s₁, Moves P s s₁ ∧ s₁.services = s.services ∧
      (svc.pid, st) ∈ s₁.children.zombies ∧
      serviceStop env s n =
        (0, ((s₁.reaped svc.pid).upd n (haltedRuntime st s₁.clock)).emit (.cgroupRemove n)) := by
  have hm₀ : Moves P s (terminate env s n svc.pid) := terminate_moves hs₀ s
  -- its recorded pid is that of a child, before and after the `SIGTERM`
  obtain ⟨c, hc, hcp⟩ := (hm₀.sound h).child n svc (by simpa using hn) (h.pid_ne hn hs)
  obtain ⟨st, s₁, hm₁, hk, hz, hcol⟩ := collect_moves env n hs₀ hc
  rw [hcp] at hz hcol
  have hm := (hm₀.trans hm₁).step ⟨hs₀, .clock s₁ (env.clock n)⟩
  refine ⟨st, _, hm, by simpa using hk, hz, ?_⟩
  rw [serviceStop_live hn hs (hcp ▸ Children.pos _ c hc) hcol]
  rfl

/-- A stop is silent, but for the halt. -/
theorem serviceStop_moves (h : Sound s) (hn : s.services.find n = some svc)
    (hP : ∀ l, l = .silent ∨ l = .halt n → P l) : Moves P s (serviceStop env s n).2 := by
  by_cases hs : svc.state = .running ∨ svc.state = .starting
  · obtain ⟨st, s₁, hm, hk, hz, e⟩ := serviceStop_halts env (hP _ (.inl rfl)) h hn hs
    rw [e]
    have hn₁ : s₁.services.find n = some svc := hk ▸ hn
    exact (hm.step ⟨hP _ (.inr rfl), .halt _ hn₁ hs hz⟩).step ⟨hP _ (.inl rfl), .note _ trivial⟩
  · rw [serviceStop_of_not_live hn (not_or.mp hs)]
    exact .refl s

/-- A restart only starts: `service_stop` does nothing. -/
theorem serviceRestart_eq (hn : s.services.find n = some svc) :
    serviceRestart env s n =
      serviceStart env (((if 0 < svc.restartDelayMs then
        s.emit (.usleep (restartSleep svc.restartDelayMs)) else s).emit (.operatorStart n)).upd n
          ({ · with state := .restarting })) n := by
  have hn' : (s.upd n ({ · with state := .restarting })).services.find n =
      some (svc.update ({ · with state := .restarting })) := by simp [hn]
  simp only [serviceRestart, hn]
  -- `service_stop` finds the service restarting, and does nothing
  rw [serviceStop_of_not_live hn' ⟨SvcState.noConfusion, SvcState.noConfusion⟩]
  split <;> rfl

/-- A restart is the start of an operator. -/
theorem serviceRestart_moves (hn : s.services.find n = some svc)
    (hP : ∀ l, l = .silent ∨ l = .start .operator n → P l) :
    Moves P s (serviceRestart env s n).2 := by
  have hm : ∀ s : Sys, s.services.find n = some svc → Moves P s
      (serviceStart env ((s.emit (.operatorStart n)).upd n ({ · with state := .restarting })) n).2 :=
    fun s hn =>
      serviceStart_upd_moves env .operator hn (nomatch ·) (x := .restarting) SvcState.noConfusion hP
  rw [serviceRestart_eq hn]
  split
  · have h : Moves P s (s.emit (.usleep (restartSleep svc.restartDelayMs))) :=
      .one ⟨hP _ (.inl rfl), .note s trivial⟩
    exact h.trans (hm _ hn)
  · exact hm s hn

/-! ### Reaping -/

/-- The service that is found has the pid. -/
theorem findByPid_eq_some {r : Registry} (h : findByPid r pid = some svc) :
    r.find svc.name = some svc ∧ svc.pid = pid :=
  ⟨Registry.find_of_mem (List.mem_of_find?_eq_some h), by simpa using List.find?_some h⟩

/-- When none is found, no service has the pid. -/
theorem findByPid_eq_none {r : Registry} (h : findByPid r pid = none) :
    ∀ svc ∈ r.list, svc.pid ≠ pid := by
  intro svc hm
  simpa using List.find?_eq_none.mp h svc hm

/-- One status is collected, for a service or for nobody. -/
theorem reapOne_moves {st : WaitStatus} (hz : (pid, st) ∈ s.children.zombies)
    (hP : ∀ l, l = .silent ∨ (∃ n, l = .reap n) → P l) : Moves P s (reapOne env s (pid, st)) := by
  have hs := hP _ (.inl rfl)
  simp only [reapOne, Sys.withChildren_services]
  cases hf : findByPid s.services pid with
  | none => exact .one ⟨hs, .orphan s (findByPid_eq_none hf) hz⟩
  | some found =>
      obtain ⟨hn, rfl⟩ := findByPid_eq_some hf
      have h : Moves P s (s.readClock (env.clock found.name)) := .one ⟨hs, .clock s _⟩
      exact h.step ⟨hP _ (.inr ⟨_, rfl⟩), .reap (s.readClock _) hn hz⟩

/-- The child is gone then. -/
theorem reapOne_children (r : Int × WaitStatus) :
    (reapOne env s r).children = s.children.remove r.1 := by
  simp only [reapOne, Sys.withChildren_services]
  cases findByPid s.services r.1 <;> rfl

/-- Another terminated child is still there. -/
theorem mem_zombies_reapOne {r r' : Int × WaitStatus} (h : r' ∈ s.children.zombies)
    (hne : r'.1 ≠ r.1) : r' ∈ (reapOne env s r).children.zombies := by
  obtain ⟨c, hc, hp, hs⟩ := Children.mem_zombies.mp h
  rw [reapOne_children]
  exact Children.mem_zombies.mpr ⟨c, Children.mem_remove.mpr ⟨hc, hp ▸ hne⟩, hp, hs⟩

/-- **The reaping loop.**  The reports are of different children, so each still finds its own. -/
theorem supervisorHandleSigchld_moves (hP : ∀ l, l = .silent ∨ (∃ n, l = .reap n) → P l) :
    ∀ {reports : List (Int × WaitStatus)} {s : Sys}, (reports.map (·.1)).Nodup →
      (∀ r ∈ reports, r ∈ s.children.zombies) → Moves P s (supervisorHandleSigchld env reports s)
  | [], s, _, _ => .refl s
  | r :: reports, s, hd, hz => by
      obtain ⟨hr, hd⟩ := List.nodup_cons.mp hd
      have hz' : ∀ r' ∈ reports, r' ∈ (reapOne env s r).children.zombies := fun r' hr' =>
        mem_zombies_reapOne (hz r' (List.mem_cons_of_mem r hr'))
          fun e => hr (List.mem_map.mpr ⟨r', hr', e⟩)
      exact (reapOne_moves (hz r List.mem_cons_self) hP).trans
        (supervisorHandleSigchld_moves hP hd hz')

/-! ### Passes over the services -/

/-- A look at one service of the pass is silent, or starts it. -/
theorem checkOne_moves (now : UInt64)
    (hP : ∀ l, l = .silent ∨ (∃ n, l = .start .supervisor n) → P l) (s : Sys) (n : Name) :
    Moves P s (checkOne env now s n) := by
  simp only [checkOne]
  cases hn : s.services.find n with
  | none => exact .refl s
  | some svc =>
      by_cases hr : svc.state = .restarting ∧ restartDue now svc = true
      · have hm : Moves P s (serviceStart env (s.emit (.autoStart n)) n).2 :=
          serviceStart_moves .supervisor hn (fun _ => hr.1) fun l hl =>
            hP l (hl.imp id fun e => ⟨n, e⟩)
        simp only [if_pos hr]
        split
        · rename_i hneg
          rw [serviceStart_failed (s := s.emit (.autoStart n)) hn hneg]
          exact hm
        · exact hm
      · simp only [if_neg hr]
        exact .refl s

/-- The loop of the pass starts some. -/
theorem checkLoop_moves (now : UInt64)
    (hP : ∀ l, l = .silent ∨ (∃ n, l = .start .supervisor n) → P l) :
    ∀ (ns : List Name) (s : Sys), Moves P s (checkLoop env now ns s)
  | [], s => .refl s
  | n :: ns, s => (checkOne_moves now hP s n).trans (checkLoop_moves now hP ns _)

/-- The pass is that loop, when the interval is over. -/
theorem supervisorCheckServices_moves
    (hP : ∀ l, l = .silent ∨ (∃ n, l = .start .supervisor n) → P l) (s : Sys) :
    Moves P s (supervisorCheckServices env s) := by
  simp only [supervisorCheckServices]
  split
  · exact .refl s
  · have h : Moves P s { s with lastCheckTime := s.clock } := .one ⟨hP _ (.inl rfl), .check s⟩
    exact h.trans (checkLoop_moves _ hP _ _)

/-- The boot starts what it can, each service for the operator. -/
theorem startAllLoop_moves (hP : ∀ l, l = .silent ∨ (∃ n, l = .start .operator n) → P l) :
    ∀ (ns : List Name) (failed : Nat) (s : Sys), Moves P s (startAllLoop env ns failed s).2
  | [], _, s => .refl s
  | n :: ns, failed, s => by
      simp only [startAllLoop]
      cases hn : s.services.find n with
      | none => exact startAllLoop_moves hP ns failed s
      | some svc =>
          have hm : Moves P s (serviceStart env (s.emit (.operatorStart n)) n).2 :=
            serviceStart_moves .operator hn (nomatch ·) fun l hl => hP l (hl.imp id fun e => ⟨n, e⟩)
          simp only
          split
          · exact hm.trans (startAllLoop_moves hP ns _ _)
          · exact startAllLoop_moves hP ns failed s

/-! ### Loading -/

/-- A service that is registered is registered once. -/
theorem serviceRegister_moves (hP : ∀ l, l = .silent ∨ (∃ n, l = .register n) → P l) (s : Sys)
    (cfg : ServiceConfig) : Moves P s (serviceRegister s (serviceCreate cfg)) := by
  simp only [serviceRegister]
  split
  · exact .refl s
  · rename_i hn
    exact .one ⟨hP _ (.inr ⟨_, rfl⟩), .register s cfg hn⟩

/-- The entries of a directory register some services. -/
theorem loadLoop_moves (hP : ∀ l, l = .silent ∨ (∃ n, l = .register n) → P l) :
    ∀ (entries : List DirEntry) (loaded : Int) (s : Sys), Moves P s (loadLoop entries loaded s).2
  | [], _, s => .refl s
  | entry :: entries, loaded, s => by
      simp only [loadLoop]
      split
      · cases entry.config with
        | none => exact loadLoop_moves hP entries loaded s
        | some cfg => exact (serviceRegister_moves hP s cfg).trans (loadLoop_moves hP entries _ _)
      · exact loadLoop_moves hP entries loaded s

/-- A load is those entries, if the directory can be opened. -/
theorem serviceLoadAll_moves (hP : ∀ l, l = .silent ∨ (∃ n, l = .register n) → P l) (dir : Dir)
    (s : Sys) : Moves P s (serviceLoadAll dir s).2 := by
  cases dir with
  | none => exact .refl s
  | some entries => exact loadLoop_moves hP entries 0 s

/-! ### Events -/

/-- The labels an event allows. -/
def Event.Allows : Event → Label → Prop
  | _, .silent => True
  | .boot _ _, .register _ | .sighup _, .register _ => True
  | .boot _ _, .start .operator _ => True
  | .request (some req) _, .start .operator n =>
    (req.cmd = .start ∨ req.cmd = .restart) ∧ req.serviceName = n.bytes
  | .request (some req) _, .halt n => req.cmd = .stop ∧ req.serviceName = n.bytes
  | .check _, .start .supervisor _ => True
  | .sigchld _ _, .reap _ => True
  | _, _ => False

/-- Every event may be silent. -/
theorem Event.allows_silent (e : Event) : e.Allows .silent := by
  cases e <;> trivial

/-- The service of a request is the one it names. -/
theorem Request.service_eq_some {req : Request} {r : Registry} (h : req.service r = some svc) :
    r.find svc.name = some svc ∧ req.serviceName = svc.name.bytes := by
  simp only [Request.service] at h
  split at h
  · cases h
  · refine ⟨Registry.find_of_mem (List.mem_of_find?_eq_some h), ?_⟩
    simpa [eq_comm] using List.find?_some h

/-- A boot loads, sorts and starts. -/
theorem boot_moves (dir : Dir) (env : Env) (s : Sys) :
    Moves (Event.boot dir env).Allows s (loadAndStartServices dir env s).2 := by
  have hl := serviceLoadAll_moves (P := (Event.boot dir env).Allows)
    (by rintro _ (rfl | ⟨n, rfl⟩) <;> trivial) dir s
  have hr := hl.step ⟨Event.allows_silent _, .resolve _⟩
  simp only [loadAndStartServices]
  split
  · exact hl
  · split
    · exact hr
    · exact hr.trans (startAllLoop_moves (by rintro _ (rfl | ⟨n, rfl⟩) <;> trivial) _ _ _)

/-- A reload loads and sorts. -/
theorem sighup_moves (dir : Dir) (s : Sys) : Moves (Event.sighup dir).Allows s (reload dir s) :=
  (serviceLoadAll_moves (by rintro _ (rfl | ⟨n, rfl⟩) <;> trivial) dir s).step
    ⟨Event.allows_silent _, .resolve _⟩

/-- A request is what its command allows, for the service it names. -/
theorem request_moves (h : Sound s) (read : Option Request) (env : Env) :
    Moves (Event.request read env).Allows s (socketHandleRequest env s read).2 := by
  cases read with
  | none => exact .refl s
  | some req =>
      refine socketHandleRequest_cases (motive := Moves (Event.request (some req) env).Allows s)
        env req ?asked ?start ?stop ?restart ?admin ?power
      case asked =>
        intro t
        exact .one ⟨Event.allows_silent _, .clock s t⟩
      case start =>
        intro svc hsvc hc
        obtain ⟨hn, hb⟩ := Request.service_eq_some hsvc
        refine serviceStart_moves .operator hn (nomatch ·) ?_
        rintro _ (rfl | rfl)
        · trivial
        · exact ⟨.inl hc, hb⟩
      case stop =>
        intro svc hsvc hc
        obtain ⟨hn, hb⟩ := Request.service_eq_some hsvc
        refine serviceStop_moves h hn ?_
        rintro _ (rfl | rfl)
        · trivial
        · exact ⟨hc, hb⟩
      case restart =>
        intro svc hsvc hc
        obtain ⟨hn, hb⟩ := Request.service_eq_some hsvc
        refine serviceRestart_moves hn ?_
        rintro _ (rfl | rfl)
        · trivial
        · exact ⟨.inr hc, hb⟩
      case admin =>
        intro svc b _
        exact .one ⟨Event.allows_silent _, .admin s _ _⟩
      case power =>
        intro _
        exact .one ⟨Event.allows_silent _, .note s trivial⟩

/-- **The code refines the moves.**  From a sound state, an event is some moves it allows. -/
theorem Step.moves {e : Event} (he : Step s e s') (h : Sound s) : Moves e.Allows s s' := by
  cases e with
  | exit pid st => cases he; exact .one ⟨Event.allows_silent _, .exit s pid st⟩
  | adopt pid => cases he; exact .one ⟨Event.allows_silent _, .adopt s pid⟩
  | tick t => cases he; exact .one ⟨Event.allows_silent _, .clock s t⟩
  | boot dir env => cases he; exact boot_moves dir env s
  | request read env => cases he; exact request_moves h read env
  | sigchld reports env =>
      obtain ⟨hp, rfl⟩ := he.sigchld_inv
      refine supervisorHandleSigchld_moves (by rintro _ (rfl | ⟨n, rfl⟩) <;> trivial) ?_ ?_
      · exact (hp.map _).nodup_iff.mpr (Children.zombies_nodup _)
      · exact fun r hr => hp.subset hr
  | sighup dir => cases he; exact sighup_moves dir s
  | check env =>
      cases he
      exact supervisorCheckServices_moves (by rintro _ (rfl | ⟨n, rfl⟩) <;> trivial) s

/-- **Every event keeps the pid fields sound.** -/
theorem Step.sound {e : Event} (he : Step s e s') (h : Sound s) : Sound s' := (he.moves h).sound h

/-- **Every state of a run is sound.** -/
theorem Reached.sound (h : Reached s) : Sound s := by
  obtain ⟨now, h⟩ := h
  exact h.invariant (fun _ _ _ h he => he.sound h) (sound_init now)

/-- **The invariant rule.**  What holds when lumid starts, and what every move from a sound state
keeps, holds in every state of a run. -/
theorem Reached.invariant {I : Sys → Prop} (h₀ : ∀ now, I (Sys.init now))
    (hI : ∀ s l s', Sound s → Move s l s' → I s → I s') (h : Reached s) : I s := by
  obtain ⟨now, h⟩ := h
  have hs : Sound s ∧ I s :=
    Reachable.invariant (I := fun s => Sound s ∧ I s)
      (fun s e s' h he => ⟨he.sound h.1,
        (he.moves h.1).invariant (fun s l s' hs _ hm => hI s l s' hs hm) h.1 h.2⟩)
      h ⟨sound_init now, h₀ now⟩
  exact hs.2

end

end LumiOS.Lumid
