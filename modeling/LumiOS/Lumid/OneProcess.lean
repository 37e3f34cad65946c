import LumiOS.Lumid.Pids

/-!
# Lumid — OneProcess

Whether a service has at most one process at a time.  `service_start` looks at the state of a service
and not at its process, and `service_restart` marks the service `SVC_STATE_RESTARTING` before it calls
`service_stop`, which then does nothing: both can fork for a service whose process is alive.

Runs in which no start meets a live process (`Event.StartsIdle`) keep every service at one process,
the recorded one (`oneProcess_of_run`), and an IPC request that starts a service with a live process
breaks this at once.
-/

namespace LumiOS.Lumid

open Support

/-- Of the processes forked for a service at most one is alive, and then it is the recorded one. -/
def Sys.OneProcess (s : Sys) : Prop :=
  ∀ svc ∈ s.services.list, (s.children.liveOf svc.name).length ≤ 1 ∧
    ∀ c ∈ s.children.liveOf svc.name, c.pid = svc.pid

instance (s : Sys) : Decidable s.OneProcess :=
  inferInstanceAs (Decidable (∀ svc ∈ s.services.list, _ ∧ _))

/-- Every live process was forked for a registered service and is the one it records. -/
def Sys.Tracked (s : Sys) : Prop :=
  ∀ n, ∀ c ∈ s.children.liveOf n, ∃ svc, s.services.find n = some svc ∧ svc.pid = c.pid

section

variable {s s' : Sys} {n : Name} {svc : Service} {pid : Int} {env : Env}
  {f : ServiceRuntime → ServiceRuntime}

theorem Sys.Tracked.oneProcess (h : s.Tracked) : s.OneProcess := by
  intro svc hm
  have hp : ∀ c ∈ s.children.liveOf svc.name, c.pid = svc.pid := by
    intro c hc
    obtain ⟨svc', hn, e⟩ := h svc.name c hc
    obtain rfl := Option.some.inj (hn.symm.trans (Registry.find_of_mem hm))
    exact e.symm
  exact ⟨Children.liveOf_length_le_one hp, hp⟩

/-! ### What keeps processes tracked -/

/-- A state with the same registry and no new live process. -/
theorem Sys.Tracked.of_liveOf (h : s.Tracked) (hs : s'.services = s.services)
    (hc : ∀ n, ∀ c ∈ s'.children.liveOf n, ∃ c' ∈ s.children.liveOf n, c'.pid = c.pid) :
    s'.Tracked := by
  intro n c hcm
  obtain ⟨c', hc', e⟩ := hc n c hcm
  rw [hs, ← e]
  exact h n c' hc'

theorem Sys.Tracked.same (h : s.Tracked) (hs : s'.services = s.services)
    (hc : s'.children = s.children) : s'.Tracked :=
  h.of_liveOf hs fun _ c hcm => ⟨c, hc ▸ hcm, rfl⟩

theorem Sys.Tracked.upd (h : s.Tracked) (hp : ∀ rt, (f rt).pid = rt.pid) : (s.upd n f).Tracked := by
  intro m c hc
  obtain ⟨svc, hm, e⟩ := h m c hc
  by_cases k : m = n
  · subst k
    exact ⟨svc.update f, by simp [hm], (hp _).trans e⟩
  · exact ⟨svc, (Registry.find_modify_ne k).trans hm, e⟩

theorem Sys.Tracked.forked (h : s.Tracked) (hn : s.services.find n = some svc)
    (hl : s.children.liveOf n = []) (cfg : ServiceConfig) (hf : s.children.Fresh pid) :
    (s.forked n cfg pid hf).Tracked := by
  intro m c hc
  by_cases k : m = n
  · subst k
    have hc' : c ∈ (s.children.insert pid (some m) hf).liveOf m := hc
    rw [Children.liveOf_insert_self, hl, List.mem_singleton] at hc'
    subst hc'
    refine ⟨_, Registry.find_modify_self.trans (congrArg _ hn), rfl⟩
  · have hc' : c ∈ (s.children.insert pid (some n) hf).liveOf m := hc
    rw [Children.liveOf_insert_ne (Ne.symm k)] at hc'
    obtain ⟨svc', hm, e⟩ := h m c hc'
    exact ⟨svc', (Registry.find_modify_ne k).trans hm, e⟩

/-- A service whose recorded child is collected, whatever becomes of the service. -/
theorem Sys.Tracked.reaped (h : s.Tracked) (hn : s.services.find n = some svc) :
    ((s.reaped svc.pid).upd n f).Tracked := by
  intro m c hc
  obtain ⟨hcr, ho, hst⟩ := Children.mem_liveOf.mp hc
  obtain ⟨hcm, hne⟩ := Children.mem_remove.mp hcr
  obtain ⟨svc', hm, e⟩ := h m c (Children.mem_liveOf.mpr ⟨hcm, ho, hst⟩)
  have k : m ≠ n := by
    rintro rfl
    obtain rfl := Option.some.inj (hn.symm.trans hm)
    exact hne e.symm
  exact ⟨svc', (Registry.find_modify_ne k).trans hm, e⟩

theorem Sys.Tracked.register (h : s.Tracked) {svc : Service} (hn : s.services.find svc.name = none) :
    Sys.Tracked { s with
      services := s.services.cons svc hn
      serviceCount := s.serviceCount + 1 } := by
  intro m c hc
  obtain ⟨svc', hm, e⟩ := h m c hc
  exact ⟨svc', Registry.find_cons_some hn hm, e⟩

/-- A service the supervisor may start has no live process. -/
theorem Sys.Tracked.liveOf_restarting (h : s.Tracked) (hs : Sound s)
    (hn : s.services.find n = some svc) (hr : svc.state = .restarting) :
    s.children.liveOf n = [] := by
  refine List.eq_nil_iff_forall_not_mem.mpr fun c hc => ?_
  obtain ⟨svc', hn', e⟩ := h n c hc
  obtain rfl := Option.some.inj (hn.symm.trans hn')
  have hp := (hs.consistent n svc hn).2
  rw [hr] at hp
  have hpos := s.children.pos c (Children.mem_liveOf.mp hc).1
  rw [← e, hp] at hpos
  exact absurd hpos (by decide)

/-- **Every move keeps processes tracked**, but for an operator's start. -/
theorem Move.tracked {l : Label} (hm : Move s l s') (hs : Sound s)
    (hl : ∀ n, l ≠ .start .operator n) (h : s.Tracked) : s'.Tracked := by
  cases hm with
  | exit pid st =>
      refine h.of_liveOf rfl fun n c hc => ?_
      obtain ⟨hcm, ho, hst⟩ := Children.mem_liveOf.mp hc
      obtain ⟨c', hc', hp, ho', hst' | ⟨-, -, hst'⟩⟩ := Children.mem_exit hcm
      · exact ⟨c', Children.mem_liveOf.mpr ⟨hc', ho' ▸ ho, hst' ▸ hst⟩, hp.symm⟩
      · cases hst.symm.trans hst'
  | adopt pid =>
      refine h.of_liveOf rfl fun n c hc => ⟨c, ?_, rfl⟩
      obtain ⟨hcm, ho, hst⟩ := Children.mem_liveOf.mp hc
      simp only [Sys.withChildren_children, Children.adopt] at hcm
      split at hcm
      · rcases Children.mem_insert.mp hcm with rfl | hcm
        · cases ho
        · exact Children.mem_liveOf.mpr ⟨hcm, ho, hst⟩
      · exact Children.mem_liveOf.mpr ⟨hcm, ho, hst⟩
  | clock t => exact h.same rfl rfl
  | check => exact h.same rfl rfl
  | note _ => exact h.same rfl rfl
  | resolve => exact h.same rfl rfl
  | admin n b => exact h.upd fun _ => rfl
  | orphan _ _ =>
      refine h.of_liveOf rfl fun n c hc => ⟨c, ?_, rfl⟩
      obtain ⟨hcm, ho, hst⟩ := Children.mem_liveOf.mp hc
      exact Children.mem_liveOf.mpr ⟨(Children.mem_remove.mp hcm).1, ho, hst⟩
  | register cfg hn => exact h.register hn
  | startNoop _ _ => exact h.same rfl rfl
  | @startFail n _ o _ _ =>
      have h' : (s.emit (o.mark n)).Tracked := h.same rfl rfl
      exact h'.upd fun _ => rfl
  | @startFork n _ o pid hn ho hf =>
      cases o with
      | operator => exact absurd rfl (hl n)
      | supervisor =>
          have h' : (s.emit (.autoStart n)).Tracked := h.same rfl rfl
          exact h'.forked hn (h.liveOf_restarting hs hn (ho rfl)) _ hf
  | halt hn _ _ => exact h.reaped hn
  | @reap n _ st hn _ =>
      have h' : (s.emit (.reap n st)).Tracked := h.same rfl rfl
      exact h'.reaped hn

/-! ### Starts on request -/

/-- `service_start` reaches a `fork` that succeeds, unless the service is running. -/
def Sys.forks (s : Sys) (env : Env) (n : Name) (svc : Service) : Bool :=
  s.ready n svc && (s.children.fork (env.fork n) n).isSome

theorem Sys.ready_upd (s : Sys) (n : Name) (svc : Service) (x : SvcState)
    (g : ServiceRuntime → ServiceRuntime) :
    (s.upd n ({ · with state := x })).ready n (svc.update g) = s.ready n svc := by
  simp only [ready, upd_services, Registry.modify_modify]
  rfl

theorem serviceStart_tracked (h : s.Tracked) (hn : s.services.find n = some svc)
    (hl : s.forks env n svc = true → s.children.liveOf n ≠ [] → svc.state = .running) :
    (serviceStart env s n).2.Tracked := by
  refine serviceStart_cases (motive := fun r => r.2.Tracked) hn ?_ ?_ ?_ ?_
  · exact fun _ => h
  · exact fun _ _ => h.upd fun _ => rfl
  · intro _ _ _
    have h' : (s.emit (.forkFailed n)).Tracked := h.same rfl rfl
    exact h'.upd fun _ => rfl
  · intro pid hf hr hd he
    have hk : s.forks env n svc = true := by
      simp [Sys.forks, hd, he, Children.fork, hf]
    have h' : (s.readClock (env.clock n)).Tracked := h.same rfl rfl
    have hl' : s.children.liveOf n = [] := Classical.byContradiction fun k => hr (hl hk k)
    exact (h'.forked hn hl' svc.toServiceConfig hf).same (by simp) (by simp)

/-- A fork for a service with a live process makes two. -/
theorem serviceStart_forks (hn : s.services.find n = some svc) (hk : s.forks env n svc = true)
    (hr : svc.state ≠ .running) (hl : s.children.liveOf n ≠ []) :
    ¬ (serviceStart env s n).2.OneProcess := by
  simp only [Sys.forks, Bool.and_eq_true, Option.isSome_iff_exists] at hk
  obtain ⟨hd, r, hk⟩ := hk
  obtain ⟨hf, he, -⟩ := Children.fork_eq_some hk
  rw [serviceStart_forked hn hr hd he hf]
  intro h
  have hn' : (((s.readClock (env.clock n)).forked n svc.toServiceConfig r.1 hf).limited
      svc.toServiceConfig r.1).services.find n = some (svc.update
        (forkedRuntime svc.toServiceConfig r.1 (s.readClock (env.clock n)).clock)) := by
    rw [Sys.limited_services]
    exact Registry.find_modify_self.trans (congrArg _ hn)
  obtain ⟨hm, e⟩ := Registry.find_eq_some.mp hn'
  have h₁ := (h _ hm).1
  rw [e, Sys.limited_children] at h₁
  -- the new process stands in front of the live one
  have h₂ : ((s.children.insert r.1 (some n) hf).liveOf n).length ≤ 1 := h₁
  rw [Children.liveOf_insert_self, List.length_cons] at h₂
  exact hl (List.length_eq_zero_iff.mp (Nat.le_zero.mp (Nat.le_of_succ_le_succ h₂)))

/-! ### The boot -/

/-- A service that `service_start_all` may start for `n` has no live process. -/
def Sys.Idle (s : Sys) (n : Name) : Prop :=
  ∀ svc, s.services.find n = some svc → svc.enabled = true → s.children.liveOf n ≠ [] →
    svc.state = .running

/-- A start in the list concerns no later name of it. -/
theorem startAllLoop_tracked :
    ∀ {ns : List Name} {failed : Nat} {s : Sys}, ns.Nodup → (∀ n ∈ ns, s.Idle n) → s.Tracked →
      (startAllLoop env ns failed s).2.Tracked
  | [], _, s, _, _, h => h
  | n :: ns, failed, s, hd, hi, h => by
      obtain ⟨hn, hd⟩ := List.nodup_cons.mp hd
      have hi' : ∀ m ∈ ns, s.Idle m := fun m hm => hi m (List.mem_cons_of_mem n hm)
      simp only [startAllLoop]
      cases hf : s.services.find n with
      | none => exact startAllLoop_tracked hd hi' h
      | some svc =>
          simp only
          split
          · rename_i he
            have h' : (s.emit (.operatorStart n)).Tracked := h.same rfl rfl
            have hr := hi n List.mem_cons_self svc hf he
            -- a later name is another service's, which this start leaves alone
            refine startAllLoop_tracked hd (fun m hm svc' hf' he' hl => ?_)
              (serviceStart_tracked h' hf fun _ => hr)
            have k : m ≠ n := by
              rintro rfl
              exact hn hm
            rw [serviceStart_find_ne k] at hf'
            rw [serviceStart_liveOf_ne k] at hl
            exact hi' m hm svc' hf' he' hl
          · exact startAllLoop_tracked hd hi' h

theorem serviceRegister_idle (cfg : ServiceConfig) (h : s.Tracked) (hi : ∀ n, s.Idle n) :
    (serviceRegister s (serviceCreate cfg)).Tracked ∧
      ∀ n, (serviceRegister s (serviceCreate cfg)).Idle n := by
  simp only [serviceRegister]
  split
  · exact ⟨h, hi⟩
  · rename_i hn
    refine ⟨h.register hn, fun m svc hf he hl => ?_⟩
    -- a live process is of a service that was registered before
    obtain ⟨c, hc⟩ := List.exists_mem_of_ne_nil _ hl
    obtain ⟨svc', hf', -⟩ := h m c hc
    obtain rfl := Option.some.inj ((Registry.find_cons_some hn hf').symm.trans hf)
    exact hi m svc' hf' he hl

theorem loadLoop_idle :
    ∀ {entries : List DirEntry} {loaded : Int} {s : Sys}, s.Tracked → (∀ n, s.Idle n) →
      (loadLoop entries loaded s).2.Tracked ∧ ∀ n, (loadLoop entries loaded s).2.Idle n
  | [], _, s, h, hi => ⟨h, hi⟩
  | entry :: entries, loaded, s, h, hi => by
      simp only [loadLoop]
      split
      · cases entry.config with
        | none => exact loadLoop_idle h hi
        | some cfg =>
            obtain ⟨h', hi'⟩ := serviceRegister_idle cfg h hi
            exact loadLoop_idle h' hi'
      · exact loadLoop_idle h hi

theorem loadAndStartServices_tracked (dir : Dir) (h : s.Tracked) (hi : ∀ n, s.Idle n) :
    (loadAndStartServices dir env s).2.Tracked := by
  have hl : (serviceLoadAll dir s).2.Tracked ∧ ∀ n, (serviceLoadAll dir s).2.Idle n := by
    cases dir with
    | none => exact ⟨h, hi⟩
    | some entries => exact loadLoop_idle h hi
  simp only [loadAndStartServices]
  split
  · exact hl.1
  · have hr : (serviceLoadAll dir s).2.resolve.2.Tracked := hl.1.same rfl rfl
    split
    · exact hr
    · rename_i hneg
      exact startAllLoop_tracked
        (serviceResolveDeps_nodup (serviceResolveDeps_of_not_neg hneg)) (fun n _ => hl.2 n) hr

/-! ### Runs -/

/-- No start of the event meets a live process: a request does not make `service_start` fork for a
service that has one, and at a boot no enabled service that is not running has one. -/
def Event.StartsIdle (s : Sys) : Event → Prop
  | .request (some req) env => ∀ svc, req.service s.services = some svc →
    s.forks env svc.name svc = true → s.children.liveOf svc.name ≠ [] →
      req.cmd ≠ .restart ∧ (req.cmd = .start → svc.state = .running)
  | .boot _ _ => ∀ n, s.Idle n
  | _ => True

/-- `service_restart` is a start from another state than `SVC_STATE_RUNNING`. -/
theorem serviceRestart_start (env : Env) (hn : s.services.find n = some svc) :
    ∃ s₁ svc', serviceRestart env s n = serviceStart env s₁ n ∧ (s.Tracked → s₁.Tracked) ∧
      s₁.services.find n = some svc' ∧ svc'.state ≠ .running ∧
      s₁.forks env n svc' = s.forks env n svc ∧ s₁.children = s.children := by
  let s₀ := if 0 < svc.restartDelayMs then
    s.emit (.usleep (restartSleep svc.restartDelayMs)) else s
  have hs : s₀.services = s.services ∧ s₀.children = s.children := by
    simp only [s₀]
    split <;> exact ⟨rfl, rfl⟩
  refine ⟨_, svc.update ({ · with state := .restarting }), serviceRestart_eq hn, fun h => ?_, ?_,
    SvcState.noConfusion, ?_, hs.2⟩
  · have h₀ : (s₀.emit (.operatorStart n)).Tracked := h.same hs.1 hs.2
    exact h₀.upd fun _ => rfl
  · have h₀ : s₀.services.find n = some svc := hs.1 ▸ hn
    exact Registry.find_modify_self.trans (congrArg _ h₀)
  · have hr : s₀.ready n svc = s.ready n svc := by simp only [Sys.ready, hs.1]
    have hc : s₀.children.fork (env.fork n) n = s.children.fork (env.fork n) n := by rw [hs.2]
    simp only [Sys.forks, ← hr, ← hc]
    exact congrArg (· && _) (Sys.ready_upd (s₀.emit (.operatorStart n)) n svc _ _)

/-- A request starts a service, restarts one, or starts none. -/
theorem Step.request_cases {read : Option Request} (he : Step s (.request read env) s')
    (h : Sound s) :
    (∃ req svc, read = some req ∧ req.service s.services = some svc ∧ req.cmd = .start ∧
      s' = (serviceStart env (s.emit (.operatorStart svc.name)) svc.name).2) ∨
    (∃ req svc, read = some req ∧ req.service s.services = some svc ∧ req.cmd = .restart ∧
      s' = (serviceRestart env s svc.name).2) ∨
    ((∀ req svc, read = some req → req.service s.services = some svc →
        req.cmd ≠ .start ∧ req.cmd ≠ .restart) ∧
      Moves (fun l => ∀ n, l ≠ .start .operator n) s s') := by
  have hm := he.moves h
  cases he
  cases read with
  | none => exact .inr (.inr ⟨fun _ _ e => (nomatch e), .refl s⟩)
  | some req =>
      by_cases hc : req.cmd = .start ∨ req.cmd = .restart
      · cases hsvc : req.service s.services with
        | none =>
            refine .inr (.inr ⟨fun _ _ e hsome => ?_, ?_⟩)
            · cases e
              cases hsvc.symm.trans hsome
            · rcases hc with hc | hc
              · simp only [socketHandleRequest, hsvc, hc]
                exact .refl s
              · simp only [socketHandleRequest, hsvc, hc]
                exact .refl s
        | some svc =>
            rcases hc with hc | hc
            · exact .inl ⟨req, svc, rfl, hsvc, hc, by simp only [socketHandleRequest, hsvc, hc]⟩
            · exact .inr (.inl ⟨req, svc, rfl, hsvc, hc, by simp only [socketHandleRequest, hsvc, hc]⟩)
      · refine .inr (.inr ⟨fun _ _ e _ => ?_, hm.mono fun _ _ _ hl => ⟨fun n e => ?_, hl.2⟩⟩)
        · cases e
          exact not_or.mp hc
        · subst e
          exact hc hl.1.1

/-- A request keeps every service at one process exactly when it starts none that has a live one. -/
theorem Step.request_oneProcess {read : Option Request} (he : Step s (.request read env) s')
    (hs : Sound s) (h : s.Tracked) :
    (s'.OneProcess → (Event.request read env).StartsIdle s) ∧
      ((Event.request read env).StartsIdle s → s'.Tracked) := by
  rcases he.request_cases hs with ⟨req, svc, rfl, hf, hc, rfl⟩ | ⟨req, svc, rfl, hf, hc, rfl⟩ | hr
  · -- a start, which does nothing to a running service
    obtain ⟨hn, -⟩ := Request.service_eq_some hf
    refine ⟨fun ho svc' hf' hk hl => ?_, fun hi => ?_⟩
    · obtain rfl := Option.some.inj (hf.symm.trans hf')
      refine ⟨fun e => (nomatch hc.symm.trans e), fun _ => ?_⟩
      by_contra hr
      exact serviceStart_forks (s := s.emit _) hn hk hr hl ho
    · have h' : (s.emit (.operatorStart svc.name)).Tracked := h.same rfl rfl
      exact serviceStart_tracked h' hn fun hk hl => (hi svc hf hk hl).2 hc
  · -- a restart, which forks whatever the state
    obtain ⟨hn, -⟩ := Request.service_eq_some hf
    obtain ⟨s₁, svc₁, e, ht, hn₁, hr₁, hk₁, hch⟩ := serviceRestart_start env hn
    rw [e]
    refine ⟨fun ho svc' hf' hk hl => ?_, fun hi => ?_⟩
    · obtain rfl := Option.some.inj (hf.symm.trans hf')
      exact absurd ho (serviceStart_forks hn₁ (hk₁.trans hk) hr₁ (hch ▸ hl))
    · refine serviceStart_tracked (ht h) hn₁ fun hk hl => ?_
      exact absurd hc (hi svc hf (hk₁ ▸ hk) (hch ▸ hl)).1
  · refine ⟨fun _ => ?_, fun _ =>
      hr.2.invariant (fun _ _ _ hs hl hm h => hm.tracked hs hl h) hs h⟩
    cases read with
    | none => trivial
    | some req =>
        intro svc hf _ _
        have hn := hr.1 req svc rfl hf
        exact ⟨hn.2, fun hc => absurd hc hn.1⟩

theorem Step.tracked {e : Event} (he : Step s e s') (hs : Sound s) (hi : e.StartsIdle s)
    (h : s.Tracked) : s'.Tracked := by
  cases e with
  | boot dir env =>
      cases he
      exact loadAndStartServices_tracked dir h hi
  | request read env => exact (he.request_oneProcess hs h).2 hi
  | _ =>
      have hm := he.moves hs
      exact hm.invariant (fun _ _ _ hs hl hm h => hm.tracked hs (by rintro n rfl; exact hl) h) hs h

/-- **One process per service.**  In every run whose starts meet no live process, at most one of the
processes forked for a service is alive, and it is the recorded one.  A request after such a run
keeps this exactly when it, too, starts no service that has a live process. -/
theorem oneProcess_of_run {now : UInt64} {es : List Event}
    (h : Run (fun s e s' => e.StartsIdle s ∧ Step s e s') (Sys.init now) es s) :
    s.OneProcess ∧ ∀ read env s', Step s (.request read env) s' →
      (s'.OneProcess ↔ (Event.request read env).StartsIdle s) := by
  have hst : Sound s ∧ s.Tracked := by
    refine Run.invariant (I := fun s => Sound s ∧ s.Tracked) ?_ h
      ⟨sound_init now, fun n c hc => nomatch hc⟩
    exact fun s e s' hI he => ⟨he.2.sound hI.1, he.2.tracked hI.1 he.1 hI.2⟩
  refine ⟨hst.2.oneProcess, fun read env s' he => ?_⟩
  have hr := he.request_oneProcess hst.1 hst.2
  exact ⟨hr.1, fun hi => (hr.2 hi).oneProcess⟩

end

/-- An operator's request to restart `devd`, when `fork` would return 11. -/
def restartDevd : Event := .request (some ⟨.restart, devd.bytes⟩) (Env.plain 11 0)

theorem oneProcess_of_run_devd :
    (booted { name := devd }).OneProcess ∧ ¬ restartDevd.StartsIdle (booted { name := devd }) := by
  let boot : Event := .boot (devdDir { name := devd }) (Env.plain 10 0)
  have hi : boot.StartsIdle (Sys.init 0) := by
    intro n svc hn
    cases hn
  have h := oneProcess_of_run (s := booted { name := devd }) (.one (e := boot) ⟨hi, rfl⟩)
  exact ⟨h.1, fun hi => absurd ((h.2 _ _ _ rfl).mpr hi) (by decide)⟩

/-- A restart of the running `devd` leaves its process 10 alive beside the new one. -/
theorem restart_duplicates : ¬ ∀ s, Reached s → s.OneProcess := by
  intro h
  obtain ⟨now, hr⟩ := booted_reached { name := devd }
  exact absurd (h _ ⟨now, hr.step (e := restartDevd) rfl⟩) (by decide)

end LumiOS.Lumid
