import LumiOS.Lumid.Pids

/-!
# Lumid — Restarts

How often the supervisor starts a service by itself.  `restart_count` is raised when an exit is
reaped and compared with `restart_max_retries` there, but the automatic start that follows sets it
back to 0, as every `service_start` does.  So the limit never takes effect on a service that keeps
exiting: between two starts by an operator the automatic starts follow the exits one for one
(`Sys.Counted`), and a limit above 0 holds in a run exactly when the service does not exit more often
(`restarts_bounded_iff`).
-/

namespace LumiOS.Lumid

open Support

/-! ### Counting since the last start by an operator -/

/-- The actions of a trace, newest first, with `p`, since the last start of `n` on an operator's
behalf. -/
def countSince (n : Name) (p : Action → Bool) : List Action → Nat
  | [] => 0
  | a :: trace =>
    if a = .operatorStart n then 0 else (if p a then 1 else 0) + countSince n p trace

/-- The automatic starts of `n` since then. -/
def autoStarts (n : Name) (trace : List Action) : Nat := countSince n (· = .autoStart n) trace

def Action.isWantedExit (cfg : ServiceConfig) : Action → Bool
  | .reap n st => n = cfg.name && cfg.wantsRestart st
  | _ => false

/-- The exits since then after which the policy of the service wants it restarted. -/
def wantedExits (cfg : ServiceConfig) (trace : List Action) : Nat :=
  countSince cfg.name (Action.isWantedExit cfg) trace

section

variable {s s' : Sys} {n m : Name} {cfg : ServiceConfig} {svc : Service} {l : Label} {a : Action}
  {p : Action → Bool} {trace new : List Action} {st : WaitStatus} {env : Env}

theorem countSince_operatorStart : countSince n p (.operatorStart n :: trace) = 0 := if_pos rfl

theorem countSince_cons (h : a ≠ .operatorStart n) :
    countSince n p (a :: trace) = (if p a then 1 else 0) + countSince n p trace := if_neg h

theorem countSince_append (h : ∀ a ∈ new, a ≠ .operatorStart n ∧ p a = false) :
    countSince n p (new ++ trace) = countSince n p trace := by
  induction new with
  | nil => rfl
  | cons a new ih =>
      obtain ⟨hne, hp⟩ := h a List.mem_cons_self
      rw [List.cons_append, countSince_cons hne, hp,
        ih fun b hb => h b (List.mem_cons_of_mem a hb)]
      exact Nat.zero_add _

/-- A move that neither starts nor reaps `n` takes no action the counts look at. -/
theorem Label.Emits.uncounted (h : l.Emits a) (hl : ∀ o, l ≠ .start o n) (hl' : l ≠ .reap n) :
    a ≠ .operatorStart n ∧ a ≠ .autoStart n ∧ ∀ st, a ≠ .reap n st := by
  cases l with
  | silent =>
      refine ⟨?_, ?_, fun st => ?_⟩ <;> rintro rfl <;> exact h
  | start o m =>
      have hm : m ≠ n := fun e => hl o (e ▸ rfl)
      rcases h with rfl | ⟨pid, rfl⟩
      · cases o <;> simp [Origin.mark, hm]
      · simp
  | reap m =>
      have hm : m ≠ n := fun e => hl' (e ▸ rfl)
      obtain ⟨st, rfl⟩ := h
      simp [hm]
  | register _ => exact h.elim
  | halt _ => exact h.elim

theorem Move.counts_eq (hm : Move s l s') (hl : ∀ o, l ≠ .start o cfg.name)
    (hl' : l ≠ .reap cfg.name) :
    autoStarts cfg.name s'.trace = autoStarts cfg.name s.trace ∧
      wantedExits cfg s'.trace = wantedExits cfg s.trace := by
  obtain ⟨new, ht, he⟩ := hm.trace
  have hu := fun a ha => (he a ha).uncounted hl hl'
  rw [ht]
  refine ⟨countSince_append fun a ha => ⟨(hu a ha).1, by simpa using (hu a ha).2.1⟩,
    countSince_append fun a ha => ⟨(hu a ha).1, ?_⟩⟩
  obtain ⟨-, -, hr⟩ := hu a ha
  cases a with
  | reap m st =>
      have hm : m ≠ cfg.name := by
        rintro rfl
        exact hr st rfl
      simp [Action.isWantedExit, hm]
  | _ => rfl

/-! ### The counts and the state of a service -/

/-- Each automatic start answers a wanted exit, and a wanted exit is unanswered only while the service
has no process.  A service with no retries is never restarted. -/
structure Sys.Counted (cfg : ServiceConfig) (s : Sys) : Prop where
  le : autoStarts cfg.name s.trace ≤ wantedExits cfg s.trace
  ge : wantedExits cfg s.trace ≤ autoStarts cfg.name s.trace + 1
  restarting : ∀ svc, s.services.find cfg.name = some svc → svc.state = .restarting →
    autoStarts cfg.name s.trace < wantedExits cfg s.trace
  recorded : ∀ svc, s.services.find cfg.name = some svc → svc.pid ≠ -1 →
    wantedExits cfg s.trace ≤ autoStarts cfg.name s.trace
  never : cfg.restartMaxRetries ≤ 0 → autoStarts cfg.name s.trace = 0 ∧
    ∀ svc, s.services.find cfg.name = some svc → svc.state ≠ .restarting

theorem counted_init (now : UInt64) : (Sys.init now).Counted cfg where
  le := le_refl 0
  ge := Nat.zero_le 1
  restarting := fun _ h => nomatch h
  recorded := fun _ h => nomatch h
  never := fun _ => ⟨rfl, fun _ h => nomatch h⟩

/-- A move on other services, or one that stops this one. -/
theorem Sys.Counted.frame (h : s.Counted cfg) (hm : Move s l s')
    (hl : ∀ o, l ≠ .start o cfg.name) (hl' : l ≠ .reap cfg.name) : s'.Counted cfg := by
  obtain ⟨ha, hw⟩ := hm.counts_eq hl hl'
  refine ⟨by rw [ha, hw]; exact h.le, by rw [ha, hw]; exact h.ge, ?_, ?_, ?_⟩
  · intro svc' hn hr
    rcases hm.frame hl hl' hn with ⟨e, -⟩ | ⟨svc, hn, e, -⟩
    · cases e.symm.trans hr
    · rw [ha, hw]
      exact h.restarting svc hn (e ▸ hr)
  · intro svc' hn hp
    rcases hm.frame hl hl' hn with ⟨-, e⟩ | ⟨svc, hn, -, e⟩
    · exact absurd e hp
    · rw [ha, hw]
      exact h.recorded svc hn (e ▸ hp)
  · intro hmax
    refine ⟨ha.trans (h.never hmax).1, fun svc' hn hr => ?_⟩
    rcases hm.frame hl hl' hn with ⟨e, -⟩ | ⟨svc, hn, e, -⟩
    · cases e.symm.trans hr
    · exact (h.never hmax).2 svc hn (e ▸ hr)

/-- What an operator's start leaves: counts at 0 and no pending restart. -/
theorem counted_operatorStart (ha : autoStarts cfg.name s.trace = 0)
    (hw : wantedExits cfg s.trace = 0)
    (hr : ∀ svc, s.services.find cfg.name = some svc → svc.state ≠ .restarting) :
    s.Counted cfg where
  le := by rw [ha]; exact Nat.zero_le _
  ge := by rw [hw]; exact Nat.zero_le _
  restarting := fun svc hn e => absurd e (hr svc hn)
  recorded := fun _ _ _ => by rw [hw]; exact Nat.zero_le _
  never := fun _ => ⟨ha, hr⟩

/-- What an automatic start leaves: it answers the wanted exit that was pending. -/
theorem Sys.Counted.autoStart (h : s.Counted cfg) (hn : s.services.find cfg.name = some svc)
    (hr : svc.state = .restarting)
    (ha : autoStarts cfg.name s'.trace = autoStarts cfg.name s.trace + 1)
    (hw : wantedExits cfg s'.trace = wantedExits cfg s.trace)
    (hr' : ∀ svc, s'.services.find cfg.name = some svc → svc.state ≠ .restarting) :
    s'.Counted cfg where
  le := by rw [ha, hw]; exact h.restarting svc hn hr
  ge := by rw [ha, hw]; exact h.ge.trans (Nat.le_succ _)
  restarting := fun svc hn e => absurd e (hr' svc hn)
  recorded := fun _ _ _ => by rw [ha, hw]; exact h.ge
  never := fun hmax => absurd hr ((h.never hmax).2 svc hn)

/-- The exit of a recorded process. -/
theorem Sys.Counted.reap (h : s.Counted cfg) (hs : Sound s)
    (hn : s.services.find cfg.name = some svc) (hz : (svc.pid, st) ∈ s.children.zombies) :
    (((s.reaped svc.pid).emit (.reap cfg.name st)).upd cfg.name
      (reapRuntime cfg st s.clock)).Counted cfg := by
  have hp : svc.pid ≠ -1 :=
    fun e => Children.not_mayReport_neg_one (e ▸ Children.mayReport_of_zombie hz)
  have h0 : svc.restartCount = 0 := (hs.consistent _ svc hn).1 hp
  have hrec := h.recorded svc hn hp
  let s' := ((s.reaped svc.pid).emit (.reap cfg.name st)).upd cfg.name (reapRuntime cfg st s.clock)
  have ha : autoStarts cfg.name s'.trace = autoStarts cfg.name s.trace :=
    (countSince_cons Action.noConfusion).trans (Nat.zero_add _)
  have hw : wantedExits cfg s'.trace =
      (if cfg.wantsRestart st = true then 1 else 0) + wantedExits cfg s.trace := by
    simp [s', wantedExits, countSince_cons, Action.isWantedExit]
  have hn' : ∀ svc', s'.services.find cfg.name = some svc' →
      svc'.toServiceRuntime = reapRuntime cfg st s.clock svc.toServiceRuntime := by
    intro svc' hn'
    obtain ⟨svc₀, hn₀, -, e⟩ := Registry.find_modify_some hn'
    obtain rfl := Option.some.inj (hn.symm.trans hn₀)
    rw [e, if_pos rfl]
  have hle := h.le
  -- an exit leads to a restart only when it is wanted, and below the limit
  have hr : ∀ svc', s'.services.find cfg.name = some svc' → svc'.state = .restarting →
      cfg.wantsRestart st = true ∧ 0 < cfg.restartMaxRetries := by
    intro svc' hn'' e
    rw [hn' svc' hn''] at e
    rcases reapRuntime_state cfg st s.clock svc.toServiceRuntime with
      ⟨hwant, hlt, -⟩ | ⟨-, -, k⟩ | ⟨-, k⟩
    · exact ⟨hwant, h0 ▸ hlt⟩
    · cases k.symm.trans e
    · cases k.symm.trans e
  refine ⟨?_, ?_, fun svc' hn'' e => ?_, fun svc' hn'' hp' => ?_, fun hmax => ⟨?_, ?_⟩⟩
  · rw [ha, hw]
    omega
  · rw [ha, hw]
    split <;> omega
  · rw [ha, hw, if_pos (hr svc' hn'' e).1]
    omega
  · rw [hn' svc' hn'', reapRuntime_pid] at hp'
    exact absurd rfl hp'
  · exact ha.trans (h.never hmax).1
  · exact fun svc' hn'' e => absurd (hr svc' hn'' e).2 (not_lt.mpr hmax)

/-- **Every move keeps the counts and the state in step.** -/
theorem Move.counted (hm : Move s l s') (hs : Sound s)
    (hcfg : ∀ svc, s.services.find cfg.name = some svc → svc.toServiceConfig = cfg)
    (h : s.Counted cfg) : s'.Counted cfg := by
  have upd : ∀ {t : Sys} {f : ServiceRuntime → ServiceRuntime},
      (∀ rt, (f rt).state ≠ .restarting) → ∀ svc,
        (t.upd cfg.name f).services.find cfg.name = some svc → svc.state ≠ .restarting := by
    intro t f hf svc hn
    obtain ⟨svc₀, -, -, e⟩ := Registry.find_modify_some hn
    rw [e, if_pos rfl]
    exact hf _
  have forked : ∀ (pid : Int) (rt : ServiceRuntime) (svc : Service),
      (forkedRuntime svc.toServiceConfig pid s.clock rt).state ≠ .restarting := by
    intro pid rt svc
    simp only [forkedRuntime]
    split <;> exact SvcState.noConfusion
  -- the counts look at the starts and reaps of this service only
  by_cases hl : ∃ o, l = .start o cfg.name
  · obtain ⟨o, rfl⟩ := hl
    cases hm with
    | startNoop hn hr =>
        refine counted_operatorStart countSince_operatorStart countSince_operatorStart ?_
        intro svc' hn' e
        obtain rfl := Option.some.inj (hn.symm.trans hn')
        cases hr.symm.trans e
    | startFail _ hn ho =>
        cases o with
        | operator =>
            exact counted_operatorStart countSince_operatorStart countSince_operatorStart
              (upd fun _ => SvcState.noConfusion)
        | supervisor =>
            refine h.autoStart hn (ho rfl) ?_ ?_ (upd fun _ => SvcState.noConfusion)
            · simp [autoStarts, Origin.mark, countSince_cons, Nat.add_comm]
            · simp [wantedExits, Origin.mark, countSince_cons, Action.isWantedExit]
    | @startFork _ svc _ pid hn ho hf =>
        cases o with
        | operator =>
            refine counted_operatorStart ?_ ?_ (upd fun rt => forked pid rt svc)
            · simp [Sys.forked, autoStarts, Origin.mark, countSince_cons, countSince_operatorStart]
            · simp [Sys.forked, wantedExits, Origin.mark, countSince_cons, countSince_operatorStart,
                Action.isWantedExit]
        | supervisor =>
            refine h.autoStart hn (ho rfl) ?_ ?_ (upd fun rt => forked pid rt svc)
            · simp [Sys.forked, autoStarts, Origin.mark, countSince_cons, Nat.add_comm]
            · simp [Sys.forked, wantedExits, Origin.mark, countSince_cons, Action.isWantedExit]
  · by_cases hl' : l = .reap cfg.name
    · subst hl'
      cases hm with
      | reap hn hz =>
          rw [hcfg _ hn]
          exact h.reap hs hn hz
    · exact h.frame hm (fun o e => hl ⟨o, e⟩) hl'

/-! ### One `SIGCHLD` -/

/-- A report of another child leaves a service and its counts alone. -/
theorem reapOne_spares (env : Env) {r : Int × WaitStatus}
    (hr : ∀ svc, s.services.find cfg.name = some svc → r.1 ≠ svc.pid) :
    (reapOne env s r).services.find cfg.name = s.services.find cfg.name ∧
      wantedExits cfg (reapOne env s r).trace = wantedExits cfg s.trace := by
  simp only [reapOne, Sys.withChildren_services]
  cases hf : findByPid s.services r.1 with
  | none => exact ⟨rfl, rfl⟩
  | some found =>
      obtain ⟨hn, hp⟩ := findByPid_eq_some hf
      have hne : cfg.name ≠ found.name := fun e => hr found (e ▸ hn) hp.symm
      exact ⟨Registry.find_modify_ne hne, by
        simp [wantedExits, countSince_cons, Action.isWantedExit, Ne.symm hne]⟩

theorem sigchld_spares : ∀ {reports : List (Int × WaitStatus)} {s : Sys},
    (∀ svc, s.services.find cfg.name = some svc → ∀ r ∈ reports, r.1 ≠ svc.pid) →
      (supervisorHandleSigchld env reports s).services.find cfg.name =
          s.services.find cfg.name ∧
        wantedExits cfg (supervisorHandleSigchld env reports s).trace = wantedExits cfg s.trace
  | [], _, _ => ⟨rfl, rfl⟩
  | r :: reports, s, hr => by
      obtain ⟨hn, hw⟩ := reapOne_spares env fun svc h => hr svc h r List.mem_cons_self
      have hr' : ∀ svc, (reapOne env s r).services.find cfg.name = some svc →
          ∀ r' ∈ reports, r'.1 ≠ svc.pid :=
        fun svc h r' hr' => hr svc (hn ▸ h) r' (List.mem_cons_of_mem r hr')
      obtain ⟨hn', hw'⟩ := sigchld_spares hr'
      exact ⟨hn'.trans hn, hw'.trans hw⟩

/-- The report of its recorded child. -/
theorem reapOne_reaps (env : Env) (hs : Sound s) (hn : s.services.find cfg.name = some svc)
    (hcfg : svc.toServiceConfig = cfg) (hp : svc.pid ≠ -1) (st : WaitStatus) :
    ∃ svc' now, (reapOne env s (svc.pid, st)).services.find cfg.name = some svc' ∧
      svc'.toServiceRuntime = reapRuntime cfg st now svc.toServiceRuntime ∧
      wantedExits cfg (reapOne env s (svc.pid, st)).trace =
        (if cfg.wantsRestart st = true then 1 else 0) + wantedExits cfg s.trace := by
  simp only [reapOne, Sys.withChildren_services]
  cases hf : findByPid s.services svc.pid with
  | none => exact absurd rfl (findByPid_eq_none hf svc (Registry.find_eq_some.mp hn).1)
  | some found =>
      obtain ⟨hn', e⟩ := findByPid_eq_some hf
      have hname := hs.inj _ _ _ _ hn' hn e (e ▸ hp)
      rw [hname] at hn'
      obtain rfl := Option.some.inj (hn.symm.trans hn')
      simp only [hcfg]
      refine ⟨_, _, Registry.find_modify_self.trans (congrArg _ hn), rfl, ?_⟩
      simp [wantedExits, countSince_cons, Action.isWantedExit]

/-- A `SIGCHLD` with a report of the recorded child reaps the service once. -/
theorem sigchld_reaps (env : Env) : ∀ {reports : List (Int × WaitStatus)} {s : Sys},
    (reports.map (·.1)).Nodup → (∀ r ∈ reports, r ∈ s.children.zombies) → Sound s →
      s.services.find cfg.name = some svc → svc.toServiceConfig = cfg → (svc.pid, st) ∈ reports →
      ∃ svc' now, (supervisorHandleSigchld env reports s).services.find cfg.name = some svc' ∧
        svc'.toServiceRuntime = reapRuntime cfg st now svc.toServiceRuntime ∧
        wantedExits cfg (supervisorHandleSigchld env reports s).trace =
          (if cfg.wantsRestart st = true then 1 else 0) + wantedExits cfg s.trace
  | r :: reports, s, hd, hz, hs, hn, hcfg, hr => by
      obtain ⟨hd₁, hd₂⟩ := List.nodup_cons.mp hd
      have hpos : ∀ r' ∈ r :: reports, 0 < r'.1 := fun r' hr' =>
        (Children.mayReport_of_zombie (hz r' hr')).pos
      by_cases e : r.1 = svc.pid
      · -- the report at hand is the one, and no later one is
        have hst : (svc.pid, st) = r := by
          rcases List.mem_cons.mp hr with h | h
          · exact h
          · exact absurd (List.mem_map.mpr ⟨_, h, e.symm⟩) hd₁
        subst hst
        have hpos' : 0 < svc.pid := hpos _ hr
        have hp : svc.pid ≠ -1 := fun e => absurd (e ▸ hpos') (by decide)
        obtain ⟨svc', now, hn', hrt, hw⟩ := reapOne_reaps env hs hn hcfg hp st
        have hpid : svc'.pid = -1 := by rw [hrt, reapRuntime_pid]
        have hne : ∀ svc₁, (reapOne env s (svc.pid, st)).services.find cfg.name = some svc₁ →
            ∀ r' ∈ reports, r'.1 ≠ svc₁.pid := by
          intro svc₁ h₁ r' hr' k
          obtain rfl := Option.some.inj (hn'.symm.trans h₁)
          have h := hpos r' (List.mem_cons_of_mem _ hr')
          rw [k, hpid] at h
          exact absurd h (by decide)
        obtain ⟨hn'', hw'⟩ := sigchld_spares hne
        exact ⟨svc', now, hn''.trans hn', hrt, hw'.trans hw⟩
      · have htail : (svc.pid, st) ∈ reports := by
          rcases List.mem_cons.mp hr with h | h
          · exact absurd (congrArg Prod.fst h).symm e
          · exact h
        obtain ⟨hn₁, hw⟩ := reapOne_spares env fun svc₁ h₁ =>
          Option.some.inj (hn.symm.trans h₁) ▸ e
        have hn' := hn₁.trans hn
        have hz' : ∀ r' ∈ reports, r' ∈ (reapOne env s r).children.zombies := fun r' hr' =>
          mem_zombies_reapOne (hz r' (List.mem_cons_of_mem r hr'))
            fun e => hd₁ (List.mem_map.mpr ⟨r', hr', e⟩)
        have hs' : Sound (reapOne env s r) :=
          (reapOne_moves (P := fun _ => True) (hz r List.mem_cons_self) fun _ _ => trivial).sound hs
        obtain ⟨svc', now, h₁, h₂, h₃⟩ := sigchld_reaps env hd₂ hz' hs' hn' hcfg htail
        exact ⟨svc', now, h₁, h₂, by rw [← hw]; exact h₃⟩

/-! ### Runs -/

theorem Reached.counted (h : Reached s)
    (hcfg : ∀ svc, s.services.find cfg.name = some svc → svc.toServiceConfig = cfg) :
    s.Counted cfg := by
  refine h.invariant (I := fun s => (∀ svc, s.services.find cfg.name = some svc →
    svc.toServiceConfig = cfg) → s.Counted cfg) (fun _ _ => counted_init _) ?_ hcfg
  intro s l s' hs hm hI hcfg'
  have hcfg : ∀ svc, s.services.find cfg.name = some svc → svc.toServiceConfig = cfg := by
    intro svc hn
    obtain ⟨svc', hn', e⟩ := hm.config hn
    exact e ▸ hcfg' svc' hn'
  exact hm.counted hs hcfg (hI hcfg)

theorem run_det {s₁ s₂ : Sys} {es : List Event} (h₁ : Run Step s es s₁) (h₂ : Run Step s es s₂) :
    s₁ = s₂ :=
  Run.det (R := Step) (fun _ _ _ _ => Step.det) h₁ h₂

/-- A service keeps its configuration through a run. -/
theorem run_config {es : List Event} (h : Run Step s es s') (hs : Sound s)
    (hn : s.services.find n = some svc) :
    ∃ svc', s'.services.find n = some svc' ∧ svc'.toServiceConfig = svc.toServiceConfig := by
  let J : Sys → Prop := fun t =>
    ∃ svc', t.services.find n = some svc' ∧ svc'.toServiceConfig = svc.toServiceConfig
  have hJ : Sound s' ∧ J s' := by
    refine Run.invariant (I := fun t => Sound t ∧ J t) ?_ h ⟨hs, svc, hn, rfl⟩
    intro t e t' hI he
    refine ⟨he.sound hI.1, (he.moves hI.1).invariant (fun u l u' _ _ hm hu => ?_) hI.1 hI.2⟩
    obtain ⟨svc₁, hn₁, e₁⟩ := hu
    obtain ⟨svc₂, hn₂, e₂⟩ := hm.config hn₁
    exact ⟨svc₂, hn₂, e₂.trans e₁⟩
  exact hJ.2

theorem Move.wantedExits_le (hm : Move s l s') (hl : l ≠ .reap cfg.name) :
    wantedExits cfg s'.trace ≤ wantedExits cfg s.trace := by
  by_cases h : ∃ o, l = .start o cfg.name
  · obtain ⟨o, rfl⟩ := h
    cases hm with
    | startNoop _ _ => exact countSince_operatorStart.trans_le (Nat.zero_le _)
    | startFail _ _ _ =>
        cases o <;> simp [wantedExits, Origin.mark, countSince_cons, countSince_operatorStart,
          Action.isWantedExit]
    | startFork _ _ _ _ =>
        cases o <;> simp [wantedExits, Sys.forked, Origin.mark, countSince_cons,
          countSince_operatorStart, Action.isWantedExit]
  · exact (hm.counts_eq (fun o e => h ⟨o, e⟩) hl).2.le

/-- Only a wanted exit of the recorded child adds one to the count. -/
theorem Step.wantedExits_le {e : Event} (he : Step s e s') (hs : Sound s)
    (hcfg : ∀ svc, s.services.find cfg.name = some svc → svc.toServiceConfig = cfg) :
    wantedExits cfg s'.trace ≤ wantedExits cfg s.trace ∨
      ∃ reports env svc st, e = .sigchld reports env ∧ s.services.find cfg.name = some svc ∧
        (svc.pid, st) ∈ reports ∧ cfg.wantsRestart st = true ∧
        wantedExits cfg s'.trace = 1 + wantedExits cfg s.trace := by
  cases e with
  | sigchld reports env =>
      obtain ⟨hp, rfl⟩ := he.sigchld_inv
      have hd := (hp.map (·.1)).nodup_iff.mpr (Children.zombies_nodup _)
      by_cases hr : ∀ svc, s.services.find cfg.name = some svc → ∀ r ∈ reports, r.1 ≠ svc.pid
      · exact .inl (sigchld_spares hr).2.le
      · simp only [not_forall, not_not] at hr
        obtain ⟨svc, hn, ⟨pid, st⟩, hr, rfl⟩ := hr
        obtain ⟨-, -, -, -, hw⟩ :=
          sigchld_reaps env hd (fun r hr => hp.subset hr) hs hn (hcfg svc hn) hr
        by_cases hwant : cfg.wantsRestart st = true
        · rw [if_pos hwant] at hw
          exact .inr ⟨reports, env, svc, st, rfl, hn, hr, hwant, hw⟩
        · rw [if_neg hwant, Nat.zero_add] at hw
          exact .inl hw.le
  | _ =>
      refine .inl ((he.moves hs).invariant
        (I := fun t => wantedExits cfg t.trace ≤ wantedExits cfg s.trace) ?_ hs le_rfl)
      intro t l t' _ hl hm hI
      refine (hm.wantedExits_le ?_).trans hI
      rintro rfl
      exact hl

/-- A wanted exit leaves a service restarting below the limit, and failed above it. -/
theorem sigchld_state {reports : List (Int × WaitStatus)}
    (he : Step s (.sigchld reports env) s') (hs : Sound s)
    (hn : s.services.find cfg.name = some svc) (hcfg : svc.toServiceConfig = cfg)
    (hr : (svc.pid, st) ∈ reports) (hw : cfg.wantsRestart st = true) :
    wantedExits cfg s'.trace = 1 + wantedExits cfg s.trace ∧
      ∃ svc', s'.services.find cfg.name = some svc' ∧
        svc'.state = if 0 < cfg.restartMaxRetries then .restarting else .failed := by
  obtain ⟨hp, rfl⟩ := he.sigchld_inv
  have hd := (hp.map (·.1)).nodup_iff.mpr (Children.zombies_nodup _)
  have hp' : svc.pid ≠ -1 := fun e =>
    Children.not_mayReport_neg_one (e ▸ Children.mayReport_of_zombie (hp.subset hr))
  -- the start that recorded the child has set the counter back
  have h0 : svc.restartCount = 0 := (hs.consistent _ svc hn).1 hp'
  obtain ⟨svc', now, hn', hrt, hwe⟩ :=
    sigchld_reaps env hd (fun r hr => hp.subset hr) hs hn hcfg hr
  rw [if_pos hw] at hwe
  refine ⟨hwe, svc', hn', ?_⟩
  rw [hrt]
  rcases reapRuntime_state cfg st now svc.toServiceRuntime with ⟨-, hlt, e⟩ | ⟨-, hlt, e⟩ | ⟨hw', -⟩
  · rw [e, if_pos (h0 ▸ hlt)]
  · rw [e, if_neg (h0 ▸ hlt)]
  · cases hw.symm.trans hw'

/-- **The restart limit.**  In a run of lumid, the automatic starts of a service between two starts by
an operator stay within `restart_max_retries`, and a further wanted exit leaves it failed, exactly when
the limit is 0 or the run never reaps more wanted exits than the limit between two starts by an
operator. -/
theorem restarts_bounded_iff {now : UInt64} {es : List Event} (h : Run Step (Sys.init now) es s)
    (hn : s.services.find n = some svc) (hN : 0 ≤ svc.restartMaxRetries) :
    ((∀ s₁, Passes Step (Sys.init now) es s₁ →
        (autoStarts n s₁.trace : Int) ≤ svc.restartMaxRetries) ∧
      ∀ s₁ reports env s₂ svc₁ st, Takes Step (Sys.init now) es s₁ (.sigchld reports env) s₂ →
        s₁.services.find n = some svc₁ → (svc₁.pid, st) ∈ reports →
        svc.wantsRestart st = true → svc.restartMaxRetries ≤ autoStarts n s₁.trace →
        ∃ svc₂, s₂.services.find n = some svc₂ ∧ svc₂.state = .failed) ↔
    svc.restartMaxRetries = 0 ∨ ∀ s₁, Passes Step (Sys.init now) es s₁ →
      (wantedExits svc.toServiceConfig s₁.trace : Int) ≤ svc.restartMaxRetries := by
  obtain rfl := Registry.name_of_find hn
  have hreach : ∀ {s₁}, Passes Step (Sys.init now) es s₁ → Reached s₁ :=
    fun ⟨es₁, _, _, t⟩ => ⟨now, es₁, t⟩
  -- the configuration is the same in every state of the run that knows the service
  have hcfg : ∀ {s₁}, Passes Step (Sys.init now) es s₁ → ∀ svc₁,
      s₁.services.find svc.name = some svc₁ → svc₁.toServiceConfig = svc.toServiceConfig := by
    rintro s₁ ⟨es₁, es₂, rfl, t⟩ svc₁ hn₁
    obtain ⟨s₁', t', t₂⟩ := Run.append_iff.mp h
    obtain rfl := run_det t t'
    obtain ⟨svc', hn', e⟩ := run_config t₂ (hreach ⟨es₁, es₂, rfl, t⟩).sound hn₁
    obtain rfl := Option.some.inj (hn.symm.trans hn')
    exact e.symm
  have hcount : ∀ {s₁}, Passes Step (Sys.init now) es s₁ → s₁.Counted svc.toServiceConfig :=
    fun hp => (hreach hp).counted (hcfg hp)
  have hreap : ∀ {s₁ reports env s₂ svc₁ st},
      Takes Step (Sys.init now) es s₁ (.sigchld reports env) s₂ →
      s₁.services.find svc.name = some svc₁ → (svc₁.pid, st) ∈ reports →
      svc.wantsRestart st = true → _ := fun ht hn₁ hr hw =>
    sigchld_state ht.rel (hreach ht.source).sound hn₁ (hcfg ht.source _ hn₁) hr hw
  constructor
  · rintro ⟨-, hfail⟩
    by_contra hc
    simp only [not_or] at hc
    refine hc.2 fun s₁ hp => ?_
    refine hp.induction (P := fun s₁ => (wantedExits svc.toServiceConfig s₁.trace : Int) ≤ _) hN ?_
    intro s₁ e s₂ ht hI
    rcases ht.rel.wantedExits_le (hreach ht.source).sound (hcfg ht.source) with
      hle | ⟨reports, env, svc₁, st, rfl, hn₁, hr, hw, he⟩
    · omega
    · -- at the limit, the service would have to fail, but it is restarting
      by_contra hlt
      have hz := (ht.rel.sigchld_inv).1.subset hr
      have hp' : svc₁.pid ≠ -1 := fun e =>
        Children.not_mayReport_neg_one (e ▸ Children.mayReport_of_zombie hz)
      have hrec := (hcount ht.source).recorded svc₁ hn₁ hp'
      obtain ⟨svc₂, hn₂, hs₂⟩ := hfail s₁ reports env s₂ svc₁ st ht hn₁ hr hw (by omega)
      obtain ⟨-, svc₂', hn₂', hs₂'⟩ := hreap ht hn₁ hr hw
      obtain rfl := Option.some.inj (hn₂.symm.trans hn₂')
      rw [if_pos (lt_of_le_of_ne hN (Ne.symm hc.1))] at hs₂'
      cases hs₂.symm.trans hs₂'
  · rintro (h0 | hle)
    · refine ⟨fun s₁ hp => ?_, fun s₁ reports env s₂ svc₁ st ht hn₁ hr hw _ => ?_⟩
      · rw [h0, ((hcount hp).never h0.le).1]
        exact le_rfl
      · obtain ⟨-, svc₂, hn₂, hs₂⟩ := hreap ht hn₁ hr hw
        rw [if_neg h0.not_gt] at hs₂
        exact ⟨svc₂, hn₂, hs₂⟩
    · refine ⟨fun s₁ hp => ?_, fun s₁ reports env s₂ svc₁ st ht hn₁ hr hw hN' => ?_⟩
      · have := (hcount hp).le
        have := hle s₁ hp
        omega
      · -- the exit at hand would be one too many
        obtain ⟨he, -⟩ := hreap ht hn₁ hr hw
        have := (hcount ht.source).le
        have := hle s₂ ht.target
        omega

end

/-- `devd`, restarted always, at most `retries` times. -/
def retryingDevd (retries : Int) : ServiceConfig :=
  { name := devd, restartPolicy := .always, restartMaxRetries := retries }

/-- The boot, and the exit of the process it starts. -/
def crash (retries : Int) : List Event :=
  [.boot (devdDir (retryingDevd retries)) (Env.plain 10 0), .exit 10 (.exited 1),
    .sigchld [(10, .exited 1)] (Env.plain 11 0)]

/-- lumid when it has reaped that process. -/
def crashed (retries : Int) : Sys :=
  supervisorHandleSigchld (Env.plain 11 0) [(10, .exited 1)]
    ((booted (retryingDevd retries)).childExit 10 (.exited 1))

theorem restarts_bounded_iff_none :
    ∃ svc, (crashed 0).services.find devd = some svc ∧ svc.state = .failed := by
  have hrun : Run Step (Sys.init 0) (crash 0) (crashed 0) := run_of_exec rfl
  have ht : Takes Step (Sys.init 0) (crash 0) ((booted (retryingDevd 0)).childExit 10 (.exited 1))
      (.sigchld [(10, .exited 1)] (Env.plain 11 0)) (crashed 0) :=
    ⟨(crash 0).take 2, [], rfl, run_of_exec rfl, .sigchld (by decide)⟩
  have h := restarts_bounded_iff (n := devd) hrun rfl (by decide)
  exact (h.mpr (.inl rfl)).2 _ _ _ _ _ (.exited 1) ht rfl (by decide) rfl (by decide)

/-- Two rounds of an automatic start and an exit, ten seconds apart. -/
def crashLoop : List Event :=
  crash 1 ++
    [.tick 10000000000, .check (Env.plain 11 10000000000), .exit 11 (.exited 1),
      .sigchld [(11, .exited 1)] (Env.plain 12 10000000000),
      .tick 20000000000, .check (Env.plain 12 20000000000)]

/-- With a limit of one, `devd` is started automatically a second time. -/
theorem restarts_unbounded :
    ¬ ∀ now es s n svc, Run Step (Sys.init now) es s → s.services.find n = some svc →
      0 ≤ svc.restartMaxRetries → (autoStarts n s.trace : Int) ≤ svc.restartMaxRetries := by
  intro h
  have := h 0 crashLoop _ devd _ (run_of_exec rfl) rfl (by decide)
  exact absurd this (by decide)

end LumiOS.Lumid
