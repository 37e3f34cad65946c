import LumiOS.Lumid.Machine
import LumiOS.Lumid.Start

/-!
# Lumid — Moves

The life of lumid's services in small steps.  A `Move` changes one thing: a process terminates, a
service is started, stopped or reaped, a service is registered.  It says what it changes and under
which condition lumid takes it, and no more; the code's loops, its order of assignments and its
transient states are not in it.

`Sound` is the invariant of the pid fields: every recorded pid is that of an unreaped child, recorded
once, and goes with the state.  Every move keeps it (`Move.sound`).
-/

namespace LumiOS.Lumid

open Support

/-! ### Moves -/

/-- Who asked for a start. -/
inductive Origin where
  | operator
  | supervisor
deriving DecidableEq, Repr

def Origin.mark : Origin → Name → Action
  | .operator => .operatorStart
  | .supervisor => .autoStart

/-- The actions that move no service: all but the starts, the forks and the reaps, and but the two
that show `service_stop` to have waited for what is no child. -/
def Action.Harmless : Action → Prop
  | .operatorStart _ | .autoStart _ | .fork _ _ | .reap _ _ | .uninitStatus _ => False
  | .waitpid _ res => res ≠ .echild
  | _ => True

/-- What a move is about. -/
inductive Label where
  | silent
  | register (n : Name)
  | start (o : Origin) (n : Name)
  | halt (n : Name)
  | reap (n : Name)
deriving DecidableEq

/-- A stopped service, whose process terminated with status `st`. -/
def haltedRuntime (st : WaitStatus) (now : UInt64) (rt : ServiceRuntime) : ServiceRuntime :=
  { rt with
    state := .stopped
    exitCode := exitCodeAfterStop st (some st) rt.exitCode
    stopTime := now
    pid := -1 }

def Sys.reaped (s : Sys) (pid : Int) : Sys := s.withChildren (s.children.remove pid)

@[simp] theorem Sys.reaped_trace (s : Sys) (pid : Int) : (s.reaped pid).trace = s.trace := rfl

inductive Move : Sys → Label → Sys → Prop where
  | exit (s : Sys) (pid : Int) (st : WaitStatus) : Move s .silent (s.childExit pid st)
  | adopt (s : Sys) (pid : Int) : Move s .silent (s.withChildren (s.children.adopt pid))
  | clock (s : Sys) (t : UInt64) : Move s .silent (s.readClock t)
  | check (s : Sys) : Move s .silent { s with lastCheckTime := s.clock }
  | note (s : Sys) {a : Action} (h : a.Harmless) : Move s .silent (s.emit a)
  | resolve (s : Sys) : Move s .silent s.resolve.2
  | admin (s : Sys) (n : Name) (b : Bool) : Move s .silent (s.upd n ({ · with enabled := b }))
  | orphan (s : Sys) {pid : Int} (hp : ∀ svc ∈ s.services.list, svc.pid ≠ pid)
      {st : WaitStatus} (hz : (pid, st) ∈ s.children.zombies) : Move s .silent (s.reaped pid)
  | register (s : Sys) (cfg : ServiceConfig) (h : s.services.find (serviceCreate cfg).name = none) :
      Move s (.register cfg.name)
        { s with
          services := s.services.cons (serviceCreate cfg) h
          serviceCount := s.serviceCount + 1 }
  | startNoop (s : Sys) {n : Name} {svc : Service} (h : s.services.find n = some svc)
      (hr : svc.state = .running) : Move s (.start .operator n) (s.emit (.operatorStart n))
  | startFail (s : Sys) {n : Name} {svc : Service} (o : Origin)
      (h : s.services.find n = some svc) (ho : o = .supervisor → svc.state = .restarting) :
      Move s (.start o n) ((s.emit (o.mark n)).upd n ({ · with state := .failed }))
  | startFork (s : Sys) {n : Name} {svc : Service} (o : Origin) {pid : Int}
      (h : s.services.find n = some svc) (ho : o = .supervisor → svc.state = .restarting)
      (hf : s.children.Fresh pid) :
      Move s (.start o n) ((s.emit (o.mark n)).forked n svc.toServiceConfig pid hf)
  | halt (s : Sys) {n : Name} {svc : Service} {st : WaitStatus}
      (h : s.services.find n = some svc) (hs : svc.state = .running ∨ svc.state = .starting)
      (hz : (svc.pid, st) ∈ s.children.zombies) :
      Move s (.halt n) ((s.reaped svc.pid).upd n (haltedRuntime st s.clock))
  | reap (s : Sys) {n : Name} {svc : Service} {st : WaitStatus}
      (h : s.services.find n = some svc) (hz : (svc.pid, st) ∈ s.children.zombies) :
      Move s (.reap n)
        (((s.reaped svc.pid).emit (.reap n st)).upd n (reapRuntime svc.toServiceConfig st s.clock))

/-- `s'` is some moves after `s`, all with labels in `P`. -/
abbrev Moves (P : Label → Prop) (s s' : Sys) : Prop :=
  Reachable (fun s l s' => P l ∧ Move s l s') s s'

/-- The actions a move with a label may take. -/
def Label.Emits : Label → Action → Prop
  | .silent, a => a.Harmless
  | .start o n, a => a = o.mark n ∨ ∃ pid, a = .fork n pid
  | .reap n, a => ∃ st, a = .reap n st
  | .register _, _ | .halt _, _ => False

theorem Move.trace {s s' : Sys} {l : Label} (hm : Move s l s') :
    ∃ new, s'.trace = new ++ s.trace ∧ ∀ a ∈ new, l.Emits a := by
  cases hm with
  | @note a h => exact ⟨[a], rfl, fun b hb => List.mem_singleton.mp hb ▸ h⟩
  | @startNoop n _ _ _ => exact ⟨[.operatorStart n], rfl, by simp [Label.Emits, Origin.mark]⟩
  | @startFail n _ o _ _ => exact ⟨[o.mark n], rfl, by simp [Label.Emits]⟩
  | @startFork n _ o pid _ _ _ => exact ⟨[.fork n pid, o.mark n], rfl, by simp [Label.Emits]⟩
  | @reap n _ st _ _ => exact ⟨[.reap n st], rfl, by simp [Label.Emits]⟩
  | _ => exact ⟨[], rfl, by simp⟩

/-- A registered service stays registered, with its configuration. -/
theorem Move.config {s s' : Sys} {l : Label} {n : Name} {svc : Service} (hm : Move s l s')
    (hn : s.services.find n = some svc) :
    ∃ svc', s'.services.find n = some svc' ∧ svc'.toServiceConfig = svc.toServiceConfig := by
  cases hm with
  | admin _ _ => exact Registry.find_modify_config hn
  | register cfg h => exact ⟨svc, Registry.find_cons_some h hn, rfl⟩
  | startFail _ _ _ => exact Registry.find_modify_config hn
  | startFork _ _ _ _ => exact Registry.find_modify_config hn
  | halt _ _ _ => exact Registry.find_modify_config hn
  | reap _ _ => exact Registry.find_modify_config hn
  | _ => exact ⟨svc, hn, rfl⟩

/-- A move that neither starts nor reaps a service keeps its state and its pid, or leaves it stopped
without one. -/
theorem Move.frame {s s' : Sys} {l : Label} {n : Name} {svc' : Service} (hm : Move s l s')
    (hl : ∀ o, l ≠ .start o n) (hl' : l ≠ .reap n) (hn : s'.services.find n = some svc') :
    (svc'.state = .stopped ∧ svc'.pid = -1) ∨
      ∃ svc, s.services.find n = some svc ∧ svc'.state = svc.state ∧ svc'.pid = svc.pid := by
  -- a change of another service
  have other : ∀ {t : Sys} {m : Name} {f : ServiceRuntime → ServiceRuntime}, n ≠ m →
      t.services = s.services → (t.upd m f).services.find n = some svc' →
      ∃ svc, s.services.find n = some svc ∧ svc'.state = svc.state ∧ svc'.pid = svc.pid := by
    intro t m f hne ht h
    rw [Sys.upd_services, Registry.find_modify_ne hne, ht] at h
    exact ⟨svc', h, rfl, rfl⟩
  cases hm with
  | admin m b =>
      obtain ⟨svc, h, -, he⟩ := Registry.find_modify_some hn
      refine .inr ⟨svc, h, ?_, ?_⟩ <;> rw [he] <;> split <;> rfl
  | register cfg h =>
      rw [Registry.find_cons] at hn
      split at hn
      · cases hn
        exact .inl ⟨rfl, rfl⟩
      · exact .inr ⟨svc', hn, rfl, rfl⟩
  | startFail o _ _ =>
      refine .inr (other (fun e => hl o ?_) rfl hn)
      rw [e]
  | startFork o _ _ _ =>
      refine .inr (other (fun e => hl o ?_) rfl hn)
      rw [e]
  | @halt m svc st h _ _ =>
      by_cases e : n = m
      · subst e
        obtain ⟨svc, -, -, he⟩ := Registry.find_modify_some hn
        rw [if_pos rfl] at he
        exact .inl ⟨by rw [he]; rfl, by rw [he]; rfl⟩
      · exact .inr (other e rfl hn)
  | reap _ _ =>
      refine .inr (other (fun e => hl' ?_) rfl hn)
      rw [e]
  | _ => exact .inr ⟨svc', hn, rfl, rfl⟩

/-! ### The invariant of the pid fields -/

/-- How `state`, `pid` and `restart_count` go together between operations. -/
def ServiceRuntime.Consistent (rt : ServiceRuntime) : Prop :=
  (rt.pid ≠ -1 → rt.restartCount = 0) ∧
  match rt.state with
  | .running | .starting => rt.pid ≠ -1
  | .stopped | .restarting => rt.pid = -1
  | .failed => True
  | .stopping => False

/-- Every recorded pid is that of an unreaped child, recorded once, and goes with the state. -/
structure Sound (s : Sys) : Prop where
  child : ∀ n svc, s.services.find n = some svc → svc.pid ≠ -1 →
    ∃ c ∈ s.children.list, c.pid = svc.pid
  inj : ∀ n m svc svc', s.services.find n = some svc → s.services.find m = some svc' →
    svc.pid = svc'.pid → svc.pid ≠ -1 → n = m
  consistent : ∀ n svc, s.services.find n = some svc → svc.toServiceRuntime.Consistent

theorem sound_init (now : UInt64) : Sound (Sys.init now) where
  child := by intro n svc h; simp [Sys.init, Registry.empty, Registry.find] at h
  inj := by intro n m svc svc' h; simp [Sys.init, Registry.empty, Registry.find] at h
  consistent := by intro n svc h; simp [Sys.init, Registry.empty, Registry.find] at h

section

variable {s s' : Sys} {n m : Name} {svc svc' : Service} {pid : Int}

theorem Sound.pid_ne (h : Sound s) (hn : s.services.find n = some svc)
    (hs : svc.state = .running ∨ svc.state = .starting) : svc.pid ≠ -1 := by
  have hc := (h.consistent n svc hn).2
  rcases hs with hs | hs
  · rw [hs] at hc
    exact hc
  · rw [hs] at hc
    exact hc

/-- A state with the same registry, and with the children of the recorded pids still there. -/
theorem Sound.of_children (h : Sound s) (hs : s'.services = s.services)
    (hc : ∀ c ∈ s.children.list, (∃ svc ∈ s.services.list, svc.pid = c.pid) →
      ∃ c' ∈ s'.children.list, c'.pid = c.pid) : Sound s' where
  child := by
    intro n svc hn hp
    rw [hs] at hn
    obtain ⟨c, hcm, hcp⟩ := h.child n svc hn hp
    obtain ⟨c', hc', e⟩ := hc c hcm ⟨svc, (Registry.find_eq_some.mp hn).1, hcp.symm⟩
    exact ⟨c', hc', e.trans hcp⟩
  inj := by rw [hs]; exact h.inj
  consistent := by rw [hs]; exact h.consistent

/-- A change of one service that leaves its pid alone. -/
theorem Sound.upd (h : Sound s) {f : ServiceRuntime → ServiceRuntime}
    (hp : ∀ rt, (f rt).pid = rt.pid) (hc : ∀ rt, rt.Consistent → (f rt).Consistent) :
    Sound (s.upd n f) where
  child := by
    intro m svc hm hpid
    obtain ⟨svc', hm', -, he⟩ := Registry.find_modify_some hm
    have e : svc.pid = svc'.pid := by rw [he]; split <;> simp [hp]
    rw [e] at hpid ⊢
    exact h.child m svc' hm' hpid
  inj := by
    intro m₁ m₂ svc₁ svc₂ h₁ h₂ e hpid
    obtain ⟨svc₁', h₁', -, he₁⟩ := Registry.find_modify_some h₁
    obtain ⟨svc₂', h₂', -, he₂⟩ := Registry.find_modify_some h₂
    have e₁ : svc₁.pid = svc₁'.pid := by rw [he₁]; split <;> simp [hp]
    have e₂ : svc₂.pid = svc₂'.pid := by rw [he₂]; split <;> simp [hp]
    exact h.inj m₁ m₂ svc₁' svc₂' h₁' h₂' (e₁ ▸ e₂ ▸ e) (e₁ ▸ hpid)
  consistent := by
    intro m svc hm
    obtain ⟨svc', hm', -, he⟩ := Registry.find_modify_some hm
    rw [he]
    split
    · exact hc _ (h.consistent m svc' hm')
    · exact h.consistent m svc' hm'

/-- A change of one service that clears its pid, whose child may go with it. -/
theorem Sound.clear (h : Sound s) (hn : s.services.find n = some svc)
    {f : ServiceRuntime → ServiceRuntime} (hp : ∀ rt, (f rt).pid = -1)
    (hc : ∀ rt, (f rt).Consistent) : Sound ((s.reaped svc.pid).upd n f) where
  child := by
    intro m svc' hm hpid
    obtain ⟨svc'', hm', -, he⟩ := Registry.find_modify_some hm
    by_cases e : m = n
    · rw [if_pos e] at he
      exact absurd (by rw [he, hp]) hpid
    · rw [if_neg e] at he
      rw [he] at hpid ⊢
      obtain ⟨c, hcm, hcp⟩ := h.child m svc'' hm' hpid
      refine ⟨c, Children.mem_remove.mpr ⟨hcm, fun k => e ?_⟩, hcp⟩
      exact h.inj m n svc'' svc hm' hn (hcp ▸ k) hpid
  inj := by
    intro m₁ m₂ svc₁ svc₂ h₁ h₂ e hpid
    obtain ⟨svc₁', h₁', -, he₁⟩ := Registry.find_modify_some h₁
    obtain ⟨svc₂', h₂', -, he₂⟩ := Registry.find_modify_some h₂
    by_cases k₁ : m₁ = n
    · rw [if_pos k₁] at he₁
      exact absurd (by rw [he₁, hp]) hpid
    by_cases k₂ : m₂ = n
    · rw [if_pos k₂] at he₂
      exact absurd (by rw [e, he₂, hp]) hpid
    rw [if_neg k₁] at he₁
    rw [if_neg k₂] at he₂
    rw [he₁] at e hpid
    rw [he₂] at e
    exact h.inj m₁ m₂ svc₁' svc₂' h₁' h₂' e hpid
  consistent := by
    intro m svc' hm
    obtain ⟨svc'', hm', -, he⟩ := Registry.find_modify_some hm
    rw [he]
    split
    · exact hc _
    · exact h.consistent m svc'' hm'

/-- A service whose process is a new child. -/
theorem Sound.forked (h : Sound s) (cfg : ServiceConfig) (hf : s.children.Fresh pid) :
    Sound (s.forked n cfg pid hf) where
  child := by
    intro m svc hm hpid
    obtain ⟨svc', hm', -, he⟩ := Registry.find_modify_some hm
    by_cases e : m = n
    · rw [if_pos e] at he
      exact ⟨_, (Children.mem_insert (h := hf)).mpr (.inl rfl), by rw [he]; rfl⟩
    · rw [if_neg e] at he
      rw [he] at hpid ⊢
      obtain ⟨c, hcm, hcp⟩ := h.child m svc' hm' hpid
      exact ⟨c, (Children.mem_insert (h := hf)).mpr (.inr hcm), hcp⟩
  inj := by
    intro m₁ m₂ svc₁ svc₂ h₁ h₂ e hpid
    obtain ⟨svc₁', h₁', -, he₁⟩ := Registry.find_modify_some h₁
    obtain ⟨svc₂', h₂', -, he₂⟩ := Registry.find_modify_some h₂
    have other : ∀ {m svc'}, s.services.find m = some svc' → svc'.pid ≠ -1 → svc'.pid ≠ pid := by
      intro m svc' hm hp k
      obtain ⟨c, hcm, hcp⟩ := h.child m svc' hm hp
      exact hf.ne hcm (hcp.trans k)
    by_cases k₁ : m₁ = n <;> by_cases k₂ : m₂ = n
    · exact k₁.trans k₂.symm
    · rw [if_pos k₁] at he₁
      rw [if_neg k₂] at he₂
      have e₁ : svc₁.pid = pid := by rw [he₁]; rfl
      rw [he₂] at e
      exact absurd (e.symm.trans e₁) (other h₂' (e ▸ hpid))
    · rw [if_neg k₁] at he₁
      rw [if_pos k₂] at he₂
      have e₂ : svc₂.pid = pid := by rw [he₂]; rfl
      rw [he₁] at e hpid
      exact absurd (e.trans e₂) (other h₁' hpid)
    · rw [if_neg k₁] at he₁
      rw [if_neg k₂] at he₂
      rw [he₁] at e hpid
      rw [he₂] at e
      exact h.inj m₁ m₂ svc₁' svc₂' h₁' h₂' e hpid
  consistent := by
    intro m svc hm
    obtain ⟨svc', hm', -, he⟩ := Registry.find_modify_some hm
    rw [he]
    split
    · have := (hf.1 : 0 < pid)
      refine ⟨fun _ => rfl, ?_⟩
      by_cases k : cfg.type = .simple <;> simp only [forkedRuntime, k, if_true, if_false] <;> omega
    · exact h.consistent m svc' hm'

theorem Sound.register (h : Sound s) (cfg : ServiceConfig)
    (hn : s.services.find (serviceCreate cfg).name = none) :
    Sound { s with
      services := s.services.cons (serviceCreate cfg) hn
      serviceCount := s.serviceCount + 1 } := by
  -- the new service records no pid, and every other is an old one
  have old : ∀ {m svc}, (s.services.cons (serviceCreate cfg) hn).find m = some svc →
      svc = serviceCreate cfg ∨ s.services.find m = some svc := by
    intro m svc hm
    rw [Registry.find_cons] at hm
    split at hm
    · exact .inl (Option.some.inj hm).symm
    · exact .inr hm
  refine ⟨fun m svc hm hpid => ?_, fun m₁ m₂ svc₁ svc₂ h₁ h₂ e hpid => ?_, fun m svc hm => ?_⟩
  · rcases old hm with rfl | hm
    · exact absurd rfl hpid
    · exact h.child m svc hm hpid
  · rcases old h₁ with rfl | h₁
    · exact absurd rfl hpid
    · rcases old h₂ with rfl | h₂
      · exact absurd e hpid
      · exact h.inj m₁ m₂ svc₁ svc₂ h₁ h₂ e hpid
  · rcases old hm with rfl | hm
    · exact ⟨fun k => absurd rfl k, rfl⟩
    · exact h.consistent m svc hm

theorem reapRuntime_pid (cfg : ServiceConfig) (st : WaitStatus) (now : UInt64)
    (rt : ServiceRuntime) : (reapRuntime cfg st now rt).pid = -1 := by
  simp only [reapRuntime]
  split
  · rfl
  · split <;> rfl

/-- Where an exit leaves a service. -/
theorem reapRuntime_state (cfg : ServiceConfig) (st : WaitStatus) (now : UInt64)
    (rt : ServiceRuntime) :
    (cfg.wantsRestart st = true ∧ rt.restartCount < cfg.restartMaxRetries ∧
      (reapRuntime cfg st now rt).state = .restarting) ∨
    (cfg.wantsRestart st = true ∧ ¬ rt.restartCount < cfg.restartMaxRetries ∧
      (reapRuntime cfg st now rt).state = .failed) ∨
    (cfg.wantsRestart st = false ∧ (reapRuntime cfg st now rt).state = .stopped) := by
  by_cases hw : cfg.wantsRestart st = true <;>
    by_cases hc : rt.restartCount < cfg.restartMaxRetries <;> simp [reapRuntime, hw, hc]

theorem reapRuntime_consistent (cfg : ServiceConfig) (st : WaitStatus) (now : UInt64)
    (rt : ServiceRuntime) : (reapRuntime cfg st now rt).Consistent := by
  have hp := reapRuntime_pid cfg st now rt
  refine ⟨fun h => absurd hp h, ?_⟩
  rcases reapRuntime_state cfg st now rt with ⟨-, -, h⟩ | ⟨-, -, h⟩ | ⟨-, h⟩ <;> simp [h, hp]

/-- **Every move keeps the pid fields sound.** -/
theorem Move.sound {l : Label} (hm : Move s l s') (h : Sound s) : Sound s' := by
  have same : ∀ {s' : Sys}, s'.services = s.services → s'.children = s.children → Sound s' := by
    intro s' hs hc
    exact h.of_children hs fun c hcm _ => ⟨c, hc ▸ hcm, rfl⟩
  cases hm with
  | exit pid st =>
      refine h.of_children rfl fun c hc _ => ?_
      obtain ⟨c', hc', e, -⟩ := Children.exit_mem hc
      exact ⟨c', hc', e⟩
  | adopt pid =>
      refine h.of_children rfl fun c hc _ => ⟨c, ?_, rfl⟩
      simp only [Sys.withChildren_children, Children.adopt]
      split
      · rename_i hf
        exact (Children.mem_insert (h := hf)).mpr (.inr hc)
      · exact hc
  | clock t => exact same rfl rfl
  | check => exact same rfl rfl
  | note _ => exact same rfl rfl
  | resolve => exact same rfl rfl
  | admin n b => exact h.upd (fun _ => rfl) fun _ hc => hc
  | orphan hp _ =>
      refine h.of_children rfl fun c hc hrec => ⟨c, ?_, rfl⟩
      obtain ⟨svc, hs, e⟩ := hrec
      exact Children.mem_remove.mpr ⟨hc, e ▸ hp svc hs⟩
  | register cfg hn => exact h.register cfg hn
  | startNoop _ _ => exact same rfl rfl
  | @startFail n svc o _ _ =>
      have h' : Sound (s.emit (o.mark n)) := same rfl rfl
      exact h'.upd (fun _ => rfl) fun _ hc => ⟨hc.1, trivial⟩
  | @startFork n svc o pid _ _ hf =>
      have h' : Sound (s.emit (o.mark n)) := same rfl rfl
      exact h'.forked _ hf
  | halt hn _ _ =>
      exact h.clear hn (fun _ => rfl) fun _ => ⟨fun k => absurd rfl k, rfl⟩
  | @reap n svc st hn _ =>
      have h' : Sound (s.emit (.reap n st)) := same rfl rfl
      exact h'.clear hn (reapRuntime_pid _ _ _) (reapRuntime_consistent _ _ _)

theorem Moves.sound {P : Label → Prop} (hm : Moves P s s') (h : Sound s) : Sound s' :=
  hm.invariant (fun _ _ _ h hm => hm.2.sound h) h

/-- What every move from a sound state keeps, moves keep. -/
theorem Moves.invariant {P : Label → Prop} {I : Sys → Prop}
    (hI : ∀ s l s', Sound s → P l → Move s l s' → I s → I s') (hm : Moves P s s') (hs : Sound s)
    (h : I s) : I s' := by
  have hm' : Sound s' ∧ I s' :=
    Reachable.invariant (I := fun s => Sound s ∧ I s)
      (fun s l s' h hm => ⟨hm.2.sound h.1, hI s l s' h.1 hm.1 hm.2 h.2⟩) hm ⟨hs, h⟩
  exact hm'.2

end

end LumiOS.Lumid
