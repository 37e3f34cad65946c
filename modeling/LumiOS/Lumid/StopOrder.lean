import LumiOS.Lumid.CheckOrder
import LumiOS.Lumid.StopAll

/-!
# Lumid — StopOrder

The order of a shutdown.  `service_stop_all` walks the start order backwards, and `service_stop` returns
only when it has collected the process it signals.  So a process is signalled only after every process
of a service that names its service in `after` or `requires` has terminated and been reaped
(`stopAll_order`): nothing loses what it depends on while it runs.  That is so among the first 128
services of the list, which are those the order has; what is behind them it does not stop.
-/

namespace LumiOS.Lumid

open Support

section

variable {s s' : Sys} {n : Name} {svc dep : Service} {env : Env} {pid : Int} {st : WaitStatus}

/-! ### What one stop does -/

/-- What a stop does between its pause and the collected status: nothing, or a `SIGKILL`. -/
def Overdue (pid : Int) (mid : List Action) : Prop :=
  mid = [] ∨ mid = [.kill pid sigKill, .waitpid pid .alive]

theorem collect_trace (h : collect env s n pid = (some st, s')) :
    ∃ mid, Overdue pid mid ∧ s'.trace = .waitpid pid (.reaped st) :: (mid ++ s.trace) := by
  have hw : ∀ (t : Sys) {res t'}, t.waitpid pid = (res, t') →
      t'.trace = .waitpid pid res :: t.trace := by
    rintro t res t' e
    cases e
    rfl
  simp only [collect] at h
  rcases e : s.waitpid pid with ⟨_ | _ | st₁, s₁⟩
  · rw [e] at h
    cases h
  · rw [e] at h
    simp only at h
    rcases e₂ : ((s₁.emit (.kill pid sigKill)).childExit pid (env.killed n)).waitpid pid with
      ⟨_ | _ | st₂, s₂⟩
    · rw [e₂] at h
      cases h
    · rw [e₂] at h
      cases h
    · rw [e₂] at h
      cases h
      refine ⟨_, .inr rfl, ?_⟩
      rw [hw _ e₂]
      exact congrArg _ (congrArg _ (hw _ e))
  · rw [e] at h
    cases h
    exact ⟨[], .inl rfl, hw _ e⟩

theorem terminate_trace (env : Env) (s : Sys) (n : Name) (hp : 0 < pid) :
    (terminate env s n pid).trace = .usleep 500000 :: .kill pid sigTerm :: s.trace := by
  simp only [terminate, if_pos hp]
  cases env.grace n <;> rfl

/-- **A stop of a service that is up** signals its process, and returns when it has collected it. -/
theorem serviceStop_trace (env : Env) (hs : Sound s) (hn : s.services.find n = some svc)
    (hup : svc.Up) :
    ∃ st mid, Overdue svc.pid mid ∧ (serviceStop env s n).2.trace =
      .cgroupRemove n :: .waitpid svc.pid (.reaped st) ::
        (mid ++ .usleep 500000 :: .kill svc.pid sigTerm :: s.trace) := by
  have hm : Moves (fun _ => True) s (terminate env s n svc.pid) := terminate_moves trivial s
  -- its recorded pid is that of a child, before and after the `SIGTERM`
  obtain ⟨c, hc, hcp⟩ := (hm.sound hs).child n svc (by simpa using hn) (hs.pid_ne hn hup)
  have hp : 0 < svc.pid := hcp ▸ Children.pos _ c hc
  obtain ⟨st, s₁, -, -, -, hcol⟩ := collect_moves (P := fun _ => True) env n trivial hc
  rw [hcp] at hcol
  obtain ⟨mid, hmid, ht⟩ := collect_trace hcol
  refine ⟨st, mid, hmid, ?_⟩
  rw [serviceStop_live hn hup hp hcol]
  refine congrArg _ (ht.trans ?_)
  rw [terminate_trace env s n hp]

/-! ### Stops in turn -/

theorem stopEach_append (env : Env) : ∀ (ns ms : List Name) (s : Sys),
    stopEach env (ns ++ ms) s = stopEach env ms (stopEach env ns s)
  | [], _, _ => rfl
  | _ :: ns, ms, _ => stopEach_append env ns ms _

/-- The state after the stops in turn of `ns` from `s`: what was done, and to whom. -/
structure Stopped (s : Sys) (ns : List Name) (new : List Action) : Prop where
  /-- A signal goes to the process of a service in the list. -/
  kills : ∀ pid sig, .kill pid sig ∈ new →
    ∃ n ∈ ns, ∃ svc, s.services.find n = some svc ∧ svc.Up ∧ svc.pid = pid
  /-- The process of each service in the list that is up has been collected. -/
  reaps : ∀ n ∈ ns, ∀ svc, s.services.find n = some svc → svc.Up →
    ∃ st, .waitpid svc.pid (.reaped st) ∈ new

/-- One stop. -/
theorem serviceStop_stopped (env : Env) (hs : Sound s) (n : Name) :
    ∃ new, (serviceStop env s n).2.trace = new ++ s.trace ∧ Stopped s [n] new := by
  have hdown : (∀ svc, s.services.find n = some svc → ¬ svc.Up) → Stopped s [n] [] := by
    refine fun h => ⟨fun _ _ hm => absurd hm List.not_mem_nil, fun m hm svc hn hup => ?_⟩
    obtain rfl := List.mem_singleton.mp hm
    exact absurd hup (h svc hn)
  cases hn : s.services.find n with
  | none =>
      refine ⟨[], ?_, hdown fun svc h => nomatch hn.symm.trans h⟩
      simp only [serviceStop, hn]
      rfl
  | some svc =>
      by_cases hup : svc.Up
      · obtain ⟨st, mid, hmid, ht⟩ := serviceStop_trace env hs hn hup
        refine ⟨.cgroupRemove n :: .waitpid svc.pid (.reaped st) ::
          (mid ++ [.usleep 500000, .kill svc.pid sigTerm]), by simp [ht], ?_, ?_⟩
        · intro pid sig hk
          refine ⟨n, List.mem_singleton_self n, svc, hn, hup, ?_⟩
          have hk' : .kill pid sig ∈ mid ∨ pid = svc.pid ∧ sig = sigTerm := by simpa using hk
          rcases hk' with hk | ⟨e, -⟩
          · rcases hmid with rfl | rfl
            · cases hk
            · have h : pid = svc.pid ∧ sig = sigKill := by simpa using hk
              exact h.1.symm
          · exact e.symm
        · intro m hm svc' hn' _
          obtain rfl := List.mem_singleton.mp hm
          obtain rfl := Option.some.inj (hn.symm.trans hn')
          exact ⟨st, by simp⟩
      · refine ⟨[], ?_, hdown fun svc' h => ?_⟩
        · rw [serviceStop_of_not_live hn (not_or.mp hup)]
          rfl
        · rwa [Option.some.inj (h.symm.trans hn)]

/-- **Stops in turn.** -/
theorem stopEach_stopped (env : Env) : ∀ (ns : List Name) {s : Sys}, Sound s →
    ∃ new, (stopEach env ns s).trace = new ++ s.trace ∧ Stopped s ns new
  | [], s, _ => ⟨[], rfl, fun _ _ hm => absurd hm List.not_mem_nil,
      fun _ hm => absurd hm List.not_mem_nil⟩
  | m :: ns, s, hs => by
      have hs' : Sound (serviceStop env s m).2 :=
        (stopEach_moves (P := fun _ => True) (fun _ _ => trivial) [m] hs).sound hs
      obtain ⟨new₁, ht₁, h₁⟩ := serviceStop_stopped env hs m
      obtain ⟨new₂, ht₂, h₂⟩ := stopEach_stopped env ns hs'
      -- a service that is up after the first stop was left alone by it
      have back : ∀ {n svc}, (serviceStop env s m).2.services.find n = some svc → svc.Up →
          s.services.find n = some svc := by
        intro n svc hn hup
        by_cases e : n = m
        · subst e
          cases hn₀ : s.services.find n with
          | none =>
              have e : serviceStop env s n = (-1, s) := by simp only [serviceStop, hn₀]
              rw [e, hn₀] at hn
              cases hn
          | some svc₀ =>
              obtain ⟨svc', hn', hdown⟩ := serviceStop_down env hs hn₀
              obtain rfl := Option.some.inj (hn.symm.trans hn')
              exact absurd hup hdown
        · rwa [serviceStop_find_ne env hs e] at hn
      refine ⟨new₂ ++ new₁, by rw [stopEach, ht₂, ht₁, List.append_assoc], ?_, ?_⟩
      · intro pid sig hk
        rcases List.mem_append.mp hk with hk | hk
        · obtain ⟨n, hn, svc, hsvc, hup, hp⟩ := h₂.kills pid sig hk
          exact ⟨n, List.mem_cons_of_mem m hn, svc, back hsvc hup, hup, hp⟩
        · obtain ⟨n, hn, h⟩ := h₁.kills pid sig hk
          obtain rfl := List.mem_singleton.mp hn
          exact ⟨n, List.mem_cons_self, h⟩
      · intro n hn svc hsvc hup
        by_cases e : n = m
        · subst e
          obtain ⟨st, h⟩ := h₁.reaps n (List.mem_singleton_self n) svc hsvc hup
          exact ⟨st, List.mem_append_right new₂ h⟩
        · have hn' := (List.mem_cons.mp hn).resolve_left e
          obtain ⟨st, h⟩ := h₂.reaps n hn' svc ((serviceStop_find_ne env hs e).trans hsvc) hup
          exact ⟨st, List.mem_append_left new₁ h⟩

/-- In the order backwards, a service stands before what it names in `after` or `requires`. -/
theorem order_reverse_split {r : Registry} (h0 : (serviceResolveDeps r.list).1 = 0)
    (hs : svc ∈ svcArray r.list) (hd : dep ∈ r.list)
    (hdep : dep.name ∈ svc.after ∨ dep.name ∈ svc.requires) :
    ∃ l₁ l₂, (serviceResolveDeps r.list).2.reverse = (l₁ ++ [svc.name]) ++ l₂ ∧
      dep.name ∉ l₁ ++ [svc.name] := by
  have hnd := serviceResolveDeps_nodup h0
  have hmem : svc.name ∈ (serviceResolveDeps r.list).2 :=
    (mem_order_iff h0 (List.mem_of_mem_take hs)).mpr hs
  obtain ⟨l₂, l₁, e⟩ := List.append_of_mem hmem
  refine ⟨l₁.reverse, l₂.reverse, by rw [e]; simp, ?_⟩
  have hpre : dep.name ∈ (serviceResolveDeps r.list).2 →
      Precedes (serviceResolveDeps r.list).2 dep.name svc.name := by
    intro hm
    have hda := (mem_order_iff h0 hd).mp hm
    obtain ⟨i, hi, rfl⟩ := List.getElem_of_mem hs
    obtain ⟨j, hj, rfl⟩ := List.getElem_of_mem hda
    exact precedes_of_dependsOn (i := ⟨i, hi⟩) (j := ⟨j, hj⟩) h0
      ⟨_, List.mem_of_mem_take hs, rfl, nameAt_mem ⟨j, hj⟩, hdep⟩
  intro hm
  -- it would stand at `svc` or after it
  have hm' : dep.name ∈ svc.name :: l₁ := by simpa [or_comm] using hm
  have hp := hpre (e ▸ List.mem_append_right l₂ hm')
  rw [e] at hp hnd
  obtain ⟨-, hd₂, hdis⟩ := List.nodup_append.mp hnd
  rw [precedes_append_right fun h => hdis _ h _ hm' rfl, precedes_cons] at hp
  rcases hp with ⟨-, h⟩ | h
  · exact (List.nodup_cons.mp hd₂).1 h
  · exact (List.nodup_cons.mp hd₂).1 h.mem.2

end

/-- **The order of a shutdown.**  From any state of a run whose registry has no dependency cycle, when
`service_stop_all` signals the process of `dep`, it has already collected the process of every service
that was up and names `dep` in `after` or `requires` (of those in the array that was sorted). -/
theorem stopAll_order {s : Sys} (h : Reached s) (env : Env)
    (h0 : (serviceResolveDeps s.services.list).1 = 0) {svc dep : Service}
    (hs : svc ∈ svcArray s.services.list) (hup : svc.Up) (hd : dep ∈ s.services.list)
    (hdep : dep.name ∈ svc.after ∨ dep.name ∈ svc.requires) {post mid : List Action} {sig : Nat}
    (ht : (serviceStopAll env s).trace = post ++ .kill dep.pid sig :: (mid ++ s.trace)) :
    ∃ st, .waitpid svc.pid (.reaped st) ∈ mid := by
  obtain ⟨l₁, l₂, hl, hnot⟩ := order_reverse_split h0 hs hd hdep
  have hsvc := Registry.find_of_mem (List.mem_of_mem_take hs)
  have hsound : Sound (stopEach env (l₁ ++ [svc.name]) s) :=
    (stopEach_moves (P := fun _ => True) (fun _ _ => trivial) (l₁ ++ [svc.name]) h.sound).sound
      h.sound
  obtain ⟨new₁, ht₁, h₁⟩ := stopEach_stopped env (l₁ ++ [svc.name]) h.sound
  obtain ⟨new₂, ht₂, -⟩ := stopEach_stopped env l₂ hsound
  have hord : s.startOrder = (serviceResolveDeps s.services.list).2 := h.ordered
  rw [serviceStopAll, hord, hl, stopEach_append, ht₂, ht₁] at ht
  -- no signal of the first part goes to `dep`
  have hno : .kill dep.pid sig ∉ new₁ := by
    intro hk
    obtain ⟨n, hn, svc', hsvc', hup', hp⟩ := h₁.kills _ _ hk
    have e := h.sound.inj _ _ _ _ hsvc' (Registry.find_of_mem hd) hp (h.sound.pid_ne hsvc' hup')
    exact hnot (e ▸ hn)
  obtain ⟨st, hst⟩ := h₁.reaps svc.name (by simp) svc hsvc hup
  have e : new₂ ++ new₁ = post ++ .kill dep.pid sig :: mid := by
    have ht' : new₂ ++ new₁ ++ s.trace = (post ++ .kill dep.pid sig :: mid) ++ s.trace := by
      simpa using ht
    exact List.append_cancel_right ht'
  refine ⟨st, ?_⟩
  rcases List.append_eq_append_iff.mp e with ⟨x, -, e₁⟩ | ⟨x, -, e₁⟩
  · exact absurd (e₁ ▸ List.mem_append_right x List.mem_cons_self) hno
  · rcases x with _ | ⟨a, x⟩
    · rw [List.nil_append] at e₁
      exact absurd (e₁ ▸ List.mem_cons_self) hno
    · rw [(List.cons.inj e₁).2]
      exact List.mem_append_right x hst

/-- What a stop does after its `SIGTERM`, when the process ignores that. -/
def overdueStop (n : Name) (pid : Int) : List Action :=
  [.cgroupRemove n, .waitpid pid (.reaped (.signaled sigkill)), .kill pid sigKill,
    .waitpid pid .alive, .usleep 500000]

/-- The compositor is collected before `devd` is signalled. -/
theorem stopAll_order_session :
    ∃ st, Action.waitpid 11 (.reaped st) ∈ overdueStop compositor 11 ++ [.kill 11 sigTerm] := by
  have h : Reached bootedSession :=
    ⟨0, .one (e := .boot restartedDir Env.session) rfl⟩
  obtain ⟨svc, hs, hup, hpid, hafter⟩ : ∃ svc ∈ svcArray bootedSession.services.list,
      svc.Up ∧ svc.pid = 11 ∧ devd ∈ svc.after := by decide
  obtain ⟨dep, hd, hname, hdpid⟩ : ∃ dep ∈ bootedSession.services.list,
      dep.name = devd ∧ dep.pid = 10 := by decide
  have ht : (serviceStopAll Env.session bootedSession).trace =
      overdueStop devd 10 ++ .kill 10 sigTerm ::
        ((overdueStop compositor 11 ++ [.kill 11 sigTerm]) ++ bootedSession.trace) := by decide
  obtain ⟨st, hst⟩ := stopAll_order h Env.session (by decide) hs hup hd (.inl (hname ▸ hafter))
    (hdpid ▸ ht)
  exact ⟨st, hpid ▸ hst⟩

end LumiOS.Lumid
