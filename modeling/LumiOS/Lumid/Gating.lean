import LumiOS.Lumid.Operations
import LumiOS.Lumid.CheckOrder
import LumiOS.Lumid.Loading
import LumiOS.Lumid.StopAll

/-!
# Lumid — Gating

What the marks of lumid are worth, along every run.  A mark is not a process, but a service that is
marked running or starting was forked for, with the pid it records, and since then lumid has neither
reaped nor stopped it (`Sys.Lived`).

* `fork_gated`: `service_start` forks for a service only when every registered service it requires is
  marked running, so at every fork, whoever asked for it, the processes the new one requires have been
  started and none of them has been seen to end.
* `kill_owned`: `service_stop` signals the pid a marked service records, so every signal it sends, for a
  request or at the shutdown, goes to a process lumid forked for a service and has not seen the end of,
  and never to pid 0 or a negative one.  The `SIGTERM` lumid sends to itself is another action.
-/

namespace LumiOS.Lumid

open Support

/-- The actions that begin or end the life of the process of `n`: its fork, its exit reaped, and the
removal of its cgroup, which ends a stop. -/
def Action.ofLife (n : Name) : Action → Bool
  | .fork m _ | .reap m _ | .cgroupRemove m => m = n
  | _ => false

/-- The last of them in a trace, which has the newest action first. -/
def lastLife (n : Name) (trace : List Action) : Option Action := trace.find? (Action.ofLife n)

/-- Running, or starting. -/
def ServiceRuntime.Marked (rt : ServiceRuntime) : Prop := rt.state = .running ∨ rt.state = .starting

/-- What is marked running or starting was forked for last, as the process it records. -/
def Sys.Lived (s : Sys) : Prop :=
  ∀ n svc, s.services.find n = some svc → svc.Up → lastLife n s.trace = some (.fork n svc.pid)

/-- Every signal went to the process forked for a service last. -/
def Sys.Owned (s : Sys) : Prop :=
  ∀ post pid sig pre, s.trace = post ++ .kill pid sig :: pre →
    0 < pid ∧ ∃ n, lastLife n pre = some (.fork n pid)

/-- At every fork after `base`, what the service requires has been forked for last. -/
def Sys.GatedSince (s : Sys) (base : List Action) : Prop :=
  ∀ post n pid pre, s.trace = post ++ .fork n pid :: pre → base <:+ pre →
    ∀ svc, s.services.find n = some svc → ∀ d ∈ svc.requires, ∀ dep, s.services.find d = some dep →
      d ≠ n ∧ ∃ p, lastLife d pre = some (.fork d p)

/-- The invariant of the operations. -/
structure Sys.Gated (base : List Action) (s : Sys) : Prop where
  lived : s.Lived
  owned : s.Owned
  since : s.GatedSince base

section

variable {s s' : Sys} {n m : Name} {svc : Service} {env : Env} {base : List Action} {a : Action}
  {f : ServiceRuntime → ServiceRuntime} {pid : Int}

theorem lastLife_cons_of_ne {trace : List Action} (h : a.ofLife n = false) :
    lastLife n (a :: trace) = lastLife n trace := by
  rw [lastLife, List.find?_cons, h]
  rfl

theorem Action.Quiet.ofLife (h : a.Quiet) (n : Name) : a.ofLife n = false := by
  cases a <;> first | rfl | exact h.elim

/-! ### Changes that keep the invariant -/

/-- The configurations are as before, so what a fork needs is. -/
theorem Sys.GatedSince.of_configs (h : s.GatedSince base) (ht : s'.trace = s.trace)
    (hc : ∀ m, (s'.services.find m).map (·.toServiceConfig) =
      (s.services.find m).map (·.toServiceConfig)) : s'.GatedSince base := by
  have back : ∀ {m svc'}, s'.services.find m = some svc' →
      ∃ svc, s.services.find m = some svc ∧ svc.toServiceConfig = svc'.toServiceConfig := by
    intro m svc' hm
    have e := hc m
    rw [hm, Option.map_some, eq_comm, Option.map_eq_some_iff] at e
    exact e
  intro post n pid pre hp hb svc' hn d hd dep hdep
  obtain ⟨svc, hn₀, e⟩ := back hn
  obtain ⟨dep₀, hdep₀, -⟩ := back hdep
  exact h post n pid pre (ht ▸ hp) hb svc hn₀ d (e ▸ hd) dep₀ hdep₀

theorem configs_modify (r : Registry) (n m : Name) (f : ServiceRuntime → ServiceRuntime) :
    ((r.modify n f).find m).map (·.toServiceConfig) = (r.find m).map (·.toServiceConfig) := by
  by_cases e : m = n
  · subst e
    rw [Registry.find_modify_self, Option.map_map]
    rfl
  · rw [Registry.find_modify_ne e]

/-- An action that is no fork. -/
theorem Sys.GatedSince.emit (h : s.GatedSince base) (ha : ∀ n pid, a ≠ .fork n pid) :
    (s.emit a).GatedSince base := by
  intro post n pid pre hp
  rcases List.cons_eq_append_iff.mp hp with ⟨-, e⟩ | ⟨post', -, e⟩
  · exact absurd (List.cons.inj e).1.symm (ha n pid)
  · exact h post' n pid pre e

theorem Sys.Owned.emit (h : s.Owned) (ha : ∀ pid sig, a ≠ .kill pid sig) : (s.emit a).Owned := by
  intro post pid sig pre hp
  rcases List.cons_eq_append_iff.mp hp with ⟨-, e⟩ | ⟨post', -, e⟩
  · exact absurd (List.cons.inj e).1.symm (ha pid sig)
  · exact h post' pid sig pre e

/-- A service that is marked only as it was. -/
theorem Sys.Gated.upd (h : s.Gated base)
    (hf : ∀ rt, (f rt).Marked → rt.Marked ∧ (f rt).pid = rt.pid) : (s.upd n f).Gated base where
  lived := by
    intro m svc hm hr
    obtain ⟨svc', hm', -, he⟩ := Registry.find_modify_some hm
    change svc.toServiceRuntime.Marked at hr
    split at he
    · rw [he] at hr ⊢
      obtain ⟨hr', hp⟩ := hf _ hr
      rw [hp]
      exact h.lived m svc' hm' hr'
    · rw [he] at hr ⊢
      exact h.lived m svc' hm' hr
  owned := h.owned
  since := h.since.of_configs rfl (configs_modify _ _ · _)

/-- The end of a life, after which the service is not marked. -/
theorem Sys.Gated.ends (h : s.Gated base) (ha : ∀ m, a.ofLife m = true → m = n)
    (hfork : ∀ n pid, a ≠ .fork n pid) (hkill : ∀ pid sig, a ≠ .kill pid sig)
    (hf : ∀ rt, ¬ (f rt).Marked) : ((s.emit a).upd n f).Gated base where
  lived := by
    intro m svc hm hr
    obtain ⟨svc', hm', -, he⟩ := Registry.find_modify_some hm
    change svc.toServiceRuntime.Marked at hr
    split at he
    · rw [he] at hr
      exact absurd hr (hf _)
    · rename_i hne
      rw [he] at hr ⊢
      have hq : a.ofLife m = false := Bool.eq_false_iff.mpr fun k => hne (ha m k)
      exact (lastLife_cons_of_ne hq).trans (h.lived m svc' hm' hr)
  owned := h.owned.emit hkill
  since := (h.since.emit hfork).of_configs rfl (configs_modify _ _ · _)

/-- A fork, when what the service requires is marked running. -/
theorem Sys.Gated.forked (h : s.Gated base) (hn : s.services.find n = some svc)
    (hd : s.ready n svc = true) (hf : s.children.Fresh pid) :
    (s.forked n svc.toServiceConfig pid hf).Gated base where
  lived := by
    intro m svc' hm hr
    obtain ⟨svc₀, hm', -, he⟩ := Registry.find_modify_some hm
    change svc'.toServiceRuntime.Marked at hr
    split at he
    · rename_i e
      subst e
      rw [he]
      exact List.find?_cons_of_pos (by simp [Action.ofLife])
    · rename_i hne
      rw [he] at hr ⊢
      have hq : (Action.fork n pid).ofLife m = false := by simpa [Action.ofLife] using Ne.symm hne
      exact (lastLife_cons_of_ne hq).trans (h.lived m svc₀ hm' hr)
  owned := Sys.Owned.emit (s := s.withChildren _) h.owned fun _ _ => Action.noConfusion
  since := by
    have hg : ((s.withChildren (s.children.insert pid (some n) hf)).emit
        (.fork n pid)).GatedSince base := by
      intro post n' pid' pre hp hb svc' hn' d hreq dep hdep
      rcases List.cons_eq_append_iff.mp hp with ⟨-, e⟩ | ⟨post', -, e⟩
      · -- the fork at hand
        obtain ⟨e₁, rfl⟩ := List.cons.inj e
        obtain ⟨rfl, rfl⟩ := Action.fork.inj e₁
        obtain rfl := Option.some.inj (hn.symm.trans hn')
        obtain ⟨hne, hrun⟩ := ready_iff.mp hd d hreq dep hdep
        exact ⟨hne, _, h.lived d dep hdep (.inl hrun)⟩
      · exact h.since post' n' pid' pre e hb svc' hn' d hreq dep hdep
    exact hg.of_configs rfl (configs_modify _ _ · _)

theorem gated_quietKept (base : List Action) : QuietKept (Sys.Gated base) where
  same := by
    intro s s' hs ht h
    refine ⟨fun n svc hn hr => ?_, ?_, h.since.of_configs ht fun m => by rw [hs]⟩
    · rw [ht]
      exact h.lived n svc (hs ▸ hn) hr
    · rw [Sys.Owned, ht]
      exact h.owned
  note := by
    intro s a ha h
    refine ⟨fun n svc hn hr => ?_, h.owned.emit ?_, h.since.emit ?_⟩
    · exact (lastLife_cons_of_ne (ha.ofLife n)).trans (h.lived n svc hn hr)
    · rintro pid sig rfl
      exact ha
    · rintro n pid rfl
      exact ha

/-! ### Operations -/

theorem serviceStart_gated (env : Env) (n : Name) (h : s.Gated base) :
    (serviceStart env s n).2.Gated base := by
  have K := gated_quietKept base
  have down : ∀ {t : Sys}, t.Gated base → (t.upd n ({ · with state := .failed })).Gated base :=
    fun ht => ht.upd fun _ hr => hr.elim SvcState.noConfusion SvcState.noConfusion
  cases hn : s.services.find n with
  | none =>
      rw [serviceStart_unregistered hn]
      exact h
  | some svc =>
      refine serviceStart_cases (motive := fun r => r.2.Gated base) hn ?_ ?_ ?_ ?_
      · exact fun _ => h
      · exact fun _ _ => down h
      · exact fun _ _ _ => down (K.note (a := .forkFailed n) trivial h)
      · exact fun pid hf _ hd _ =>
          K.limited _ ((K.readClock (env.clock n) h).forked hn hd hf)

/-- What holds while a stop waits for the process `pid` of `n`. -/
def Sys.Stopping (base : List Action) (n : Name) (pid : Int) (s : Sys) : Prop :=
  s.Gated base ∧ lastLife n s.trace = some (.fork n pid)

theorem stopping_quietKept (base : List Action) (n : Name) (pid : Int) :
    QuietKept (Sys.Stopping base n pid) where
  same := fun hs ht h => ⟨(gated_quietKept base).same hs ht h.1, by rw [ht]; exact h.2⟩
  note := fun ha h => ⟨(gated_quietKept base).note ha h.1,
    (lastLife_cons_of_ne (ha.ofLife n)).trans h.2⟩

/-- Its signals go to that process. -/
theorem Sys.Stopping.kill (h : s.Stopping base n pid) (hpos : 0 < pid) (sig : Nat) :
    (s.emit (.kill pid sig)).Stopping base n pid := by
  refine ⟨⟨fun m svc hm hr => ?_, ?_, h.1.since.emit fun _ _ => Action.noConfusion⟩,
    (lastLife_cons_of_ne rfl).trans h.2⟩
  · exact (lastLife_cons_of_ne rfl).trans (h.1.lived m svc hm hr)
  · intro post pid' sig' pre hp
    rcases List.cons_eq_append_iff.mp hp with ⟨-, e⟩ | ⟨post', -, e⟩
    · obtain ⟨e₁, rfl⟩ := List.cons.inj e
      obtain ⟨rfl, rfl⟩ := Action.kill.inj e₁
      exact ⟨hpos, n, h.2⟩
    · exact h.1.owned post' pid' sig' pre e

theorem serviceStop_gated (env : Env) (n : Name) (h : s.Gated base) :
    (serviceStop env s n).2.Gated base := by
  have K := gated_quietKept base
  cases hn : s.services.find n with
  | none =>
      simp only [serviceStop, hn]
      exact h
  | some svc =>
      by_cases hs : svc.state ≠ .running ∧ svc.state ≠ .starting
      · rw [serviceStop_of_not_live hn hs]
        exact h
      · have K' := stopping_quietKept base n svc.pid
        have hup : svc.Up := by
          by_contra hup
          exact hs (not_or.mp hup)
        -- up to the mark `stopped`, nothing begins or ends a life
        have h₀ : (s.upd n ({ · with state := .stopping })).Stopping base n svc.pid :=
          ⟨h.upd fun _ hr => hr.elim SvcState.noConfusion SvcState.noConfusion,
            h.lived n svc hn hup⟩
        have h₁ : (terminate env (s.upd n ({ · with state := .stopping })) n svc.pid).Stopping
            base n svc.pid := K'.terminate (fun hpos s sig h => h.kill hpos sig) h₀
        have h₂ : ∀ {t : Sys}, 0 < svc.pid → t.Stopping base n svc.pid →
            (stopProcess env t n svc.pid).Gated base := by
          intro t hpos ht
          have hc : (collect env t n svc.pid).2.Stopping base n svc.pid :=
            K'.collect (fun s sig h => h.kill hpos sig) ht
          simp only [stopProcess]
          generalize collect env t n svc.pid = r at hc
          rcases r with ⟨_ | st, t₁⟩
          · exact (K.note (a := .uninitStatus n) trivial hc.1).upd fun _ hr => ⟨hr, rfl⟩
          · exact Sys.Gated.upd hc.1 fun _ hr => ⟨hr, rfl⟩
        simp only [serviceStop, hn, if_neg hs]
        refine Sys.Gated.ends (n := n) (a := .cgroupRemove n) (K.readClock (env.clock n) ?_)
          ?_ ?_ ?_ fun _ hr => hr.elim SvcState.noConfusion SvcState.noConfusion
        · split
          · rename_i hpos
            exact h₂ hpos h₁
          · exact h₁.1
        · exact fun m hm => (of_decide_eq_true hm).symm
        · exact fun _ _ => Action.noConfusion
        · exact fun _ _ => Action.noConfusion

/-- A shutdown is one stop after the other. -/
theorem stopEach_gated (env : Env) (ns : List Name) (h : s.Gated base) :
    (stopEach env ns s).Gated base := by
  induction ns generalizing s with
  | nil => exact h
  | cons n ns ih => exact ih (serviceStop_gated env n h)

theorem reapRuntime_not_marked (cfg : ServiceConfig) (st : WaitStatus) (now : UInt64)
    (rt : ServiceRuntime) : ¬ (reapRuntime cfg st now rt).Marked := by
  intro hr
  rcases reapRuntime_state cfg st now rt with ⟨-, -, k⟩ | ⟨-, -, k⟩ | ⟨-, k⟩ <;>
    rw [ServiceRuntime.Marked, k] at hr <;>
    exact hr.elim SvcState.noConfusion SvcState.noConfusion

theorem reapOne_gated (env : Env) (r : Int × WaitStatus) (h : s.Gated base) :
    (reapOne env s r).Gated base := by
  have K := gated_quietKept base
  simp only [reapOne, Sys.withChildren_services]
  cases hf : findByPid s.services r.1 with
  | none => exact K.withChildren _ h
  | some found =>
      refine Sys.Gated.ends (n := found.name) (a := .reap found.name r.2)
        (K.readClock _ (K.withChildren _ h)) ?_ ?_ ?_ (reapRuntime_not_marked _ _ _)
      · exact fun m hm => (of_decide_eq_true hm).symm
      · exact fun _ _ => Action.noConfusion
      · exact fun _ _ => Action.noConfusion

theorem gated_kept (base : List Action) : Kept (Sys.Gated base) where
  toQuietKept := gated_quietKept base
  admin := fun h => h.upd fun _ hr => ⟨hr, rfl⟩
  mark := fun h => h.upd fun _ hr => hr.elim SvcState.noConfusion SvcState.noConfusion
  start := serviceStart_gated
  stop := serviceStop_gated
  reap := reapOne_gated

/-! ### Runs -/

/-- Before a state takes an action, nothing of its trace is new. -/
theorem Sys.Lived.gated (h : s.Lived) (ho : s.Owned) : s.Gated s.trace := by
  refine ⟨h, ho, fun post n pid pre hp hb => ?_⟩
  have hlen := hb.length_le
  have hlen' := congrArg List.length hp
  simp only [List.length_append, List.length_cons] at hlen'
  omega

theorem Sys.Lived.load (h : s.Lived) (ho : s.Owned) (dir : Dir) :
    (serviceLoadAll dir s).2.Gated s.trace := by
  obtain ⟨new, hlist, hnew, -⟩ := serviceLoadAll_list dir s
  have ht := (serviceLoadAll_frame dir s).2
  rw [← ht]
  refine Sys.Lived.gated (fun n svc hn hr => ?_) (by rwa [Sys.Owned, ht])
  rw [ht]
  obtain ⟨hm, hname⟩ := Registry.find_eq_some.mp hn
  rw [hlist, List.mem_append] at hm
  rcases hm with hm | hm
  · rw [Service.Up, (hnew svc hm).1] at hr
    exact hr.elim SvcState.noConfusion SvcState.noConfusion
  · exact h n svc (Registry.find_eq_some.mpr ⟨hm, hname⟩) hr

theorem Step.gated {e : Event} (he : Step s e s') (h : s.Lived) (ho : s.Owned) :
    s'.Gated s.trace :=
  (gated_kept s.trace).step he (h.gated ho) (h.load ho)

/-- **What is marked has a process** that lumid has not seen the end of, in every state of a run. -/
theorem Reached.lived (h : Reached s) : s.Lived ∧ s.Owned := by
  obtain ⟨now, h⟩ := h
  refine h.invariant (I := fun s => s.Lived ∧ s.Owned)
    (fun _ _ _ h he => ⟨(he.gated h.1 h.2).lived, (he.gated h.1 h.2).owned⟩) ⟨?_, ?_⟩
  · intro n svc hn
    exact nomatch hn
  · intro post pid sig pre hp
    exact absurd (congrArg List.length hp) (by simp [Sys.init])

end

/-- **A fork finds its requirements up.**  Whenever an event of a run of lumid forks for a service,
then for every registered service it requires, lumid has forked before, and the last it did to that
service's process is the fork: it has not reaped it, and not stopped it. -/
theorem fork_gated {s s' : Sys} {e : Event} (h : Reached s) (he : Step s e s') {n d : Name} {pid : Int}
    {post pre : List Action} (ht : s'.trace = post ++ .fork n pid :: pre) (hnew : s.trace <:+ pre)
    {svc dep : Service} (hn : s'.services.find n = some svc) (hd : d ∈ svc.requires)
    (hdep : s'.services.find d = some dep) :
    d ≠ n ∧ ∃ p, lastLife d pre = some (.fork d p) :=
  (he.gated h.lived.1 h.lived.2).since post n pid pre ht hnew svc hn d hd dep hdep

/-- A boot forks for the compositor after `devd`, whose fork is the last thing done to it. -/
theorem fork_gated_session : devd ≠ compositor ∧
    ∃ p, lastLife devd [.operatorStart compositor, .fork devd 10, .operatorStart devd] =
      some (.fork devd p) := by
  have he : Step (Sys.init 0) (.boot restartedDir Env.session) bootedSession := rfl
  have ht : bootedSession.trace = [] ++ .fork compositor 11 ::
      [.operatorStart compositor, .fork devd 10, .operatorStart devd] := by decide
  have hn : ∃ svc, bootedSession.services.find compositor = some svc ∧ devd ∈ svc.requires :=
    ⟨_, rfl, by decide⟩
  obtain ⟨svc, hn, hd⟩ := hn
  obtain ⟨dep, hdep⟩ : ∃ dep, bootedSession.services.find devd = some dep := ⟨_, rfl⟩
  exact fork_gated ⟨0, .refl _⟩ he ht List.nil_suffix hn hd hdep

/-- A run so far, or a run that a shutdown has ended. -/
inductive Ran : Sys → Prop where
  | running {s : Sys} (h : Reached s) : Ran s
  | ended {s : Sys} (h : Reached s) (env : Env) : Ran (serviceStopAll env s)

/-- **A signal goes to a service's own process.**  Whenever lumid has sent a signal with `service_stop`,
in a run or in the shutdown that ends it, it was to a positive pid that it had forked for a service,
and that fork was the last it had done to that service's process. -/
theorem kill_owned {s : Sys} (h : Ran s) {post pre : List Action} {pid : Int} {sig : Nat}
    (ht : s.trace = post ++ .kill pid sig :: pre) :
    0 < pid ∧ ∃ n, lastLife n pre = some (.fork n pid) := by
  cases h with
  | running h => exact h.lived.2 post pid sig pre ht
  | @ended s₀ h env =>
      have hgated : (serviceStopAll env s₀).Gated s₀.trace :=
        stopEach_gated env s₀.startOrder.reverse (h.lived.1.gated h.lived.2)
      exact hgated.owned post pid sig pre ht

/-- At the shutdown of a session, lumid signals `devd` when the compositor is gone. -/
theorem kill_owned_session : (0 : Int) < 10 ∧
    ∃ n, lastLife n ([.cgroupRemove compositor, .waitpid 11 (.reaped (.signaled sigkill)),
      .kill 11 sigKill, .waitpid 11 .alive, .usleep 500000, .kill 11 sigTerm] ++ bootedSession.trace) =
        some (.fork n 10) := by
  have hran : Ran (serviceStopAll Env.session bootedSession) :=
    .ended ⟨0, .one (e := .boot restartedDir Env.session) rfl⟩ Env.session
  have ht : (serviceStopAll Env.session bootedSession).trace =
      [.cgroupRemove devd, .waitpid 10 (.reaped (.signaled sigkill)), .kill 10 sigKill,
        .waitpid 10 .alive, .usleep 500000] ++ .kill 10 sigTerm ::
          ([.cgroupRemove compositor, .waitpid 11 (.reaped (.signaled sigkill)), .kill 11 sigKill,
            .waitpid 11 .alive, .usleep 500000, .kill 11 sigTerm] ++ bootedSession.trace) := by
    decide
  exact kill_owned hran ht

end LumiOS.Lumid
