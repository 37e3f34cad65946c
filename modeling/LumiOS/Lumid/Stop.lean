import LumiOS.Lumid.Pids

/-!
# Lumid — Stop

What a stop request settles.  `service_stop` acts on a running or starting service and answers 0 in
every state.  In `SVC_STATE_RESTARTING` a restart is pending, and in `SVC_STATE_FAILED` a process may
still be recorded, whose exit makes one pending: such a service may come back
(`Service.MayComeBack`), and the request has not changed that.  A service that may not come back is
not forked again until an operator starts it (`stop_request_holds`).
-/

namespace LumiOS.Lumid

open Support

/-- The supervisor may start the service without an operator asking, though no process of it is to
run: a restart is pending, or a recorded process may exit in a way that makes one pending. -/
def Service.MayComeBack (svc : Service) (k : Children Name) : Prop :=
  svc.state = .restarting ∨
    svc.state = .failed ∧ 0 < svc.restartMaxRetries ∧
      ∃ st, k.MayReport svc.pid st ∧ svc.wantsRestart st = true

/-- A registered service the supervisor will not start. -/
def Sys.Retired (s : Sys) (n : Name) : Prop :=
  ∃ svc, s.services.find n = some svc ∧ svc.state ≠ .restarting ∧
    ∀ st, s.children.MayReport svc.pid st → svc.wantsRestart st = true →
      ¬ 0 < svc.restartMaxRetries

section

variable {s s' : Sys} {n m : Name} {svc : Service} {l : Label}

/-- Only a start forks. -/
theorem Move.forkCount (hm : Move s l s') (hl : ∀ o, l ≠ .start o n) :
    s'.forkCount n = s.forkCount n := by
  obtain ⟨new, ht, he⟩ := hm.trace
  have h0 : new.countP (Action.isFork n) = 0 := by
    refine List.countP_eq_zero.mpr fun a ha hf => ?_
    have hea := he a ha
    cases a with
    | fork m pid =>
        have e : m = n := by simpa [Action.isFork] using hf
        subst e
        cases l with
        | silent => exact hea
        | register _ => exact hea
        | halt _ => exact hea
        | start o k =>
            rcases hea with h | ⟨_, h⟩
            · cases o <;> cases h
            · cases h
              exact hl o rfl
        | reap k =>
            obtain ⟨_, h⟩ := hea
            cases h
    | _ => cases hf
  simp only [Sys.forkCount, ht, List.countP_append, h0, Nat.zero_add]

/-- A change of another service, with no new report at a recorded pid. -/
theorem Sys.Retired.frame (h : s.Retired n)
    (hs : s'.services.find n = s.services.find n)
    (hc : ∀ svc st, s.services.find n = some svc → s'.children.MayReport svc.pid st →
      s.children.MayReport svc.pid st) : s'.Retired n := by
  obtain ⟨svc, hn, hr, hw⟩ := h
  exact ⟨svc, hs.trans hn, hr, fun st hst => hw st (hc svc st hn hst)⟩

/-- A pid the kernel may give out is not recorded. -/
theorem Sound.fresh_ne {pid : Int} (h : Sound s) (hn : s.services.find n = some svc)
    (hf : s.children.Fresh pid) : pid ≠ svc.pid := by
  rintro rfl
  have hne : svc.pid ≠ -1 := fun e => absurd (e ▸ hf.1) (by decide)
  obtain ⟨c, hc, e⟩ := h.child n svc hn hne
  exact hf.ne hc e

/-- **Every move but an operator's start keeps a service retired.** -/
theorem Move.retired (hm : Move s l s') (hs : Sound s) (hl : l ≠ .start .operator n)
    (h : s.Retired n) : s'.Retired n ∧ ∀ o, l ≠ .start o n := by
  obtain ⟨svc, hn, hr, hw⟩ := id h
  -- the supervisor starts only what is restarting
  have hl' : ∀ o, l ≠ .start o n := by
    rintro (_ | _) rfl
    · exact hl rfl
    · cases hm with
      | startFail _ hn' ho =>
          obtain rfl := Option.some.inj (hn.symm.trans hn')
          exact hr (ho rfl)
      | startFork _ hn' ho _ =>
          obtain rfl := Option.some.inj (hn.symm.trans hn')
          exact hr (ho rfl)
  refine ⟨?_, hl'⟩
  cases hm with
  | exit pid st => exact h.frame rfl fun _ _ _ hst => hst.of_exit
  | adopt pid =>
      refine h.frame rfl fun svc' st hn' hst => ?_
      simp only [Sys.withChildren_children, Children.adopt] at hst
      split at hst
      · rename_i hf
        exact hst.of_insert hf (hs.fresh_ne hn' hf)
      · exact hst
  | clock t => exact h.frame rfl fun _ _ _ hst => hst
  | check => exact h.frame rfl fun _ _ _ hst => hst
  | note _ => exact h.frame rfl fun _ _ _ hst => hst
  | resolve => exact h.frame rfl fun _ _ _ hst => hst
  | admin k b =>
      by_cases e : n = k
      · subst e
        exact ⟨svc.update ({ · with enabled := b }),
          Registry.find_modify_self.trans (congrArg _ hn), hr, hw⟩
      · exact h.frame (Registry.find_modify_ne e) fun _ _ _ hst => hst
  | orphan _ _ => exact h.frame rfl fun _ _ _ hst => hst.of_remove
  | register cfg hk =>
      exact ⟨svc, Registry.find_cons_some hk hn, hr, hw⟩
  | startNoop _ _ => exact h.frame rfl fun _ _ _ hst => hst
  | @startFail k _ o _ _ =>
      have e : n ≠ k := fun e => hl' o (e ▸ rfl)
      exact h.frame (Registry.find_modify_ne e) fun _ _ _ hst => hst
  | @startFork k _ o pid _ _ hf =>
      have e : n ≠ k := fun e => hl' o (e ▸ rfl)
      exact h.frame (Registry.find_modify_ne e) fun _ _ hn' hst =>
        Children.MayReport.of_insert hf (hs.fresh_ne hn' hf) hst
  | @halt k svc' st hn' _ _ =>
      by_cases e : n = k
      · subst e
        obtain rfl := Option.some.inj (hn.symm.trans hn')
        refine ⟨_, Registry.find_modify_self.trans (congrArg _ hn), SvcState.noConfusion, ?_⟩
        exact fun _ hst => absurd hst Children.not_mayReport_neg_one
      · exact h.frame (Registry.find_modify_ne e) fun _ _ _ hst => hst.of_remove
  | @reap k svc' st hn' hz =>
      by_cases e : n = k
      · subst e
        obtain rfl := Option.some.inj (hn.symm.trans hn')
        refine ⟨_, Registry.find_modify_self.trans (congrArg _ hn), ?_, ?_⟩
        · have hrep := Children.mayReport_of_zombie hz
          have hp : svc.pid ≠ -1 := fun e => absurd (e ▸ hrep.pos) (by decide)
          have h0 := (hs.consistent n svc hn).1 hp
          rcases reapRuntime_state svc.toServiceConfig st s.clock svc.toServiceRuntime with
            ⟨hwant, hlt, -⟩ | ⟨-, -, e⟩ | ⟨-, e⟩
          · rw [h0] at hlt
            exact absurd hlt (hw st hrep hwant)
          · intro k
            cases e.symm.trans k
          · intro k
            cases e.symm.trans k
        · intro st' hst
          simp only [Service.update_runtime, reapRuntime_pid] at hst
          exact absurd hst Children.not_mayReport_neg_one
      · exact h.frame (Registry.find_modify_ne e) fun _ _ _ hst => hst.of_remove

/-! ### The stop request -/

/-- A stop retires every service that may not come back. -/
theorem serviceStop_retired (env : Env) (hs : Sound s) (hn : s.services.find n = some svc)
    (hc : ¬ svc.MayComeBack s.children) :
    (serviceStop env s n).1 = 0 ∧ (serviceStop env s n).2.Retired n := by
  by_cases hl : svc.state = .running ∨ svc.state = .starting
  · obtain ⟨st, s₁, -, hk, -, e⟩ :=
      serviceStop_halts (P := fun _ => True) env trivial hs hn hl
    have hn₁ : s₁.services.find n = some svc := hk ▸ hn
    rw [e]
    refine ⟨rfl, _, Registry.find_modify_self.trans (congrArg _ hn₁), SvcState.noConfusion, ?_⟩
    exact fun _ hst => absurd hst Children.not_mayReport_neg_one
  · rw [serviceStop_of_not_live hn (not_or.mp hl)]
    refine ⟨rfl, svc, hn, fun e => hc (.inl e), fun st hst hw hmax => ?_⟩
    have hp : svc.pid ≠ -1 := fun e => Children.not_mayReport_neg_one (e ▸ hst)
    have hcons := (hs.consistent n svc hn).2
    cases e : svc.state with
    | running => exact hl (.inl e)
    | starting => exact hl (.inr e)
    | failed => exact hc (.inr ⟨e, hmax, st, hst, hw⟩)
    | stopped | restarting => rw [e] at hcons; exact hp hcons
    | stopping => rw [e] at hcons; exact hcons

/-- **A retired service stays down**, while no event asks to start it. -/
theorem Sys.Retired.run (hs : Sound s) (h : s.Retired n) {es : List Event}
    (hrun : Run (fun s e s' => ¬ e.Allows (.start .operator n) ∧ Step s e s') s es s') :
    s'.forkCount n = s.forkCount n := by
  let J : Sys → Prop := fun t => t.Retired n ∧ t.forkCount n = s.forkCount n
  have hm : ∀ t l t', Sound t → l ≠ .start .operator n → Move t l t' → J t → J t' := by
    intro t l t' ht hl hm hJ
    obtain ⟨hr, hl'⟩ := hm.retired ht hl hJ.1
    exact ⟨hr, (hm.forkCount hl').trans hJ.2⟩
  have hJ : Sound s' ∧ J s' := by
    refine Run.invariant (I := fun t => Sound t ∧ J t) ?_ hrun ⟨hs, h, rfl⟩
    intro t e t' hI he
    exact ⟨he.2.sound hI.1, (he.2.moves hI.1).invariant
      (fun u l u' hu hl => hm u l u' hu (by rintro rfl; exact he.1 hl)) hI.1 hI.2⟩
  exact hJ.2.2

/-- **A stop request settles the service**, if it may not come back: the answer is 0, and no later
event forks a process for it, as long as none asks to start it. -/
theorem stop_request_holds (h : Reached s) {req : Request} {env : Env} (hreq : req.cmd = .stop)
    (hsvc : req.service s.services = some svc) (hc : ¬ svc.MayComeBack s.children)
    {s₁ s₂ : Sys} (hstop : Step s (.request (some req) env) s₁) {es : List Event}
    (hrun : Run (fun s e s' => ¬ e.Allows (.start .operator svc.name) ∧ Step s e s') s₁ es s₂) :
    (socketHandleRequest env s (some req)).1 = [done 0 "stopped" "stop failed"] ∧
      s₂.forkCount svc.name = s₁.forkCount svc.name := by
  obtain ⟨hn, -⟩ := Request.service_eq_some hsvc
  obtain ⟨h0, hret⟩ := serviceStop_retired env h.sound hn hc
  have hs₁ := hstop.sound h.sound
  cases hstop
  have e : socketHandleRequest env s (some req) =
      ([done 0 "stopped" "stop failed"], (serviceStop env s svc.name).2) := by
    simp only [socketHandleRequest, hsvc, hreq, h0]
  rw [e] at hs₁ hrun ⊢
  exact ⟨rfl, hret.run hs₁ hrun⟩

end

/-- An operator's request to stop `devd`. -/
def stopDevd : Request := ⟨.stop, devd.bytes⟩

/-- A supervisor pass ten seconds after the start. -/
def lateCheck : List Event := [.tick 10000000000, .check (Env.plain 12 10000000000)]

def lateChecked (s : Sys) : Sys :=
  supervisorCheckServices (Env.plain 12 10000000000) (s.readClock 10000000000)

theorem lateCheck_run (s : Sys) (n : Name) :
    Run (fun s e s' => ¬ e.Allows (.start .operator n) ∧ Step s e s') s lateCheck (lateChecked s) :=
  .cons ⟨id, rfl⟩ (.cons ⟨id, rfl⟩ (.nil _))

theorem stop_request_holds_devd :
    (lateChecked (socketHandleRequest (Env.plain 11 0) (booted { name := devd })
      (some stopDevd)).2).forkCount devd = 1 := by
  let s := booted { name := devd }
  have hc : ∀ svc ∈ s.services.list, ¬ svc.MayComeBack s.children := by
    intro svc hm
    have hst : svc.state = .running :=
      (by decide : ∀ svc ∈ s.services.list, svc.state = .running) svc hm
    rintro (e | ⟨e, -⟩)
    · cases hst.symm.trans e
    · cases hst.symm.trans e
  exact (stop_request_holds (booted_reached _) rfl rfl (hc _ (.head _)) rfl
    (lateCheck_run _ devd)).2

/-- `devd` with the policy `always`, when its process 10 has exited and been reaped. -/
def restartingDevd : Sys :=
  supervisorHandleSigchld (Env.plain 11 0) [(10, .exited 1)]
    ((booted { name := devd, restartPolicy := .always }).childExit 10 (.exited 1))

theorem restartingDevd_reached : Reached restartingDevd := by
  obtain ⟨now, h⟩ := booted_reached { name := devd, restartPolicy := .always }
  let s := booted { name := devd, restartPolicy := .always }
  have he : Step s (.exit 10 (.exited 1)) (s.childExit 10 (.exited 1)) := rfl
  have hr : Step (s.childExit 10 (.exited 1)) (.sigchld [(10, .exited 1)] (Env.plain 11 0))
      restartingDevd := .sigchld (by decide)
  exact ⟨now, (h.step he).step hr⟩

/-- A stop request in `SVC_STATE_RESTARTING` answers 0, and the next supervisor pass forks. -/
theorem stop_request_ignored :
    ¬ ∀ s req env svc s₁ es s₂, Reached s → req.cmd = .stop → req.service s.services = some svc →
      Step s (.request (some req) env) s₁ →
      (socketHandleRequest env s (some req)).1 = [done 0 "stopped" "stop failed"] →
      Run (fun s e s' => ¬ e.Allows (.start .operator svc.name) ∧ Step s e s') s₁ es s₂ →
      s₂.forkCount svc.name = s₁.forkCount svc.name := by
  intro h
  have := h restartingDevd stopDevd (Env.plain 11 0) _ restartingDevd lateCheck _
    restartingDevd_reached rfl rfl rfl rfl (lateCheck_run _ _)
  exact absurd this (by decide)

end LumiOS.Lumid
