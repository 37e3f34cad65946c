import LumiOS.Lumid.Delay
import LumiOS.Lumid.Restarts

/-!
# Lumid — RestartRate

How fast the supervisor restarts a service.  The limit on the number of automatic starts does not hold
(`Restarts.lean`), but a limit on their rate does.  A pass starts a service once, passes that do
anything are five seconds apart, and a service that waits for its restart was stopped after its last
automatic start, so its own delay has passed since then.  In every run, `a + 1` automatic starts of one
service take at least `a` times the longer of the two (`restart_rate`).

`Sys.LastAuto` is what carries this along a run: after an automatic start at a time `last`, the check
time is not before `last`, and neither is the stop time of the service while it waits.
-/

namespace LumiOS.Lumid

open Support

/-- The automatic starts of `n` so far. -/
def Sys.autoCount (s : Sys) (n : Name) : Nat := s.trace.countP (· = .autoStart n)

/-- The nanoseconds between two automatic starts of a service: the interval of the passes, or the
delay of the service if it is longer. -/
def restartGap (cfg : ServiceConfig) : Nat :=
  max checkIntervalNs.toNat ((UInt64.ofInt cfg.restartDelayMs).toNat * 1000000)

/-- Nothing of what a pass reads is older than `last`. -/
structure Sys.LastAuto (s : Sys) (n : Name) (last : UInt64) : Prop where
  check : last ≤ s.lastCheckTime
  stop : ∀ svc, s.services.find n = some svc → svc.state = .restarting → last ≤ svc.stopTime

section

variable {s s' : Sys} {n m : Name} {svc : Service} {l : Label} {env : Env} {now last : UInt64}
  {P : Label → Prop} {new : List Action}

/-! ### Moves -/

theorem Move.lastCheck_le (hm : Move s l s') (ht : Timed s) :
    s.lastCheckTime ≤ s'.lastCheckTime := by
  cases hm with
  | check => exact ht.check
  | _ => exact UInt64.le_refl _

/-- A change of one service that leaves it waiting only as it was, or stopped now. -/
theorem Sys.LastAuto.upd (h : s.LastAuto n last) (ht : Timed s) {f : ServiceRuntime → ServiceRuntime}
    (hf : ∀ rt, (f rt).state = .restarting →
      (f rt).stopTime = s.clock ∨ rt.state = .restarting ∧ (f rt).stopTime = rt.stopTime) :
    (s.upd m f).LastAuto n last where
  check := h.check
  stop := by
    intro svc hn hr
    obtain ⟨svc', hn', -, he⟩ := Registry.find_modify_some hn
    split at he
    · rw [he] at hr ⊢
      rcases hf _ hr with e | ⟨hr', e⟩
      · rw [e]
        exact UInt64.le_trans h.check ht.check
      · rw [e]
        exact h.stop svc' hn' hr'
    · rw [he] at hr ⊢
      exact h.stop svc' hn' hr

theorem forkedRuntime_state_ne (cfg : ServiceConfig) (pid : Int) (t : UInt64) (rt : ServiceRuntime) :
    (forkedRuntime cfg pid t rt).state ≠ .restarting := by
  simp only [forkedRuntime]
  split <;> exact SvcState.noConfusion

/-- **Every move keeps what is not older than `last`.** -/
theorem Move.lastAuto (hm : Move s l s') (ht : Timed s) (h : s.LastAuto n last) :
    s'.LastAuto n last := by
  have hle := UInt64.le_trans h.check (hm.lastCheck_le ht)
  cases hm with
  | admin m b => exact h.upd ht fun _ hr => .inr ⟨hr, rfl⟩
  | register cfg hn =>
      refine ⟨hle, fun svc hs hr => ?_⟩
      rw [Registry.find_cons] at hs
      split at hs
      · cases hs
        cases hr
      · exact h.stop svc hs hr
  | @startFail m svc o _ _ =>
      have h' : (s.emit (o.mark m)).LastAuto n last := ⟨h.check, h.stop⟩
      exact h'.upd ⟨ht.check, ht.stop⟩ fun _ hr => SvcState.noConfusion hr
  | @startFork m svc o pid _ _ hf =>
      have h' : (((s.emit (o.mark m)).withChildren
          (s.children.insert pid (some m) hf)).emit (.fork m pid)).LastAuto n last :=
        ⟨h.check, h.stop⟩
      exact h'.upd ⟨ht.check, ht.stop⟩ fun _ hr => absurd hr (forkedRuntime_state_ne _ _ _ _)
  | @halt m svc st _ _ _ =>
      have h' : (s.reaped svc.pid).LastAuto n last := ⟨h.check, h.stop⟩
      exact h'.upd ⟨ht.check, ht.stop⟩ fun _ hr => SvcState.noConfusion hr
  | @reap m svc st _ _ =>
      have h' : ((s.reaped svc.pid).emit (.reap m st)).LastAuto n last := ⟨h.check, h.stop⟩
      exact h'.upd ⟨ht.check, ht.stop⟩ fun rt _ => .inl (reapRuntime_stopTime _ _ _ rt)
  | _ => exact ⟨hle, h.stop⟩

/-- Moves keep it, and the times behind the clock. -/
theorem Moves.lastAuto (hm : Moves P s s') (hs : Sound s) (ht : Timed s) (h : s.LastAuto n last) :
    s'.LastAuto n last := by
  have hI : Timed s' ∧ s'.LastAuto n last :=
    hm.invariant (I := fun s => Timed s ∧ s.LastAuto n last)
      (fun _ _ _ _ _ hm h => ⟨hm.timed h.1, hm.lastAuto h.1 h.2⟩) hs ⟨ht, h⟩
  exact hI.2

theorem Moves.timed (hm : Moves P s s') (hs : Sound s) (ht : Timed s) : Timed s' :=
  hm.invariant (fun _ _ _ _ _ hm h => hm.timed h) hs ht

theorem autoCount_of_trace (h : s'.trace = new ++ s.trace) (hno : .autoStart n ∉ new) :
    s'.autoCount n = s.autoCount n := by
  have h0 : new.countP (· = .autoStart n) = 0 :=
    List.countP_eq_zero.mpr fun a ha => by
      simp only [decide_eq_true_eq]
      rintro rfl
      exact hno ha
  rw [Sys.autoCount, h, List.countP_append, h0, Nat.zero_add]
  rfl

theorem Move.autoCount (hm : Move s l s') (hl : l ≠ .start .supervisor n) :
    s'.autoCount n = s.autoCount n := by
  obtain ⟨new, ht, he⟩ := hm.trace
  refine autoCount_of_trace ht fun ha => ?_
  have h := he _ ha
  cases l with
  | silent => exact h
  | start o m =>
      rcases h with h | ⟨pid, h⟩
      · cases o with
        | operator => cases h
        | supervisor =>
            cases h
            exact hl rfl
      · cases h
  | reap m =>
      obtain ⟨st, h⟩ := h
      cases h
  | register m => exact h
  | halt m => exact h

theorem Moves.autoCount (hm : Moves P s s') (hs : Sound s)
    (hP : ∀ l, P l → l ≠ .start .supervisor n) : s'.autoCount n = s.autoCount n :=
  hm.invariant (I := fun s₁ => s₁.autoCount n = s.autoCount n)
    (fun _ l _ _ hl hm h => (hm.autoCount (hP l hl)).trans h) hs rfl

/-! ### A pass -/

/-- A start leaves no service waiting for one. -/
theorem serviceStart_not_waiting (hn : s.services.find n = some svc) (hr : svc.state = .restarting) :
    ∀ svc', (serviceStart env s n).2.services.find n = some svc' → svc'.state ≠ .restarting := by
  have upd : ∀ {t : Sys} {f : ServiceRuntime → ServiceRuntime}, (∀ rt, (f rt).state ≠ .restarting) →
      ∀ svc', (t.upd n f).services.find n = some svc' → svc'.state ≠ .restarting := by
    intro t f hf svc' h
    obtain ⟨svc₀, -, -, e⟩ := Registry.find_modify_some h
    rw [e, if_pos rfl]
    exact hf _
  refine serviceStart_cases (motive := fun r => ∀ svc', r.2.services.find n = some svc' →
    svc'.state ≠ .restarting) hn ?_ ?_ ?_ ?_
  · exact fun k => SvcState.noConfusion (hr.symm.trans k)
  · exact fun _ _ => upd fun _ => SvcState.noConfusion
  · exact fun _ _ _ => upd fun _ => SvcState.noConfusion
  · intro pid hf _ _ _
    rw [Sys.limited_services]
    exact upd fun rt => forkedRuntime_state_ne _ _ _ rt

theorem checkOne_dueAt (hd : s.DueAt now n) :
    checkOne env now s n = (serviceStart env (s.emit (.autoStart n)) n).2 := by
  obtain ⟨svc, hn, hr⟩ := hd
  simp only [checkOne, hn, if_pos hr]
  split
  · rename_i hneg
    exact serviceStart_failed (s := s.emit (.autoStart n)) hn hneg
  · rfl

theorem checkOne_autoCount (hd : s.DueAt now n) :
    (checkOne env now s n).autoCount n = s.autoCount n + 1 := by
  obtain ⟨new, ht, hnew⟩ := serviceStart_since env (s.emit (.autoStart n)) n
  rw [checkOne_dueAt hd, autoCount_of_trace ht fun h => hnew _ h]
  simp [Sys.autoCount]

/-- **A pass over the services** starts a service automatically at most once, and only when it is due;
afterwards it is not waiting. -/
theorem checkLoop_autoCount (env : Env) (now : UInt64) : ∀ (ns : List Name) (s : Sys), ns.Nodup →
    (checkLoop env now ns s).autoCount n = s.autoCount n ∨
      s.DueAt now n ∧ (checkLoop env now ns s).autoCount n = s.autoCount n + 1 ∧
        ∀ svc, (checkLoop env now ns s).services.find n = some svc → svc.state ≠ .restarting
  | [], _, _ => .inl rfl
  | m :: ns, s, hd => by
      obtain ⟨hm, hd'⟩ := List.nodup_cons.mp hd
      have ih := checkLoop_autoCount env now ns (checkOne env now s m) hd'
      by_cases e : n = m
      · subst e
        by_cases hdue : s.DueAt now n
        · -- the turn of `n`, which has no other
          have hrest : (checkLoop env now ns (checkOne env now s n)).autoCount n =
              (checkOne env now s n).autoCount n := by
            obtain ⟨new, ht, hnew⟩ := checkLoop_since env now ns (checkOne env now s n) hd'
            exact autoCount_of_trace ht fun h => hm ((hnew n).mp h).1
          refine .inr ⟨hdue, hrest.trans (checkOne_autoCount hdue), fun svc hn => ?_⟩
          rw [checkLoop, checkLoop_find_not_mem env now ns _ hm, checkOne_dueAt hdue] at hn
          obtain ⟨svc₀, hn₀, hr, -⟩ := hdue
          exact serviceStart_not_waiting (s := s.emit (.autoStart n)) hn₀ hr svc hn
        · obtain ⟨new, ht, hnew⟩ := checkLoop_since env now (n :: ns) s hd
          exact .inl (autoCount_of_trace ht fun h => hdue ((hnew n).mp h).2)
      · obtain ⟨new, ht, hnew⟩ := checkOne_since env now s m
        have hone : (checkOne env now s m).autoCount n = s.autoCount n :=
          autoCount_of_trace ht fun h => e ((hnew n).mp h).1
        have hdue : (checkOne env now s m).DueAt now n ↔ s.DueAt now n :=
          Sys.DueAt.congr (checkOne_find_ne now e)
        rwa [hone, hdue] at ih

theorem Move.clock_le (hm : Move s l s') : s.clock ≤ s'.clock := by
  cases hm with
  | clock t => exact s.le_readClock t
  | _ => exact UInt64.le_refl _

theorem Moves.clock_le (hm : Moves P s s') (hs : Sound s) : s.clock ≤ s'.clock :=
  hm.invariant (I := fun s₁ => s.clock ≤ s₁.clock)
    (fun _ _ _ _ _ hm h => UInt64.le_trans h hm.clock_le) hs (UInt64.le_refl _)

theorem Moves.lastCheck_le (hm : Moves P s s') (hs : Sound s) (ht : Timed s) :
    s.lastCheckTime ≤ s'.lastCheckTime := by
  have hI : Timed s' ∧ s.lastCheckTime ≤ s'.lastCheckTime :=
    hm.invariant (I := fun s₁ => Timed s₁ ∧ s.lastCheckTime ≤ s₁.lastCheckTime)
      (fun _ _ _ _ _ hm h => ⟨hm.timed h.1, UInt64.le_trans h.2 (hm.lastCheck_le h.1)⟩) hs
      ⟨ht, UInt64.le_refl _⟩
  exact hI.2

/-- A service that is due has waited for its gap since anything a pass reads. -/
theorem Sys.LastAuto.gap_le (h : s.LastAuto n last) (ht : Timed s)
    (hlim : ¬ s.clock - s.lastCheckTime < checkIntervalNs) (hn : s.services.find n = some svc)
    (hr : svc.state = .restarting) (hdue : restartDue s.clock svc = true) :
    restartGap svc.toServiceConfig + last.toNat ≤ s.clock.toNat := by
  have hcheck := UInt64.le_iff_toNat_le.mp h.check
  have hstop := UInt64.le_iff_toNat_le.mp (h.stop svc hn hr)
  have hpass : checkIntervalNs.toNat ≤ s.clock.toNat - s.lastCheckTime.toNat := by
    rw [← UInt64.toNat_sub_of_le _ _ ht.check]
    exact UInt64.le_iff_toNat_le.mp (UInt64.not_lt.mp hlim)
  have hdelay : (UInt64.ofInt svc.restartDelayMs).toNat ≤
      (s.clock.toNat - svc.stopTime.toNat) / 1000000 := by
    have hle := UInt64.le_iff_toNat_le.mp (of_decide_eq_true hdue)
    rwa [elapsedMs, UInt64.toNat_div, UInt64.toNat_sub_of_le _ _ (ht.stop n svc hn)] at hle
  have hle := UInt64.le_iff_toNat_le.mp ht.check
  have hle' := UInt64.le_iff_toNat_le.mp (ht.stop n svc hn)
  have hmul := (Nat.le_div_iff_mul_le (by decide : 0 < 1000000)).mp hdelay
  have hmin : 0 < checkIntervalNs.toNat := by decide
  simp only [restartGap]
  omega

/-! ### Runs -/

/-- **One event** starts a service automatically at most once, and then its gap has passed since the
last time. -/
theorem Step.autoCount {e : Event} (he : Step s e s') (hs : Sound s) (ht : Timed s) :
    s'.autoCount n = s.autoCount n ∨
      s'.autoCount n = s.autoCount n + 1 ∧ s'.LastAuto n s.clock ∧
        ∃ svc, s.services.find n = some svc ∧ ∀ last, s.LastAuto n last →
          restartGap svc.toServiceConfig + last.toNat ≤ s.clock.toNat := by
  by_cases hc : ∃ env, e = .check env
  · obtain ⟨env, rfl⟩ := hc
    cases he
    simp only [supervisorCheckServices]
    split
    · exact .inl rfl
    · rename_i hlim
      rcases checkLoop_autoCount (n := n) env s.clock s.services.names
          { s with lastCheckTime := s.clock } s.services.nodup with h | ⟨hdue, hcount, hwait⟩
      · exact .inl h
      · obtain ⟨svc, hn, hr, hd⟩ := hdue
        have hm : Moves (fun _ => True) { s with lastCheckTime := s.clock }
            (checkLoop env s.clock s.services.names { s with lastCheckTime := s.clock }) :=
          checkLoop_moves s.clock (fun _ _ => trivial) _ _
        have hs₁ : Sound { s with lastCheckTime := s.clock } := (Move.check s).sound hs
        have ht₁ : Timed { s with lastCheckTime := s.clock } := (Move.check s).timed ht
        exact .inr ⟨hcount, ⟨hm.lastCheck_le hs₁ ht₁, fun svc hn hr => absurd hr (hwait svc hn)⟩,
          svc, hn, fun last hl => hl.gap_le ht hlim hn hr hd⟩
  · refine .inl ((he.moves hs).autoCount hs fun l hl k => ?_)
    subst k
    cases e with
    | check env => exact hc ⟨env, rfl⟩
    | boot | exit | adopt | tick | sigchld | sighup => exact hl
    | request read env =>
        cases read with
        | none => exact hl
        | some req => exact hl

/-- What a run from `s₀` has of automatic starts, at `s`. -/
def Sys.Rated (s₀ s : Sys) (n : Name) (gap : Nat) : Prop :=
  s₀.clock ≤ s.clock ∧ (s.autoCount n = s₀.autoCount n ∨
    ∃ a last, s.autoCount n = s₀.autoCount n + (a + 1) ∧ a * gap + s₀.clock.toNat ≤ last.toNat ∧
      s.LastAuto n last)

theorem Step.rated {s₀ : Sys} {e : Event} {gap : Nat} (he : Step s e s') (hs : Sound s)
    (ht : Timed s) (hcfg : ∀ svc, s.services.find n = some svc → restartGap svc.toServiceConfig = gap)
    (h : s₀.Rated s n gap) : s₀.Rated s' n gap := by
  have hm := he.moves hs
  obtain ⟨hclock, h⟩ := h
  refine ⟨UInt64.le_trans hclock (hm.clock_le hs), ?_⟩
  rcases he.autoCount (n := n) hs ht with hcount | ⟨hcount, hlast, svc, hn, hgap⟩
  · rw [hcount]
    exact h.imp id fun ⟨a, last, ha, hle, hl⟩ => ⟨a, last, ha, hle, hm.lastAuto hs ht hl⟩
  · rcases h with h | ⟨a, last, ha, hle, hl⟩
    · exact .inr ⟨0, s.clock, by rw [hcount, h],
        by rw [Nat.zero_mul, Nat.zero_add]; exact UInt64.le_iff_toNat_le.mp hclock, hlast⟩
    · have hg := hgap last hl
      rw [hcfg svc hn] at hg
      exact .inr ⟨a + 1, s.clock, by rw [hcount, ha]; rfl, by rw [Nat.add_one_mul]; omega, hlast⟩

end

/-- **The rate of the automatic starts.**  In every run from a state lumid can reach, `a + 1` automatic
starts of a service take at least `a` times five seconds, and at least `a` times its restart delay. -/
theorem restart_rate {s s' : Sys} {es : List Event} {n : Name} {svc : Service} (h : Reached s)
    (t : Run Step s es s') (hn : s'.services.find n = some svc) {a : Nat}
    (ha : s'.autoCount n = s.autoCount n + (a + 1)) :
    a * restartGap svc.toServiceConfig + s.clock.toNat ≤ s'.clock.toNat := by
  have hreach : ∀ {s₁}, Passes Step s es s₁ → Reached s₁ := fun ⟨es₁, _, _, t₁⟩ =>
    let ⟨now, h₀⟩ := h
    ⟨now, h₀.trans ⟨es₁, t₁⟩⟩
  -- a state of the run that knows the service knows it with this configuration
  have hcfg : ∀ {s₁}, Passes Step s es s₁ → ∀ svc₁, s₁.services.find n = some svc₁ →
      restartGap svc₁.toServiceConfig = restartGap svc.toServiceConfig := by
    rintro s₁ ⟨es₁, es₂, rfl, t₁⟩ svc₁ hn₁
    obtain ⟨s₂, t₁', t₂⟩ := Run.append_iff.mp t
    obtain rfl := run_det t₁ t₁'
    obtain ⟨svc', hn', e⟩ := run_config t₂ (hreach ⟨es₁, es₂, rfl, t₁⟩).sound hn₁
    obtain rfl := Option.some.inj (hn.symm.trans hn')
    rw [e]
  have hrated : s.Rated s' n (restartGap svc.toServiceConfig) := by
    have hp : Passes Step s es s' := ⟨es, [], (List.append_nil es).symm, t⟩
    refine hp.induction (P := fun s₁ => s.Rated s₁ n (restartGap svc.toServiceConfig))
      ⟨UInt64.le_refl _, .inl rfl⟩ fun s₁ e s₂ hst hI => ?_
    exact hst.rel.rated (hreach hst.source).sound (hreach hst.source).timed (hcfg hst.source) hI
  have ht' := (hreach ⟨es, [], (List.append_nil es).symm, t⟩).timed
  rcases hrated.2 with h0 | ⟨a', last, ha', hle, hl⟩
  · omega
  · obtain rfl : a' = a := by omega
    exact hle.trans ((UInt64.le_iff_toNat_le.mp hl.check).trans (UInt64.le_iff_toNat_le.mp ht'.check))

/-- lumid when it has started `devd` automatically twice. -/
def crashLooped : Sys := (exec crashLoop (Sys.init 0)).getD (Sys.init 0)

theorem restart_rate_crashLooped :
    1 * restartGap (retryingDevd 1) + (Sys.init 0).clock.toNat ≤ crashLooped.clock.toNat := by
  have hrun : Run Step (Sys.init 0) crashLoop crashLooped := run_of_exec rfl
  exact restart_rate (n := devd) ⟨0, .refl _⟩ hrun rfl (by decide)

end LumiOS.Lumid
