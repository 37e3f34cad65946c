import LumiOS.Lumid.Stop

/-!
# Lumid — Times

What the recorded times mean.  `stop_time` and `g_last_check_time` are readings of the monotonic
clock, so in every state of a run neither is later than the clock (`Reached.timed`), and the unsigned
differences of `supervisor_check_services` are true durations.  With the pid fields of `Moves.lean`,
a pass of the supervisor starts only services that record no process (`Reached.restarting`).
-/

namespace LumiOS.Lumid

open Support

/-- Neither recorded time is later than the clock. -/
structure Timed (s : Sys) : Prop where
  check : s.lastCheckTime ≤ s.clock
  stop : ∀ n svc, s.services.find n = some svc → svc.stopTime ≤ s.clock

/-- The unsigned difference `now - then` is the time from `then` to `now`. -/
def NoWrap (now past : UInt64) : Prop :=
  ((now - past).toNat : Int) = (now.toNat : Int) - (past.toNat : Int)

theorem noWrap_of_le {now past : UInt64} (h : past ≤ now) : NoWrap now past := by
  have hle : past.toNat ≤ now.toNat := UInt64.le_iff_toNat_le.mp h
  simp only [NoWrap, UInt64.toNat_sub_of_le _ _ h]
  omega

section

variable {s s' : Sys} {n m : Name} {svc : Service} {env : Env}

/-! ### The times along a run -/

/-- A change of one service that leaves the stop time alone, or sets it to the clock. -/
theorem Timed.upd (h : Timed s) {f : ServiceRuntime → ServiceRuntime}
    (hf : ∀ rt, (f rt).stopTime = rt.stopTime ∨ (f rt).stopTime = s.clock) :
    Timed (s.upd n f) where
  check := h.check
  stop := by
    intro m svc hm
    obtain ⟨svc', hm', -, he⟩ := Registry.find_modify_some hm
    have hle := h.stop m svc' hm'
    rw [he]
    split
    · rcases hf svc'.toServiceRuntime with e | e
      · exact e ▸ hle
      · exact e ▸ UInt64.le_refl s.clock
    · exact hle

theorem reapRuntime_stopTime (cfg : ServiceConfig) (st : WaitStatus) (now : UInt64)
    (rt : ServiceRuntime) : (reapRuntime cfg st now rt).stopTime = now := by
  simp only [reapRuntime]
  split
  · rfl
  · split <;> rfl

/-- **Every move keeps the times behind the clock.** -/
theorem Move.timed {l : Label} (hm : Move s l s') (h : Timed s) : Timed s' := by
  cases hm with
  | clock t =>
      have hle := s.le_readClock t
      exact ⟨UInt64.le_trans h.check hle, fun n svc hn => UInt64.le_trans (h.stop n svc hn) hle⟩
  | check => exact ⟨UInt64.le_refl _, h.stop⟩
  | admin n b => exact h.upd fun _ => .inl rfl
  | register cfg hn =>
      refine ⟨h.check, fun m svc hm => ?_⟩
      rw [Registry.find_cons] at hm
      split at hm
      · cases hm
        exact UInt64.zero_le
      · exact h.stop m svc hm
  | @startFail n svc o _ _ =>
      have h' : Timed (s.emit (o.mark n)) := ⟨h.check, h.stop⟩
      exact h'.upd fun _ => .inl rfl
  | @startFork n svc o pid _ _ hf =>
      have h' : Timed (((s.emit (o.mark n)).withChildren
          (s.children.insert pid (some n) hf)).emit (.fork n pid)) := ⟨h.check, h.stop⟩
      exact h'.upd fun _ => .inl rfl
  | @halt n svc st _ _ _ =>
      have h' : Timed (s.reaped svc.pid) := ⟨h.check, h.stop⟩
      exact h'.upd fun _ => .inr rfl
  | @reap n svc st _ _ =>
      have h' : Timed ((s.reaped svc.pid).emit (.reap n st)) := ⟨h.check, h.stop⟩
      exact h'.upd fun rt => .inr (reapRuntime_stopTime _ _ _ rt)
  | _ => exact ⟨h.check, h.stop⟩

theorem timed_init (now : UInt64) : Timed (Sys.init now) where
  check := UInt64.le_refl now
  stop := by intro n svc h; simp [Sys.init, Registry.empty, Registry.find] at h

theorem Reached.timed (h : Reached s) : Timed s :=
  h.invariant timed_init fun _ _ _ _ hm ht => hm.timed ht

/-! ### A pass of the supervisor -/

theorem checkOne_find_ne (now : UInt64) (h : m ≠ n) :
    (checkOne env now s n).services.find m = s.services.find m := by
  have hst : (serviceStart env (s.emit (.autoStart n)) n).2.services.find m = s.services.find m :=
    serviceStart_find_ne h
  simp only [checkOne]
  split
  · rfl
  · split
    · split
      · exact (Registry.find_modify_ne h).trans hst
      · exact hst
    · rfl

/-- The pass leaves a service alone until its turn. -/
theorem checkLoop_find_not_mem (env : Env) (now : UInt64) : ∀ (ns : List Name) (s : Sys), m ∉ ns →
    (checkLoop env now ns s).services.find m = s.services.find m
  | [], _, _ => rfl
  | n :: ns, s, hm => by
      obtain ⟨hne, hm⟩ := not_or.mp (List.mem_cons.not.mp hm)
      exact (checkLoop_find_not_mem env now ns _ hm).trans (checkOne_find_ne now hne)

/-- **A service waiting for its restart** records no process, and a stop time not later than the
clock, in every state of a run.  So it is when its turn comes in a pass of the supervisor: every start
the pass makes is of a service without a recorded process, and neither difference of the pass
wraps. -/
theorem Reached.restarting (h : Reached s) :
    (∀ svc ∈ s.services.list, svc.state = .restarting → svc.pid = -1 ∧ svc.stopTime ≤ s.clock) ∧
    NoWrap s.clock s.lastCheckTime ∧
    ∀ env pre n post, s.services.names = pre ++ n :: post →
      ∀ svc, (checkLoop env s.clock pre { s with lastCheckTime := s.clock }).services.find n =
          some svc → svc.state = .restarting →
        svc.pid = -1 ∧ NoWrap s.clock svc.stopTime := by
  have ht := h.timed
  have hwait : ∀ svc ∈ s.services.list, svc.state = .restarting →
      svc.pid = -1 ∧ svc.stopTime ≤ s.clock := by
    intro svc hm hr
    have hc := (h.sound.consistent _ _ (Registry.find_of_mem hm)).2
    rw [hr] at hc
    exact ⟨hc, ht.stop _ _ (Registry.find_of_mem hm)⟩
  refine ⟨hwait, noWrap_of_le ht.check, fun env pre n post hns svc hn hr => ?_⟩
  -- the list names `n` once, so nothing has touched it before its turn
  have hpre : n ∉ pre := by
    have hnd : s.services.names.Nodup := s.services.nodup
    rw [hns] at hnd
    exact fun hm => (List.nodup_append.mp hnd).2.2 n hm n List.mem_cons_self rfl
  rw [checkLoop_find_not_mem env s.clock pre _ hpre] at hn
  obtain ⟨hp, hle⟩ := hwait svc (Registry.find_eq_some.mp hn).1 hr
  exact ⟨hp, noWrap_of_le hle⟩

end

theorem Reached.restarting_devd :
    restartingDevd.services.list.map (·.state) = [.restarting] ∧
    ∀ svc ∈ restartingDevd.services.list, svc.state = .restarting →
      svc.pid = -1 ∧ svc.stopTime ≤ restartingDevd.clock :=
  ⟨by decide, (Reached.restarting restartingDevd_reached).1⟩

end LumiOS.Lumid
