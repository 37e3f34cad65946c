import LumiOS.Lumid.Times

/-!
# Lumid — Delay

The two pauses before a restart.

The supervisor compares the milliseconds since the stop with `restart_delay_ms` as an unsigned 64-bit
number, so a negative delay is one that no time exceeds; `service_restart` multiplies it in 32 bits, so
from 2^32 microseconds on the product wraps.  Both are right exactly for a delay from 0 to 4294967
(`delay_honoured_iff`).
-/

namespace LumiOS.Lumid

open Support

/-! ### What is observed -/

/-- What lumid has done between two states, newest first. -/
def Sys.since (s s' : Sys) : List Action := s'.trace.take (s'.trace.length - s.trace.length)

/-- The microseconds lumid has slept. -/
def slept : List Action → Nat
  | [] => 0
  | .usleep us :: acts => us.toNat + slept acts
  | _ :: acts => slept acts

/-- The whole milliseconds from `past` to `now`. -/
def wholeMs (now past : UInt64) : Int := (now.toNat - past.toNat : Nat) / 1000000

/-- A `service_restart`, when `service_stop` has returned. -/
def restartStopped (env : Env) (s : Sys) (n : Name) : Sys :=
  (serviceStop env (s.upd n ({ · with state := .restarting })) n).2

/-- `restart_delay_ms` has its meaning on both paths, in every state of a run of lumid: a pass that is
not rate-limited starts a waiting service exactly when the delay is over, and a restart sleeps for the
delay after it has stopped the service. -/
structure Honoured (d : Int32) : Prop where
  pass : ∀ s env n svc, Reached s → s.services.find n = some svc → svc.restartDelayMs = d.toInt →
    svc.state = .restarting → ¬ s.clock - s.lastCheckTime < checkIntervalNs →
    (.autoStart n ∈ s.since (supervisorCheckServices env s) ↔
      max 0 d.toInt ≤ wholeMs s.clock svc.stopTime)
  restart : ∀ s env n svc, Reached s → s.services.find n = some svc → svc.restartDelayMs = d.toInt →
    d.toInt * 1000 ≤ slept ((restartStopped env s n).since (serviceRestart env s n).2)

section

variable {s s' : Sys} {n m : Name} {svc : Service} {env : Env} {new : List Action} {now : UInt64}
  {d : Int32}

theorem since_of_trace (h : s'.trace = new ++ s.trace) : s.since s' = new := by
  rw [Sys.since, h, List.length_append, Nat.add_sub_cancel, List.take_left]

/-- An action of `service_start` itself. -/
def Action.OfStart : Action → Prop
  | .fork _ _ | .forkFailed _ | .cgroupSetup _ _ _ => True
  | _ => False

theorem serviceStart_since (env : Env) (s : Sys) (n : Name) :
    ∃ new, (serviceStart env s n).2.trace = new ++ s.trace ∧ ∀ a ∈ new, a.OfStart := by
  cases hn : s.services.find n with
  | none => exact ⟨[], by rw [serviceStart_unregistered hn]; rfl, by simp⟩
  | some svc =>
      refine serviceStart_cases
        (motive := fun r => ∃ new, r.2.trace = new ++ s.trace ∧ ∀ a ∈ new, a.OfStart) hn ?_ ?_ ?_ ?_
      · exact fun _ => ⟨[], rfl, by simp⟩
      · exact fun _ _ => ⟨[], rfl, by simp⟩
      · exact fun _ _ _ => ⟨[.forkFailed n], rfl, by simp [Action.OfStart]⟩
      · intro pid hf _ _ _
        simp only [Sys.limited]
        split
        · exact ⟨[.cgroupSetup _ _ pid, .fork n pid], rfl, by simp [Action.OfStart]⟩
        · exact ⟨[.fork n pid], rfl, by simp [Action.OfStart]⟩

/-! ### A pass -/

/-- The service is waiting for its restart, and its delay is over. -/
def Sys.DueAt (s : Sys) (now : UInt64) (n : Name) : Prop :=
  ∃ svc, s.services.find n = some svc ∧ svc.state = .restarting ∧ restartDue now svc = true

theorem checkOne_since (env : Env) (now : UInt64) (s : Sys) (n : Name) :
    ∃ new, (checkOne env now s n).trace = new ++ s.trace ∧
      ∀ m, .autoStart m ∈ new ↔ m = n ∧ s.DueAt now n := by
  by_cases hd : s.DueAt now n
  · obtain ⟨svc, hn, hr⟩ := id hd
    obtain ⟨new, ht, hnew⟩ := serviceStart_since env (s.emit (.autoStart n)) n
    refine ⟨new ++ [.autoStart n], ?_, fun m => ?_⟩
    · simp only [checkOne, hn, if_pos hr]
      split <;> simp [ht]
    · have hno : .autoStart m ∉ new := fun hm => hnew _ hm
      simp [hno, hd]
  · refine ⟨[], ?_, fun m => by simp [hd]⟩
    cases hn : s.services.find n with
    | none => simp only [checkOne, hn, List.nil_append]
    | some svc =>
        have hr : ¬ (svc.state = .restarting ∧ restartDue now svc) := fun hr => hd ⟨svc, hn, hr⟩
        simp only [checkOne, hn, if_neg hr, List.nil_append]

theorem Sys.DueAt.congr (h : s'.services.find m = s.services.find m) :
    s'.DueAt now m ↔ s.DueAt now m := by
  simp only [Sys.DueAt, h]

theorem checkLoop_since (env : Env) (now : UInt64) : ∀ (ns : List Name) (s : Sys), ns.Nodup →
    ∃ new, (checkLoop env now ns s).trace = new ++ s.trace ∧
      ∀ m, .autoStart m ∈ new ↔ m ∈ ns ∧ s.DueAt now m
  | [], s, _ => ⟨[], rfl, by simp⟩
  | n :: ns, s, hnd => by
      obtain ⟨hn, hnd⟩ := List.nodup_cons.mp hnd
      obtain ⟨new₁, ht₁, h₁⟩ := checkOne_since env now s n
      obtain ⟨new₂, ht₂, h₂⟩ := checkLoop_since env now ns (checkOne env now s n) hnd
      refine ⟨new₂ ++ new₁, by rw [checkLoop, ht₂, ht₁, List.append_assoc], fun m => ?_⟩
      rw [List.mem_append, h₁, h₂, List.mem_cons]
      constructor
      · rintro (⟨hm, hd⟩ | ⟨rfl, hd⟩)
        · have hne : m ≠ n := fun e => hn (e ▸ hm)
          exact ⟨.inr hm, (Sys.DueAt.congr (checkOne_find_ne now hne)).mp hd⟩
        · exact ⟨.inl rfl, hd⟩
      · rintro ⟨rfl | hm, hd⟩
        · exact .inr ⟨rfl, hd⟩
        · have hne : m ≠ n := fun e => hn (e ▸ hm)
          exact .inl ⟨hm, (Sys.DueAt.congr (checkOne_find_ne now hne)).mpr hd⟩

/-- A pass that is not rate-limited starts the services that are due. -/
theorem autoStart_iff (env : Env) (hlim : ¬ s.clock - s.lastCheckTime < checkIntervalNs)
    (hn : s.services.find n = some svc) (hr : svc.state = .restarting) :
    .autoStart n ∈ s.since (supervisorCheckServices env s) ↔ restartDue s.clock svc = true := by
  obtain ⟨new, ht, hnew⟩ := checkLoop_since env s.clock s.services.names
    { s with lastCheckTime := s.clock } s.services.nodup
  have hpass : (supervisorCheckServices env s).trace = new ++ s.trace := by
    rw [supervisorCheckServices, if_neg hlim]
    exact ht
  have hmem : n ∈ s.services.names :=
    List.mem_map.mpr ⟨svc, (Registry.find_eq_some.mp hn).1, Registry.name_of_find hn⟩
  rw [since_of_trace hpass, hnew]
  constructor
  · rintro ⟨-, svc', hn', -, hd⟩
    obtain rfl := Option.some.inj (hn.symm.trans hn')
    exact hd
  · exact fun hd => ⟨hmem, svc, hn, hr, hd⟩

theorem elapsedMs_toNat {past : UInt64} (h : past ≤ now) :
    ((elapsedMs now past).toNat : Int) = wholeMs now past := by
  rw [elapsedMs, wholeMs, UInt64.toNat_div, UInt64.toNat_sub_of_le _ _ h]
  simp

/-- As an unsigned number, a delay that is not negative is itself, and a negative one is longer than
any time. -/
theorem restartDue_iff (h : svc.stopTime ≤ now) (hd : svc.restartDelayMs = d.toInt) :
    restartDue now svc = true ↔ 0 ≤ d.toInt ∧ d.toInt ≤ wholeMs now svc.stopTime := by
  have hlo := d.le_toInt
  have hhi := d.toInt_lt
  have hlt := (now - svc.stopTime).toNat_lt
  rw [← elapsedMs_toNat h, restartDue, decide_eq_true_eq, hd, UInt64.le_iff_toNat_le]
  have he : (elapsedMs now svc.stopTime).toNat = (now - svc.stopTime).toNat / 1000000 := by
    rw [elapsedMs, UInt64.toNat_div]
    rfl
  rw [he, UInt64.ofInt, UInt64.toNat_ofNat']
  omega

/-! ### A restart -/

theorem slept_append (l₁ l₂ : List Action) : slept (l₁ ++ l₂) = slept l₁ + slept l₂ := by
  induction l₁ with
  | nil => exact (Nat.zero_add _).symm
  | cons a l₁ ih => cases a <;> simp only [List.cons_append, slept, ih, Nat.add_assoc]

theorem slept_ofStart (h : ∀ a ∈ new, a.OfStart) : slept new = 0 := by
  induction new with
  | nil => rfl
  | cons a new ih =>
      have ha := h a List.mem_cons_self
      have ih := ih fun b hb => h b (List.mem_cons_of_mem a hb)
      cases a with
      | usleep us => exact absurd ha id
      | _ => exact ih

/-- The pause of a restart. -/
theorem serviceRestart_slept (env : Env) (hn : s.services.find n = some svc) :
    slept ((restartStopped env s n).since (serviceRestart env s n).2) =
      if 0 < svc.restartDelayMs then (restartSleep svc.restartDelayMs).toNat else 0 := by
  have hn' : (s.upd n ({ · with state := .restarting })).services.find n =
      some (svc.update ({ · with state := .restarting })) := by simp [hn]
  have hstop : (restartStopped env s n).trace = s.trace := by
    rw [restartStopped, serviceStop_of_not_live hn' ⟨SvcState.noConfusion, SvcState.noConfusion⟩]
    rfl
  rw [serviceRestart_eq hn]
  split
  · obtain ⟨new, ht, hnew⟩ := serviceStart_since env
      (((s.emit (.usleep (restartSleep svc.restartDelayMs))).emit (.operatorStart n)).upd n
        ({ · with state := .restarting })) n
    have htrace : (serviceStart env
        (((s.emit (.usleep (restartSleep svc.restartDelayMs))).emit (.operatorStart n)).upd n
          ({ · with state := .restarting })) n).2.trace =
        (new ++ [.operatorStart n, .usleep (restartSleep svc.restartDelayMs)]) ++
          (restartStopped env s n).trace := by
      rw [ht, hstop]
      simp
    rw [since_of_trace htrace, slept_append, slept_ofStart hnew]
    simp [slept]
  · obtain ⟨new, ht, hnew⟩ := serviceStart_since env
      ((s.emit (.operatorStart n)).upd n ({ · with state := .restarting })) n
    have htrace : (serviceStart env
        ((s.emit (.operatorStart n)).upd n ({ · with state := .restarting })) n).2.trace =
        (new ++ [.operatorStart n]) ++ (restartStopped env s n).trace := by
      rw [ht, hstop]
      simp
    rw [since_of_trace htrace, slept_append, slept_ofStart hnew]
    rfl

theorem restartSleep_toNat (h : 0 ≤ d.toInt) :
    (restartSleep d.toInt).toNat = d.toInt.toNat * 1000 % 2 ^ 32 := by
  have hhi := d.toInt_lt
  have he : (UInt32.ofInt d.toInt).toNat = d.toInt.toNat := by
    rw [UInt32.ofInt, UInt32.toNat_ofNat']
    omega
  rw [restartSleep, UInt32.toNat_mul, he]
  rfl

/-! ### When the delay is honoured -/

theorem restart_sleeps_iff (env : Env) (hn : s.services.find n = some svc)
    (hd : svc.restartDelayMs = d.toInt) :
    d.toInt * 1000 ≤ slept ((restartStopped env s n).since (serviceRestart env s n).2) ↔
      d.toInt ≤ 4294967 := by
  rw [serviceRestart_slept env hn, hd]
  split
  · rename_i hpos
    rw [restartSleep_toNat (Int.le_of_lt hpos)]
    have hhi := d.toInt_lt
    constructor
    · intro h
      by_contra hbig
      -- the product has wrapped
      have := Nat.mod_lt (d.toInt.toNat * 1000) (show 0 < 2 ^ 32 by decide)
      omega
    · intro h
      rw [Nat.mod_eq_of_lt (by omega)]
      omega
  · omega

/-- `devd` with the policy `always` and this delay. -/
def delayedDevd (d : Int32) : ServiceConfig :=
  { name := devd, restartPolicy := .always, restartDelayMs := d.toInt }

/-- It has exited, has been reaped, and six seconds have gone by. -/
def delayedCrash (d : Int32) : Sys :=
  (supervisorHandleSigchld (Env.plain 11 0) [(10, .exited 1)]
    ((booted (delayedDevd d)).childExit 10 (.exited 1))).readClock 6000000000

theorem delayedCrash_reached (d : Int32) : Reached (delayedCrash d) := by
  obtain ⟨now, h⟩ := booted_reached (delayedDevd d)
  have he : Step (booted (delayedDevd d)) (.exit 10 (.exited 1))
      ((booted (delayedDevd d)).childExit 10 (.exited 1)) := rfl
  have hr : Step ((booted (delayedDevd d)).childExit 10 (.exited 1))
      (.sigchld [(10, .exited 1)] (Env.plain 11 0)) _ := .sigchld (.refl _)
  exact ⟨now, ((h.step he).step hr).step (e := .tick 6000000000) rfl⟩

/-- The service in this state. -/
def waitingDevd (d : Int32) : Service :=
  (serviceCreate (delayedDevd d)).update
    ({ · with state := .restarting, restartCount := 1, exitCode := 1 })

theorem delayedCrash_find (d : Int32) :
    (delayedCrash d).services.find devd = some (waitingDevd d) := rfl

theorem not_honoured_of_neg (h : d.toInt < 0) : ¬ Honoured d := by
  intro hon
  have hstop : (waitingDevd d).stopTime ≤ (delayedCrash d).clock := UInt64.zero_le
  have hlim : ¬ (delayedCrash d).clock - (delayedCrash d).lastCheckTime < checkIntervalNs := by
    show ¬ (6000000000 : UInt64) - 0 < checkIntervalNs
    decide
  have hpass := hon.pass (delayedCrash d) (Env.plain 11 0) devd _ (delayedCrash_reached d)
    (delayedCrash_find d) rfl rfl hlim
  rw [autoStart_iff _ hlim (delayedCrash_find d) rfl, restartDue_iff hstop rfl] at hpass
  -- the delay is over, and the service is not started
  have hover : max 0 d.toInt ≤ wholeMs (delayedCrash d).clock (waitingDevd d).stopTime := by
    rw [max_eq_left (Int.le_of_lt h)]
    exact Int.natCast_nonneg _
  exact absurd (hpass.mpr hover).1 (Int.not_le.mpr h)

theorem not_honoured_of_large (h : 4294967 < d.toInt) : ¬ Honoured d := by
  intro hon
  have hrestart := hon.restart (delayedCrash d) (Env.plain 11 0) devd _ (delayedCrash_reached d)
    (delayedCrash_find d) rfl
  rw [restart_sleeps_iff _ (delayedCrash_find d) rfl] at hrestart
  exact absurd hrestart (Int.not_le.mpr h)

/-- **The delay is honoured on both paths exactly when it is from 0 to 4294967 milliseconds.** -/
theorem delay_honoured_iff (d : Int32) : Honoured d ↔ 0 ≤ d.toInt ∧ d.toInt ≤ 4294967 := by
  constructor
  · intro hon
    exact ⟨Int.not_lt.mp fun h => not_honoured_of_neg h hon,
      Int.not_lt.mp fun h => not_honoured_of_large h hon⟩
  · rintro ⟨h0, hmax⟩
    refine ⟨fun s env n svc hs hn hd hr hlim => ?_, fun s env n svc _ hn hd => ?_⟩
    · rw [autoStart_iff env hlim hn hr, restartDue_iff (hs.timed.stop n svc hn) hd, max_eq_right h0]
      exact and_iff_right h0
    · exact (restart_sleeps_iff env hn hd).mpr hmax

/-- A service with a delay of −1 is never restarted, and a restart of one with 4294968 sleeps for less
than a millisecond. -/
theorem delay_not_honoured : ¬ Honoured (-1) ∧ ¬ Honoured 4294968 :=
  ⟨not_honoured_of_neg (by decide), not_honoured_of_large (by decide)⟩

end

end LumiOS.Lumid
