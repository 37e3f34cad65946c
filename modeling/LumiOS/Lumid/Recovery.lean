import LumiOS.Lumid.CheckOrder
import LumiOS.Lumid.Reaping

/-!
# Lumid — Recovery

What the supervisor makes of failures.  However many processes have terminated, one
`supervisor_handle_sigchld` and one `supervisor_check_services` after the delays settle all of them: every
service its policy wants restarted, with an attempt left, is started again and has a live process, and
the others are stopped or failed (`recovers`).  For that a service must not stand in the list in front of
one it requires that is restarted too: the pass would find it not yet running, and fail the service for
good (CheckOrder).
-/

namespace LumiOS.Lumid

open Support

/-- How the process of a service has terminated, if it has and nobody knows. -/
def Service.ended (zombies : List (Int × WaitStatus)) (svc : Service) : Option WaitStatus :=
  (zombies.find? (·.1 = svc.pid)).map (·.2)

/-- The supervisor is to start the service. -/
def Service.restarts (zombies : List (Int × WaitStatus)) (svc : Service) : Bool :=
  match svc.ended zombies with
  | none => svc.state = .restarting
  | some st => svc.wantsRestart st && svc.restartCount < svc.restartMaxRetries

/-- The state the supervisor brings the service to. -/
def Service.recovered (zombies : List (Int × WaitStatus)) (svc : Service) : SvcState :=
  if svc.restarts zombies then svc.type.started
  else
    match svc.ended zombies with
    | none => svc.state
    | some st => if svc.wantsRestart st then .failed else .stopped

/-- Everything a restarted service requires is running and has not ended, or is restarted too, is of type
simple, and stands in the list before it. -/
def InTurn (zombies : List (Int × WaitStatus)) (r : Registry) : Prop :=
  ∀ svc ∈ r.list, svc.restarts zombies = true → ∀ d ∈ svc.requires, ∀ dep ∈ r.find d,
    dep.ended zombies = none ∧ dep.state = .running ∨
      dep.restarts zombies = true ∧ dep.type = .simple ∧ Precedes r.names d svc.name

instance (zombies : List (Int × WaitStatus)) (r : Registry) : Decidable (InTurn zombies r) :=
  inferInstanceAs (Decidable (∀ svc ∈ r.list, _))

section

variable {s s₀ s' : Sys} {n m : Name} {ns done : List Name} {svc svc' : Service} {env : Env}
  {now : UInt64} {reports : List (Int × WaitStatus)}

/-! ### The exits -/

theorem Service.ended_of_mem {k : Children Name} {st : WaitStatus} (h : (svc.pid, st) ∈ k.zombies) :
    svc.ended k.zombies = some st := by
  rw [Service.ended, Option.map_eq_some_iff]
  cases hfind : k.zombies.find? (·.1 = svc.pid) with
  | none => exact absurd (List.find?_eq_none.mp hfind _ h) (by simp)
  | some report =>
      have hpid : report.1 = svc.pid := by simpa using List.find?_some hfind
      have hmem : (svc.pid, report.2) ∈ k.zombies := hpid ▸ List.mem_of_find?_eq_some hfind
      exact ⟨report, rfl, Children.zombies_unique hmem h⟩

theorem Service.ended_of_not_mem {zombies : List (Int × WaitStatus)}
    (h : ∀ st, (svc.pid, st) ∉ zombies) : svc.ended zombies = none := by
  rw [Service.ended, Option.map_eq_none_iff, List.find?_eq_none]
  intro report hm hpid
  exact h report.2 (of_decide_eq_true hpid ▸ hm)

/-- A service as the exits leave it. -/
structure Noticed (zombies : List (Int × WaitStatus)) (svc svc' : Service) : Prop where
  config : svc'.toServiceConfig = svc.toServiceConfig
  restarting : svc'.state = .restarting ↔ svc.restarts zombies = true
  recovered : svc'.state ≠ .restarting → svc'.state = svc.recovered zombies
  kept : svc.ended zombies = none → svc' = svc

theorem ReapOutcome.noticed {k : Children Name} (h : ReapOutcome k.zombies svc svc') :
    Noticed k.zombies svc svc' := by
  cases h with
  | kept hk =>
      have hnone := Service.ended_of_not_mem hk
      have hiff : svc.restarts k.zombies = true ↔ svc.state = .restarting := by
        rw [Service.restarts, hnone]
        exact decide_eq_true_iff
      refine ⟨rfl, hiff.symm, fun hne => ?_, fun _ => rfl⟩
      rw [Service.recovered, if_neg (mt hiff.mp hne), hnone]
  | reaped st t hz =>
      have hsome := Service.ended_of_mem hz
      have heq : svc.restarts k.zombies =
          (svc.wantsRestart st && decide (svc.restartCount < svc.restartMaxRetries)) := by
        rw [Service.restarts, hsome]
      have hstate : (reapRuntime svc.toServiceConfig st t svc.toServiceRuntime).state =
          if svc.restarts k.zombies then .restarting
          else if svc.wantsRestart st then .failed else .stopped := by
        simp only [reapRuntime, heq]
        split
        · rfl
        · split <;> rfl
      refine ⟨rfl, ?_, fun hne => ?_, fun e => absurd (hsome.symm.trans e) (Option.some_ne_none st)⟩
      · rw [Service.update_runtime, hstate]
        by_cases hr : svc.restarts k.zombies = true
        · rw [if_pos hr]
          exact iff_of_true rfl hr
        · rw [if_neg hr]
          refine iff_of_false ?_ hr
          split <;> exact SvcState.noConfusion
      · rw [Service.update_runtime, hstate] at hne ⊢
        have hr : svc.restarts k.zombies ≠ true := fun hr => hne (if_pos hr)
        rw [if_neg hr, Service.recovered, if_neg hr, hsome]

theorem Reaps.alive (h : Reaps s reports s') {pid : Int} (hp : s.children.Alive pid) :
    s'.children.Alive pid := by
  induction h with
  | done => exact hp
  | @reap s s' report reports env hr _ ih =>
      refine ih ?_
      obtain ⟨c, hc, rfl, hstatus⟩ := hp
      rw [reapOne_children]
      refine ⟨c, Children.mem_remove.mpr ⟨hc, fun e => ?_⟩, rfl, hstatus⟩
      obtain ⟨c', hc', hpid, hzombie⟩ := Children.mem_zombies.mp (show (report.1, report.2) ∈ _ from hr)
      obtain rfl := Children.eq_of_pid_eq hc' hc (hpid.trans e.symm)
      exact nomatch hstatus.symm.trans hzombie

theorem Reaps.lastCheckTime (h : Reaps s reports s') : s'.lastCheckTime = s.lastCheckTime := by
  induction h with
  | done => rfl
  | @reap s s' report reports env _ _ ih =>
      refine ih.trans ?_
      simp only [reapOne]
      split <;> rfl

/-- What the loop has made of the registry. -/
theorem Reaps.noticed (h : Reaps s reports s') (hd : s.DistinctPids) :
    s'.services.names = s.services.names ∧ ∀ n svc, s.services.find n = some svc →
      ∃ svc', s'.services.find n = some svc' ∧ Noticed s.children.zombies svc svc' := by
  have houtcome := (h.outcome hd).imp fun _ _ => ReapOutcome.noticed
  have hnames : s.services.list.map (·.name) = s'.services.list.map (·.name) := by
    rw [← List.forall₂_eq_eq_eq, List.forall₂_map_left_iff, List.forall₂_map_right_iff]
    exact houtcome.imp fun _ _ hn => congrArg (·.name) hn.config.symm
  refine ⟨hnames.symm, fun n svc hn => ?_⟩
  obtain ⟨hm, rfl⟩ := Registry.find_eq_some.mp hn
  obtain ⟨i, hi, rfl⟩ := List.getElem_of_mem hm
  have hi' : i < s'.services.list.length := houtcome.length_eq ▸ hi
  have hnoticed := houtcome.get hi hi'
  refine ⟨_, ?_, hnoticed⟩
  exact Registry.find_eq_some.mpr ⟨List.get_mem _ _, congrArg (·.name) hnoticed.config⟩

/-! ### The pass -/

/-- The pass from `s₀` has come past the services named in `done`, and is at `s`. -/
structure Swept (s₀ : Sys) (done : List Name) (s : Sys) : Prop where
  known : ∀ m svc, s₀.services.find m = some svc → ∃ svc', s.services.find m = some svc' ∧
    svc'.toServiceConfig = svc.toServiceConfig ∧
      if m ∈ done ∧ svc.state = .restarting then
        svc'.state = svc.type.started ∧ s.children.Alive svc'.pid
      else svc' = svc
  unknown : ∀ m, s₀.services.find m = none → s.services.find m = none
  alive : ∀ pid, s₀.children.Alive pid → s.children.Alive pid

theorem Swept.refl (s : Sys) : Swept s [] s where
  known _ svc h := ⟨svc, h, rfl, by simp⟩
  unknown _ h := h
  alive _ h := h

/-- The turn of a service that is due, with all it requires running. -/
theorem checkOne_started (hn : s.services.find n = some svc) (hdue : svc.Due now)
    (hmet : requiresMet s.services svc = true) (hf : env.ForksFor s.children (n :: ns)) (hd : n ∉ ns) :
    ∃ pid, ∃ hfresh : s.children.Fresh pid,
      (checkOne env now s n).children = s.children.insert pid (some n) hfresh ∧
      (∃ t, (checkOne env now s n).services.find n =
        some (svc.update (forkedRuntime svc.toServiceConfig pid t))) ∧
      env.ForksFor (checkOne env now s n).children ns := by
  obtain ⟨pid, hpid, hfresh⟩ := hf.1 n List.mem_cons_self
  have hready : (s.emit (.autoStart n)).ready n svc = true :=
    (ready_due (s := s.emit (.autoStart n)) hn hdue).trans hmet
  have hstart := serviceStart_forked (s := s.emit (.autoStart n)) hn hdue.not_running hready hpid hfresh
  have hzero : ¬ (0 : Int) < 0 := by decide
  have e : checkOne env now s n = (((s.emit (.autoStart n)).readClock (env.clock n)).forked n
      svc.toServiceConfig pid hfresh).limited svc.toServiceConfig pid := by
    simp only [checkOne, hn, hstart, if_neg hzero,
      if_pos (show svc.state = .restarting ∧ restartDue now svc from hdue)]
  have hchildren : (checkOne env now s n).children = s.children.insert pid (some n) hfresh := by
    rw [e, Sys.limited_children]
    rfl
  refine ⟨pid, hfresh, hchildren, ⟨(s.readClock (env.clock n)).clock, ?_⟩, ?_⟩
  · rw [e, Sys.limited_services]
    exact Registry.find_modify_self.trans (congrArg _ hn)
  · rw [hchildren]
    exact hf.insert hd hpid hfresh

/-- A service the pass has not come to is as it was. -/
theorem Swept.ahead (h : Swept s₀ done s) (hn : n ∉ done) (h₀ : s₀.services.find n = some svc) :
    s.services.find n = some svc := by
  obtain ⟨svc', hs, -, hsame⟩ := h.known n svc h₀
  rw [if_neg fun e => hn e.1] at hsame
  exact hsame ▸ hs

/-- A turn in which nothing is started. -/
theorem Swept.idle (h : Swept s₀ done s) (hn : n ∉ done)
    (hidle : ∀ svc, s₀.services.find n = some svc → svc.state ≠ .restarting) :
    checkOne env now s n = s ∧ Swept s₀ (done ++ [n]) s := by
  refine ⟨checkOne_not_due fun svc hs => ?_, fun m svc hm => ?_, h.unknown, h.alive⟩
  · cases h₀ : s₀.services.find n with
    | none => exact nomatch (h.unknown n h₀).symm.trans hs
    | some svc₀ =>
        obtain rfl := Option.some.inj ((h.ahead hn h₀).symm.trans hs)
        exact fun hd => hidle _ h₀ hd.1
  · obtain ⟨svc', hm', hc, hcase⟩ := h.known m svc hm
    refine ⟨svc', hm', hc, ?_⟩
    by_cases e : m = n
    · subst e
      rw [if_neg fun e => hn e.1] at hcase
      rw [if_neg fun e => hidle svc hm e.2]
      exact hcase
    · simpa [e] using hcase

/-- What a service requires is running when its turn comes. -/
theorem Swept.requiresMet (h : Swept s₀ done s)
    (hturn : ∀ d ∈ svc.requires, ∀ dep, s₀.services.find d = some dep →
      dep.state = .running ∨ dep.state = .restarting ∧ dep.type = .simple ∧ d ∈ done) :
    Lumid.requiresMet s.services svc = true := by
  rw [requiresMet_iff]
  intro d hreq dep' hdep'
  cases hdep : s₀.services.find d with
  | none => exact nomatch (h.unknown d hdep).symm.trans hdep'
  | some dep =>
      obtain ⟨dep₁, hdep₁, -, hcase⟩ := h.known d dep hdep
      obtain rfl := Option.some.inj (hdep₁.symm.trans hdep')
      rcases hturn d hreq dep hdep with hrun | ⟨hre, hsimple, hdone⟩
      · have hne : ¬ (d ∈ done ∧ dep.state = .restarting) := fun e => by
          rw [hrun] at e
          cases e.2
        rw [if_neg hne] at hcase
        exact hcase ▸ hrun
      · rw [if_pos ⟨hdone, hre⟩] at hcase
        exact hcase.1.trans (if_pos hsimple)

/-- A turn in which the service is started. -/
theorem Swept.start (h : Swept s₀ done s) (hn : n ∉ done) (h₀ : s₀.services.find n = some svc)
    (hdue : svc.Due now) (hmet : Lumid.requiresMet s.services svc = true)
    (hf : env.ForksFor s.children (n :: ns)) (hd : n ∉ ns) :
    Swept s₀ (done ++ [n]) (checkOne env now s n) ∧ env.ForksFor (checkOne env now s n).children ns := by
  obtain ⟨pid, hfresh, hchildren, ⟨t, hfind⟩, hf'⟩ := checkOne_started (h.ahead hn h₀) hdue hmet hf hd
  have halive : ∀ p, s.children.Alive p → (checkOne env now s n).children.Alive p := by
    intro p hp
    rw [hchildren]
    exact Children.alive_insert.mpr (.inr hp)
  refine ⟨⟨fun m svc₁ hm => ?_, fun m hm => ?_, fun p hp => halive p (h.alive p hp)⟩, hf'⟩
  · by_cases e : m = n
    · subst e
      obtain rfl := Option.some.inj (h₀.symm.trans hm)
      refine ⟨_, hfind, rfl, ?_⟩
      rw [if_pos ⟨by simp, hdue.1⟩]
      refine ⟨rfl, ?_⟩
      rw [hchildren]
      exact Children.alive_insert.mpr (.inl rfl)
    · obtain ⟨svc', hm', hc, hcase⟩ := h.known m svc₁ hm
      refine ⟨svc', (checkOne_find_ne now e).trans hm', hc, ?_⟩
      have hmem : m ∈ done ++ [n] ↔ m ∈ done := by simp [e]
      split at hcase
      · rename_i hin
        rw [if_pos ⟨hmem.mpr hin.1, hin.2⟩]
        exact ⟨hcase.1, halive _ hcase.2⟩
      · rename_i hout
        rw [if_neg fun hin => hout ⟨hmem.mp hin.1, hin.2⟩]
        exact hcase
  · have e : m ≠ n := by
      rintro rfl
      exact nomatch h₀.symm.trans hm
    exact (checkOne_find_ne now e).trans (h.unknown m hm)

/-- **One turn.** -/
theorem Swept.turn (h : Swept s₀ done s) (hn : n ∉ done)
    (hdue : ∀ svc, s₀.services.find n = some svc → svc.state = .restarting → restartDue now svc = true)
    (hturn : ∀ svc, s₀.services.find n = some svc → svc.state = .restarting →
      ∀ d ∈ svc.requires, ∀ dep, s₀.services.find d = some dep →
        dep.state = .running ∨ dep.state = .restarting ∧ dep.type = .simple ∧ d ∈ done)
    (hf : env.ForksFor s.children (n :: ns)) (hd : n ∉ ns) :
    Swept s₀ (done ++ [n]) (checkOne env now s n) ∧ env.ForksFor (checkOne env now s n).children ns := by
  by_cases hwait : ∃ svc, s₀.services.find n = some svc ∧ svc.state = .restarting
  · obtain ⟨svc, h₀, hstate⟩ := hwait
    exact h.start hn h₀ ⟨hstate, hdue svc h₀ hstate⟩ (h.requiresMet (hturn svc h₀ hstate)) hf hd
  · obtain ⟨hkept, h'⟩ : checkOne env now s n = s ∧ _ :=
      h.idle hn fun svc h₀ hstate => hwait ⟨svc, h₀, hstate⟩
    rw [hkept]
    exact ⟨h', hf.tail⟩

/-- **The pass.** -/
theorem checkLoop_swept
    (hdue : ∀ svc ∈ s₀.services.list, svc.state = .restarting → restartDue now svc = true)
    (hturn : ∀ svc ∈ s₀.services.list, svc.state = .restarting →
      ∀ d ∈ svc.requires, ∀ dep, s₀.services.find d = some dep →
        dep.state = .running ∨
          dep.state = .restarting ∧ dep.type = .simple ∧ Precedes s₀.services.names d svc.name) :
    ∀ {ns done : List Name} {s : Sys}, s₀.services.names = done ++ ns → Swept s₀ done s →
      env.ForksFor s.children ns → Swept s₀ (done ++ ns) (checkLoop env now ns s)
  | [], done, s, _, h, _ => by
      rw [List.append_nil]
      exact h
  | n :: ns, done, s, hns, h, hf => by
      have hnd : (done ++ n :: ns).Nodup := hns ▸ s₀.services.nodup
      obtain ⟨-, hsuf, hdis⟩ := List.nodup_append.mp hnd
      have hn : n ∉ done := fun hm => hdis n hm n List.mem_cons_self rfl
      have hnext : n ∉ ns := (List.nodup_cons.mp hsuf).1
      have hbefore : ∀ d, Precedes s₀.services.names d n → d ∈ done := by
        intro d hpre
        rw [hns, precedes_append, precedes_cons] at hpre
        rcases hpre with hpre | ⟨hd, -⟩ | ⟨-, hm⟩ | hpre
        · exact absurd hpre.mem.2 hn
        · exact hd
        · exact absurd hm hnext
        · exact absurd hpre.mem.2 hnext
      obtain ⟨h', hf'⟩ := h.turn hn (fun svc hs => hdue svc (Registry.find_eq_some.mp hs).1)
        (fun svc hs hstate d hreq dep hdep => by
          obtain ⟨hm, rfl⟩ := Registry.find_eq_some.mp hs
          exact (hturn svc hm hstate d hreq dep hdep).imp id fun e => ⟨e.1, e.2.1, hbefore d e.2.2⟩)
        hf hnext
      have hrest := checkLoop_swept hdue hturn (by rw [hns, List.append_assoc]; rfl) h' hf'
      rwa [List.append_assoc] at hrest

theorem checkServices_swept (hrate : ¬ s.clock - s.lastCheckTime < checkIntervalNs)
    (hdue : ∀ svc ∈ s.services.list, svc.state = .restarting → restartDue s.clock svc = true)
    (hturn : ∀ svc ∈ s.services.list, svc.state = .restarting →
      ∀ d ∈ svc.requires, ∀ dep, s.services.find d = some dep →
        dep.state = .running ∨
          dep.state = .restarting ∧ dep.type = .simple ∧ Precedes s.services.names d svc.name)
    (hf : env.ForksFor s.children s.services.names) :
    Swept s s.services.names (supervisorCheckServices env s) := by
  rw [supervisorCheckServices, if_neg hrate]
  have hstart : Swept s [] { s with lastCheckTime := s.clock } :=
    ⟨(Swept.refl s).known, fun _ h => h, fun _ h => h⟩
  exact checkLoop_swept hdue hturn (List.nil_append _).symm hstart hf

/-! ### Both -/

/-- A service that has been noticed was known before the exits. -/
theorem Reaps.noticed_back (h : Reaps s reports s') (hd : s.DistinctPids)
    (hn : s'.services.find n = some svc') :
    ∃ svc, s.services.find n = some svc ∧ Noticed s.children.zombies svc svc' := by
  obtain ⟨hnames, hnoticed⟩ := h.noticed hd
  have hmem : n ∈ s.services.names := by
    obtain ⟨hm, rfl⟩ := Registry.find_eq_some.mp hn
    exact hnames ▸ List.mem_map_of_mem hm
  obtain ⟨svc, hsvc⟩ := Registry.exists_find hmem
  obtain ⟨svc₁, hn₁, hnot⟩ := hnoticed n svc hsvc
  obtain rfl := Option.some.inj (hn.symm.trans hn₁)
  exact ⟨svc, hsvc, hnot⟩

/-- The services are restarted in turn in the order after the exits, too. -/
theorem InTurn.noticed (h : InTurn s.children.zombies s.services) (hr : Reaps s reports s')
    (hd : s.DistinctPids) : ∀ svc ∈ s'.services.list, svc.state = .restarting →
      ∀ d ∈ svc.requires, ∀ dep, s'.services.find d = some dep →
        dep.state = .running ∨
          dep.state = .restarting ∧ dep.type = .simple ∧ Precedes s'.services.names d svc.name := by
  intro svc₁ hm₁ hstate d hreq dep₁ hdep₁
  obtain ⟨svc, hsvc, hnot⟩ := hr.noticed_back hd (Registry.find_of_mem hm₁)
  obtain ⟨dep, hdep, hdepNot⟩ := hr.noticed_back hd hdep₁
  have hcfg := hnot.config
  have hreq' : d ∈ svc.requires := (congrArg (·.requires) hcfg) ▸ hreq
  have hname : svc₁.name = svc.name := congrArg (·.name) hcfg
  rcases h svc (Registry.find_eq_some.mp hsvc).1 (hnot.restarting.mp hstate) d hreq' dep hdep with
    ⟨hnone, hrun⟩ | ⟨hre, hsimple, hpre⟩
  · exact .inl (hdepNot.kept hnone ▸ hrun)
  · refine .inr ⟨hdepNot.restarting.mpr hre, ?_, ?_⟩
    · exact (congrArg (·.type) hdepNot.config).trans hsimple
    · rw [(hr.noticed hd).1, hname]
      exact hpre

/-- A running service has a live process, unless somebody has to be told of its end. -/
theorem alive_of_running (h : Reached s) (hn : s.services.find n = some svc) (hr : svc.state = .running)
    (he : svc.ended s.children.zombies = none) : s.children.Alive svc.pid := by
  obtain ⟨c, hc, hpid⟩ := h.sound.child n svc hn (h.sound.pid_ne hn (.inl hr))
  cases hstatus : c.status with
  | none => exact ⟨c, hc, hpid, hstatus⟩
  | some st =>
      have hz : (svc.pid, st) ∈ s.children.zombies := Children.mem_zombies.mpr ⟨c, hc, hpid, hstatus⟩
      exact nomatch he.symm.trans (Service.ended_of_mem hz)

/-- What is running in the end was so all the time, or has been started. -/
theorem Service.running_of_recovered {zombies : List (Int × WaitStatus)}
    (h : svc.recovered zombies = .running) (hr : svc.restarts zombies ≠ true) :
    svc.ended zombies = none ∧ svc.state = .running := by
  rw [Service.recovered, if_neg hr] at h
  cases he : svc.ended zombies with
  | none =>
      rw [he] at h
      exact ⟨rfl, h⟩
  | some st =>
      rw [he] at h
      simp only at h
      split at h <;> cases h

theorem restartDue_of_le {past : UInt64} (hstop : svc.stopTime ≤ past) (hd : 0 ≤ svc.restartDelayMs)
    (h : past.toNat + svc.restartDelayMs.toNat * 1000000 ≤ now.toNat) : restartDue now svc = true := by
  have hlt := now.toNat_lt
  have hle : svc.stopTime.toNat ≤ past.toNat := UInt64.le_iff_toNat_le.mp hstop
  have hnow : svc.stopTime ≤ now := UInt64.le_iff_toNat_le.mpr (by omega)
  have helapsed : (elapsedMs now svc.stopTime).toNat = (now.toNat - svc.stopTime.toNat) / 1000000 := by
    rw [elapsedMs, UInt64.toNat_div, UInt64.toNat_sub_of_le _ _ hnow]
    rfl
  rw [restartDue, decide_eq_true_eq, UInt64.le_iff_toNat_le, helapsed, UInt64.ofInt,
    UInt64.toNat_ofNat']
  omega

end

/-- **Failures are settled.**  From any state of a run of lumid, whatever processes have terminated:
lumid handles `SIGCHLD`, time passes until the delays and the check interval are over, and lumid makes its
pass.  If no delay is negative, every `fork` succeeds and the list has the restarted services in turn,
every service is in the state it is to recover to, and the services restarted, as all that are running,
have a live process. -/
theorem recovers {s s₁ s₂ s' : Sys} (h : Reached s) {reports : List (Int × WaitStatus)}
    {env₁ env₂ : Env} {t : UInt64} (h₁ : Step s (.sigchld reports env₁) s₁) (h₂ : Step s₁ (.tick t) s₂)
    (h₃ : Step s₂ (.check env₂) s') (hinterval : s₁.clock.toNat + 5000000000 ≤ t.toNat)
    (hdelay : ∀ svc ∈ s.services.list, 0 ≤ svc.restartDelayMs ∧
      s₁.clock.toNat + svc.restartDelayMs.toNat * 1000000 ≤ t.toNat)
    (hturn : InTurn s.children.zombies s.services)
    (hf : env₂.ForksFor s₁.children s.services.names) :
    ∀ svc ∈ s.services.list, ∃ svc' ∈ s'.services.list, svc'.toServiceConfig = svc.toServiceConfig ∧
      svc'.state = svc.recovered s.children.zombies ∧
      (svc.restarts s.children.zombies = true ∨ svc'.state = .running → s'.children.Alive svc'.pid) := by
  have hd := h.distinctPids
  have htimed : Timed s₁ := by
    obtain ⟨now, hreach⟩ := h
    exact Reached.timed ⟨now, hreach.step h₁⟩
  have hloop : Reaps s reports s₁ := by
    obtain ⟨hperm, rfl⟩ := h₁.sigchld_inv
    exact reaps_handleSigchld env₁ hperm
  obtain ⟨hnames, hnoticed⟩ := hloop.noticed hd
  have hpass : Swept s₁ s.services.names s' := by
    obtain rfl : s₁.readClock t = s₂ := Option.some.inj h₂
    obtain rfl : supervisorCheckServices env₂ (s₁.readClock t) = s' := Option.some.inj h₃
    have hclock : (s₁.readClock t).clock = t := if_pos (UInt64.le_iff_toNat_le.mpr (by omega))
    have hlast : s₁.lastCheckTime.toNat ≤ s₁.clock.toNat := UInt64.le_iff_toNat_le.mp htimed.check
    have hrate : ¬ (s₁.readClock t).clock - (s₁.readClock t).lastCheckTime < checkIntervalNs := by
      have hcheck : s₁.lastCheckTime ≤ t := UInt64.le_iff_toNat_le.mpr (by omega)
      have hlen : checkIntervalNs.toNat = 5000000000 := rfl
      have hsub := UInt64.toNat_sub_of_le _ _ hcheck
      rw [hclock, UInt64.lt_iff_toNat_lt, hlen]
      show ¬ (t - s₁.lastCheckTime).toNat < 5000000000
      omega
    have hdue : ∀ svc ∈ s₁.services.list, svc.state = .restarting →
        restartDue (s₁.readClock t).clock svc = true := by
      intro svc₁ hm₁ _
      obtain ⟨svc, hsvc, hnot⟩ := hloop.noticed_back hd (Registry.find_of_mem hm₁)
      have hms : svc₁.restartDelayMs = svc.restartDelayMs := congrArg (·.restartDelayMs) hnot.config
      obtain ⟨hpos, hlong⟩ := hdelay svc (Registry.find_eq_some.mp hsvc).1
      rw [hclock]
      exact restartDue_of_le (htimed.stop _ _ (Registry.find_of_mem hm₁)) (hms ▸ hpos) (hms ▸ hlong)
    have hturn₁ := hturn.noticed hloop hd
    have hf₁ : env₂.ForksFor s₁.children s₁.services.names := hnames.symm ▸ hf
    have hswept := checkServices_swept hrate hdue hturn₁ hf₁
    exact ⟨hnames ▸ hswept.known, hswept.unknown, hswept.alive⟩
  intro svc hm
  obtain ⟨svc₁, hn₁, hnot⟩ := hnoticed svc.name svc (Registry.find_of_mem hm)
  obtain ⟨svc', hn', hcfg, hcase⟩ := hpass.known svc.name svc₁ hn₁
  refine ⟨svc', (Registry.find_eq_some.mp hn').1, hcfg.trans hnot.config, ?_⟩
  by_cases hstate : svc₁.state = .restarting
  · have hre := hnot.restarting.mp hstate
    rw [if_pos ⟨List.mem_map_of_mem hm, hstate⟩] at hcase
    refine ⟨?_, fun _ => hcase.2⟩
    rw [hcase.1, Service.recovered, if_pos hre]
    exact congrArg (fun cfg : ServiceConfig => cfg.type.started) hnot.config
  · have hre := mt hnot.restarting.mpr hstate
    rw [if_neg fun e => hstate e.2] at hcase
    subst hcase
    refine ⟨hnot.recovered hstate, fun hrun => ?_⟩
    have hend := Service.running_of_recovered
      ((hnot.recovered hstate).symm.trans (hrun.resolve_left hre)) hre
    rw [hnot.kept hend.1]
    exact hpass.alive _ (hloop.alive (alive_of_running h (Registry.find_of_mem hm) hend.2 hend.1))

/-- lumid with the services of `restartedDir`, and `devd` in front in the list. -/
def bootedInTurn : Sys :=
  (loadAndStartServices (restartedDir.map List.reverse) Env.session (Sys.init 0)).2

/-- Both have crashed. -/
def crashedInTurn : Sys := (bootedInTurn.childExit 10 (.exited 1)).childExit 11 (.exited 1)

theorem crashedInTurn_reached : Reached crashedInTurn := by
  have h₀ : Reachable Step (Sys.init 0) bootedInTurn :=
    .one (e := .boot (restartedDir.map List.reverse) Env.session) rfl
  have h₁ : Step bootedInTurn (.exit 10 (.exited 1)) (bootedInTurn.childExit 10 (.exited 1)) := rfl
  have h₂ : Step (bootedInTurn.childExit 10 (.exited 1)) (.exit 11 (.exited 1)) crashedInTurn := rfl
  exact ⟨0, (h₀.step h₁).step h₂⟩

/-- lumid has taken notice. -/
def reapedInTurn : Sys :=
  supervisorHandleSigchld Env.session [(11, .exited 1), (10, .exited 1)] crashedInTurn

/-- And it has made its pass. -/
def recoveredInTurn : Sys :=
  supervisorCheckServices Env.session (reapedInTurn.readClock 10000000000)

theorem recovers_session :
    (∃ svc ∈ recoveredInTurn.services.list, svc.name = devd ∧ svc.state = .running ∧
      recoveredInTurn.children.Alive svc.pid) ∧
    ∃ svc ∈ recoveredInTurn.services.list, svc.name = compositor ∧ svc.state = .running ∧
      recoveredInTurn.children.Alive svc.pid := by
  have hsigchld : Step crashedInTurn (.sigchld [(11, .exited 1), (10, .exited 1)] Env.session)
      reapedInTurn := .sigchld (by decide)
  have htick : Step reapedInTurn (.tick 10000000000) (reapedInTurn.readClock 10000000000) := rfl
  have hf : Env.session.ForksFor reapedInTurn.children crashedInTurn.services.names := by
    have hn : crashedInTurn.services.names = [devd, compositor] := by decide
    rw [hn]
    exact ⟨fun n _ => ⟨_, rfl, by decide +revert⟩, by decide⟩
  have hcrashed : ∀ n ∈ [devd, compositor], ∃ svc ∈ crashedInTurn.services.list, svc.name = n ∧
      svc.restarts crashedInTurn.children.zombies = true ∧ svc.type.started = .running := by
    decide
  have hback : ∀ n ∈ [devd, compositor], ∃ svc ∈ recoveredInTurn.services.list, svc.name = n ∧
      svc.state = .running ∧ recoveredInTurn.children.Alive svc.pid := by
    intro n hn
    obtain ⟨svc, hm, hname, hre, htype⟩ := hcrashed n hn
    obtain ⟨svc', hm', hcfg, hstate, halive⟩ := recovers crashedInTurn_reached hsigchld htick rfl
      (by decide) (by decide) (by decide) hf svc hm
    refine ⟨svc', hm', (congrArg ServiceConfig.name hcfg).trans hname, ?_, halive (.inl hre)⟩
    rw [hstate, Service.recovered, if_pos hre, htype]
  exact ⟨hback devd (by decide), hback compositor (by decide)⟩

end LumiOS.Lumid
