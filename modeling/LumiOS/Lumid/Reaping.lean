import LumiOS.Lumid.Pids

/-!
# Lumid — Reaping

The loop of `supervisor_handle_sigchld` when the kernel chooses, at each `waitpid(-1, ...)`, which
terminated child it reports.

A service is matched by its recorded pid, and a match erases the pid, so a child matches at most one
service and a service at most one child; the updates of a loop are on different services.  Whatever
the kernel chooses, the registry ends up the same but for the stop times (`reaping_confluent`).
-/

namespace LumiOS.Lumid

open Support

/-! ### The loop -/

/-- `while ((pid = waitpid(-1, &status, WNOHANG)) > 0)`: any terminated child is reported, until there is
none.  The reports, in order; the clock may read anything. -/
inductive Reaps : Sys → List (Int × WaitStatus) → Sys → Prop where
  | done {s : Sys} (h : s.children.zombies = []) : Reaps s [] s
  | reap {s s' : Sys} {report : Int × WaitStatus} {reports : List (Int × WaitStatus)} (env : Env)
      (h : report ∈ s.children.zombies) (t : Reaps (reapOne env s report) reports s') :
      Reaps s (report :: reports) s'

/-- No two services record the same positive pid. -/
def Sys.DistinctPids (s : Sys) : Prop :=
  ∀ svc ∈ s.services.list, ∀ svc' ∈ s.services.list, svc.pid = svc'.pid → 0 < svc.pid → svc = svc'

/-- A service but for its stop time. -/
def Service.timeless (svc : Service) : Service := svc.update ({ · with stopTime := 0 })

/-- What becomes of a service when these children have terminated: the update for the status of its own
process, at some time, or nothing. -/
inductive ReapOutcome (zombies : List (Int × WaitStatus)) (svc : Service) : Service → Prop where
  | reaped (st : WaitStatus) (now : UInt64) (h : (svc.pid, st) ∈ zombies) :
      ReapOutcome zombies svc (svc.update (reapRuntime svc.toServiceConfig st now))
  | kept (h : ∀ st, (svc.pid, st) ∉ zombies) : ReapOutcome zombies svc svc

section

variable {s s' s₁ s₂ : Sys} {env : Env} {report : Int × WaitStatus}
  {reports reports₁ reports₂ : List (Int × WaitStatus)} {svc svc₁ svc₂ : Service}

/-! ### One report -/

theorem reapRuntime_timeless (cfg : ServiceConfig) (st : WaitStatus) (now now' : UInt64)
    (rt : ServiceRuntime) : { reapRuntime cfg st now rt with stopTime := 0 } =
      { reapRuntime cfg st now' rt with stopTime := 0 } := by
  simp only [reapRuntime]
  split
  · rfl
  · split <;> rfl

/-- A report updates the service that records its pid, and no other. -/
theorem reapOne_list (env : Env) (h : s.DistinctPids) (hpos : 0 < report.1) : ∃ now,
    (reapOne env s report).services.list = s.services.list.map fun svc =>
      if svc.pid = report.1 then svc.update (reapRuntime svc.toServiceConfig report.2 now) else svc := by
  simp only [reapOne, Sys.withChildren_services]
  cases hf : findByPid s.services report.1 with
  | none =>
      refine ⟨0, (List.map_id _).symm.trans (List.map_congr_left fun svc hm => ?_)⟩
      rw [if_neg (findByPid_eq_none hf svc hm), id]
  | some found =>
      obtain ⟨hn, hp⟩ := findByPid_eq_some hf
      have hm := (Registry.find_eq_some.mp hn).1
      refine ⟨((s.withChildren (s.children.remove report.1)).readClock (env.clock found.name)).clock,
        List.map_congr_left fun svc hsvc => ?_⟩
      by_cases e : svc.pid = report.1
      · obtain rfl := h svc hsvc found hm (e.trans hp.symm) (e ▸ hpos)
        rw [if_pos rfl, if_pos e]
      · have hne : svc.name ≠ found.name := by
          intro hname
          have := List.inj_on_of_nodup_map s.services.nodup hsvc hm hname
          exact e (this ▸ hp)
        rw [if_neg hne, if_neg e]

theorem reapOne_distinctPids (h : s.DistinctPids) (hpos : 0 < report.1) :
    (reapOne env s report).DistinctPids := by
  obtain ⟨now, hl⟩ := reapOne_list env h hpos
  have hback : ∀ svc ∈ (reapOne env s report).services.list, 0 < svc.pid →
      svc ∈ s.services.list := by
    intro svc hm hp
    rw [hl] at hm
    obtain ⟨svc₀, hm₀, rfl⟩ := List.mem_map.mp hm
    by_cases e : svc₀.pid = report.1
    · rw [if_pos e, Service.update_runtime, reapRuntime_pid] at hp
      exact absurd hp (by decide)
    · rwa [if_neg e]
  intro svc hm svc' hm' he hp
  exact h svc (hback svc hm hp) svc' (hback svc' hm' (he ▸ hp)) he hp

/-! ### The whole loop -/

/-- Every terminated child is reported once, and none is left. -/
theorem Reaps.perm (h : Reaps s reports s') :
    reports.Perm s.children.zombies ∧ s'.children.zombies = [] := by
  induction h with
  | done h => exact ⟨h ▸ .nil, h⟩
  | @reap s s' report reports env hr _ ih =>
      refine ⟨?_, ih.2⟩
      have hz : (reapOne env s report).children.zombies = s.children.zombies.erase report := by
        rw [reapOne_children, Children.zombies_remove,
          (List.Nodup.of_map _ s.children.zombies_nodup).erase_eq_filter]
        refine List.filter_congr fun r hm => ?_
        have : r.1 ≠ report.1 ↔ r ≠ report :=
          not_congr ⟨fun e => List.inj_on_of_nodup_map s.children.zombies_nodup hm hr e,
            fun e => congrArg _ e⟩
        by_cases e : r = report <;> simp_all
      exact ((hz ▸ ih.1).cons report).trans (List.perm_cons_erase hr).symm

/-- A service whose process is reported first, and one whose process is not. -/
theorem ReapOutcome.of_reap {now : UInt64} (hr : report ∈ s.children.zombies)
    (h : ReapOutcome (reapOne env s report).children.zombies
      (if svc.pid = report.1 then svc.update (reapRuntime svc.toServiceConfig report.2 now) else svc)
      svc₁) : ReapOutcome s.children.zombies svc svc₁ := by
  rw [reapOne_children, Children.zombies_remove] at h
  by_cases e : svc.pid = report.1
  · rw [if_pos e] at h
    cases h with
    | reaped st now' hz =>
        -- the pid is gone, and no child has the pid -1
        have := Children.zombies_pos (List.mem_of_mem_filter hz)
        rw [Service.update_runtime, reapRuntime_pid] at this
        exact absurd this (by simp)
    | kept _ => exact .reaped report.2 now (e ▸ hr)
  · rw [if_neg e] at h
    cases h with
    | reaped st now' hz => exact .reaped st now' (List.mem_of_mem_filter hz)
    | kept hk =>
        exact .kept fun st hz => hk st (List.mem_filter.mpr ⟨hz, by simpa using e⟩)

/-- **The run lemma.**  Every service has the outcome its own process gives it. -/
theorem Reaps.outcome (h : Reaps s reports s') (hd : s.DistinctPids) :
    List.Forall₂ (ReapOutcome s.children.zombies) s.services.list s'.services.list := by
  induction h with
  | @done s h =>
      rw [h]
      exact List.forall₂_same.mpr fun svc _ => .kept fun _ => List.not_mem_nil
  | @reap s s' report reports env hr _ ih =>
      have hpos := Children.zombies_pos hr
      obtain ⟨now, hl⟩ := reapOne_list env hd hpos
      have h := ih (reapOne_distinctPids hd hpos)
      rw [hl, List.forall₂_map_left_iff] at h
      exact h.imp fun _ _ => ReapOutcome.of_reap hr

theorem ReapOutcome.timeless_eq (h₁ : ReapOutcome s.children.zombies svc svc₁)
    (h₂ : ReapOutcome s.children.zombies svc svc₂) : svc₁.timeless = svc₂.timeless := by
  cases h₁ with
  | reaped st now hz =>
      cases h₂ with
      | reaped st' now' hz' =>
          obtain rfl := Children.zombies_unique hz hz'
          simp only [Service.timeless, Service.update, reapRuntime_timeless _ st now now']
      | kept hk => exact absurd hz (hk st)
  | kept hk =>
      cases h₂ with
      | reaped st' now' hz' => exact absurd hz' (hk st')
      | kept => rfl

/-- The registries two loops end with differ in stop times only. -/
theorem Reaps.timeless_eq (hd : s.DistinctPids) (h₁ : Reaps s reports₁ s₁) (h₂ : Reaps s reports₂ s₂) :
    s₁.services.list.map Service.timeless = s₂.services.list.map Service.timeless := by
  have o₁ := h₁.outcome hd
  have o₂ := h₂.outcome hd
  generalize s.services.list = l at o₁ o₂
  generalize s₁.services.list = l₁ at o₁ ⊢
  generalize s₂.services.list = l₂ at o₂ ⊢
  induction o₁ generalizing l₂ with
  | nil =>
      cases o₂
      rfl
  | cons h₁ _ ih =>
      cases o₂ with
      | cons h₂ t₂ => rw [List.map_cons, List.map_cons, h₁.timeless_eq h₂, ih _ t₂]

/-- The update a report stands for in `s`. -/
def Sys.attributed (s : Sys) (report : Int × WaitStatus) : Option Action :=
  (findByPid s.services report.1).map fun svc => .reap svc.name report.2

/-- A report leaves the other ones to the services they were for. -/
theorem reapOne_attributed {report' : Int × WaitStatus} (h : s.DistinctPids) (hpos : 0 < report.1)
    (hpos' : 0 < report'.1) (hne : report'.1 ≠ report.1) :
    (reapOne env s report).attributed report' = s.attributed report' := by
  obtain ⟨now, hl⟩ := reapOne_list env h hpos
  simp only [Sys.attributed, findByPid, hl, List.find?_map, Option.map_map]
  congr 1
  · funext svc
    simp only [Function.comp]
    split <;> rfl
  · congr 1
    funext svc
    simp only [Function.comp, decide_eq_decide]
    by_cases e : svc.pid = report.1
    · rw [if_pos e, Service.update_runtime, reapRuntime_pid]
      omega
    · rw [if_neg e]

/-- Each report is one update, of the service that recorded its pid before the loop, or none. -/
theorem Reaps.trace (h : Reaps s reports s') (hd : s.DistinctPids) :
    s'.trace = (reports.filterMap s.attributed).reverse ++ s.trace := by
  induction h with
  | done => rfl
  | @reap s s' report reports env hr t ih =>
      have hpos := Children.zombies_pos hr
      have hothers : reports.filterMap (reapOne env s report).attributed =
          reports.filterMap s.attributed := by
        refine List.filterMap_congr fun r hm => ?_
        have hz := t.perm.1.subset hm
        rw [reapOne_children, Children.zombies_remove, List.mem_filter] at hz
        exact reapOne_attributed hd hpos (Children.zombies_pos hz.1) (by simpa using hz.2)
      rw [ih (reapOne_distinctPids hd hpos), hothers, List.filterMap_cons]
      simp only [reapOne, Sys.withChildren_services, Sys.attributed]
      cases findByPid s.services report.1 with
      | none => rfl
      | some found => simp [Sys.attributed]

/-- `supervisor_handle_sigchld` is the loop, for the kernel's choice of these reports. -/
theorem reaps_handleSigchld (env : Env) : ∀ {reports : List (Int × WaitStatus)} {s : Sys},
    reports.Perm s.children.zombies → Reaps s reports (supervisorHandleSigchld env reports s)
  | [], _, h => .done h.nil_eq.symm
  | report :: reports, s, h => by
      have hr : report ∈ s.children.zombies := h.subset List.mem_cons_self
      refine .reap env hr (reaps_handleSigchld env ?_)
      have hnd : ((report :: reports).map (·.1)).Nodup :=
        (h.map (·.1)).nodup_iff.mpr s.children.zombies_nodup
      have hne : ∀ r ∈ reports, r.1 ≠ report.1 := by
        intro r hm e
        exact (List.nodup_cons.mp hnd).1 (List.mem_map.mpr ⟨r, hm, e⟩)
      rw [reapOne_children, Children.zombies_remove]
      refine .trans ?_ (h.filter _)
      rw [List.filter_cons_of_neg (by simp),
        List.filter_eq_self.mpr fun r hm => by simpa using hne r hm]

/-- What every loop from `s` to `s'` has done. -/
structure Reaped (s : Sys) (reports : List (Int × WaitStatus)) (s' : Sys) : Prop where
  services : List.Forall₂ (ReapOutcome s.children.zombies) s.services.list s'.services.list
  reported : reports.Perm s.children.zombies
  updates : s'.trace = (reports.filterMap s.attributed).reverse ++ s.trace
  none_left : s'.children.zombies = []

/-- **Reaping is confluent.**  The loop ends, for every choice of the kernel; it updates each service
whose process has terminated once, by the status of that process, and no other, and leaves no
terminated child; and the registries of any two loops differ in stop times only. -/
theorem reaping_confluent (s : Sys) (hd : s.DistinctPids) :
    (∀ env reports, reports.Perm s.children.zombies →
      Reaps s reports (supervisorHandleSigchld env reports s)) ∧
    (∀ reports s', Reaps s reports s' → Reaped s reports s') ∧
    ∀ reports₁ s₁ reports₂ s₂, Reaps s reports₁ s₁ → Reaps s reports₂ s₂ →
      s₁.services.list.map Service.timeless = s₂.services.list.map Service.timeless :=
  ⟨fun env _ hp => reaps_handleSigchld env hp,
    fun _ _ h => ⟨h.outcome hd, h.perm.1, h.trace hd, h.perm.2⟩,
    fun _ _ _ _ h₁ h₂ => h₁.timeless_eq hd h₂⟩

/-- In a run of lumid the recorded pids are distinct. -/
theorem Reached.distinctPids (h : Reached s) : s.DistinctPids := by
  intro svc hm svc' hm' he hp
  have hname := h.sound.inj _ _ _ _ (Registry.find_of_mem hm) (Registry.find_of_mem hm') he fun e =>
    absurd (e ▸ hp) (by decide)
  exact List.inj_on_of_nodup_map s.services.nodup hm hm' hname

end

/-- Two services have ended; whichever is reported first, nothing is left to be reaped, and each service
is as the other order leaves it. -/
theorem reaping_confluent_pair :
    let first := supervisorHandleSigchld Env.session [(10, .exited 1), (11, .signaled 9)] endedPair
    let second := supervisorHandleSigchld Env.session [(11, .signaled 9), (10, .exited 1)] endedPair
    first.children.zombies = [] ∧ second.children.zombies = [] ∧
      first.services.list.map Service.timeless = second.services.list.map Service.timeless := by
  intro first second
  obtain ⟨hloop, hreaped, hsame⟩ := reaping_confluent endedPair endedPair_reached.distinctPids
  have hfirst : Reaps endedPair [(10, .exited 1), (11, .signaled 9)] first :=
    hloop Env.session _ (by decide)
  have hsecond : Reaps endedPair [(11, .signaled 9), (10, .exited 1)] second :=
    hloop Env.session _ (by decide)
  exact ⟨(hreaped _ _ hfirst).none_left, (hreaped _ _ hsecond).none_left,
    hsame _ _ _ _ hfirst hsecond⟩

end LumiOS.Lumid
