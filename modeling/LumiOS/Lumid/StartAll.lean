import LumiOS.Lumid.Pids

/-!
# Lumid — StartAll

What `service_start_all` starts.  It walks the start order, which puts a service after everything it
requires, and `service_start` starts a service when what it requires is running.  But only a simple
service is marked running when it is started; a service of another type stays in
`SVC_STATE_STARTING`, and whatever requires it fails.  And the order knows the first 128 services of
the registry only.  So the pass starts every enabled service exactly when what is required is simple,
and what is enabled is in the array (`startAll_starts_iff`).
-/

namespace LumiOS.Lumid

open Support

/-- Every `fork` of the pass over `ns` succeeds, with a pid no unreaped child holds. -/
def Env.ForksFor (env : Env) (k : Children Name) (ns : List Name) : Prop :=
  (∀ n ∈ ns, ∃ pid, env.fork n = some pid ∧ k.Fresh pid) ∧
    ∀ n ∈ ns, ∀ m ∈ ns, env.fork n = env.fork m → n = m

/-- What an enabled service in `ns` requires is running, or is a simple service started before. -/
def Sys.WillRun (s : Sys) (ns : List Name) : Prop :=
  ∀ n ∈ ns, ∀ svc, s.services.find n = some svc → svc.enabled = true →
    ∀ d ∈ svc.requires, ∀ dep, s.services.find d = some dep →
      dep.state = .running ∨ Precedes ns d n ∧ dep.enabled = true ∧ dep.type = .simple

/-- No service in `ns` is running. -/
def Sys.NotRunning (s : Sys) (ns : List Name) : Prop :=
  ∀ n ∈ ns, ∀ svc, s.services.find n = some svc → svc.state ≠ .running

section

variable {s : Sys} {n m : Name} {ns : List Name} {svc : Service} {env : Env} {pid : Int}

theorem ready_iff : s.ready n svc = true ↔ ∀ d ∈ svc.requires, ∀ dep, s.services.find d = some dep →
    d ≠ n ∧ dep.state = .running := by
  simp only [Sys.ready, requiresMet, List.all_eq_true]
  refine forall₂_congr fun d _ => ?_
  by_cases e : d = n
  · subst e
    rw [Registry.find_modify_self]
    cases s.services.find d <;> simp
  · rw [Registry.find_modify_ne e]
    cases s.services.find d <;> simp [e]

/-! ### A pass in which every start succeeds -/

theorem Env.ForksFor.tail (h : env.ForksFor s.children (n :: ns)) : env.ForksFor s.children ns :=
  ⟨fun m hm => h.1 m (List.mem_cons_of_mem n hm),
    fun m hm k hk => h.2 m (List.mem_cons_of_mem n hm) k (List.mem_cons_of_mem n hk)⟩

/-- The pids for the rest of the pass are fresh beside the one just given. -/
theorem Env.ForksFor.insert {k : Children Name} (h : env.ForksFor k (n :: ns)) (hd : n ∉ ns)
    (he : env.fork n = some pid) (hf : k.Fresh pid) :
    env.ForksFor (k.insert pid (some n) hf) ns := by
  refine ⟨fun m hm => ?_, fun m hm j hj =>
    h.2 m (List.mem_cons_of_mem n hm) j (List.mem_cons_of_mem n hj)⟩
  obtain ⟨p, hp, hfp⟩ := h.1 m (List.mem_cons_of_mem n hm)
  refine ⟨p, hp, Children.Fresh.insert hfp fun e => hd ?_⟩
  have hnm := h.2 n List.mem_cons_self m (List.mem_cons_of_mem n hm) (he.trans (e ▸ hp.symm))
  exact hnm ▸ hm

theorem Sys.NotRunning.tail (h : s.NotRunning (n :: ns)) : s.NotRunning ns :=
  fun m hm => h m (List.mem_cons_of_mem n hm)

/-- A name the pass does not start is required by no enabled service after it. -/
theorem Sys.WillRun.skip (h : s.WillRun (n :: ns))
    (hn : ∀ svc, s.services.find n = some svc → svc.enabled = false) : s.WillRun ns := by
  intro m hm svc hf he d hd dep hdep
  rcases h m (List.mem_cons_of_mem n hm) svc hf he d hd dep hdep with hr | ⟨hp, hde, hs⟩
  · exact .inl hr
  · rcases precedes_cons.mp hp with ⟨rfl, -⟩ | hp
    · cases hde.symm.trans (hn dep hdep)
    · exact .inr ⟨hp, hde, hs⟩

/-- The first of the list finds what it requires running. -/
theorem Sys.WillRun.ready (h : s.WillRun (n :: ns)) (hd : (n :: ns).Nodup)
    (hr : s.NotRunning (n :: ns)) (hn : s.services.find n = some svc) (he : svc.enabled = true) :
    s.ready n svc = true := by
  refine ready_iff.mpr fun d hreq dep hdep => ?_
  rcases h n List.mem_cons_self svc hn he d hreq dep hdep with hrun | ⟨hp, -⟩
  · refine ⟨?_, hrun⟩
    rintro rfl
    exact hr d List.mem_cons_self dep hdep hrun
  · exact absurd (precedes_cons.mp hp) (by
      rintro (⟨-, hm⟩ | hp)
      · exact (List.nodup_cons.mp hd).1 hm
      · exact (List.nodup_cons.mp hd).1 hp.mem.2)

/-- Once it is started, the others after it do. -/
theorem Sys.WillRun.started (h : s.WillRun (n :: ns)) (hd : n ∉ ns)
    (hr : s.NotRunning (n :: ns)) (hn : s.services.find n = some svc)
    (hf : s.children.Fresh pid) : (s.forked n svc.toServiceConfig pid hf).WillRun ns := by
  intro m hm svc' hf' he d hreq dep hdep
  have hne : m ≠ n := by
    rintro rfl
    exact hd hm
  have hf₀ : s.services.find m = some svc' := (Registry.find_modify_ne hne).symm.trans hf'
  by_cases e : d = n
  · -- the service just started, which is running if it is simple
    subst e
    obtain ⟨dep₀, hdep₀, -, hrt⟩ := Registry.find_modify_some hdep
    obtain rfl := Option.some.inj (hn.symm.trans hdep₀)
    rw [if_pos rfl] at hrt
    rcases h m (List.mem_cons_of_mem d hm) svc' hf₀ he d hreq svc hn with hrun | ⟨-, -, hs⟩
    · exact absurd hrun (hr d List.mem_cons_self svc hn)
    · exact .inl (by rw [hrt]; exact if_pos hs)
  · have hdep₀ : s.services.find d = some dep := (Registry.find_modify_ne e).symm.trans hdep
    rcases h m (List.mem_cons_of_mem n hm) svc' hf₀ he d hreq dep hdep₀ with hrun | ⟨hp, hs⟩
    · exact .inl hrun
    · rcases precedes_cons.mp hp with ⟨k, -⟩ | hp
      · exact absurd k e
      · exact .inr ⟨hp, hs⟩

/-- The pass skips a name without an enabled service. -/
theorem startAllLoop_skip {failed : Nat}
    (hn : ∀ svc, s.services.find n = some svc → svc.enabled = false) :
    startAllLoop env (n :: ns) failed s = startAllLoop env ns failed s := by
  simp only [startAllLoop]
  cases hf : s.services.find n with
  | none => rfl
  | some svc => simp [hn svc hf]

theorem startAllLoop_start {failed : Nat} (hn : s.services.find n = some svc)
    (he : svc.enabled = true) :
    startAllLoop env (n :: ns) failed s =
      startAllLoop env ns
        (if (serviceStart env (s.emit (.operatorStart n)) n).1 < 0 then failed + 1 else failed)
        (serviceStart env (s.emit (.operatorStart n)) n).2 := by
  simp only [startAllLoop, hn, he, if_true]

theorem skipped_or_enabled (s : Sys) (n : Name) :
    (∀ svc, s.services.find n = some svc → svc.enabled = false) ∨
      ∃ svc, s.services.find n = some svc ∧ svc.enabled = true := by
  cases s.services.find n with
  | none => exact .inl fun _ h => nomatch h
  | some svc =>
      cases he : svc.enabled with
      | false => exact .inl fun _ h => Option.some.inj h ▸ he
      | true => exact .inr ⟨svc, rfl, he⟩

/-- The pass forks for no name outside its list. -/
theorem startAllLoop_forkCount (env : Env) : ∀ (ns : List Name) (failed : Nat) (s : Sys), m ∉ ns →
    (startAllLoop env ns failed s).2.forkCount m = s.forkCount m
  | [], _, _, _ => rfl
  | n :: ns, failed, s, hm => by
      obtain ⟨hne, hm⟩ := not_or.mp (List.mem_cons.not.mp hm)
      rcases skipped_or_enabled s n with hn | ⟨svc, hn, he⟩
      · rw [startAllLoop_skip hn]
        exact startAllLoop_forkCount env ns failed s hm
      · rw [startAllLoop_start hn he, startAllLoop_forkCount env ns _ _ hm,
          serviceStart_forkCount_ne hne]
        simp [Action.isFork]

/-- **A pass in which what is required is there when it is needed** starts every enabled service,
once. -/
theorem startAllLoop_ok (env : Env) : ∀ (ns : List Name) {s : Sys}, ns.Nodup → s.NotRunning ns →
    s.WillRun ns → env.ForksFor s.children ns →
      (startAllLoop env ns 0 s).1 = 0 ∧ ∀ n ∈ ns, ∀ svc, s.services.find n = some svc →
        svc.enabled = true → (startAllLoop env ns 0 s).2.forkCount n = s.forkCount n + 1
  | [], s, _, _, _, _ => ⟨rfl, fun n hn => absurd hn List.not_mem_nil⟩
  | n :: ns, s, hd, hr, hw, hf => by
      obtain ⟨hdn, hd'⟩ := List.nodup_cons.mp hd
      have hne : ∀ {m}, m ∈ ns → m ≠ n := fun hm e => hdn (e ▸ hm)
      rcases skipped_or_enabled s n with hn | ⟨svc, hn, he⟩
      · -- a service that is not enabled, or not registered: nothing is started for it
        rw [startAllLoop_skip hn]
        obtain ⟨h0, hc⟩ := startAllLoop_ok env ns hd' hr.tail (hw.skip hn) hf.tail
        refine ⟨h0, fun m hm svc hsvc he => ?_⟩
        rcases List.mem_cons.mp hm with rfl | hm
        · cases he.symm.trans (hn svc hsvc)
        · exact hc m hm svc hsvc he
      · obtain ⟨pid, hpid, hfresh⟩ := hf.1 n List.mem_cons_self
        let s₁ := (s.emit (.operatorStart n)).readClock (env.clock n)
        let s₂ := (s₁.forked n svc.toServiceConfig pid hfresh).limited svc.toServiceConfig pid
        have hst : serviceStart env (s.emit (.operatorStart n)) n = (0, s₂) :=
          serviceStart_forked (s := s.emit (.operatorStart n)) hn
            (hr n List.mem_cons_self svc hn) (hw.ready hd hr hn he) hpid hfresh
        have hserv : s₂.services = (s₁.forked n svc.toServiceConfig pid hfresh).services :=
          Sys.limited_services _ _ _
        have hfind : ∀ {m}, m ∈ ns → s₂.services.find m = s.services.find m := by
          intro m hm
          rw [hserv]
          exact Registry.find_modify_ne (hne hm)
        have hr₂ : s₂.NotRunning ns := fun m hm svc' hsvc =>
          hr m (List.mem_cons_of_mem n hm) svc' (hfind hm ▸ hsvc)
        have hw₂ : s₂.WillRun ns := by
          have h := Sys.WillRun.started (s := s₁) hw hdn hr hn hfresh
          simpa only [Sys.WillRun, hserv] using h
        have hf₂ : env.ForksFor s₂.children ns := by
          have h := hf.insert hdn hpid hfresh
          rw [Sys.limited_children]
          exact h
        have hcount : ∀ m, s₂.forkCount m = s.forkCount m + if n = m then 1 else 0 := by
          intro m
          have h := Sys.forkCount_forked s₁ n svc.toServiceConfig hfresh m
          simpa [s₁, s₂, Action.isFork] using h
        obtain ⟨h0, hc⟩ := startAllLoop_ok env ns hd' hr₂ hw₂ hf₂
        rw [startAllLoop_start hn he, hst]
        refine ⟨h0, fun m hm svc' hsvc he' => ?_⟩
        rcases List.mem_cons.mp hm with rfl | hm
        · exact (startAllLoop_forkCount env ns _ _ hdn).trans ((hcount m).trans (by rw [if_pos rfl]))
        · refine (hc m hm svc' ((hfind hm).trans hsvc) he').trans ?_
          rw [hcount, if_neg (Ne.symm (hne hm))]

/-! ### What a pass without a failed start has found -/

/-- A start that did not fail found what the service requires running, and leaves the service running
only if it is simple. -/
theorem serviceStart_ok (hn : s.services.find n = some svc) (hr : svc.state ≠ .running)
    (h : ¬ (serviceStart env s n).1 < 0) :
    s.ready n svc = true ∧ ∃ svc', (serviceStart env s n).2.services.find n = some svc' ∧
      svc'.toServiceConfig = svc.toServiceConfig ∧ (svc'.state = .running → svc.type = .simple) := by
  revert h
  refine serviceStart_cases (motive := fun r => ¬ r.1 < 0 → s.ready n svc = true ∧
    ∃ svc', r.2.services.find n = some svc' ∧ svc'.toServiceConfig = svc.toServiceConfig ∧
      (svc'.state = .running → svc.type = .simple)) hn ?_ ?_ ?_ ?_
  · exact fun k => absurd k hr
  · exact fun _ _ k => absurd (by decide : (-1 : Int) < 0) k
  · exact fun _ _ _ k => absurd (by decide : (-1 : Int) < 0) k
  · intro pid hf _ hd _ _
    refine ⟨hd, svc.update (forkedRuntime svc.toServiceConfig pid
      (s.readClock (env.clock n)).clock), ?_, rfl, ?_⟩
    · rw [Sys.limited_services]
      exact Registry.find_modify_self.trans (congrArg _ hn)
    · intro k
      by_contra ht
      simp only [Service.update_runtime, forkedRuntime, if_neg ht] at k
      cases k

/-- **A pass without a failed start** met only requirements that were running before or are simple. -/
theorem startAllLoop_zero (env : Env) : ∀ (ns : List Name) (failed : Nat) {s : Sys}, ns.Nodup →
    s.NotRunning ns → (startAllLoop env ns failed s).1 = 0 →
      failed = 0 ∧ ∀ n ∈ ns, ∀ svc, s.services.find n = some svc → svc.enabled = true →
        ∀ d ∈ svc.requires, ∀ dep, s.services.find d = some dep →
          dep.state = .running ∨ dep.type = .simple
  | [], _, _, _, _, h => ⟨h, fun n hn => absurd hn List.not_mem_nil⟩
  | n :: ns, failed, s, hd, hr, h => by
      obtain ⟨hdn, hd'⟩ := List.nodup_cons.mp hd
      have hne : ∀ {m}, m ∈ ns → m ≠ n := fun hm e => hdn (e ▸ hm)
      rcases skipped_or_enabled s n with hn | ⟨svc, hn, he⟩
      · rw [startAllLoop_skip hn] at h
        obtain ⟨h0, hdep⟩ := startAllLoop_zero env ns failed hd' hr.tail h
        refine ⟨h0, fun m hm svc hsvc he => ?_⟩
        rcases List.mem_cons.mp hm with rfl | hm
        · cases he.symm.trans (hn svc hsvc)
        · exact hdep m hm svc hsvc he
      · rw [startAllLoop_start hn he] at h
        have hfind : ∀ {m}, m ≠ n →
            (serviceStart env (s.emit (.operatorStart n)) n).2.services.find m =
              s.services.find m := fun hm => serviceStart_find_ne hm
        have hr₂ : (serviceStart env (s.emit (.operatorStart n)) n).2.NotRunning ns :=
          fun m hm svc' hsvc => hr m (List.mem_cons_of_mem n hm) svc' (hfind (hne hm) ▸ hsvc)
        obtain ⟨h0, hdep⟩ := startAllLoop_zero env ns _ hd' hr₂ h
        by_cases hneg : (serviceStart env (s.emit (.operatorStart n)) n).1 < 0
        · rw [if_pos hneg] at h0
          cases h0
        rw [if_neg hneg] at h0
        obtain ⟨hready, svc₁, hn₁, hcfg, hsimple⟩ :=
          serviceStart_ok (s := s.emit (.operatorStart n)) hn (hr n List.mem_cons_self svc hn) hneg
        refine ⟨h0, fun m hm svc' hsvc he' d hreq dep hdep' => ?_⟩
        rcases List.mem_cons.mp hm with rfl | htl
        · obtain rfl := Option.some.inj (hn.symm.trans hsvc)
          exact .inl (ready_iff.mp hready d hreq dep hdep').2
        · have hsvc₂ := (hfind (hne htl)).trans hsvc
          by_cases e : d = n
          · -- a requirement started in this pass
            subst e
            obtain rfl := Option.some.inj (hn.symm.trans hdep')
            rcases hdep m htl svc' hsvc₂ he' d hreq svc₁ hn₁ with k | k
            · exact .inr (hsimple k)
            · exact .inr ((congrArg ServiceConfig.type hcfg).symm.trans k)
          · exact hdep m htl svc' hsvc₂ he' d hreq dep ((hfind e).trans hdep')

theorem Env.ForksFor.mono {k : Children Name} {ns' : List Name} (h : env.ForksFor k ns)
    (hsub : ns' ⊆ ns) : env.ForksFor k ns' :=
  ⟨fun m hm => h.1 m (hsub hm), fun m hm j hj => h.2 m (hsub hm) j (hsub hj)⟩

theorem mem_order_iff {r : Registry} (h : (serviceResolveDeps r.list).1 = 0) (hm : svc ∈ r.list) :
    svc.name ∈ (serviceResolveDeps r.list).2 ↔ svc ∈ svcArray r.list := by
  rw [(serviceResolveDeps_perm h).mem_iff, List.mem_map]
  constructor
  · rintro ⟨svc', hm', e⟩
    rwa [← List.inj_on_of_nodup_map r.nodup (List.mem_of_mem_take hm') hm e]
  · exact fun k => ⟨svc, k, rfl⟩

/-- A requirement stands before the service that requires it, when both are in the array. -/
theorem precedes_of_requires {r : Registry} {dep : Service} (h : (serviceResolveDeps r.list).1 = 0)
    (hs : svc ∈ svcArray r.list) (hd : dep ∈ svcArray r.list) (hreq : dep.name ∈ svc.requires) :
    Precedes (serviceResolveDeps r.list).2 dep.name svc.name := by
  obtain ⟨i, hi, rfl⟩ := List.getElem_of_mem hs
  obtain ⟨j, hj, rfl⟩ := List.getElem_of_mem hd
  exact precedes_of_dependsOn (i := ⟨i, hi⟩) (j := ⟨j, hj⟩) h
    ⟨_, List.mem_of_mem_take hs, rfl, nameAt_mem ⟨j, hj⟩, .inr hreq⟩

theorem serviceStartAll_eq_zero :
    (serviceStartAll env s).1 = 0 ↔ (startAllLoop env s.startOrder 0 s).1 = 0 := by
  simp only [serviceStartAll]
  split
  · rename_i h
    exact iff_of_false (by decide) h.ne'
  · rename_i h
    exact iff_of_true rfl (Nat.eq_zero_of_not_pos h)

end

/-- **What `service_start_all` starts.**  Of a registry that `service_resolve_deps` has sorted, whose
services are all stopped, and in which whatever an enabled service requires is enabled, the pass
returns 0 and forks once for every enabled service exactly when every enabled service is in the array
and whatever an enabled service requires is simple. -/
theorem startAll_starts_iff {s : Sys} {env : Env} (h0 : (serviceResolveDeps s.services.list).1 = 0)
    (hord : s.startOrder = (serviceResolveDeps s.services.list).2)
    (hstop : ∀ svc ∈ s.services.list, svc.state = .stopped)
    (hreq : ∀ svc ∈ s.services.list, svc.enabled = true → ∀ dep ∈ s.services.list,
      dep.name ∈ svc.requires → dep.enabled = true)
    (hfork : env.ForksFor s.children s.services.names) :
    ((serviceStartAll env s).1 = 0 ∧ ∀ svc ∈ s.services.list, svc.enabled = true →
      (serviceStartAll env s).2.forkCount svc.name = s.forkCount svc.name + 1) ↔
    (∀ svc ∈ s.services.list, svc.enabled = true → svc ∈ svcArray s.services.list) ∧
      ∀ svc ∈ s.services.list, svc.enabled = true → ∀ dep ∈ s.services.list,
        dep.name ∈ svc.requires → dep.type = .simple := by
  have hnd : s.startOrder.Nodup := hord ▸ serviceResolveDeps_nodup h0
  have hmem : ∀ svc ∈ s.services.list, svc.name ∈ s.startOrder ↔ svc ∈ svcArray s.services.list :=
    fun svc hm => hord ▸ mem_order_iff h0 hm
  have hstopped : ∀ {n svc}, s.services.find n = some svc → svc.state ≠ .running := by
    intro n svc hn hr
    cases hr.symm.trans (hstop svc (Registry.find_eq_some.mp hn).1)
  have hrun : s.NotRunning s.startOrder := fun n _ svc hn => hstopped hn
  constructor
  · rintro ⟨hret, hcount⟩
    have harr : ∀ svc ∈ s.services.list, svc.enabled = true → svc ∈ svcArray s.services.list := by
      intro svc hm he
      by_contra hno
      have hc : (serviceStartAll env s).2.forkCount svc.name = s.forkCount svc.name :=
        startAllLoop_forkCount env s.startOrder 0 s fun k => hno ((hmem svc hm).mp k)
      exact absurd (hc.symm.trans (hcount svc hm he)) (Nat.ne_of_lt (Nat.lt_succ_self _))
    refine ⟨harr, fun svc hm he dep hd hr => ?_⟩
    obtain ⟨-, hdep⟩ := startAllLoop_zero env s.startOrder 0 hnd hrun (serviceStartAll_eq_zero.mp hret)
    rcases hdep svc.name ((hmem svc hm).mpr (harr svc hm he)) svc (Registry.find_of_mem hm) he
      dep.name hr dep (Registry.find_of_mem hd) with k | k
    · exact absurd k (hstopped (Registry.find_of_mem hd))
    · exact k
  · rintro ⟨harr, hsimple⟩
    have hwill : s.WillRun s.startOrder := by
      intro n _ svc hn he d hd dep hdep
      obtain ⟨hm, rfl⟩ := Registry.find_eq_some.mp hn
      obtain ⟨hmd, rfl⟩ := Registry.find_eq_some.mp hdep
      have hde := hreq svc hm he dep hmd hd
      refine .inr ⟨?_, hde, hsimple svc hm he dep hmd hd⟩
      rw [hord]
      exact precedes_of_requires h0 (harr svc hm he) (harr dep hmd hde) hd
    have hsub : s.startOrder ⊆ s.services.names := by
      intro n hn
      rw [hord, (serviceResolveDeps_perm h0).mem_iff] at hn
      exact ((List.take_sublist maxServices _).map _).subset hn
    obtain ⟨hz, hc⟩ := startAllLoop_ok env s.startOrder hnd hrun hwill (hfork.mono hsub)
    exact ⟨serviceStartAll_eq_zero.mpr hz, fun svc hm he =>
      hc svc.name ((hmem svc hm).mpr (harr svc hm he)) svc (Registry.find_of_mem hm) he⟩

/-- lumid when it has loaded and sorted a `devd` of type `t` and a compositor that requires it. -/
def loadedSession (t : SvcType) : Sys :=
  (serviceLoadAll
    (some [{ fileName := ascii "devd.svc", config := some { name := devd, type := t } },
      { fileName := ascii "lumi-compositor.svc",
        config := some compositorService.toServiceConfig }]) (Sys.init 0)).2.resolve.2

theorem Env.session_forksFor (t : SvcType) :
    Env.session.ForksFor (loadedSession t).children (loadedSession t).services.names := by
  have hk : (loadedSession t).children = .empty := by cases t <;> rfl
  have hn : (loadedSession t).services.names = [compositor, devd] := by cases t <;> decide
  rw [hk, hn]
  exact ⟨fun n _ => ⟨_, rfl, by decide +revert⟩, by decide⟩

theorem startAll_starts_iff_session : (serviceStartAll Env.session (loadedSession .simple)).1 = 0 :=
  ((startAll_starts_iff (by decide) rfl (by decide) (by decide)
    (Env.session_forksFor .simple)).mpr (by decide)).1

/-- A `devd` that signals its readiness is never marked running, and the compositor fails. -/
theorem startAll_stuck :
    ¬ ∀ s env, (serviceResolveDeps s.services.list).1 = 0 →
      s.startOrder = (serviceResolveDeps s.services.list).2 →
      (∀ svc ∈ s.services.list, svc.state = .stopped) →
      (∀ svc ∈ s.services.list, svc.enabled = true → ∀ dep ∈ s.services.list,
        dep.name ∈ svc.requires → dep.enabled = true) →
      env.ForksFor s.children s.services.names →
      (serviceStartAll env s).1 = 0 ∧ ∀ svc ∈ s.services.list, svc.enabled = true →
        (serviceStartAll env s).2.forkCount svc.name = s.forkCount svc.name + 1 := by
  intro h
  have := h (loadedSession .notify) Env.session (by decide) rfl (by decide) (by decide)
    (Env.session_forksFor .notify)
  exact absurd this.1 (by decide)

end LumiOS.Lumid
