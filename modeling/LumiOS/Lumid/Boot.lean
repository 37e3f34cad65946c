import LumiOS.Support.Rises
import LumiOS.Lumid.CheckOrder
import LumiOS.Lumid.Loading
import LumiOS.Lumid.StopAll

/-!
# Lumid — Boot

What a boot comes to.  `service_start_all` walks the start order and gives no service a second chance:
a service whose turn comes before what it requires is running has failed.  The sort rules that out,
so what is running at the end is the least set that a service is in as soon as it is enabled and
simple, its `fork` succeeds and whatever it requires is in the set (`ComesUp`); every other service is
as its own configuration and that set say (`serviceStartAll_boots`).

Nothing of the order in which the services were registered is left in this, so the order in which
`readdir` returns the service files does not matter: whether the registry has a cycle, what
`load_and_start_services` returns, and how it leaves every service, start times aside
(`boot_perm`).
-/

namespace LumiOS.Lumid

open Support

/-! ### What comes up -/

/-- `d` is registered, and `n` requires it. -/
def Needs (r : Registry) (n d : Name) : Prop :=
  ∃ svc, r.find n = some svc ∧ d ∈ svc.requires ∧ d ∈ r.names

/-- `n` runs once it is started: it is enabled and simple, and its `fork` succeeds. -/
def CanRun (r : Registry) (env : Env) (n : Name) : Prop :=
  ∃ svc, r.find n = some svc ∧ svc.enabled = true ∧ svc.type = .simple ∧ (env.fork n).isSome

/-- `n` is running after a boot. -/
def ComesUp (r : Registry) (env : Env) : Name → Prop := Rises (CanRun r env) (Needs r)

/-- What is required of `svc` is `up`, and its `fork` succeeds. -/
def Launches (up : Name → Prop) (r : Registry) (env : Env) (svc : Service) : Prop :=
  (env.fork svc.name).isSome ∧ ∀ d, Needs r svc.name d → up d

/-- How a boot leaves `svc`, when the services in `up` are running at its end. -/
inductive Boots (up : Name → Prop) (r : Registry) (env : Env) (svc : Service) : Service → Prop where
  | disabled (he : svc.enabled = false) : Boots up r env svc svc
  | launched (he : svc.enabled = true) (hl : Launches up r env svc) {pid : Int}
      (hf : env.fork svc.name = some pid) (t : UInt64) :
      Boots up r env svc (svc.update (forkedRuntime svc.toServiceConfig pid t))
  | failed (he : svc.enabled = true) (hl : ¬ Launches up r env svc) :
      Boots up r env svc (svc.update ({ · with state := .failed }))

/-- The pids that `fork` may return in a pass over `ns` are different, and no unreaped child holds
one. -/
def Env.ForksFresh (env : Env) (k : Children Name) (ns : List Name) : Prop :=
  (∀ n ∈ ns, ∀ pid, env.fork n = some pid → k.Fresh pid) ∧
    ∀ n ∈ ns, ∀ m ∈ ns, ∀ pid, env.fork n = some pid → env.fork m = some pid → n = m

def Sys.Running (s : Sys) (n : Name) : Prop :=
  ∃ svc, s.services.find n = some svc ∧ svc.state = .running

section

variable {s : Sys} {n m d : Name} {ns : List Name} {svc svc' : Service} {env : Env} {pid : Int}
  {r r' : Registry} {up up' : Name → Prop}

theorem mem_names_of_find (h : r.find n = some svc) : n ∈ r.names :=
  List.mem_map.mpr ⟨svc, (Registry.find_eq_some.mp h).1, Registry.name_of_find h⟩

theorem Launches.congr (h : ∀ d, Needs r svc.name d → (up d ↔ up' d)) :
    Launches up r env svc ↔ Launches up' r env svc :=
  and_congr_right fun _ => forall₂_congr h

theorem Boots.congr (h : ∀ d, Needs r svc.name d → (up d ↔ up' d)) (hb : Boots up r env svc svc') :
    Boots up' r env svc svc' := by
  cases hb with
  | disabled he => exact .disabled he
  | launched he hl hf t => exact .launched he ((Launches.congr h).mp hl) hf t
  | failed he hl => exact .failed he fun k => hl ((Launches.congr h).mpr k)

/-- It leaves running what can run and finds running what it requires. -/
theorem Boots.running_iff (hb : Boots up r env svc svc') (hn : r.find svc.name = some svc)
    (hr : svc.state ≠ .running) :
    svc'.state = .running ↔ CanRun r env svc.name ∧ ∀ d, Needs r svc.name d → up d := by
  have hcan : CanRun r env svc.name ↔
      svc.enabled = true ∧ svc.type = .simple ∧ (env.fork svc.name).isSome := by
    constructor
    · rintro ⟨svc₁, h₁, h⟩
      rwa [Option.some.inj (h₁.symm.trans hn)] at h
    · exact fun h => ⟨svc, hn, h⟩
  rw [hcan]
  cases hb with
  | disabled he =>
      exact iff_of_false hr fun h => Bool.noConfusion (he.symm.trans h.1.1)
  | failed he hl =>
      exact iff_of_false SvcState.noConfusion fun h => hl ⟨h.1.2.2, h.2⟩
  | launched he hl hf t =>
      by_cases ht : svc.type = .simple
      · exact iff_of_true (if_pos ht) ⟨⟨he, ht, hl.1⟩, hl.2⟩
      · refine iff_of_false (fun h => ?_) fun h => ht h.1.2.1
        rw [Service.update_runtime, forkedRuntime, if_neg ht] at h
        cases h

/-! ### One start -/

@[simp] theorem serviceStart_names (env : Env) (s : Sys) (n : Name) :
    (serviceStart env s n).2.services.names = s.services.names := by
  cases hn : s.services.find n with
  | none => rw [serviceStart_unregistered hn]
  | some svc =>
      refine serviceStart_cases (motive := fun r => r.2.services.names = s.services.names) hn
        ?_ ?_ ?_ ?_ <;> intros <;> simp [Sys.forked]

/-- The children after a start: as before, or one more. -/
theorem serviceStart_children (env : Env) (s : Sys) (n : Name) :
    (serviceStart env s n).2.children = s.children ∨
      ∃ pid, ∃ hf : s.children.Fresh pid, env.fork n = some pid ∧
        (serviceStart env s n).2.children = s.children.insert pid (some n) hf := by
  cases hn : s.services.find n with
  | none => exact .inl (by rw [serviceStart_unregistered hn])
  | some svc =>
      refine serviceStart_cases (motive := fun r => r.2.children = s.children ∨
        ∃ pid, ∃ hf : s.children.Fresh pid, env.fork n = some pid ∧
          r.2.children = s.children.insert pid (some n) hf) hn ?_ ?_ ?_ ?_
      · exact fun _ => .inl rfl
      · exact fun _ _ => .inl rfl
      · exact fun _ _ _ => .inl rfl
      · exact fun pid hf _ _ he => .inr ⟨pid, hf, he, by rw [Sys.limited_children]; rfl⟩

theorem Env.ForksFresh.tail {k : Children Name} (h : env.ForksFresh k (n :: ns)) :
    env.ForksFresh k ns :=
  ⟨fun m hm => h.1 m (List.mem_cons_of_mem n hm),
    fun m hm j hj => h.2 m (List.mem_cons_of_mem n hm) j (List.mem_cons_of_mem n hj)⟩

/-- The rest of the pass finds its pids fresh. -/
theorem Env.ForksFresh.start (h : env.ForksFresh s.children (n :: ns)) (hd : n ∉ ns) :
    env.ForksFresh (serviceStart env s n).2.children ns := by
  rcases serviceStart_children env s n with e | ⟨pid, hf, he, e⟩
  · rw [e]
    exact h.tail
  · rw [e]
    refine ⟨fun m hm p hp => Children.Fresh.insert (h.tail.1 m hm p hp) ?_, h.tail.2⟩
    rintro rfl
    exact hd (h.2 n List.mem_cons_self m (List.mem_cons_of_mem n hm) p he hp ▸ hm)

/-- A start of an enabled service, when what the check of its requirements sees is `up`. -/
theorem serviceStart_boots (hn : s.services.find n = some svc) (he : svc.enabled = true)
    (hr : svc.state ≠ .running) (hf : ∀ pid, env.fork n = some pid → s.children.Fresh pid)
    (hup : s.ready n svc = true ↔ ∀ d, Needs r n d → up d) :
    ∃ svc', (serviceStart env s n).2.services.find n = some svc' ∧ Boots up r env svc svc' ∧
      (0 ≤ (serviceStart env s n).1 ↔ Launches up r env svc) := by
  obtain rfl := Registry.name_of_find hn
  refine serviceStart_cases (motive := fun o => ∃ svc', o.2.services.find svc.name = some svc' ∧
    Boots up r env svc svc' ∧ (0 ≤ o.1 ↔ Launches up r env svc)) hn ?_ ?_ ?_ ?_
  · exact fun k => absurd k hr
  · intro _ hd
    have hl : ¬ Launches up r env svc := fun k => by
      rw [hup.mpr k.2] at hd
      cases hd
    exact ⟨_, Registry.find_modify_self.trans (congrArg _ hn), .failed he hl,
      iff_of_false (fun k => absurd k (by decide : ¬ (0 : Int) ≤ -1)) hl⟩
  · intro _ _ hk
    have hl : ¬ Launches up r env svc := by
      rintro ⟨hs, -⟩
      obtain ⟨pid, hp⟩ := Option.isSome_iff_exists.mp hs
      rw [hp, Children.fork, dif_pos (hf pid hp)] at hk
      cases hk
    exact ⟨_, Registry.find_modify_self.trans (congrArg _ hn), .failed he hl,
      iff_of_false (fun k => absurd k (by decide : ¬ (0 : Int) ≤ -1)) hl⟩
  · intro pid hfr _ hd hp
    have hl : Launches up r env svc := ⟨Option.isSome_iff_exists.mpr ⟨pid, hp⟩, hup.mp hd⟩
    refine ⟨_, ?_, .launched he hl hp (s.readClock (env.clock svc.name)).clock,
      iff_of_true (le_refl _) hl⟩
    rw [Sys.limited_services]
    exact Registry.find_modify_self.trans (congrArg _ hn)

/-! ### The pass -/

/-- The pass leaves alone what is not in its list. -/
theorem startAllLoop_find_not_mem (env : Env) : ∀ (ns : List Name) (failed : Nat) (s : Sys), m ∉ ns →
    (startAllLoop env ns failed s).2.services.find m = s.services.find m
  | [], _, _, _ => rfl
  | n :: ns, failed, s, hm => by
      obtain ⟨hne, hm⟩ := not_or.mp (List.mem_cons.not.mp hm)
      rcases skipped_or_enabled s n with hn | ⟨svc, hn, he⟩
      · rw [startAllLoop_skip hn]
        exact startAllLoop_find_not_mem env ns failed s hm
      · rw [startAllLoop_start hn he, startAllLoop_find_not_mem env ns _ _ hm,
          serviceStart_find_ne hne]
        rfl

theorem serviceStartAll_snd (env : Env) (s : Sys) :
    (serviceStartAll env s).2 = (startAllLoop env s.startOrder 0 s).2 := rfl

theorem startAllLoop_names (env : Env) : ∀ (ns : List Name) (failed : Nat) (s : Sys),
    (startAllLoop env ns failed s).2.services.names = s.services.names
  | [], _, _ => rfl
  | n :: ns, failed, s => by
      rcases skipped_or_enabled s n with hn | ⟨svc, hn, he⟩
      · rw [startAllLoop_skip hn]
        exact startAllLoop_names env ns failed s
      · rw [startAllLoop_start hn he, startAllLoop_names env ns, serviceStart_names]
        rfl

/-- **The pass** leaves each service of its list as what is running at its end makes it, and counts
the enabled services that were not launched. -/
theorem startAllLoop_boots (env : Env) : ∀ (ns : List Name) (failed : Nat) (s : Sys), ns.Nodup →
    (∀ n ∈ ns, s.services.find n = r.find n) → s.services.names = r.names → s.NotRunning ns →
    (∀ n ∈ ns, ∀ d, Needs r n d → d ∈ ns → Precedes ns d n) → env.ForksFresh s.children ns →
    (∀ n ∈ ns, ∀ svc, r.find n = some svc →
      ∃ svc', (startAllLoop env ns failed s).2.services.find n = some svc' ∧
        Boots (startAllLoop env ns failed s).2.Running r env svc svc') ∧
    ((startAllLoop env ns failed s).1 = 0 ↔ failed = 0 ∧ ∀ n ∈ ns, ∀ svc, r.find n = some svc →
      svc.enabled = true → Launches (startAllLoop env ns failed s).2.Running r env svc)
  | [], failed, s, _, _, _, _, _, _ => by simp [startAllLoop]
  | n :: ns, failed, s, hd, hfind, hnames, hr, hs, hf => by
      obtain ⟨hdn, hd'⟩ := List.nodup_cons.mp hd
      have hfind' : ∀ m ∈ ns, s.services.find m = r.find m :=
        fun m hm => hfind m (List.mem_cons_of_mem n hm)
      -- what the head of a list without repetition needs stands nowhere in it
      have hs' : ∀ m ∈ ns, ∀ d, Needs r m d → d ∈ ns → Precedes ns d m := by
        intro m hm d hdep hdm
        rcases precedes_cons.mp (hs m (List.mem_cons_of_mem n hm) d hdep
          (List.mem_cons_of_mem n hdm)) with ⟨rfl, -⟩ | hp
        · exact absurd hdm hdn
        · exact hp
      have hhead : ∀ d, Needs r n d → d ∉ n :: ns := by
        intro d hdep hdm
        have hp := hs n List.mem_cons_self d hdep hdm
        rcases precedes_cons.mp hp with ⟨-, hm⟩ | hp
        · exact hdn hm
        · exact hdn hp.mem.2
      rcases skipped_or_enabled s n with hn | ⟨svc, hn, he⟩
      · rw [startAllLoop_skip hn]
        obtain ⟨hb, hz⟩ := startAllLoop_boots env ns failed s hd' hfind' hnames hr.tail hs' hf.tail
        have hdis : ∀ svc, r.find n = some svc → svc.enabled = false := fun svc h =>
          hn svc ((hfind n List.mem_cons_self).trans h)
        refine ⟨fun m hm svc hsvc => ?_, hz.trans (and_congr_right fun _ => ?_)⟩
        · rcases List.mem_cons.mp hm with rfl | hm
          · refine ⟨svc, ?_, .disabled (hdis svc hsvc)⟩
            rw [startAllLoop_find_not_mem env ns failed s hdn, hfind m List.mem_cons_self, hsvc]
          · exact hb m hm svc hsvc
        · rw [List.forall_mem_cons, and_iff_right]
          intro svc hsvc he
          cases he.symm.trans (hdis svc hsvc)
      · rw [startAllLoop_start hn he]
        have hne : ∀ {m}, m ∈ ns → m ≠ n := fun hm e => hdn (e ▸ hm)
        have hfind₂ : ∀ {m}, m ≠ n →
            (serviceStart env (s.emit (.operatorStart n)) n).2.services.find m =
              s.services.find m := fun hm => serviceStart_find_ne hm
        have hf₂ : env.ForksFresh (serviceStart env (s.emit (.operatorStart n)) n).2.children ns :=
          Env.ForksFresh.start (s := s.emit (.operatorStart n)) hf hdn
        obtain ⟨hb, hz⟩ := startAllLoop_boots env ns
          (if (serviceStart env (s.emit (.operatorStart n)) n).1 < 0 then failed + 1 else failed)
          (serviceStart env (s.emit (.operatorStart n)) n).2 hd'
          (fun m hm => (hfind₂ (hne hm)).trans (hfind' m hm))
          ((serviceStart_names env _ n).trans hnames)
          (fun m hm svc' hsvc => hr m (List.mem_cons_of_mem n hm) svc'
            ((hfind₂ (hne hm)).symm.trans hsvc)) hs' hf₂
        generalize hfin : (startAllLoop env ns
          (if (serviceStart env (s.emit (.operatorStart n)) n).1 < 0 then failed + 1 else failed)
          (serviceStart env (s.emit (.operatorStart n)) n).2) = fin at hb hz ⊢
        -- what `n` needs has had its turn, so the end finds it as the check does
        have hlate : ∀ {m}, m ∉ ns → m ≠ n → fin.2.services.find m = s.services.find m := by
          intro m hm hmn
          rw [← hfin, startAllLoop_find_not_mem env ns _ _ hm, hfind₂ hmn]
        have hup : (s.emit (.operatorStart n)).ready n svc = true ↔
            ∀ d, Needs r n d → fin.2.Running d := by
          refine ready_iff.trans ⟨fun h d hdep => ?_, fun h d hd dep hdep => ?_⟩
          · obtain ⟨hdn', hdns⟩ := not_or.mp (List.mem_cons.not.mp (hhead d hdep))
            obtain ⟨svc₁, h₁, hreq, hreg⟩ := hdep
            rw [← hfind n List.mem_cons_self, hn] at h₁
            obtain rfl := Option.some.inj h₁
            obtain ⟨dep, hdep⟩ := Registry.exists_find (hnames ▸ hreg)
            exact ⟨dep, (hlate hdns hdn').trans hdep, (h d hreq dep hdep).2⟩
          · have hdep' : Needs r n d :=
              ⟨svc, (hfind n List.mem_cons_self).symm.trans hn, hd, hnames ▸ mem_names_of_find hdep⟩
            obtain ⟨hdn', hdns⟩ := not_or.mp (List.mem_cons.not.mp (hhead d hdep'))
            obtain ⟨dep', hdep₁, hrun⟩ := h d hdep'
            rw [hlate hdns hdn'] at hdep₁
            obtain rfl := Option.some.inj (hdep₁.symm.trans hdep)
            exact ⟨hdn', hrun⟩
        obtain ⟨svc', hn', hboot, hret⟩ := serviceStart_boots (s := s.emit (.operatorStart n)) hn he
          (hr n List.mem_cons_self svc hn) (hf.1 n List.mem_cons_self) hup
        refine ⟨fun m hm svc₁ hsvc => ?_, ?_⟩
        · rcases List.mem_cons.mp hm with rfl | hm
          · rw [← hfind m List.mem_cons_self, hn] at hsvc
            obtain rfl := Option.some.inj hsvc
            refine ⟨svc', ?_, hboot⟩
            rw [← hfin, startAllLoop_find_not_mem env ns _ _ hdn, hn']
          · exact hb m hm svc₁ hsvc
        · rw [hz, List.forall_mem_cons]
          by_cases hneg : (serviceStart env (s.emit (.operatorStart n)) n).1 < 0
          · rw [if_pos hneg]
            refine iff_of_false (fun h => Nat.succ_ne_zero _ h.1) fun h => ?_
            have hl := h.2.1 svc ((hfind n List.mem_cons_self).symm.trans hn) he
            exact absurd (hret.mpr hl) (not_le.mpr hneg)
          · rw [if_neg hneg]
            refine and_congr_right fun _ => (and_iff_right ?_).symm
            intro svc₁ hsvc _
            rw [← hfind n List.mem_cons_self, hn] at hsvc
            obtain rfl := Option.some.inj hsvc
            exact hret.mp (not_lt.mp hneg)

/-! ### The boot -/

/-- The pass over a sorted start order. -/
theorem startAllLoop_comesUp (hlen : s.services.list.length ≤ maxServices)
    (h0 : (serviceResolveDeps s.services.list).1 = 0)
    (hord : s.startOrder = (serviceResolveDeps s.services.list).2)
    (hr : ∀ svc ∈ s.services.list, svc.state ≠ .running)
    (hf : env.ForksFresh s.children s.services.names) :
    (∀ svc ∈ s.services.list, ∃ svc',
      (startAllLoop env s.startOrder 0 s).2.services.find svc.name = some svc' ∧
        Boots (ComesUp s.services env) s.services env svc svc') ∧
    ((startAllLoop env s.startOrder 0 s).1 = 0 ↔ ∀ svc ∈ s.services.list, svc.enabled = true →
      Launches (ComesUp s.services env) s.services env svc) := by
  have hp : s.startOrder.Perm s.services.names := hord ▸ serviceResolveDeps_perm_names hlen h0
  have hnd : s.startOrder.Nodup := hp.nodup_iff.mpr s.services.nodup
  have hmem : ∀ svc ∈ s.services.list, svc.name ∈ s.startOrder :=
    fun svc hm => hp.mem_iff.mpr (List.mem_map_of_mem hm)
  have harr : svcArray s.services.list = s.services.list := List.take_of_length_le hlen
  have hstop : ∀ {n svc}, s.services.find n = some svc → svc.state ≠ .running :=
    fun h => hr _ (Registry.find_eq_some.mp h).1
  have hs : ∀ n ∈ s.startOrder, ∀ d, Needs s.services n d → Precedes s.startOrder d n := by
    rintro n - d ⟨svc, hn, hreq, hd⟩
    obtain ⟨dep, hdep⟩ := Registry.exists_find hd
    obtain ⟨hm, rfl⟩ := Registry.find_eq_some.mp hn
    obtain ⟨hmd, rfl⟩ := Registry.find_eq_some.mp hdep
    rw [hord]
    exact precedes_of_requires h0 (harr.symm ▸ hm) (harr.symm ▸ hmd) hreq
  obtain ⟨hb, hz⟩ := startAllLoop_boots env s.startOrder 0 s hnd (fun _ _ => rfl) rfl
    (fun n _ svc hn => hstop hn) (fun n hn d hd _ => hs n hn d hd)
    ⟨fun n hn => hf.1 n (hp.mem_iff.mp hn),
      fun n hn m hm => hf.2 n (hp.mem_iff.mp hn) m (hp.mem_iff.mp hm)⟩
  -- what is running at the end is what comes up
  have hup : ∀ n ∈ s.startOrder, (startAllLoop env s.startOrder 0 s).2.Running n ↔
      ComesUp s.services env n := by
    refine rises_of_local hnd hs fun n hn => ?_
    obtain ⟨svc, hsvc⟩ := Registry.exists_find (hp.mem_iff.mp hn)
    obtain rfl := Registry.name_of_find hsvc
    obtain ⟨svc', hn', hboot⟩ := hb _ hn svc hsvc
    rw [← hboot.running_iff hsvc (hstop hsvc)]
    refine ⟨fun ⟨svc₁, h₁, hrun⟩ => ?_, fun hrun => ⟨svc', hn', hrun⟩⟩
    rwa [Option.some.inj (h₁.symm.trans hn')] at hrun
  have hneed : ∀ svc : Service, ∀ d, Needs s.services svc.name d →
      ((startAllLoop env s.startOrder 0 s).2.Running d ↔ ComesUp s.services env d) := by
    rintro svc d ⟨-, -, -, hd⟩
    exact hup d (hp.mem_iff.mpr hd)
  refine ⟨fun svc hm => ?_, ?_⟩
  · obtain ⟨svc', hn', hboot⟩ := hb _ (hmem svc hm) svc (Registry.find_of_mem hm)
    exact ⟨svc', hn', hboot.congr (hneed svc)⟩
  · rw [hz, and_iff_right rfl]
    constructor
    · intro h svc hm he
      exact (Launches.congr (hneed svc)).mp
        (h _ (hmem svc hm) svc (Registry.find_of_mem hm) he)
    · intro h n _ svc hn he
      exact (Launches.congr (hneed svc)).mpr (h svc (Registry.find_eq_some.mp hn).1 he)

/-- **What `service_start_all` comes to.**  From a state in which no service is running, with a start
order `service_resolve_deps` has sorted, the pass leaves every service as the least set of services
that can come up says, and returns 0 exactly when every enabled service was launched. -/
theorem serviceStartAll_boots (hlen : s.services.list.length ≤ maxServices)
    (h0 : (serviceResolveDeps s.services.list).1 = 0)
    (hord : s.startOrder = (serviceResolveDeps s.services.list).2)
    (hr : ∀ svc ∈ s.services.list, svc.state ≠ .running)
    (hf : env.ForksFresh s.children s.services.names) :
    (∀ svc ∈ s.services.list, ∃ svc',
      (serviceStartAll env s).2.services.find svc.name = some svc' ∧
        Boots (ComesUp s.services env) s.services env svc svc') ∧
    ((serviceStartAll env s).1 = 0 ↔ ∀ svc ∈ s.services.list, svc.enabled = true →
      Launches (ComesUp s.services env) s.services env svc) := by
  obtain ⟨hb, hz⟩ := startAllLoop_comesUp hlen h0 hord hr hf
  rw [serviceStartAll_snd, serviceStartAll_eq_zero]
  exact ⟨hb, hz⟩

theorem Env.session_forksFresh (t : SvcType) :
    Env.session.ForksFresh (loadedSession t).children (loadedSession t).services.names := by
  have hk : (loadedSession t).children = .empty := by cases t <;> rfl
  have hn : (loadedSession t).services.names = [compositor, devd] := by cases t <;> decide
  rw [hk, hn]
  exact ⟨by decide +revert, by decide +revert⟩

theorem serviceStartAll_boots_session :
    ((serviceStartAll Env.session (loadedSession .simple)).1 = 0 ↔
      ∀ svc ∈ (loadedSession .simple).services.list, svc.enabled = true →
        Launches (ComesUp (loadedSession .simple).services Env.session)
          (loadedSession .simple).services Env.session svc) :=
  (serviceStartAll_boots (by decide) (by decide) rfl (by decide)
    (Env.session_forksFresh .simple)).2

/-! ### The order of the directory -/

/-- A service, but for when it was started. -/
def Service.unstarted (svc : Service) : Service := svc.update ({ · with startTime := 0 })

/-- A boot leaves a service in one way, but for the time. -/
theorem Boots.unstarted_eq {svc₁ svc₂ : Service} (h : Launches up r env svc ↔ Launches up' r' env svc)
    (h₁ : Boots up r env svc svc₁) (h₂ : Boots up' r' env svc svc₂) :
    svc₁.unstarted = svc₂.unstarted := by
  cases h₁ with
  | disabled he =>
      cases h₂ with
      | disabled => rfl
      | launched he' | failed he' => cases he.symm.trans he'
  | launched he hl hf t =>
      cases h₂ with
      | disabled he' => cases he.symm.trans he'
      | launched _ _ hf' t' =>
          obtain rfl := Option.some.inj (hf.symm.trans hf')
          rfl
      | failed _ hl' => exact absurd (h.mp hl) hl'
  | failed he hl =>
      cases h₂ with
      | disabled he' => cases he.symm.trans he'
      | launched _ hl' => exact absurd (h.mpr hl') hl
      | failed => rfl

theorem needs_perm (h : r'.list.Perm r.list) : Needs r' = Needs r := by
  funext n d
  simp only [Needs, Registry.find_perm h, (names_perm h).mem_iff]

theorem comesUp_perm (h : r'.list.Perm r.list) : ComesUp r' env = ComesUp r env := by
  have hc : CanRun r' env = CanRun r env := by
    funext n
    simp only [CanRun, Registry.find_perm h]
  rw [ComesUp, ComesUp, hc, needs_perm h]

theorem launches_perm (h : r'.list.Perm r.list) :
    Launches (ComesUp r' env) r' env svc ↔ Launches (ComesUp r env) r env svc := by
  rw [Launches, Launches, comesUp_perm h, needs_perm h]

/-- The services a boot registers, when no two files of the directory define one name. -/
theorem mem_loaded {entries : List DirEntry} {now : UInt64}
    (hd : ∀ e ∈ entries, ∀ e' ∈ entries, ∀ cfg cfg', e.loads cfg → e'.loads cfg' →
      cfg.name = cfg'.name → cfg = cfg') :
    svc ∈ (serviceLoadAll (some entries) (Sys.init now)).2.services.list ↔
      ∃ e ∈ entries, ∃ cfg, e.loads cfg ∧ svc = serviceCreate cfg := by
  obtain ⟨new, hlist, hnew, hreg⟩ := serviceLoadAll_list (some entries) (Sys.init now)
  have hlist' : (serviceLoadAll (some entries) (Sys.init now)).2.services.list = new :=
    hlist.trans (List.append_nil new)
  rw [hlist']
  refine ⟨fun hm => (hnew svc hm).2.2, ?_⟩
  rintro ⟨e, he, cfg, hl, rfl⟩
  obtain ⟨svc', hm, hname⟩ := List.mem_map.mp (hreg e he cfg hl)
  rw [hlist'] at hm
  obtain ⟨-, -, e', he', cfg', hl', rfl⟩ := hnew svc' hm
  rwa [hd e he e' he' cfg cfg' hl hl' hname.symm]

theorem loaded_perm {entries entries' : List DirEntry} {now : UInt64} (hp : entries'.Perm entries)
    (hd : ∀ e ∈ entries, ∀ e' ∈ entries, ∀ cfg cfg', e.loads cfg → e'.loads cfg' →
      cfg.name = cfg'.name → cfg = cfg') :
    (serviceLoadAll (some entries') (Sys.init now)).2.services.list.Perm
      (serviceLoadAll (some entries) (Sys.init now)).2.services.list := by
  refine (List.perm_ext_iff_of_nodup (List.Nodup.of_map _ (Registry.nodup _))
    (List.Nodup.of_map _ (Registry.nodup _))).mpr fun svc => ?_
  rw [mem_loaded hd, mem_loaded fun e he e' he' =>
    hd e (hp.mem_iff.mp he) e' (hp.mem_iff.mp he')]
  simp only [hp.mem_iff]

theorem cyclic_perm (h : r'.list.Perm r.list) : Cyclic r' ↔ Cyclic r := by
  have hd : DependsOn r' = DependsOn r := by
    funext x y
    simp only [DependsOn, h.mem_iff, (names_perm h).mem_iff]
  rw [Cyclic, Cyclic, hd]

/-- A boot from a directory that can be read. -/
theorem loadAndStartServices_eq (entries : List DirEntry) (env : Env) (s : Sys) :
    loadAndStartServices (some entries) env s =
      if (serviceResolveDeps (serviceLoadAll (some entries) s).2.services.list).1 < 0 then
        (-1, (serviceLoadAll (some entries) s).2.resolve.2)
      else (0, (serviceStartAll env (serviceLoadAll (some entries) s).2.resolve.2).2) := by
  have h : ¬ (serviceLoadAll (some entries) s).1 < 0 := not_lt.mpr (loadLoop_nonneg (le_refl 0))
  simp only [loadAndStartServices, if_neg h]
  rfl

end

/-- **The order of the directory does not matter to a boot.**  When no two service files define the
same name, the services fit the array, and the kernel gives different services different pids, every
order in which `readdir` may return the files gives the same return value and leaves every service
in the same state, with the same process, start times aside. -/
theorem boot_perm {entries entries' : List DirEntry} {env : Env} {now : UInt64}
    (hp : entries'.Perm entries)
    (hd : ∀ e ∈ entries, ∀ e' ∈ entries, ∀ cfg cfg', e.loads cfg → e'.loads cfg' →
      cfg.name = cfg'.name → cfg = cfg')
    (hlen : (serviceLoadAll (some entries) (Sys.init now)).2.services.list.length ≤ maxServices)
    (hf : env.ForksFresh .empty (serviceLoadAll (some entries) (Sys.init now)).2.services.names) :
    (loadAndStartServices (some entries') env (Sys.init now)).1 =
        (loadAndStartServices (some entries) env (Sys.init now)).1 ∧
      ∀ n, ((loadAndStartServices (some entries') env (Sys.init now)).2.services.find n).map
          Service.unstarted =
        ((loadAndStartServices (some entries) env (Sys.init now)).2.services.find n).map
          Service.unstarted := by
  rw [loadAndStartServices_eq, loadAndStartServices_eq]
  have hperm : (serviceLoadAll (some entries') (Sys.init now)).2.services.list.Perm
      (serviceLoadAll (some entries) (Sys.init now)).2.services.list := loaded_perm hp hd
  have hk := (serviceLoadAll_frame (some entries) (Sys.init now)).1
  have hk' := (serviceLoadAll_frame (some entries') (Sys.init now)).1
  have hidle : ∀ svc ∈ (serviceLoadAll (some entries) (Sys.init now)).2.services.list,
      svc.state ≠ .running := by
    intro svc hm
    obtain ⟨-, -, cfg, -, rfl⟩ := (mem_loaded hd).mp hm
    exact SvcState.noConfusion
  generalize (serviceLoadAll (some entries) (Sys.init now)).2 = s at *
  generalize (serviceLoadAll (some entries') (Sys.init now)).2 = s' at *
  have hlen' : s'.services.list.length ≤ maxServices := hperm.length_eq ▸ hlen
  have hret : (serviceResolveDeps s'.services.list).1 = 0 ↔
      (serviceResolveDeps s.services.list).1 = 0 := by
    rw [serviceResolveDeps_zero_iff hlen', serviceResolveDeps_zero_iff hlen, cyclic_perm hperm]
  by_cases h0 : (serviceResolveDeps s.services.list).1 = 0
  · have h0' := hret.mpr h0
    rw [if_neg (by rw [h0']; decide), if_neg (by rw [h0]; decide)]
    refine ⟨rfl, fun n => ?_⟩
    have hf₁ : env.ForksFresh s.children s.services.names := hk ▸ hf
    have hf₂ : env.ForksFresh s'.children s'.services.names :=
      hk' ▸ ⟨fun m hm => hf.1 m ((names_perm hperm).mem_iff.mp hm), fun m hm j hj =>
        hf.2 m ((names_perm hperm).mem_iff.mp hm) j ((names_perm hperm).mem_iff.mp hj)⟩
    obtain ⟨hb, -⟩ := startAllLoop_comesUp (s := s.resolve.2) hlen h0 rfl hidle hf₁
    obtain ⟨hb', -⟩ := startAllLoop_comesUp (s := s'.resolve.2) hlen' h0' rfl
      (fun svc hm => hidle svc (hperm.mem_iff.mp hm)) hf₂
    cases hn : s.services.find n with
    | none =>
        have hno := Registry.find_eq_none.mp hn
        have e : (serviceStartAll env s.resolve.2).2.services.find n = none :=
          Registry.find_eq_none.mpr (by
            rwa [serviceStartAll_snd, startAllLoop_names])
        have e' : (serviceStartAll env s'.resolve.2).2.services.find n = none :=
          Registry.find_eq_none.mpr (by
            rw [serviceStartAll_snd, startAllLoop_names]
            exact fun hm => hno ((names_perm hperm).mem_iff.mp hm))
        rw [e, e']
    | some svc =>
        obtain ⟨hm, rfl⟩ := Registry.find_eq_some.mp hn
        obtain ⟨svc₁, h₁, hb₁⟩ := hb svc hm
        obtain ⟨svc₂, h₂, hb₂⟩ := hb' svc (hperm.mem_iff.mpr hm)
        rw [serviceStartAll_snd, serviceStartAll_snd, h₁, h₂, Option.map_some, Option.map_some,
          hb₂.unstarted_eq (launches_perm hperm) hb₁]
  · have h0' := hret.not.mpr h0
    rw [if_pos (by_contra fun h => h0' (serviceResolveDeps_of_not_neg h)),
      if_pos (by_contra fun h => h0 (serviceResolveDeps_of_not_neg h))]
    exact ⟨rfl, fun n => congrArg _ (Registry.find_perm hperm n)⟩

/-- The service files of `loadedSession`, with a `devd` that signals its readiness. -/
def sessionFiles : List DirEntry :=
  [{ fileName := ascii "devd.svc", config := some { name := devd, type := .notify } },
    { fileName := ascii "lumi-compositor.svc", config := some compositorService.toServiceConfig }]

theorem boot_perm_session :
    (loadAndStartServices (some sessionFiles.reverse) Env.session (Sys.init 0)).1 =
      (loadAndStartServices (some sessionFiles) Env.session (Sys.init 0)).1 :=
  (boot_perm (List.reverse_perm sessionFiles)
    (by
      rintro e he e' he' cfg cfg' ⟨-, h⟩ ⟨-, h'⟩ hname
      simp only [sessionFiles, List.mem_cons, List.not_mem_nil, or_false] at he he'
      rcases he with rfl | rfl <;> rcases he' with rfl | rfl <;> cases h <;> cases h'
      · rfl
      · exact absurd hname (by decide)
      · exact absurd hname (by decide)
      · rfl)
    (by decide)
    (Env.session_forksFresh .notify)).1

end LumiOS.Lumid
