import LumiOS.Lumid.StartAll
import LumiOS.Lumid.Times

/-!
# Lumid — CheckOrder

A pass of the supervisor restarts the services that are due in list order, which is the order
`readdir` returned their files in, and each start looks at the states of the moment.  When a due
service requires another one, it is started or failed according to which comes first.
`checkServices_order_iff` says when the order makes no difference: no due service is `Raced`.  Then
the pass leaves every service in the state that the states before it determine
(`Registry.settled`).
-/

namespace LumiOS.Lumid

open Support

/-- A pass at time `now` restarts the service. -/
def Service.Due (svc : Service) (now : UInt64) : Prop :=
  svc.state = .restarting ∧ restartDue now svc = true

instance (svc : Service) (now : UInt64) : Decidable (svc.Due now) :=
  inferInstanceAs (Decidable (_ ∧ _))

/-- A due service requires another due one, and everything it requires is running, or is due, simple
and requires only what is running. -/
def Registry.Raced (r : Registry) (now : UInt64) (svc : Service) : Prop :=
  (∃ d ∈ svc.requires, ∃ dep, r.find d = some dep ∧ dep.Due now) ∧
    ∀ d ∈ svc.requires, ∀ dep, r.find d = some dep →
      dep.state = .running ∨ dep.Due now ∧ requiresMet r dep = true ∧ dep.type = .simple

/-- The state of a service that has been started: only a simple one is running. -/
def SvcType.started (t : SvcType) : SvcState := if t = .simple then .running else .starting

/-- The state a pass leaves a service in, judged by the registry before it. -/
def Registry.settled (r : Registry) (now : UInt64) (svc : Service) : SvcState :=
  if svc.Due now then if requiresMet r svc then svc.type.started else .failed else svc.state

section

variable {s s₀ : Sys} {r r' : Registry} {n m : Name} {ns : List Name} {svc : Service} {env : Env}
  {now : UInt64}

theorem requiresMet_iff : requiresMet r svc = true ↔
    ∀ d ∈ svc.requires, ∀ dep, r.find d = some dep → dep.state = .running := by
  simp only [requiresMet, List.all_eq_true]
  refine forall₂_congr fun d _ => ?_
  cases r.find d <;> simp

theorem Service.Due.not_running (h : svc.Due now) : svc.state ≠ .running := by
  rw [h.1]
  exact SvcState.noConfusion

theorem Registry.settled_eq_running : r.settled now svc = .running ↔
    svc.state = .running ∨ svc.Due now ∧ requiresMet r svc = true ∧ svc.type = .simple := by
  by_cases hd : svc.Due now
  · by_cases hm : requiresMet r svc = true <;> by_cases ht : svc.type = .simple <;>
      simp [settled, SvcType.started, hd, hm, ht, hd.not_running]
  · simp [settled, hd]

/-- A due service does not find itself running. -/
theorem ready_due (hn : s.services.find n = some svc) (hd : svc.Due now) :
    s.ready n svc = requiresMet s.services svc := by
  refine Bool.eq_iff_iff.mpr ?_
  rw [ready_iff, requiresMet_iff]
  refine forall₂_congr fun d _ => forall₂_congr fun dep hdep => ⟨And.right, fun h => ⟨?_, h⟩⟩
  rintro rfl
  obtain rfl := Option.some.inj (hn.symm.trans hdep)
  exact hd.not_running h

/-! ### One turn -/

theorem checkOne_not_due (h : ∀ svc, s.services.find n = some svc → ¬ svc.Due now) :
    checkOne env now s n = s := by
  simp only [checkOne]
  cases hn : s.services.find n with
  | none => rfl
  | some svc => exact if_neg (h svc hn)

/-- The start of a restarting service, when its fork succeeds. -/
theorem serviceStart_restarting (hn : s.services.find n = some svc) (hr : svc.state = .restarting)
    (hf : env.ForksFor s.children (n :: ns)) (hd : n ∉ ns) :
    (∃ svc', (serviceStart env s n).2.services.find n = some svc' ∧
      svc'.toServiceConfig = svc.toServiceConfig ∧
      svc'.state = if s.ready n svc then svc.type.started else .failed) ∧
    env.ForksFor (serviceStart env s n).2.children ns := by
  obtain ⟨pid, hpid, hfresh⟩ := hf.1 n List.mem_cons_self
  have hrun : svc.state ≠ .running := by
    rw [hr]
    exact SvcState.noConfusion
  cases h : s.ready n svc with
  | false =>
      rw [serviceStart_unready hn hrun h]
      exact ⟨⟨_, Registry.find_modify_self.trans (congrArg _ hn), rfl, rfl⟩, hf.tail⟩
  | true =>
      rw [serviceStart_forked hn hrun h hpid hfresh]
      refine ⟨⟨svc.update (forkedRuntime svc.toServiceConfig pid
        (s.readClock (env.clock n)).clock), ?_, rfl, rfl⟩, ?_⟩
      · rw [Sys.limited_services]
        exact Registry.find_modify_self.trans (congrArg _ hn)
      · rw [Sys.limited_children]
        exact hf.insert hd hpid hfresh

/-- The turn of a due service. -/
theorem checkOne_due (hn : s.services.find n = some svc) (hdue : svc.Due now)
    (hf : env.ForksFor s.children (n :: ns)) (hd : n ∉ ns) :
    (∃ svc', (checkOne env now s n).services.find n = some svc' ∧
      svc'.toServiceConfig = svc.toServiceConfig ∧
      svc'.state = if requiresMet s.services svc then svc.type.started else .failed) ∧
    env.ForksFor (checkOne env now s n).children ns := by
  have e : checkOne env now s n = (serviceStart env (s.emit (.autoStart n)) n).2 := by
    simp only [checkOne, hn, if_pos (show svc.state = .restarting ∧ restartDue now svc from hdue)]
    split
    · rename_i hneg
      exact serviceStart_failed (s := s.emit (.autoStart n)) hn hneg
    · rfl
  have h := serviceStart_restarting (s := s.emit (.autoStart n)) hn hdue.1 hf hd
  rw [ready_due (s := s.emit (.autoStart n)) hn hdue] at h
  rw [e]
  exact h

/-! ### The pass -/

/-- The pass from `s₀` has settled the services named in `done`, and is at `s`. -/
structure Settled (now : UInt64) (s₀ : Sys) (done : List Name) (s : Sys) : Prop where
  known : ∀ m svc, s₀.services.find m = some svc →
    ∃ svc', s.services.find m = some svc' ∧ svc'.toServiceConfig = svc.toServiceConfig ∧
      (m ∈ done → svc'.state = s₀.services.settled now svc) ∧ (m ∉ done → svc' = svc)
  unknown : ∀ m, s₀.services.find m = none → s.services.find m = none

theorem Settled.refl (now : UInt64) (s : Sys) : Settled now s [] s where
  known := fun _ svc h => ⟨svc, h, rfl, fun k => absurd k List.not_mem_nil, fun _ => rfl⟩
  unknown := fun _ h => h

variable {done : List Name}

theorem Settled.back (h : Settled now s₀ done s) {svc' : Service}
    (hm : s.services.find m = some svc') : ∃ svc, s₀.services.find m = some svc := by
  cases h₀ : s₀.services.find m with
  | none => cases (h.unknown m h₀).symm.trans hm
  | some svc => exact ⟨svc, rfl⟩

/-- At its turn, a service that is not raced finds its requirements met as they were at first. -/
theorem Settled.requiresMet (h : Settled now s₀ done s) (hr : ¬ s₀.services.Raced now svc) :
    Lumid.requiresMet s.services svc = Lumid.requiresMet s₀.services svc := by
  refine Bool.eq_iff_iff.mpr ?_
  rw [requiresMet_iff, requiresMet_iff]
  constructor
  · intro hall d hd dep hdep
    have settles : ∀ d ∈ svc.requires, ∀ dep, s₀.services.find d = some dep →
        dep.state = .running ∨
          dep.Due now ∧ Lumid.requiresMet s₀.services dep = true ∧ dep.type = .simple := by
      intro d hd dep hdep
      obtain ⟨dep', hdep', -, hin, hout⟩ := h.known d dep hdep
      have hrun := hall d hd dep' hdep'
      by_cases k : d ∈ done
      · exact Registry.settled_eq_running.mp ((hin k).symm.trans hrun)
      · exact .inl (hout k ▸ hrun)
    by_contra hno
    -- a requirement that was not running is due, so the service is raced
    obtain ⟨hdue, -⟩ := (settles d hd dep hdep).resolve_left hno
    exact hr ⟨⟨d, hd, dep, hdep, hdue⟩, settles⟩
  · intro hall d hd dep' hdep'
    obtain ⟨dep, hdep⟩ := h.back hdep'
    obtain ⟨dep'', hdep'', -, hin, hout⟩ := h.known d dep hdep
    obtain rfl := Option.some.inj (hdep'.symm.trans hdep'')
    have hrun := hall d hd dep hdep
    by_cases k : d ∈ done
    · exact (hin k).trans (Registry.settled_eq_running.mpr (.inl hrun))
    · exact (hout k).symm ▸ hrun

/-- **One turn** settles a service that is not raced. -/
theorem Settled.turn (h : Settled now s₀ done s) (hn : n ∉ done)
    (hr : ∀ svc, s₀.services.find n = some svc → svc.Due now → ¬ s₀.services.Raced now svc)
    (hf : env.ForksFor s.children (n :: ns)) (hd : n ∉ ns) :
    Settled now s₀ (done ++ [n]) (checkOne env now s n) ∧
      env.ForksFor (checkOne env now s n).children ns := by
  have mem : ∀ {m}, m ≠ n → (m ∈ done ++ [n] ↔ m ∈ done) := by
    intro m hm
    simp [hm]
  -- the others keep their state
  have other : ∀ m svc, m ≠ n → s₀.services.find m = some svc →
      ∃ svc', (checkOne env now s n).services.find m = some svc' ∧
        svc'.toServiceConfig = svc.toServiceConfig ∧
        (m ∈ done ++ [n] → svc'.state = s₀.services.settled now svc) ∧
        (m ∉ done ++ [n] → svc' = svc) := by
    intro m svc hm hs
    obtain ⟨svc', h', hc, hin, hout⟩ := h.known m svc hs
    refine ⟨svc', (checkOne_find_ne now hm).trans h', hc, ?_, ?_⟩
    · rw [mem hm]; exact hin
    · rw [mem hm]; exact hout
  have unknown : ∀ m, s₀.services.find m = none →
      (checkOne env now s n).services.find m = none := by
    intro m hm
    by_cases e : m = n
    · subst e
      have hs := h.unknown m hm
      rw [checkOne_not_due fun svc k => by cases hs.symm.trans k]
      exact hs
    · exact (checkOne_find_ne now e).trans (h.unknown m hm)
  cases h₀ : s₀.services.find n with
  | none =>
      have hs := h.unknown n h₀
      rw [checkOne_not_due fun svc k => by cases hs.symm.trans k] at other unknown ⊢
      refine ⟨⟨fun m svc hm => other m svc ?_ hm, unknown⟩, hf.tail⟩
      rintro rfl
      cases h₀.symm.trans hm
  | some svc =>
      obtain ⟨svc₁, hs, hc₁, -, hout⟩ := h.known n svc h₀
      obtain rfl := hout hn
      by_cases hdue : svc₁.Due now
      · obtain ⟨⟨svc', h', hc, hst⟩, hf'⟩ := checkOne_due hs hdue hf hd
        rw [h.requiresMet (hr svc₁ h₀ hdue)] at hst
        refine ⟨⟨fun m svc hm => ?_, unknown⟩, hf'⟩
        by_cases e : m = n
        · subst e
          obtain rfl := Option.some.inj (h₀.symm.trans hm)
          refine ⟨svc', h', hc, fun _ => ?_, fun k => absurd (by simp) k⟩
          rw [hst, Registry.settled, if_pos hdue]
        · exact other m svc e hm
      · have e₁ : checkOne env now s n = s := checkOne_not_due fun svc k => by
          obtain rfl := Option.some.inj (hs.symm.trans k)
          exact hdue
        rw [e₁] at other unknown ⊢
        refine ⟨⟨fun m svc hm => ?_, unknown⟩, hf.tail⟩
        by_cases e : m = n
        · subst e
          obtain rfl := Option.some.inj (h₀.symm.trans hm)
          refine ⟨svc₁, hs, rfl, fun _ => ?_, fun _ => rfl⟩
          rw [Registry.settled, if_neg hdue]
        · exact other m svc e hm

/-- **A pass over services that are not raced** settles them, in whatever order they come. -/
theorem checkLoop_settled {post : List Name} : ∀ {ns done : List Name} {s : Sys},
    Settled now s₀ done s → (done ++ (ns ++ post)).Nodup →
    (∀ n ∈ ns, ∀ svc, s₀.services.find n = some svc → svc.Due now →
      ¬ s₀.services.Raced now svc) →
    env.ForksFor s.children (ns ++ post) →
    Settled now s₀ (done ++ ns) (checkLoop env now ns s) ∧
      env.ForksFor (checkLoop env now ns s).children post
  | [], done, s, h, _, _, hf => by
      rw [List.append_nil]
      exact ⟨h, hf⟩
  | n :: ns, done, s, h, hd, hr, hf => by
      have hnd : (done ++ [n] ++ (ns ++ post)).Nodup := by simpa using hd
      obtain ⟨hpre, hsuf, hdis⟩ := List.nodup_append.mp hd
      have hn : n ∉ done := fun k => hdis n k n List.mem_cons_self rfl
      obtain ⟨h', hf'⟩ := h.turn hn (hr n List.mem_cons_self) hf (List.nodup_cons.mp hsuf).1
      have := checkLoop_settled h' hnd (fun m hm => hr m (List.mem_cons_of_mem n hm)) hf'
      rwa [List.append_assoc] at this

theorem checkLoop_append (env : Env) (now : UInt64) : ∀ (ns ms : List Name) (s : Sys),
    checkLoop env now (ns ++ ms) s = checkLoop env now ms (checkLoop env now ns s)
  | [], _, _ => rfl
  | _ :: ns, ms, _ => checkLoop_append env now ns ms _

/-! ### Reorderings -/

theorem Registry.find_perm (h : r'.list.Perm r.list) (n : Name) : r'.find n = r.find n := by
  cases k : r.find n with
  | none =>
      rw [find_eq_none] at k ⊢
      exact fun hm => k ((h.map _).mem_iff.mp hm)
  | some svc =>
      rw [find_eq_some] at k ⊢
      exact ⟨h.mem_iff.mpr k.1, k.2⟩

theorem requiresMet_perm (h : r'.list.Perm r.list) (svc : Service) :
    requiresMet r' svc = requiresMet r svc := by
  simp only [requiresMet, Registry.find_perm h]

theorem Registry.settled_perm (h : r'.list.Perm r.list) (svc : Service) :
    r'.settled now svc = r.settled now svc := by
  simp only [settled, requiresMet_perm h]

theorem Registry.raced_perm (h : r'.list.Perm r.list) (svc : Service) :
    r'.Raced now svc ↔ r.Raced now svc := by
  simp only [Raced, find_perm h, requiresMet_perm h]

theorem Env.ForksFor.perm {k : Children Name} {ns' : List Name} (h : env.ForksFor k ns)
    (hp : ns'.Perm ns) : env.ForksFor k ns' := h.mono fun _ hm => hp.mem_iff.mp hm

theorem names_perm (h : r'.list.Perm r.list) : r'.names.Perm r.names := h.map _

/-- The registry with its list in another order. -/
def Registry.reorder (r : Registry) (list : List Service) (h : list.Perm r.list) : Registry where
  list := list
  nodup := (h.map _).nodup_iff.mpr r.nodup

/-- A pass that is not rate-limited. -/
theorem checkServices_eq (hrate : ¬ s.clock - s.lastCheckTime < checkIntervalNs) (r : Registry) :
    supervisorCheckServices env { s with services := r } =
      checkLoop env s.clock r.names { s with services := r, lastCheckTime := s.clock } := by
  simp only [supervisorCheckServices, if_neg hrate]

/-- The final states of a pass over services none of which is raced. -/
theorem checkServices_states (hrate : ¬ s.clock - s.lastCheckTime < checkIntervalNs)
    (hr : ∀ svc ∈ r.list, svc.Due s.clock → ¬ r.Raced s.clock svc)
    (hf : env.ForksFor s.children r.names) (n : Name) :
    ((supervisorCheckServices env { s with services := r }).services.find n).map (·.state) =
      (r.find n).map (r.settled s.clock) := by
  rw [checkServices_eq hrate]
  let s₀ : Sys := { s with services := r, lastCheckTime := s.clock }
  have hset : Settled s.clock s₀ r.names (checkLoop env s.clock r.names s₀) := by
    have hnd : ([] ++ (r.names ++ [])).Nodup := by simpa using (show r.names.Nodup from r.nodup)
    have hf' : env.ForksFor s₀.children (r.names ++ []) := by simpa using hf
    have h := checkLoop_settled (Settled.refl s.clock s₀) hnd
      (fun n _ svc hn => hr svc (Registry.find_eq_some.mp hn).1) hf'
    simpa using h.1
  cases h₀ : r.find n with
  | none => rw [hset.unknown n h₀]; rfl
  | some svc =>
      obtain ⟨svc', h', -, hin, -⟩ := hset.known n svc h₀
      have hmem : n ∈ r.names := by
        obtain ⟨hm, rfl⟩ := Registry.find_eq_some.mp h₀
        exact List.mem_map_of_mem hm
      rw [h']
      exact congrArg some (hin hmem)

/-- The pass touches a service only at its turn. -/
theorem checkLoop_find_turn {pre post : List Name} (h : n ∉ post) :
    (checkLoop env now (pre ++ n :: post) s).services.find n =
      (checkOne env now (checkLoop env now pre s) n).services.find n := by
  rw [checkLoop_append]
  exact checkLoop_find_not_mem env now post _ h

/-! ### Two orders for a raced service -/

theorem find_of_list (pre : List Service) {post : List Service} (hl : r.list = pre ++ svc :: post) :
    r.find svc.name = some svc :=
  Registry.find_of_mem (by rw [hl]; simp)

theorem names_of_list (pre : List Service) {post : List Service} (hl : r.list = pre ++ svc :: post) :
    r.names = pre.map (·.name) ++ svc.name :: post.map (·.name) := by
  simp only [Registry.names, hl, List.map_append, List.map_cons]

/-- A raced service fails when it comes before what it requires. -/
theorem checkServices_raced_first (hrate : ¬ s.clock - s.lastCheckTime < checkIntervalNs)
    {post : List Service} (hl : r.list = svc :: post) (hdue : svc.Due s.clock)
    (hr : r.Raced s.clock svc) (hf : env.ForksFor s.children r.names) :
    ((supervisorCheckServices env { s with services := r }).services.find svc.name).map (·.state) =
      some .failed := by
  let s₀ : Sys := { s with services := r, lastCheckTime := s.clock }
  have hn : s₀.services.find svc.name = some svc := find_of_list [] hl
  have hnames : r.names = [] ++ svc.name :: post.map (·.name) := names_of_list [] hl
  have hnd : svc.name ∉ post.map (·.name) := by
    have h : r.names.Nodup := r.nodup
    rw [hnames] at h
    exact (List.nodup_cons.mp h).1
  have hmet : requiresMet s₀.services svc = false := by
    obtain ⟨⟨d, hd, dep, hdep, hdepDue⟩, -⟩ := hr
    refine Bool.eq_false_iff.mpr fun h => ?_
    exact hdepDue.not_running (requiresMet_iff.mp h d hd dep hdep)
  rw [hnames] at hf
  obtain ⟨⟨svc', h', -, hst⟩, -⟩ := checkOne_due (s := s₀) hn hdue hf hnd
  rw [hmet] at hst
  rw [checkServices_eq hrate, hnames, checkLoop_find_turn hnd]
  exact (congrArg (Option.map (·.state)) h').trans (congrArg some hst)

/-- It is started when it comes after the due services it requires. -/
theorem checkServices_raced_last (hrate : ¬ s.clock - s.lastCheckTime < checkIntervalNs)
    {pre post : List Service} (hl : r.list = pre ++ svc :: post) (hdue : svc.Due s.clock)
    (hr : r.Raced s.clock svc)
    (hpre : ∀ dep, dep ∈ pre ↔ dep ∈ r.list ∧ dep.name ∈ svc.requires ∧ dep.Due s.clock)
    (hf : env.ForksFor s.children r.names) :
    ((supervisorCheckServices env { s with services := r }).services.find svc.name).map (·.state) =
      some svc.type.started := by
  let s₀ : Sys := { s with services := r, lastCheckTime := s.clock }
  have hn : s₀.services.find svc.name = some svc := find_of_list pre hl
  have hnames : r.names = pre.map (·.name) ++ svc.name :: post.map (·.name) := names_of_list pre hl
  have hall : (pre.map (·.name) ++ svc.name :: post.map (·.name)).Nodup := hnames ▸ r.nodup
  obtain ⟨-, hsuf, hdis⟩ := List.nodup_append.mp hall
  have hnd := (List.nodup_cons.mp hsuf).1
  have hnpre : svc.name ∉ pre.map (·.name) := fun k => hdis _ k _ List.mem_cons_self rfl
  rw [hnames] at hf
  -- the services before it require only what is running, so none of them is raced
  have hfree : ∀ d ∈ pre.map (·.name), ∀ dep, s₀.services.find d = some dep → dep.Due s.clock →
      ¬ s₀.services.Raced s.clock dep := by
    intro d hd dep hdep hdepDue hraced
    obtain ⟨dep', hm, rfl⟩ := List.mem_map.mp hd
    obtain ⟨hmr, hreq, -⟩ := (hpre dep').mp hm
    have hmet := ((hr.2 _ hreq dep hdep).resolve_left hdepDue.not_running).2.1
    obtain ⟨⟨e, he, dep'', hdep'', hdue''⟩, -⟩ := hraced
    exact hdue''.not_running (requiresMet_iff.mp hmet e he dep'' hdep'')
  obtain ⟨hset, hf'⟩ :=
    checkLoop_settled (Settled.refl s.clock s₀) (by simpa using hall) hfree hf
  obtain ⟨svc₁, hs, -, -, hout⟩ := hset.known svc.name svc hn
  obtain rfl := hout (by simpa using hnpre)
  have hmet : requiresMet (checkLoop env s.clock (pre.map (·.name)) s₀).services svc₁ = true := by
    refine requiresMet_iff.mpr fun d hd dep' hdep' => ?_
    obtain ⟨dep, hdep⟩ := hset.back hdep'
    obtain ⟨dep'', hdep'', -, hin, hout⟩ := hset.known d dep hdep
    obtain rfl := Option.some.inj (hdep'.symm.trans hdep'')
    have hrun := hr.2 d hd dep hdep
    by_cases k : d ∈ pre.map (·.name)
    · exact (hin (by simpa using k)).trans (Registry.settled_eq_running.mpr hrun)
    · obtain rfl := hout (by simpa using k)
      refine hrun.resolve_right fun h => k ?_
      obtain ⟨hm, rfl⟩ := Registry.find_eq_some.mp hdep
      exact List.mem_map_of_mem ((hpre dep').mpr ⟨hm, hd, h.1⟩)
  obtain ⟨⟨svc', h', -, hst⟩, -⟩ := checkOne_due hs hdue hf' hnd
  rw [hmet] at hst
  rw [checkServices_eq hrate, hnames, checkLoop_find_turn hnd]
  exact (congrArg (Option.map (·.state)) h').trans (congrArg some hst)

/-- **The order of the list** makes no difference to the states a pass leaves exactly when no due
service is raced. -/
theorem checkServices_order_iff (hrate : ¬ s.clock - s.lastCheckTime < checkIntervalNs)
    (hf : env.ForksFor s.children s.services.names) :
    (∀ (r : Registry) (env' : Env), r.list.Perm s.services.list →
      env'.ForksFor s.children s.services.names → ∀ n,
        ((supervisorCheckServices env' { s with services := r }).services.find n).map (·.state) =
          ((supervisorCheckServices env s).services.find n).map (·.state)) ↔
      ∀ svc ∈ s.services.list, svc.Due s.clock → ¬ s.services.Raced s.clock svc := by
  constructor
  · intro hall svc hm hdue hraced
    let required : Service → Bool := fun dep => dep.name ∈ svc.requires ∧ dep.Due s.clock
    -- a raced service does not require itself
    have hself : required svc = false := by
      refine Bool.eq_false_iff.mpr fun h => ?_
      have hreq : svc.name ∈ svc.requires := (of_decide_eq_true h).1
      have hmet := ((hraced.2 _ hreq svc (Registry.find_of_mem hm)).resolve_left
        hdue.not_running).2.1
      exact hdue.not_running (requiresMet_iff.mp hmet _ hreq svc (Registry.find_of_mem hm))
    let early := s.services.list.filter required
    let late := (s.services.list.filter fun dep => !required dep).erase svc
    have hlate : (svc :: late).Perm (s.services.list.filter fun dep => !required dep) :=
      (List.perm_cons_erase (List.mem_filter.mpr ⟨hm, by simp [hself]⟩)).symm
    have hp₁ : (early ++ svc :: late).Perm s.services.list :=
      (hlate.append_left early).trans (List.filter_append_perm required s.services.list)
    have hp₂ : (svc :: s.services.list.erase svc).Perm s.services.list :=
      (List.perm_cons_erase hm).symm
    let r₁ := s.services.reorder _ hp₁
    let r₂ := s.services.reorder _ hp₂
    have h₁ := checkServices_raced_last (r := r₁) hrate rfl hdue
      ((Registry.raced_perm hp₁ svc).mpr hraced) (by
        intro dep
        have hmem : dep ∈ r₁.list ↔ dep ∈ s.services.list := hp₁.mem_iff
        rw [hmem]
        simp [early, required]) (hf.perm (names_perm hp₁))
    have h₂ := checkServices_raced_first (r := r₂) hrate rfl hdue
      ((Registry.raced_perm hp₂ svc).mpr hraced) (hf.perm (names_perm hp₂))
    have h := (hall r₁ env hp₁ hf svc.name).trans (hall r₂ env hp₂ hf svc.name).symm
    have hne : svc.type.started ≠ .failed := by
      simp only [SvcType.started]
      split <;> exact SvcState.noConfusion
    exact hne (Option.some.inj (h₁.symm.trans (h.trans h₂)))
  · intro hno r env' hp hf' n
    have hs := checkServices_states (r := s.services) hrate hno hf n
    have hr := checkServices_states hrate
      (fun svc hm hdue => (Registry.raced_perm hp svc).not.mpr (hno svc (hp.mem_iff.mp hm) hdue))
      (hf'.perm (names_perm hp)) n
    rw [hr, Registry.find_perm hp]
    refine Eq.trans ?_ hs.symm
    exact congrArg (fun f => (s.services.find n).map f)
      (funext fun svc => Registry.settled_perm hp svc)

end

/-- Two services that require nothing, ten seconds after their processes were reaped. -/
def duePair : Sys :=
  (supervisorHandleSigchld Env.session [(11, .signaled sigkill), (10, .exited 1)] endedPair).readClock
    10000000000

theorem checkServices_order_iff_pair :
    duePair.services.list.map (·.state) = [.restarting, .restarting] ∧
    ∀ (r : Registry) (env' : Env), r.list.Perm duePair.services.list →
      env'.ForksFor duePair.children duePair.services.names → ∀ n,
        ((supervisorCheckServices env' { duePair with services := r }).services.find n).map (·.state) =
          ((supervisorCheckServices Env.session duePair).services.find n).map (·.state) := by
  have hforks : Env.session.ForksFor duePair.children duePair.services.names := by
    have hk : duePair.services.names = [netd, devd] := by decide
    rw [hk]
    exact ⟨fun n _ => ⟨_, rfl, by decide +revert⟩, by decide⟩
  have hreq : ∀ svc ∈ duePair.services.list, svc.requires = [] := by decide
  refine ⟨by decide, (checkServices_order_iff (by decide) hforks).mpr ?_⟩
  rintro svc hm - ⟨⟨d, hd, -⟩, -⟩
  rw [hreq svc hm] at hd
  cases hd

/-- A `devd` and a compositor that requires it, both to be restarted whenever they exit. -/
def restartedDir : Dir :=
  some [{ fileName := ascii "devd.svc", config := some { name := devd, restartPolicy := .always } },
    { fileName := ascii "lumi-compositor.svc",
      config := some { compositorService.toServiceConfig with restartPolicy := .always } }]

def bootedSession : Sys := (loadAndStartServices restartedDir Env.session (Sys.init 0)).2

/-- lumid ten seconds after both have crashed and been reaped. -/
def crashedSession : Sys :=
  (supervisorHandleSigchld Env.session [(11, .exited 1), (10, .exited 1)]
    ((bootedSession.childExit 10 (.exited 1)).childExit 11 (.exited 1))).readClock 10000000000

theorem crashedSession_reached : Reached crashedSession := by
  have h₀ : Reachable Step (Sys.init 0) bootedSession :=
    .one (e := .boot restartedDir Env.session) rfl
  have h₁ : Step bootedSession (.exit 10 (.exited 1)) (bootedSession.childExit 10 (.exited 1)) := rfl
  let s := bootedSession.childExit 10 (.exited 1)
  have h₂ : Step s (.exit 11 (.exited 1)) (s.childExit 11 (.exited 1)) := rfl
  have h₃ : Step (s.childExit 11 (.exited 1))
      (.sigchld [(11, .exited 1), (10, .exited 1)] Env.session) _ := .sigchld (by decide)
  exact ⟨0, (((h₀.step h₁).step h₂).step h₃).step (e := .tick 10000000000) rfl⟩

/-- `devd` before the compositor, as `readdir` might have returned them. -/
def crashedReordered : Registry :=
  crashedSession.services.reorder crashedSession.services.list.reverse (List.reverse_perm _)

/-- The compositor is restarted when `devd` comes before it in the list, and fails otherwise. -/
theorem checkServices_order_matters :
    ¬ ∀ s env r env', Reached s → ¬ s.clock - s.lastCheckTime < checkIntervalNs →
      env.ForksFor s.children s.services.names → env'.ForksFor s.children s.services.names →
      r.list.Perm s.services.list → ∀ n,
        ((supervisorCheckServices env' { s with services := r }).services.find n).map (·.state) =
          ((supervisorCheckServices env s).services.find n).map (·.state) := by
  intro h
  let env : Env := { Env.session with fork := fun n => some (if n = devd then 20 else 21) }
  have hforks : env.ForksFor crashedSession.children crashedSession.services.names := by
    have hk : crashedSession.services.names = [compositor, devd] := by decide
    rw [hk]
    exact ⟨fun n _ => ⟨_, rfl, by decide +revert⟩, by decide⟩
  have := h crashedSession env crashedReordered env crashedSession_reached (by decide) hforks hforks
    (List.reverse_perm _) compositor
  exact absurd this (by decide)

end LumiOS.Lumid
