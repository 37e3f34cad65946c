import LumiOS.Lumid.Pids

/-!
# Lumid — StopAll

What `service_stop_all` reaches.  It walks `g_start_order`, not the registry.  Between events the
order is what the last `service_resolve_deps` made of the registry (`Reached.ordered`): all of it when
the registry fits the array and has no dependency cycle, and otherwise the services the sort finished
before it gave up.  The services outside the order are left as they are (`stopAll_stops_iff`).
-/

namespace LumiOS.Lumid

open Support

/-- Running or starting. -/
def Service.Up (svc : Service) : Prop := svc.state = .running ∨ svc.state = .starting

instance (svc : Service) : Decidable svc.Up := inferInstanceAs (Decidable (_ ∨ _))

/-- The start order is that of the registry. -/
def Sys.Ordered (s : Sys) : Prop := s.startOrder = (serviceResolveDeps s.services.list).2

section

variable {s s' : Sys} {n : Name} {svc : Service} {env : Env} {l : Label}

theorem Sys.Ordered.upd (h : s.Ordered) (n : Name) (f : ServiceRuntime → ServiceRuntime) :
    (s.upd n f).Ordered :=
  h.trans (congrArg Prod.snd (serviceResolveDeps_of_configs Registry.configs_modify.symm))

/-- Only a registration leaves the order behind the registry. -/
theorem Move.ordered (hm : Move s l s') (hl : ∀ n, l ≠ .register n) (h : s.Ordered) :
    s'.Ordered := by
  cases hm with
  | resolve => rfl
  | register cfg _ => exact absurd rfl (hl cfg.name)
  | admin n b => exact h.upd n _
  | @startFail n _ o _ _ =>
      have h' : (s.emit (o.mark n)).Ordered := h
      exact h'.upd n _
  | @startFork n svc o pid _ _ hf =>
      have h' : (((s.emit (o.mark n)).withChildren
          (s.children.insert pid (some n) hf)).emit (.fork n pid)).Ordered := h
      exact h'.upd n _
  | @halt n svc _ _ _ _ =>
      have h' : (s.reaped svc.pid).Ordered := h
      exact h'.upd n _
  | @reap n svc st _ _ =>
      have h' : ((s.reaped svc.pid).emit (.reap n st)).Ordered := h
      exact h'.upd n _
  | _ => exact h

theorem Moves.ordered {P : Label → Prop} (hm : Moves P s s') (hP : ∀ n, ¬ P (.register n))
    (hs : Sound s) (h : s.Ordered) : s'.Ordered := by
  refine hm.invariant (fun t l t' _ hl hm h => hm.ordered ?_ h) hs h
  rintro n rfl
  exact hP n hl

/-- A directory that can be read counts no fewer than the files loaded so far. -/
theorem loadLoop_nonneg : ∀ {entries : List DirEntry} {loaded : Int} {s : Sys}, 0 ≤ loaded →
    0 ≤ (loadLoop entries loaded s).1
  | [], _, _, h => h
  | entry :: entries, loaded, s, h => by
      simp only [loadLoop]
      split
      · cases entry.config with
        | none => exact loadLoop_nonneg h
        | some cfg => exact loadLoop_nonneg (Int.le_add_one h)
      · exact loadLoop_nonneg h

theorem boot_ordered (dir : Dir) (hs : Sound s) (h : s.Ordered) :
    (loadAndStartServices dir env s).2.Ordered := by
  cases dir with
  | none => exact h
  | some entries =>
      have hm := serviceLoadAll_moves (P := fun _ => True) (fun _ _ => trivial) (some entries) s
      have hs' : Sound (serviceLoadAll (some entries) s).2.resolve.2 :=
        Moves.sound (hm.step ⟨trivial, .resolve _⟩) hs
      have hneg : ¬ (serviceLoadAll (some entries) s).1 < 0 := (loadLoop_nonneg le_rfl).not_gt
      simp only [loadAndStartServices, if_neg hneg]
      split
      · rfl
      · refine Moves.ordered (startAllLoop_moves (fun _ h => h) _ _ _) (fun n h => ?_) hs' rfl
        rcases h with h | ⟨m, h⟩ <;> cases h

theorem Step.ordered {e : Event} (he : Step s e s') (hs : Sound s) (h : s.Ordered) :
    s'.Ordered := by
  cases e with
  | boot dir env =>
      cases he
      exact boot_ordered dir hs h
  | sighup dir =>
      cases he
      rfl
  | request read env => exact (he.moves hs).ordered (fun n hl => by cases read <;> exact hl) hs h
  | _ => exact (he.moves hs).ordered (fun n hl => hl) hs h

/-- **The start order is that of the registry**, in every state of a run. -/
theorem Reached.ordered (h : Reached s) : s.Ordered := by
  obtain ⟨now, h⟩ := h
  have hI : Sound s ∧ s.Ordered :=
    Reachable.invariant (I := fun s => Sound s ∧ s.Ordered)
      (fun _ _ _ h he => ⟨he.sound h.1, he.ordered h.1 h.2⟩) h ⟨sound_init now, rfl⟩
  exact hI.2

/-! ### Stopping in turn -/

theorem serviceStop_find_ne (env : Env) (hs : Sound s) {m : Name} (h : m ≠ n) :
    (serviceStop env s n).2.services.find m = s.services.find m := by
  cases hn : s.services.find n with
  | none => simp only [serviceStop, hn]
  | some svc =>
      by_cases hup : svc.Up
      · obtain ⟨st, s₁, -, hk, -, e⟩ :=
          serviceStop_halts (P := fun _ => True) env trivial hs hn hup
        rw [e]
        exact (Registry.find_modify_ne h).trans (hk ▸ rfl)
      · rw [serviceStop_of_not_live hn (not_or.mp hup)]

/-- A stopped service is down. -/
theorem serviceStop_down (env : Env) (hs : Sound s) (hn : s.services.find n = some svc) :
    ∃ svc', (serviceStop env s n).2.services.find n = some svc' ∧ ¬ svc'.Up := by
  by_cases hup : svc.Up
  · obtain ⟨st, s₁, -, hk, -, e⟩ := serviceStop_halts (P := fun _ => True) env trivial hs hn hup
    rw [e]
    refine ⟨_, Registry.find_modify_self.trans (congrArg _ (hk ▸ hn)), ?_⟩
    rintro (h | h) <;> exact nomatch h
  · rw [serviceStop_of_not_live hn (not_or.mp hup)]
    exact ⟨svc, hn, hup⟩

/-- **Stops in turn.**  A service in the list ends down, and any other is as it was. -/
theorem stopEach_find (env : Env) : ∀ (ns : List Name) {s : Sys} {svc : Service}, Sound s →
    s.services.find n = some svc →
      ∃ svc', (stopEach env ns s).services.find n = some svc' ∧
        (svc'.Up ↔ svc.Up ∧ n ∉ ns)
  | [], s, svc, _, hn => ⟨svc, hn, by simp⟩
  | m :: ns, s, svc, hs, hn => by
      have hs' : Sound (serviceStop env s m).2 :=
        (stopEach_moves (P := fun _ => True) (fun _ _ => trivial) [m] hs).sound hs
      simp only [stopEach]
      by_cases e : n = m
      · -- it is stopped here, and no later stop brings it up
        subst e
        obtain ⟨svc₁, hn₁, hup₁⟩ := serviceStop_down env hs hn
        obtain ⟨svc', hn', hup'⟩ := stopEach_find env ns hs' hn₁
        exact ⟨svc', hn', by simp [hup', hup₁]⟩
      · rw [← serviceStop_find_ne env hs e] at hn
        obtain ⟨svc', hn', hup'⟩ := stopEach_find env ns hs' hn
        exact ⟨svc', hn', by simp [hup', e]⟩

theorem serviceStop_names (env : Env) (hs : Sound s) (n : Name) :
    (serviceStop env s n).2.services.names = s.services.names := by
  cases hn : s.services.find n with
  | none => simp only [serviceStop, hn]
  | some svc =>
      by_cases hup : svc.Up
      · obtain ⟨st, s₁, -, hk, -, e⟩ :=
          serviceStop_halts (P := fun _ => True) env trivial hs hn hup
        rw [e]
        exact Registry.names_modify.trans (hk ▸ rfl)
      · rw [serviceStop_of_not_live hn (not_or.mp hup)]

theorem stopEach_names (env : Env) : ∀ (ns : List Name) {s : Sys}, Sound s →
    (stopEach env ns s).services.names = s.services.names
  | [], _, _ => rfl
  | m :: ns, s, hs => by
      have hs' : Sound (serviceStop env s m).2 :=
        (stopEach_moves (P := fun _ => True) (fun _ _ => trivial) [m] hs).sound hs
      exact (stopEach_names env ns hs').trans (serviceStop_names env hs m)

/-- Every service of a state after `service_stop_all`, with what it was before. -/
theorem serviceStopAll_up (env : Env) (hs : Sound s) :
    (∀ svc ∈ (serviceStopAll env s).services.list, ¬ svc.Up) ↔
      ∀ svc ∈ s.services.list, svc.Up → svc.name ∈ s.startOrder := by
  constructor
  · intro h svc hm hup
    obtain ⟨svc', hn', hiff⟩ :=
      stopEach_find env s.startOrder.reverse hs (Registry.find_of_mem hm)
    by_contra hno
    refine h svc' (Registry.find_eq_some.mp hn').1 (hiff.mpr ⟨hup, ?_⟩)
    rwa [List.mem_reverse]
  · intro h svc' hm' hup'
    have hname : svc'.name ∈ s.services.names :=
      stopEach_names env s.startOrder.reverse hs ▸ List.mem_map_of_mem hm'
    obtain ⟨svc, hn⟩ := Registry.exists_find hname
    obtain ⟨svc'', hn'', hiff⟩ := stopEach_find env s.startOrder.reverse hs hn
    obtain rfl := Option.some.inj ((Registry.find_of_mem hm').symm.trans hn'')
    obtain ⟨hup, hno⟩ := hiff.mp hup'
    obtain ⟨hm, e⟩ := Registry.find_eq_some.mp hn
    rw [List.mem_reverse, ← e] at hno
    exact hno (h svc hm hup)

end

/-- **What `service_stop_all` reaches.**  In every state of a run of lumid, no service is running or
starting after `service_stop_all` exactly when the sort of the registry lists every service that is
running or starting; and it lists them all when the registry fits the array and has no dependency
cycle. -/
theorem stopAll_stops_iff {s : Sys} (h : Reached s) (env : Env) :
    ((∀ svc ∈ (serviceStopAll env s).services.list, ¬ svc.Up) ↔
      ∀ svc ∈ s.services.list, svc.Up → svc.name ∈ (serviceResolveDeps s.services.list).2) ∧
    (s.services.list.length ≤ maxServices → ¬ Cyclic s.services →
      ∀ svc ∈ (serviceStopAll env s).services.list, ¬ svc.Up) := by
  have hiff := serviceStopAll_up env h.sound
  rw [show s.startOrder = _ from h.ordered] at hiff
  refine ⟨hiff, fun hlen hc => hiff.mpr fun svc hm _ => ?_⟩
  have h0 := (serviceResolveDeps_zero_iff hlen).mpr hc
  exact (serviceResolveDeps_perm_names hlen h0).mem_iff.mpr (List.mem_map_of_mem hm)

/-- lumid when it has started `devd`, and a `SIGHUP` has added a compositor that requires itself. -/
def reloaded : Sys :=
  reload (some [{ fileName := ascii "lumi-compositor.svc",
                  config := some { name := compositor, requires := [compositor] } }])
    (booted { name := devd })

theorem reloaded_reached : Reached reloaded := by
  obtain ⟨now, h⟩ := booted_reached { name := devd }
  exact ⟨now, h.step (e := .sighup _) rfl⟩

theorem stopAll_stops_iff_devd :
    (booted { name := devd }).services.list.map (·.state) = [.running] ∧
    ∀ svc ∈ (serviceStopAll (Env.plain 11 0) (booted { name := devd })).services.list, ¬ svc.Up :=
  ⟨by decide, (stopAll_stops_iff (booted_reached _) (Env.plain 11 0)).1.mpr (by decide)⟩

/-- After the reload the order is empty, and `devd` is left running. -/
theorem stopAll_skips :
    ¬ ∀ s env, Reached s → ∀ svc ∈ (serviceStopAll env s).services.list, ¬ svc.Up := by
  intro h
  exact absurd (h reloaded (Env.plain 11 0) reloaded_reached) (by decide)

end LumiOS.Lumid
