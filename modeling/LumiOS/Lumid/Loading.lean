import LumiOS.Lumid.Refine

/-!
# Lumid — Loading

What `service_load_all` does to a registry in use.  It puts services in front of the list, fresh from
their files, and touches none that is there (`serviceLoadAll_list`); `g_service_count` counts the
list in every state of a run (`Reached.serviceCount`).
-/

namespace LumiOS.Lumid

open Support

/-- `g_service_count` is the length of the list. -/
def Sys.CountOk (s : Sys) : Prop := s.serviceCount = s.services.list.length

/-- The configuration a directory entry gives, if it is a service file that parses. -/
def DirEntry.loads (entry : DirEntry) (cfg : ServiceConfig) : Prop :=
  isServiceFile entry.fileName = true ∧ entry.config = some cfg

section

variable {s s' : Sys} {n : Name} {svc : Service}

@[simp] theorem Registry.length_modify (r : Registry) (n : Name)
    (f : ServiceRuntime → ServiceRuntime) : (r.modify n f).list.length = r.list.length := by
  simp only [Registry.modify, List.length_map]

theorem Sys.CountOk.upd (h : s.CountOk) (f : ServiceRuntime → ServiceRuntime) :
    (s.upd n f).CountOk := by
  simpa [Sys.CountOk, Sys.upd] using h

theorem Move.countOk {l : Label} (hm : Move s l s') (h : s.CountOk) : s'.CountOk := by
  cases hm with
  | admin n b => exact h.upd _
  | register cfg hn =>
      simp only [Sys.CountOk, Registry.cons, List.length_cons] at h ⊢
      omega
  | @startFail n _ o _ _ => exact Sys.CountOk.upd (s := s.emit (o.mark n)) h _
  | @startFork n _ o pid _ _ hf =>
      exact Sys.CountOk.upd
        (s := ((s.emit (o.mark n)).withChildren (s.children.insert pid (some n) hf)).emit
          (.fork n pid)) h _
  | @halt n svc _ _ _ _ => exact Sys.CountOk.upd (s := s.reaped svc.pid) h _
  | @reap n svc st _ _ => exact Sys.CountOk.upd (s := (s.reaped svc.pid).emit (.reap n st)) h _
  | _ => exact h

theorem Reached.serviceCount (h : Reached s) : s.serviceCount = s.services.list.length :=
  h.invariant (I := Sys.CountOk) (fun _ => rfl) fun _ _ _ _ hm hc => hm.countOk hc

/-! ### What a load adds -/

/-- A registration puts the service in front, or leaves the registry alone. -/
theorem serviceRegister_list (s : Sys) (svc : Service) :
    (∃ old, s.services.find svc.name = some old ∧ serviceRegister s svc = s) ∨
      s.services.find svc.name = none ∧
        (serviceRegister s svc).services.list = svc :: s.services.list := by
  simp only [serviceRegister]
  split
  · rename_i old h
    exact .inl ⟨old, h, rfl⟩
  · rename_i h
    exact .inr ⟨h, rfl⟩

theorem mem_names_serviceRegister (s : Sys) (svc : Service) :
    svc.name ∈ (serviceRegister s svc).services.names := by
  rcases serviceRegister_list s svc with ⟨old, h, e⟩ | ⟨-, e⟩
  · rw [e]
    exact List.mem_map.mpr ⟨old, (Registry.find_eq_some.mp h).1, Registry.name_of_find h⟩
  · simp [Registry.names, e]

/-- The services a load puts in front: fresh ones, each from a file; and every file's service is
registered afterwards. -/
theorem loadLoop_list : ∀ (entries : List DirEntry) (loaded : Int) (s : Sys),
    ∃ new, (loadLoop entries loaded s).2.services.list = new ++ s.services.list ∧
      (∀ svc ∈ new, ∃ entry ∈ entries, ∃ cfg, entry.loads cfg ∧ svc = serviceCreate cfg) ∧
      ∀ entry ∈ entries, ∀ cfg, entry.loads cfg →
        cfg.name ∈ (loadLoop entries loaded s).2.services.names
  | [], _, s => ⟨[], rfl, by simp, by simp⟩
  | entry :: entries, loaded, s => by
      -- an entry that gives no service leaves the loop to the others
      have skip : (∀ cfg, ¬ entry.loads cfg) →
          loadLoop (entry :: entries) loaded s = loadLoop entries loaded s := by
        intro hno
        simp only [loadLoop]
        split
        · rename_i hf
          cases hc : entry.config with
          | none => rfl
          | some cfg => exact absurd ⟨hf, hc⟩ (hno cfg)
        · rfl
      by_cases hl : ∃ cfg, entry.loads cfg
      · obtain ⟨cfg, hl⟩ := hl
        have e : loadLoop (entry :: entries) loaded s =
            loadLoop entries (loaded + 1) (serviceRegister s (serviceCreate cfg)) := by
          simp only [loadLoop, hl.1, hl.2, if_true]
        obtain ⟨new, hlist, hnew, hreg⟩ :=
          loadLoop_list entries (loaded + 1) (serviceRegister s (serviceCreate cfg))
        have hmem : cfg.name ∈ (loadLoop entries (loaded + 1)
            (serviceRegister s (serviceCreate cfg))).2.services.names := by
          have h := mem_names_serviceRegister s (serviceCreate cfg)
          rw [Registry.names, hlist, List.map_append, List.mem_append]
          exact .inr h
        have hreg' : ∀ entry' ∈ entry :: entries, ∀ cfg', entry'.loads cfg' →
            cfg'.name ∈ (loadLoop entries (loaded + 1)
              (serviceRegister s (serviceCreate cfg))).2.services.names := by
          intro entry' he cfg' hl'
          rcases List.mem_cons.mp he with rfl | he
          · cases hl.2.symm.trans hl'.2
            exact hmem
          · exact hreg entry' he cfg' hl'
        have hold : ∀ svc ∈ new, ∃ entry' ∈ entry :: entries, ∃ cfg, entry'.loads cfg ∧
            svc = serviceCreate cfg := by
          intro svc hm
          obtain ⟨entry', he, cfg', h⟩ := hnew svc hm
          exact ⟨entry', List.mem_cons_of_mem entry he, cfg', h⟩
        rw [e]
        rcases serviceRegister_list s (serviceCreate cfg) with ⟨old, -, hs⟩ | ⟨-, hs⟩
        · exact ⟨new, hlist.trans (by rw [hs]), hold, hreg'⟩
        · refine ⟨new ++ [serviceCreate cfg], hlist.trans (by simp [hs]), fun svc hm => ?_, hreg'⟩
          rcases List.mem_append.mp hm with hm | hm
          · exact hold svc hm
          · exact ⟨entry, List.mem_cons_self, cfg, hl, List.mem_singleton.mp hm⟩
      · have hno : ∀ cfg, ¬ entry.loads cfg := fun cfg h => hl ⟨cfg, h⟩
        obtain ⟨new, hlist, hnew, hreg⟩ := loadLoop_list entries loaded s
        rw [skip hno]
        refine ⟨new, hlist, fun svc hm => ?_, fun entry' he cfg hl' => ?_⟩
        · obtain ⟨entry', he, cfg, h⟩ := hnew svc hm
          exact ⟨entry', List.mem_cons_of_mem entry he, cfg, h⟩
        · rcases List.mem_cons.mp he with rfl | he
          · exact absurd hl' (hno cfg)
          · exact hreg entry' he cfg hl'

/-- The entries of a directory; a directory that cannot be opened has none. -/
def Dir.entries (dir : Dir) : List DirEntry := dir.getD []

/-- **A load leaves the registered services alone**, and puts in front of them new ones, stopped and
without a process, one for each name its files add. -/
theorem serviceLoadAll_list (dir : Dir) (s : Sys) :
    ∃ new, (serviceLoadAll dir s).2.services.list = new ++ s.services.list ∧
      (∀ svc ∈ new, svc.state = .stopped ∧ svc.pid = -1 ∧
        ∃ entry ∈ dir.entries, ∃ cfg, entry.loads cfg ∧ svc = serviceCreate cfg) ∧
      ∀ entry ∈ dir.entries, ∀ cfg, entry.loads cfg →
        cfg.name ∈ (serviceLoadAll dir s).2.services.names := by
  cases dir with
  | none => exact ⟨[], rfl, by simp, by simp [Dir.entries]⟩
  | some entries =>
      obtain ⟨new, hlist, hnew, hreg⟩ := loadLoop_list entries 0 s
      refine ⟨new, hlist, fun svc hm => ?_, hreg⟩
      obtain ⟨entry, he, cfg, hl, rfl⟩ := hnew svc hm
      exact ⟨rfl, rfl, entry, he, cfg, hl, rfl⟩

/-- A load changes the registry and its count only. -/
theorem loadLoop_frame : ∀ (entries : List DirEntry) (loaded : Int) (s : Sys),
    (loadLoop entries loaded s).2.children = s.children ∧
      (loadLoop entries loaded s).2.trace = s.trace
  | [], _, _ => ⟨rfl, rfl⟩
  | entry :: entries, loaded, s => by
      simp only [loadLoop]
      split
      · cases entry.config with
        | none => exact loadLoop_frame entries loaded s
        | some cfg =>
            have hr : (serviceRegister s (serviceCreate cfg)).children = s.children ∧
                (serviceRegister s (serviceCreate cfg)).trace = s.trace := by
              simp only [serviceRegister]
              split <;> exact ⟨rfl, rfl⟩
            obtain ⟨hk, ht⟩ := loadLoop_frame entries (loaded + 1)
              (serviceRegister s (serviceCreate cfg))
            exact ⟨hk.trans hr.1, ht.trans hr.2⟩
      · exact loadLoop_frame entries loaded s

theorem serviceLoadAll_frame (dir : Dir) (s : Sys) :
    (serviceLoadAll dir s).2.children = s.children ∧ (serviceLoadAll dir s).2.trace = s.trace := by
  cases dir with
  | none => exact ⟨rfl, rfl⟩
  | some entries => exact loadLoop_frame entries 0 s

end

end LumiOS.Lumid
