import Mathlib.Data.List.Nodup
import LumiOS.Support.CStr

/-!
# Lumid — Service

A registered service and the registry of `service.c` (`g_services`, a list with the service
registered last in front).

A service is its configuration, what `config_parse_service` may write, and its run-time part.  After
registration only the run-time part changes, so `Registry.modify` takes a function of that part,
and a pointer to a registered service is its name: `service_register` keeps names distinct
(`Registry.nodup`), and nothing frees a registered service.

Times are the `uint64_t` nanoseconds of `util_monotonic_ns`; an `int` is an `Int`.

What a lookup finds after each change is said here once: after `modify` the service itself has its
run-time part changed and keeps its configuration, and every other service is what it was
(`find_modify_some`); after `cons` the new one is found, and the others still are (`find_cons`).  The
modules behind this one look at a registry through `find` only.
-/

namespace LumiOS.Lumid

open Support

/-! ### Constants of `lumid.h` -/

/-- `LUMID_MAX_SERVICES`: the room of the arrays the services are collected in. -/
def maxServices : Nat := 128

/-- `LUMID_MAX_NAME_LEN`. -/
def maxNameLen : Nat := 64

/-- `LUMID_MAX_PATH_LEN`. -/
def maxPathLen : Nat := 256

/-- A service name: `char name[LUMID_MAX_NAME_LEN]`. -/
abbrev Name := CStr maxNameLen

/-! ### Services -/

/-- `svc_state_t`. -/
inductive SvcState where
  | stopped
  | starting
  | running
  | stopping
  | failed
  | restarting
deriving DecidableEq, Repr

/-- `restart_policy_t`. -/
inductive RestartPolicy where
  | never
  | always
  | onFailure
  | onAbnormal
deriving DecidableEq, Repr

/-- `svc_type_t`. -/
inductive SvcType where
  | simple
  | forking
  | oneshot
  | notify
deriving DecidableEq, Repr

/-- `cgroup_limits_t`, with the defaults of `service_create`. -/
structure CgroupLimits where
  memoryMax : Int := -1
  memoryHigh : Int := -1
  cpuWeight : Int := 100
  cpuMax : Int := -1
  ioWeight : Int := 100
  pidsMax : Int := -1
deriving DecidableEq, Repr

/-- The part of `service_t` a service file sets, with the defaults of `service_create`. -/
structure ServiceConfig where
  name : Name
  type : SvcType := .simple
  requires : List Name := []
  after : List Name := []
  before : List Name := []
  restartPolicy : RestartPolicy := .never
  restartDelayMs : Int := 1000
  restartMaxRetries : Int := 5
  cgroup : CgroupLimits := {}
deriving DecidableEq, Repr

/-- The part of `service_t` that changes while lumid runs, with the values of `service_create`. -/
structure ServiceRuntime where
  restartCount : Int := 0
  state : SvcState := .stopped
  pid : Int := -1
  exitCode : Int := -1
  startTime : UInt64 := 0
  stopTime : UInt64 := 0
  enabled : Bool := true
deriving DecidableEq, Repr

/-- `service_t`, in its two parts. -/
structure Service extends ServiceConfig, ServiceRuntime
deriving DecidableEq, Repr

/-- A service as it is when its file has been parsed: `service_create`, then the configuration. -/
def serviceCreate (cfg : ServiceConfig) : Service := { toServiceConfig := cfg }

/-- A write through a pointer to the service. -/
def Service.update (svc : Service) (f : ServiceRuntime → ServiceRuntime) : Service :=
  { svc with toServiceRuntime := f svc.toServiceRuntime }

@[simp] theorem Service.update_runtime (svc : Service) (f : ServiceRuntime → ServiceRuntime) :
    (svc.update f).toServiceRuntime = f svc.toServiceRuntime := rfl

/-! ### The registry -/

/-- The linked list `g_services`. -/
structure Registry where
  list : List Service
  nodup : (list.map (·.name)).Nodup
deriving DecidableEq, Repr

namespace Registry

/-- The list before anything is loaded. -/
def empty : Registry := ⟨[], by simp⟩

/-- The names that are registered. -/
def names (r : Registry) : List Name := r.list.map (·.name)

/-- `service_find`. -/
def find (r : Registry) (n : Name) : Option Service := r.list.find? (·.name = n)

/-- A write through the pointer `service_find` returns, if it does. -/
def modify (r : Registry) (n : Name) (f : ServiceRuntime → ServiceRuntime) : Registry where
  list := r.list.map fun svc => if svc.name = n then svc.update f else svc
  nodup := by
    have : (r.list.map fun svc => if svc.name = n then svc.update f else svc).map (·.name) =
        r.list.map (·.name) := by
      rw [List.map_map]
      exact List.map_congr_left fun svc _ => by simp only [Function.comp]; split <;> rfl
    rw [this]
    exact r.nodup

variable {r : Registry} {n m : Name} {svc : Service} {f g : ServiceRuntime → ServiceRuntime}

/-- The service that is found is the one of its name, since there is no other. -/
theorem find_eq_some : r.find n = some svc ↔ svc ∈ r.list ∧ svc.name = n := by
  constructor
  · intro h
    exact ⟨List.mem_of_find?_eq_some h, by simpa using List.find?_some h⟩
  · rintro ⟨hm, rfl⟩
    cases h : r.find svc.name with
    | none => simpa using List.find?_eq_none.mp h svc hm
    | some svc' =>
        have h' : svc' ∈ r.list ∧ svc'.name = svc.name :=
          ⟨List.mem_of_find?_eq_some h, by simpa using List.find?_some h⟩
        rw [List.inj_on_of_nodup_map r.nodup h'.1 hm h'.2]

/-- A name that is not found is not registered. -/
theorem find_eq_none : r.find n = none ↔ n ∉ r.names := by
  simp [find, names, List.find?_eq_none]

/-- No write reaches a configuration. -/
@[simp] theorem configs_modify : (r.modify n f).list.map (·.toServiceConfig) =
    r.list.map (·.toServiceConfig) := by
  simp only [modify, List.map_map]
  exact List.map_congr_left fun svc _ => by simp only [Function.comp]; split <;> rfl

theorem name_of_find (h : r.find n = some svc) : svc.name = n := (find_eq_some.mp h).2

theorem find_of_mem (h : svc ∈ r.list) : r.find svc.name = some svc := find_eq_some.mpr ⟨h, rfl⟩

/-- A registered name is found. -/
theorem exists_find (h : n ∈ r.names) : ∃ svc, r.find n = some svc := by
  obtain ⟨svc, hm, rfl⟩ := List.mem_map.mp h
  exact ⟨svc, find_of_mem hm⟩

/-- A write registers nothing. -/
@[simp] theorem names_modify : (r.modify n f).names = r.names := by
  simp only [names, modify, List.map_map]
  exact List.map_congr_left fun svc _ => by simp only [Function.comp]; split <;> rfl

/-- The service a write is for. -/
@[simp] theorem find_modify_self : (r.modify n f).find n = (r.find n).map (·.update f) := by
  cases h : r.find n with
  | none => rw [find_eq_none] at h; exact find_eq_none.mpr (by simpa using h)
  | some svc =>
      obtain ⟨hm, hn⟩ := find_eq_some.mp h
      exact find_eq_some.mpr ⟨List.mem_map.mpr ⟨svc, hm, by simp [hn]⟩, hn⟩

/-- The others are left alone. -/
theorem find_modify_ne (h : m ≠ n) : (r.modify n f).find m = r.find m := by
  cases k : r.find m with
  | none => rw [find_eq_none] at k; exact find_eq_none.mpr (by simpa using k)
  | some svc =>
      obtain ⟨hm, hn⟩ := find_eq_some.mp k
      exact find_eq_some.mpr ⟨List.mem_map.mpr ⟨svc, hm, by simp [hn, h]⟩, hn⟩

/-- What a service of a modified registry was before. -/
theorem find_modify_some (h : (r.modify n f).find m = some svc) :
    ∃ svc', r.find m = some svc' ∧ svc.toServiceConfig = svc'.toServiceConfig ∧
      svc.toServiceRuntime = if m = n then f svc'.toServiceRuntime else svc'.toServiceRuntime := by
  by_cases e : m = n
  · subst e
    rw [find_modify_self, Option.map_eq_some_iff] at h
    obtain ⟨svc', h', rfl⟩ := h
    exact ⟨svc', h', rfl, by simp⟩
  · rw [find_modify_ne e] at h
    exact ⟨svc, h, rfl, by simp [e]⟩

/-- A modified registry knows the same names, with the same configurations. -/
theorem find_modify_config (h : r.find m = some svc) :
    ∃ svc', (r.modify n f).find m = some svc' ∧ svc'.toServiceConfig = svc.toServiceConfig := by
  by_cases e : m = n
  · subst e
    exact ⟨svc.update f, find_modify_self.trans (congrArg _ h), rfl⟩
  · exact ⟨svc, (find_modify_ne e).trans h, rfl⟩

/-- Two writes are one. -/
theorem modify_modify : (r.modify n f).modify n g = r.modify n (g ∘ f) := by
  simp only [modify, List.map_map, mk.injEq]
  refine List.map_congr_left fun svc _ => ?_
  by_cases h : svc.name = n <;> simp [Function.comp, h, Service.update]

/-- A write of what is there already changes nothing. -/
theorem modify_eq_self (h : r.find n = some svc)
    (hf : f svc.toServiceRuntime = svc.toServiceRuntime) : r.modify n f = r := by
  have hl : r.list.map (fun svc => if svc.name = n then svc.update f else svc) = r.list.map id := by
    refine List.map_congr_left fun svc' hm => ?_
    split
    · rename_i e
      obtain rfl : svc' = svc := Option.some.inj ((find_eq_some.mpr ⟨hm, e⟩).symm.trans h)
      simp only [Service.update, hf, id]
    · rfl
  simp only [modify, hl, List.map_id]

/-- A service in front of a registry that does not know its name. -/
def cons (r : Registry) (svc : Service) (h : r.find svc.name = none) : Registry where
  list := svc :: r.list
  nodup := by
    rw [List.map_cons, List.nodup_cons]
    exact ⟨find_eq_none.mp h, r.nodup⟩

/-- The services of a registry that has one more. -/
theorem find_cons {h : r.find svc.name = none} :
    (r.cons svc h).find n = if n = svc.name then some svc else r.find n := by
  by_cases e : n = svc.name
  · subst e; simp [cons, find]
  · simp [cons, find, e, Ne.symm e]

/-- A registered service is still there, and the same. -/
theorem find_cons_some (h : r.find svc.name = none) {svc' : Service} (hn : r.find n = some svc') :
    (r.cons svc h).find n = some svc' := by
  have e : n ≠ svc.name := by
    rintro rfl
    cases h.symm.trans hn
  rw [find_cons, if_neg e, hn]

end Registry

end LumiOS.Lumid
