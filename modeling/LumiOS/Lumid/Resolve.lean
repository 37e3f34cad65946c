import LumiOS.Support.Dfs
import LumiOS.Lumid.Service

/-!
# Lumid — Resolve

The topological sort of `service.c`: `svc_index`, `topo_visit` and `service_resolve_deps`.

An index into `svc_array` is a `Fin arr.length`, `visit_state` and `g_start_order` are the two
fields of `Dfs.State` (`VISIT_NONE`, `VISIT_TEMP` and `VISIT_PERM` are its marks), and a return value
is the C `int`.  `topo_visit` is recursive; here it runs on fuel and `none` is its exhaustion, which
`resolveWith_isSome` excludes.

`topoVisit_eq`, `resolveLoop_eq`: the two functions are `Dfs.visit` and `Dfs.sort` on the graph `deps`
of array indices, whose successor lists are a service's `after` entries and then its `requires`
entries.
-/

namespace LumiOS.Lumid

open Support

/-- The flat array `service_resolve_deps` builds from the list: its first `LUMID_MAX_SERVICES`
services. -/
def svcArray (services : List Service) : List Service := services.take maxServices

def svcIndex (arr : List Service) (name : Name) : Option (Fin arr.length) :=
  arr.findFinIdx? (·.name = name)

section

variable (arr : List Service)

/-- `visit_state` and `g_start_order` while the array is `arr`. -/
abbrev TopoState := Dfs.State (Fin arr.length)

/-- One of the two loops of `topo_visit` over a dependency list. -/
def visitDeps (visit : Fin arr.length → TopoState arr → Option (Int × TopoState arr)) :
    List Name → TopoState arr → Option (Int × TopoState arr)
  | [], s => some (0, s)
  | name :: names, s =>
    match svcIndex arr name with
    | none => visitDeps visit names s
    | some dep => do
      let (ret, s) ← visit dep s
      if ret < 0 then return (-1, s)
      visitDeps visit names s

def topoVisit : Nat → Fin arr.length → TopoState arr → Option (Int × TopoState arr)
  | 0, _, _ => none
  | fuel + 1, idx, s =>
    match s.mark idx with
    | .perm => some (0, s)
    | .temp => some (-1, s)
    | .none => do
      let (ret, s) ← visitDeps arr (topoVisit fuel) arr[idx].after (s.enter idx)
      if ret < 0 then return (-1, s)
      let (ret, s) ← visitDeps arr (topoVisit fuel) arr[idx].requires s
      if ret < 0 then return (-1, s)
      return (0, s.leave idx)

/-- The loop of `service_resolve_deps` over the array. -/
def resolveLoop (fuel : Nat) :
    List (Fin arr.length) → TopoState arr → Option (Int × TopoState arr)
  | [], s => some (0, s)
  | i :: is, s =>
    match s.mark i with
    | .none => do
      let (ret, s) ← topoVisit arr fuel i s
      if ret < 0 then return (-1, s)
      resolveLoop fuel is s
    | _ => resolveLoop fuel is s

/-- The dependency graph on array indices, each index with its successors in the order
`topo_visit` looks them up. -/
def deps (idx : Fin arr.length) : List (Fin arr.length) :=
  (arr[idx].after ++ arr[idx].requires).filterMap (svcIndex arr)

/-- The `int` a search answers. -/
def ret (ok : Bool) : Int := if ok then 0 else -1

/-- The outcome of a search, with its answer as the C `int`. -/
def toRet : Dfs.Outcome (Fin arr.length) → Option (Int × TopoState arr) :=
  Option.map fun (ok, s) => (ret ok, s)

end

/-- `service_resolve_deps` with a recursion no deeper than `fuel`: its return value, and the names
of the services in `g_start_order`. -/
def resolveWith (fuel : Nat) (services : List Service) : Option (Int × List Name) :=
  let arr := svcArray services
  (resolveLoop arr fuel (List.finRange arr.length) .init).map fun (ret, s) =>
    (ret, s.order.map fun idx => arr[idx].name)

/-! ### The sort is the search -/

section

variable {arr : List Service}

@[simp] theorem toRet_true (s : TopoState arr) : toRet arr (some (true, s)) = some (0, s) := rfl

theorem visitDeps_eq {f : Fin arr.length → TopoState arr → Dfs.Outcome (Fin arr.length)}
    (names : List Name) (s : TopoState arr) :
    visitDeps arr (fun i s => toRet arr (f i s)) names s =
      toRet arr (Dfs.visitAll f (names.filterMap (svcIndex arr)) s) := by
  induction names generalizing s with
  | nil => rfl
  | cons name names ih =>
      cases h : svcIndex arr name with
      | none => simp only [visitDeps, h, List.filterMap_cons, ih]
      | some dep =>
          simp only [visitDeps, h, List.filterMap_cons, Dfs.visitAll]
          rcases f dep s with _ | ⟨_ | _, s₁⟩
          · rfl
          · rfl
          · simpa using ih s₁

theorem topoVisit_eq (fuel : Nat) :
    topoVisit arr fuel = fun idx s => toRet arr (Dfs.visit (deps arr) fuel idx s) := by
  induction fuel with
  | zero => rfl
  | succ fuel ih =>
      funext idx s
      simp only [topoVisit, Dfs.visit]
      cases s.mark idx with
      | perm => rfl
      | temp => rfl
      | none =>
          simp only [ih, visitDeps_eq, deps, List.filterMap_append, Dfs.visitAll_append]
          rcases Dfs.visitAll (Dfs.visit (deps arr) fuel) (arr[idx].after.filterMap (svcIndex arr))
            (s.enter idx) with _ | ⟨_ | _, s₁⟩
          · rfl
          · rfl
          · simp only [toRet_true, Option.bind_eq_bind, Option.bind_some, lt_irrefl, if_false]
            rcases Dfs.visitAll (Dfs.visit (deps arr) fuel)
              (arr[idx].requires.filterMap (svcIndex arr)) s₁ with _ | ⟨_ | _, s₂⟩ <;> rfl

theorem resolveLoop_eq (fuel : Nat) (is : List (Fin arr.length)) (s : TopoState arr) :
    resolveLoop arr fuel is s = toRet arr (Dfs.visitAll (Dfs.visitRoot (deps arr) fuel) is s) := by
  induction is generalizing s with
  | nil => rfl
  | cons i is ih =>
      simp only [resolveLoop, Dfs.visitAll, Dfs.visitRoot, topoVisit_eq]
      cases s.mark i with
      | perm => simpa using ih s
      | temp => simpa using ih s
      | none =>
          rcases Dfs.visit (deps arr) fuel i s with _ | ⟨_ | _, s₁⟩
          · rfl
          · rfl
          · simpa using ih s₁

end

theorem resolveWith_eq (fuel : Nat) (services : List Service) :
    resolveWith fuel services =
      (Dfs.sort (deps (svcArray services)) fuel (List.finRange _)).map fun (ok, s) =>
        (ret ok, s.order.map fun idx => (svcArray services)[idx].name) := by
  simp [resolveWith, resolveLoop_eq, Dfs.sort, toRet, Option.map_map, Function.comp_def]

/-- The recursion is no deeper than the array is long, one level for the last look at a mark
included. -/
theorem resolveWith_isSome {fuel : Nat} {services : List Service}
    (h : (svcArray services).length < fuel) : (resolveWith fuel services).isSome := by
  rw [resolveWith_eq, Option.isSome_map]
  exact Dfs.sort_isSome (by simpa using h)

/-- `service_resolve_deps` on the registered services: its return value, and the services in
`g_start_order`, by name.  When it fails, these are the ones finished before it met a cycle. -/
def serviceResolveDeps (services : List Service) : Int × List Name :=
  (resolveWith ((svcArray services).length + 1) services).get (resolveWith_isSome (Nat.lt_succ_self _))

/-- Any recursion depth beyond the length of the array gives `service_resolve_deps`. -/
theorem resolveWith_eq_serviceResolveDeps {fuel : Nat} {services : List Service}
    (h : (svcArray services).length < fuel) :
    resolveWith fuel services = some (serviceResolveDeps services) := by
  have hr : resolveWith ((svcArray services).length + 1) services =
      some (serviceResolveDeps services) := (Option.some_get _).symm
  rw [resolveWith_eq, Option.map_eq_some_iff] at hr ⊢
  obtain ⟨r, hr, he⟩ := hr
  exact ⟨r, Dfs.sort_fuel h hr, he⟩

/-! ### Only configurations count -/

/-- The same search on indices that differ in name only. -/
theorem sort_cast {m n : Nat} (h : m = n) {adj : Fin m → List (Fin m)}
    {adj' : Fin n → List (Fin n)} {f : Fin m → Name} {g : Fin n → Name}
    (hadj : ∀ i, (adj i).map (Fin.cast h) = adj' (Fin.cast h i))
    (hname : ∀ i, f i = g (Fin.cast h i)) (fuel : Nat) :
    ((Dfs.sort adj fuel (List.finRange m)).map fun (ok, s) => (ret ok, s.order.map f)) =
      (Dfs.sort adj' fuel (List.finRange n)).map fun (ok, s) => (ret ok, s.order.map g) := by
  subst h
  obtain rfl : adj = adj' := funext fun i => by simpa using hadj i
  obtain rfl : f = g := funext fun i => by simpa using hname i
  rfl

section

variable {arr arr' : List Service} (h : arr.map (·.toServiceConfig) = arr'.map (·.toServiceConfig))

include h

theorem length_of_configs : arr.length = arr'.length := by
  simpa using congrArg List.length h

theorem get_of_configs (i : Fin arr.length) :
    (arr.get i).toServiceConfig = (arr'.get (i.cast (length_of_configs h))).toServiceConfig := by
  have hi : (arr.map (·.toServiceConfig))[i.1]? = (arr'.map (·.toServiceConfig))[i.1]? := by rw [h]
  have hi' : i.1 < arr'.length := length_of_configs h ▸ i.2
  simpa [hi'] using hi

theorem svcIndex_of_configs (n : Name) :
    (svcIndex arr n).map (Fin.cast (length_of_configs h)) = svcIndex arr' n := by
  have hname : ∀ i : Fin arr.length, arr[i].name = arr'[i.cast (length_of_configs h)].name :=
    fun i => congrArg ServiceConfig.name (get_of_configs h i)
  cases hi : svcIndex arr n with
  | none =>
      rw [svcIndex, List.findFinIdx?_eq_none_iff] at hi
      refine (List.findFinIdx?_eq_none_iff.mpr fun svc hm => ?_).symm
      obtain ⟨svc', hm', e⟩ := List.mem_map.mp (h ▸ List.mem_map_of_mem hm)
      have hne := hi svc' hm'
      rwa [congrArg ServiceConfig.name e] at hne
  | some i =>
      rw [svcIndex, List.findFinIdx?_eq_some_iff] at hi
      refine (List.findFinIdx?_eq_some_iff.mpr ⟨?_, fun j hj => ?_⟩).symm
      · have hi' := hi.1
        rwa [hname i] at hi'
      · have hj' := hi.2 (j.cast (length_of_configs h).symm) hj
        rwa [hname (j.cast (length_of_configs h).symm)] at hj'

end

/-- `service_resolve_deps` reads the configurations only. -/
theorem serviceResolveDeps_of_configs {l l' : List Service}
    (h : l.map (·.toServiceConfig) = l'.map (·.toServiceConfig)) :
    serviceResolveDeps l = serviceResolveDeps l' := by
  have ha : (svcArray l).map (·.toServiceConfig) = (svcArray l').map (·.toServiceConfig) := by
    simp only [svcArray, List.map_take, h]
  have hlen := length_of_configs ha
  have hw : resolveWith ((svcArray l).length + 1) l = resolveWith ((svcArray l).length + 1) l' := by
    rw [resolveWith_eq, resolveWith_eq]
    refine sort_cast hlen (fun i => ?_) (fun i => ?_) _
    · simp only [deps, List.map_filterMap, svcIndex_of_configs ha]
      exact congrArg (fun cfg : ServiceConfig => (cfg.after ++ cfg.requires).filterMap
        (svcIndex (svcArray l'))) (get_of_configs ha i)
    · exact congrArg ServiceConfig.name (get_of_configs ha i)
  rw [resolveWith_eq_serviceResolveDeps (Nat.lt_succ_self _),
    resolveWith_eq_serviceResolveDeps (hlen ▸ Nat.lt_succ_self _)] at hw
  exact Option.some.inj hw

end LumiOS.Lumid
