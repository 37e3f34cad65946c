import LumiOS.Lumid.Resolve

/-!
# Lumid — StartOrder

What `service_resolve_deps` answers and the order it leaves, for every registry.

* `serviceResolveDeps_sorts`: it returns, and returns 0 exactly when the dependency graph has no
  cycle; the order then lists every service once, after its dependencies.
* `serviceResolveDeps_before_iff`: the order between two services, read off the registry.  `topo_visit`
  follows `after` and `requires`, and not `before`: a service stands where its dependents and the
  list put it.

Both are about names; the search runs on array indices.  `nameAt` translates, and carries edges and
paths both ways (`edge_iff`, `acyclic_iff`).
-/

namespace LumiOS.Lumid

open Support Relation

/-! ### The dependency graph, by name -/

/-- The service `x` names the registered service `y` in its `after` or `requires` list. -/
def DependsOn (r : Registry) (x y : Name) : Prop :=
  ∃ a ∈ r.list, a.name = x ∧ y ∈ r.names ∧ (y ∈ a.after ∨ y ∈ a.requires)

/-- The dependency graph has a cycle; a service that depends on itself is one. -/
def Cyclic (r : Registry) : Prop := ∃ x, TransGen (DependsOn r) x x

section

variable {r : Registry}

/-- The name of the service at an index of the array. -/
def nameAt (r : Registry) (i : Fin (svcArray r.list).length) : Name := (svcArray r.list)[i].name

theorem nameAt_injective : Function.Injective (nameAt r) := fun i j h => by
  have hnd : ((svcArray r.list).map (·.name)).Nodup :=
    r.nodup.sublist ((List.take_sublist _ _).map _)
  have hget : ∀ k : Fin (svcArray r.list).length,
      ((svcArray r.list).map (·.name)).get (k.cast (by simp)) = nameAt r k := fun k => by
    simp [nameAt]
  have := List.nodup_iff_injective_get.mp hnd ((hget i).trans (h.trans (hget j).symm))
  simpa using this

theorem nameAt_mem (i : Fin (svcArray r.list).length) : nameAt r i ∈ r.names :=
  List.mem_map_of_mem (List.mem_of_mem_take (List.getElem_mem i.2))

theorem svcIndex_eq_some {n : Name} {i : Fin (svcArray r.list).length} :
    svcIndex (svcArray r.list) n = some i ↔ nameAt r i = n := by
  simp only [svcIndex, List.findFinIdx?_eq_some_iff, decide_eq_true_eq]
  refine ⟨fun h => h.1, fun h => ⟨h, fun j hj hn => ?_⟩⟩
  exact absurd (nameAt_injective (hn.trans h.symm)) (Fin.ne_of_lt hj)

theorem edge_iff {i j : Fin (svcArray r.list).length} :
    Edge (deps (svcArray r.list)) i j ↔ DependsOn r (nameAt r i) (nameAt r j) := by
  simp only [Edge, deps, List.mem_filterMap, List.mem_append, svcIndex_eq_some]
  constructor
  · rintro ⟨n, hn, rfl⟩
    exact ⟨_, List.mem_of_mem_take (List.getElem_mem i.2), rfl, nameAt_mem j, hn⟩
  · rintro ⟨a, ha, hai, -, h⟩
    refine ⟨_, ?_, rfl⟩
    have : a = (svcArray r.list)[i] := List.inj_on_of_nodup_map r.nodup ha
      (List.mem_of_mem_take (List.getElem_mem i.2)) hai
    rwa [this] at h

/-- A registry that fits the array is the array. -/
theorem exists_nameAt (h : r.list.length ≤ maxServices) {n : Name} (hn : n ∈ r.names) :
    ∃ i, nameAt r i = n := by
  obtain ⟨svc, hs, rfl⟩ := List.mem_map.mp hn
  have hs' : svc ∈ svcArray r.list := by rwa [svcArray, List.take_of_length_le h]
  obtain ⟨i, hi, rfl⟩ := List.getElem_of_mem hs'
  exact ⟨⟨i, hi⟩, rfl⟩

theorem dependsOn_mem {x y : Name} (h : DependsOn r x y) : x ∈ r.names ∧ y ∈ r.names := by
  obtain ⟨a, ha, rfl, hy, -⟩ := h
  exact ⟨List.mem_map_of_mem ha, hy⟩

theorem acyclic_iff (h : r.list.length ≤ maxServices) :
    Acyclic (deps (svcArray r.list)) ↔ ¬ Cyclic r := by
  have down : ∀ {x y}, TransGen (DependsOn r) x y →
      ∀ i, nameAt r i = x → ∃ j, nameAt r j = y ∧ TransGen (Edge (deps (svcArray r.list))) i j := by
    intro x y t
    induction t with
    | single e =>
        rintro i rfl
        obtain ⟨j, rfl⟩ := exists_nameAt h (dependsOn_mem e).2
        exact ⟨j, rfl, .single (edge_iff.mpr e)⟩
    | tail _ e ih =>
        intro i hi
        obtain ⟨j, rfl, t⟩ := ih i hi
        obtain ⟨k, rfl⟩ := exists_nameAt h (dependsOn_mem e).2
        exact ⟨k, rfl, t.tail (edge_iff.mpr e)⟩
  constructor
  · rintro hac ⟨x, t⟩
    have hx : x ∈ r.names := by
      cases t with
      | single e => exact (dependsOn_mem e).1
      | tail _ e => exact (dependsOn_mem e).2
    obtain ⟨i, rfl⟩ := exists_nameAt h hx
    obtain ⟨j, hj, t⟩ := down t i rfl
    exact hac i (nameAt_injective hj ▸ t)
  · intro hc i t
    exact hc ⟨nameAt r i, t.lift (nameAt r) fun _ _ e => edge_iff.mp e⟩

end

/-! ### The answer and the order -/

section

variable {r : Registry}

/-- `service_resolve_deps` is a sort of the array. -/
theorem serviceResolveDeps_eq (r : Registry) :
    ∃ ok s, Dfs.sort (deps (svcArray r.list)) ((svcArray r.list).length + 1)
        (List.finRange _) = some (ok, s) ∧
      serviceResolveDeps r.list = (ret ok, s.order.map (nameAt r)) := by
  have h := resolveWith_eq_serviceResolveDeps (Nat.lt_succ_self (svcArray r.list).length)
  rw [resolveWith_eq, Option.map_eq_some_iff] at h
  obtain ⟨⟨ok, s⟩, hs, h⟩ := h
  exact ⟨ok, s, hs, h.symm⟩

/-- What a sort that returned 0 has done. -/
theorem serviceResolveDeps_zero (h : (serviceResolveDeps r.list).1 = 0) :
    ∃ s : TopoState (svcArray r.list),
      Dfs.Visited (deps (svcArray r.list)) [] (List.finRange _) .init s s.order ∧
      serviceResolveDeps r.list = (0, s.order.map (nameAt r)) := by
  obtain ⟨ok, s, hs, he⟩ := serviceResolveDeps_eq r
  cases ok with
  | false => simp [he, ret] at h
  | true => exact ⟨s, Dfs.sort_true hs, he⟩

theorem mem_order {s : TopoState (svcArray r.list)} {adj}
    (h : Dfs.Visited adj [] (List.finRange _) .init s s.order) (i) : i ∈ s.order :=
  (h.mem i).mpr ⟨by simp [Dfs.State.init], i, List.mem_finRange i, .refl⟩

/-- The order lists the array, without repetition. -/
theorem serviceResolveDeps_perm (h : (serviceResolveDeps r.list).1 = 0) :
    (serviceResolveDeps r.list).2.Perm ((svcArray r.list).map (·.name)) := by
  obtain ⟨s, hv, he⟩ := serviceResolveDeps_zero h
  have hp : s.order.Perm (List.finRange _) :=
    (List.perm_ext_iff_of_nodup hv.good.nodup (List.nodup_finRange _)).mpr fun i =>
      iff_of_true (mem_order hv i) (List.mem_finRange i)
  have hm : (List.finRange (svcArray r.list).length).map (nameAt r) =
      (svcArray r.list).map (·.name) := by
    apply List.ext_getElem
    · simp
    · intro i h₁ h₂
      simp [nameAt]
  rw [he, ← hm]
  exact hp.map _

theorem serviceResolveDeps_nodup (h : (serviceResolveDeps r.list).1 = 0) :
    (serviceResolveDeps r.list).2.Nodup :=
  (serviceResolveDeps_perm h).nodup_iff.mpr
    (r.nodup.sublist ((List.take_sublist maxServices r.list).map (·.name)))

theorem serviceResolveDeps_of_not_neg (h : ¬ (serviceResolveDeps r.list).1 < 0) :
    (serviceResolveDeps r.list).1 = 0 := by
  obtain ⟨ok, s, -, he⟩ := serviceResolveDeps_eq r
  rw [he] at h ⊢
  cases ok with
  | false => exact absurd (by decide : (-1 : Int) < 0) h
  | true => rfl

/-- Two services of the order, by array index. -/
theorem precedes_nameAt {l : List (Fin (svcArray r.list).length)} {i j} :
    Precedes (l.map (nameAt r)) (nameAt r i) (nameAt r j) ↔ Precedes l i j := by
  refine ⟨fun h => ?_, fun h => by simpa [Precedes] using h.map (nameAt r)⟩
  obtain ⟨l', hl', e⟩ := List.sublist_map_iff.mp h
  have hl'' : [i, j].map (nameAt r) = l'.map (nameAt r) := by simpa using e
  rwa [← List.map_injective_iff.mpr nameAt_injective hl''] at hl'

/-- Dependencies stand before the services that name them. -/
theorem precedes_of_dependsOn (h : (serviceResolveDeps r.list).1 = 0)
    {i j : Fin (svcArray r.list).length} (hd : DependsOn r (nameAt r i) (nameAt r j)) :
    Precedes (serviceResolveDeps r.list).2 (nameAt r j) (nameAt r i) := by
  obtain ⟨s, hv, he⟩ := serviceResolveDeps_zero h
  rw [he, precedes_nameAt]
  -- at the dependent, the order so far is closed under dependencies
  obtain ⟨l₁, l₂, hl⟩ := List.append_of_mem (mem_order hv i)
  rw [hl, precedes_append]
  exact .inr (.inl ⟨hv.good.closed l₁ i l₂ hl j (edge_iff.mpr hd), by simp⟩)

theorem serviceResolveDeps_zero_iff (hlen : r.list.length ≤ maxServices) :
    (serviceResolveDeps r.list).1 = 0 ↔ ¬ Cyclic r := by
  rw [← acyclic_iff hlen]
  obtain ⟨ok, s, hs, he⟩ := serviceResolveDeps_eq r
  rw [he]
  cases ok with
  | true =>
      have hv := Dfs.sort_true hs
      exact iff_of_true rfl (hv.good.acyclic (mem_order hv))
  | false => exact iff_of_false (by simp [ret]) (Dfs.sort_false hs)

/-- A registry that fits the array is listed whole. -/
theorem serviceResolveDeps_perm_names (hlen : r.list.length ≤ maxServices)
    (h : (serviceResolveDeps r.list).1 = 0) : (serviceResolveDeps r.list).2.Perm r.names := by
  have hp := serviceResolveDeps_perm h
  rwa [svcArray, List.take_of_length_le hlen] at hp

/-- **The sort.**  For a registry that fits the array, `service_resolve_deps` returns, whatever the
depth beyond the registry's length its recursion may use; it returns 0 exactly when the
dependency graph has no cycle; and then the order holds every service once, and each dependency at
a smaller index than the service that names it. -/
theorem serviceResolveDeps_sorts (r : Registry) (hlen : r.list.length ≤ maxServices) :
    (∀ fuel, r.list.length < fuel →
      resolveWith fuel r.list = some (serviceResolveDeps r.list)) ∧
    ((serviceResolveDeps r.list).1 = 0 ↔ ¬ Cyclic r) ∧
    ((serviceResolveDeps r.list).1 = 0 →
      (serviceResolveDeps r.list).2.Perm r.names ∧
      ∀ x y, DependsOn r x y → ∃ i j : Nat, i < j ∧
        (serviceResolveDeps r.list).2[i]? = some y ∧
        (serviceResolveDeps r.list).2[j]? = some x) := by
  have harr : svcArray r.list = r.list := List.take_of_length_le hlen
  refine ⟨fun fuel hf => resolveWith_eq_serviceResolveDeps (by rwa [harr]),
    serviceResolveDeps_zero_iff hlen, fun h => ⟨serviceResolveDeps_perm_names hlen h, ?_⟩⟩
  intro x y hd
  obtain ⟨i, rfl⟩ := exists_nameAt hlen (dependsOn_mem hd).1
  obtain ⟨j, rfl⟩ := exists_nameAt hlen (dependsOn_mem hd).2
  exact precedes_iff_index.mp (precedes_of_dependsOn h hd)

end

/-! ### A registry -/

def devd : Name := .lit "devd" (by decide)

def compositor : Name := .lit "lumi-compositor" (by decide)

def shell : Name := .lit "lumi-shell" (by decide)

/-- The compositor's service file of `docs/architecture.md`. -/
def compositorService : Service :=
  serviceCreate { name := compositor, requires := [devd], after := [devd], before := [shell] }

/-- The compositor, what it requires, and a shell that names no dependency and was registered
last. -/
def session : Registry where
  list := [serviceCreate { name := shell }, compositorService, serviceCreate { name := devd }]
  nodup := by decide

theorem serviceResolveDeps_sorts_session : ¬ Cyclic session ∧
    ∃ i j : Nat, i < j ∧ (serviceResolveDeps session.list).2[i]? = some devd ∧
      (serviceResolveDeps session.list).2[j]? = some compositor := by
  obtain ⟨-, h₀, h₁⟩ := serviceResolveDeps_sorts session (by decide)
  have hd : DependsOn session compositor devd :=
    ⟨compositorService, by decide, rfl, by decide, .inl (by decide)⟩
  exact ⟨h₀.mp (by decide), (h₁ (by decide)).2 compositor devd hd⟩

/-! ### `before` -/

/-- The walk of the array in list order, each service's `after` entries and then its `requires`
entries inside it, settles `a` before it settles `b`. -/
def WalkedFirst (r : Registry) (a b : Name) : Prop :=
  ∃ i j, nameAt r i = a ∧ nameAt r j = b ∧
    FinishesFirst (deps (svcArray r.list)) i j (List.finRange _)

theorem precedes_iff_walkedFirst {r : Registry} (h : (serviceResolveDeps r.list).1 = 0)
    {a b : Name} : Precedes (serviceResolveDeps r.list).2 a b ↔ WalkedFirst r a b := by
  obtain ⟨s, hv, he⟩ := serviceResolveDeps_zero h
  have hfirst := fun i j => hv.first i j (mem_order hv i) (mem_order hv j)
  rw [he]
  constructor
  · intro hp
    obtain ⟨i, -, rfl⟩ := List.mem_map.mp hp.mem.1
    obtain ⟨j, -, rfl⟩ := List.mem_map.mp hp.mem.2
    exact ⟨i, j, rfl, rfl, (hfirst i j).mp (precedes_nameAt.mp hp)⟩
  · rintro ⟨i, j, rfl, rfl, hf⟩
    exact precedes_nameAt.mpr ((hfirst i j).mpr hf)

/-- **`before` is not followed.**  A service stands before one it names in `before` exactly when the
walk of the list along `after` and `requires` happens to settle it first. -/
theorem serviceResolveDeps_before_iff (r : Registry) (h : (serviceResolveDeps r.list).1 = 0) :
    ∀ a ∈ r.list, ∀ b ∈ r.list, b.name ∈ a.before →
      ((∃ i j : Nat, i < j ∧ (serviceResolveDeps r.list).2[i]? = some a.name ∧
        (serviceResolveDeps r.list).2[j]? = some b.name) ↔ WalkedFirst r a.name b.name) := by
  intro a _ b _ _
  rw [← precedes_iff_index, precedes_iff_walkedFirst h]

/-- With the shell registered first, the order is the one the compositor asks for. -/
theorem serviceResolveDeps_before_iff_reversed :
    WalkedFirst ⟨session.list.reverse, by decide⟩ compositor shell :=
  (serviceResolveDeps_before_iff ⟨session.list.reverse, by decide⟩ (by decide)
    compositorService (by decide) (serviceCreate { name := shell }) (by decide) (by decide)).mp
    (precedes_iff_index.mp (by decide))

/-- In `session` the shell stands before the compositor that names it in `before`. -/
theorem serviceResolveDeps_before_ignored :
    ¬ ∀ r : Registry, (serviceResolveDeps r.list).1 = 0 →
      ∀ a ∈ r.list, ∀ b ∈ r.list, b.name ∈ a.before →
        ∃ i j : Nat, i < j ∧ (serviceResolveDeps r.list).2[i]? = some a.name ∧
          (serviceResolveDeps r.list).2[j]? = some b.name := by
  intro h
  have := h session (by decide) compositorService (by decide) (serviceCreate { name := shell })
    (by decide) (by decide)
  exact absurd (precedes_iff_index.mpr this) (by decide)

end LumiOS.Lumid
