import LumiOS.Support.DfsStop
import LumiOS.Lumid.Pids
import LumiOS.Lumid.StartOrder

/-!
# Lumid — Reload

What a reload that meets a dependency cycle leaves in `g_start_order`.

`service_resolve_deps` empties `g_start_order` before it knows that the sort succeeds, and writes it as
the sort goes on, so on the way to a cycle it holds the services settled so far
(`serviceResolveDeps_stops`).  That is what it held before only where these happen to be the same
services in the same order (`reload_keepsOrder_iff`).
-/

namespace LumiOS.Lumid

open Support Relation

/-! ### The order at a cycle -/

/-- The walk of the array in list order, each service's `after` entries and then its `requires` entries
inside it, has settled these services when it first comes back to a service it is inside of. -/
def SettledBeforeCycle (r : Registry) (order : List Name) : Prop :=
  ∃ roots l, Dfs.Stops (deps (svcArray r.list)) [] (List.finRange _) roots ∧
    Dfs.Settled (deps (svcArray r.list)) roots l ∧ order = l.map (nameAt r)

section

variable {r : Registry}

theorem SettledBeforeCycle.unique {order order' : List Name} (h : SettledBeforeCycle r order)
    (h' : SettledBeforeCycle r order') : order = order' := by
  obtain ⟨roots, l, hstop, hl, rfl⟩ := h
  obtain ⟨roots', l', hstop', hl', rfl⟩ := h'
  obtain rfl := hstop.unique hstop'
  rw [hl.unique hl']

/-- **A sort that fails** has met a cycle, and leaves what it has settled on the way. -/
theorem serviceResolveDeps_stops (h : (serviceResolveDeps r.list).1 = -1) :
    ¬ Acyclic (deps (svcArray r.list)) ∧ SettledBeforeCycle r (serviceResolveDeps r.list).2 := by
  obtain ⟨ok, s, hs, he⟩ := serviceResolveDeps_eq r
  rw [he] at h ⊢
  cases ok with
  | true => cases h
  | false =>
      obtain ⟨roots, hstop, hset⟩ := Dfs.sort_stops hs
      exact ⟨Dfs.sort_false hs, roots, s.order, hstop, hset, rfl⟩

theorem serviceResolveDeps_neg (h : ¬ Acyclic (deps (svcArray r.list))) :
    (serviceResolveDeps r.list).1 = -1 := by
  obtain ⟨ok, s, hs, he⟩ := serviceResolveDeps_eq r
  rw [he]
  cases ok with
  | true =>
      have hv := Dfs.sort_true hs
      exact absurd (hv.good.acyclic (mem_order hv)) h
  | false => rfl

end

/-! ### Reloads -/

/-- The services of the directory are registered. -/
def Sys.loaded (s : Sys) (dir : Dir) : Sys := (serviceLoadAll dir s).2

/-- In this event `service_resolve_deps` returns 0. -/
def Event.Resolves (s : Sys) : Event → Prop
  | .boot dir _ => 0 ≤ (serviceLoadAll dir s).1 ∧ (s.loaded dir).resolve.1 = 0
  | .sighup dir => (s.loaded dir).resolve.1 = 0
  | _ => False

/-- A state of a run in which `service_resolve_deps` has returned 0. -/
def Resolved (s : Sys) : Prop :=
  ∃ now es, Run Step (Sys.init now) es s ∧
    ∃ s₁ e s₂, Takes Step (Sys.init now) es s₁ e s₂ ∧ e.Resolves s₁

/-- A `service_resolve_deps` that fails in this reload leaves `g_start_order` as it was. -/
def Sys.KeepsOrder (s : Sys) (dir : Dir) : Prop :=
  (s.loaded dir).resolve.1 = -1 → (reload dir s).startOrder = (s.loaded dir).startOrder

/-- **A reload that fails keeps the order exactly when what is settled before the cycle is the order.** -/
theorem reload_keepsOrder_iff (s : Sys) (dir : Dir) :
    s.KeepsOrder dir ↔ (Acyclic (deps (svcArray (s.loaded dir).services.list)) ∨
      SettledBeforeCycle (s.loaded dir).services (s.loaded dir).startOrder) := by
  have hret : (s.loaded dir).resolve.1 =
      (serviceResolveDeps (s.loaded dir).services.list).1 := rfl
  have horder : (reload dir s).startOrder =
      (serviceResolveDeps (s.loaded dir).services.list).2 := rfl
  rw [Sys.KeepsOrder, hret, horder]
  constructor
  · intro h
    by_cases hac : Acyclic (deps (svcArray (s.loaded dir).services.list))
    · exact .inl hac
    · have hneg := serviceResolveDeps_neg hac
      exact .inr (h hneg ▸ (serviceResolveDeps_stops hneg).2)
  · rintro (hac | hset) hneg
    · exact absurd hac (serviceResolveDeps_stops hneg).1
    · exact (serviceResolveDeps_stops hneg).2.unique hset

/-- A shell that asks to be started after itself. -/
def shellDir : Dir := some [⟨ascii "shell.svc", some { name := shell, after := [shell] }⟩]

theorem booted_resolved : Resolved (booted { name := devd }) := by
  let boot : Event := .boot (devdDir { name := devd }) (Env.plain 10 0)
  have hs : Step (Sys.init 0) boot (booted { name := devd }) := rfl
  have hr : boot.Resolves (Sys.init 0) := ⟨by decide, by decide⟩
  exact ⟨0, [boot], .one hs, Sys.init 0, boot, _, ⟨[], [], rfl, .nil _, hs⟩, hr⟩

/-- With `devd` running, a reload that adds the shell empties the order. -/
theorem reload_loses_order : Resolved (booted { name := devd }) ∧
    (booted { name := devd }).startOrder = [devd] ∧
    ¬ (booted { name := devd }).KeepsOrder shellDir :=
  ⟨booted_resolved, by decide, fun h => absurd (h (by decide)) (by decide)⟩

end LumiOS.Lumid
