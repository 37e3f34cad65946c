import Mathlib.Data.List.Nodup
import Mathlib.Data.PNat.Basic

/-!
# Support — Children

The unreaped children of a process, as the kernel keeps them: alive, or terminated with a wait
status that nobody has collected.  `fork` and `adopt` (the reparenting of an orphan) add a child at a
pid that no unreaped child holds; `waitpid` removes a terminated one.

`owner` is a ghost: what the parent forked the child for, and nothing for an adopted orphan.

No two unreaped children have one pid (`Children.nodup`), which is what a parent relies on when it
keeps a pid and asks for its status later: `waitpid` at a pid can only answer for the child the pid was
given to, until it has been reaped, and only then may the kernel give the pid away again (`Fresh`).  So
each function has its lemma on what becomes of one child, and what may still be reported at a pid
(`MayReport`) changes only where a child is added there.
-/

namespace Support

/-- The status `waitpid` reports of a terminated child. -/
inductive WaitStatus where
  | exited (code : UInt8)
  | signaled (sig : ℕ+)
deriving DecidableEq, Repr

/-- `SIGKILL`. -/
def sigkill : ℕ+ := ⟨9, Nat.succ_pos 8⟩

/-- A child, with its status once it has terminated. -/
structure Child (α : Type*) where
  pid : Int
  owner : Option α
  status : Option WaitStatus
deriving DecidableEq, Repr

/-- The children of a process that it has not reaped. -/
structure Children (α : Type*) where
  list : List (Child α)
  nodup : (list.map (·.pid)).Nodup
  pos : ∀ c ∈ list, 0 < c.pid
deriving Repr

/-- What `waitpid` at one pid answers: no such child, a child that is alive, or the status of a
terminated one. -/
inductive WaitResult where
  | echild
  | alive
  | reaped (st : WaitStatus)
deriving DecidableEq, Repr

namespace Children

variable {α : Type*}

/-- A process without children. -/
def empty : Children α := ⟨[], by simp, by simp⟩

/-- A pid the kernel may give to a new child. -/
def Fresh (k : Children α) (pid : Int) : Prop := 0 < pid ∧ pid ∉ k.list.map (·.pid)

instance (k : Children α) (pid : Int) : Decidable (k.Fresh pid) :=
  inferInstanceAs (Decidable (_ ∧ _))

/-- A new child, which is alive. -/
def insert (k : Children α) (pid : Int) (owner : Option α) (h : k.Fresh pid) : Children α where
  list := ⟨pid, owner, none⟩ :: k.list
  nodup := by
    rw [List.map_cons, List.nodup_cons]
    exact ⟨h.2, k.nodup⟩
  pos := by
    intro c hc
    rcases List.mem_cons.mp hc with rfl | hc
    · exact h.1
    · exact k.pos c hc

/-- `fork`: the kernel's answer is a pid, if it gives a fresh one, and a failure otherwise. -/
def fork (k : Children α) (answer : Option Int) (owner : α) : Option (Int × Children α) :=
  match answer with
  | none => none
  | some pid => if h : k.Fresh pid then some (pid, k.insert pid owner h) else none

/-- An orphan is reparented to this process. -/
def adopt (k : Children α) (pid : Int) : Children α :=
  if h : k.Fresh pid then k.insert pid none h else k

/-- A child terminates; one that is not alive does not. -/
def exit (k : Children α) (pid : Int) (st : WaitStatus) : Children α where
  list := k.list.map fun c => if c.pid = pid ∧ c.status = none then { c with status := some st } else c
  nodup := by
    have : ∀ c : Child α,
        (if c.pid = pid ∧ c.status = none then { c with status := some st } else c).pid = c.pid := by
      intro c
      split <;> rfl
    simpa [List.map_map, Function.comp_def, this] using k.nodup
  pos := by
    intro c hc
    obtain ⟨c', hc', rfl⟩ := List.mem_map.mp hc
    split
    · exact k.pos c' hc'
    · exact k.pos c' hc'

/-- Without the child at a pid. -/
def remove (k : Children α) (pid : Int) : Children α where
  list := k.list.filter (·.pid ≠ pid)
  nodup := k.nodup.sublist (List.filter_sublist.map _)
  pos := fun c hc => k.pos c (List.mem_of_mem_filter hc)

/-- The child at a pid. -/
def find (k : Children α) (pid : Int) : Option (Child α) := k.list.find? (·.pid = pid)

/-- `waitpid(pid, &status, WNOHANG)`. -/
def waitpid (k : Children α) (pid : Int) : WaitResult × Children α :=
  match k.find pid with
  | none => (.echild, k)
  | some c =>
    match c.status with
    | none => (.alive, k)
    | some st => (.reaped st, k.remove pid)

/-- The terminated children, with their statuses. -/
def zombies (k : Children α) : List (Int × WaitStatus) :=
  k.list.filterMap fun c => c.status.map (c.pid, ·)

/-- The processes forked for `a` that are alive. -/
def liveOf [DecidableEq α] (k : Children α) (a : α) : List (Child α) :=
  k.list.filter fun c => c.owner = some a ∧ c.status = none

/-- The status that will be collected at `pid`, or has been reported there, may be `st`. -/
def MayReport (k : Children α) (pid : Int) (st : WaitStatus) : Prop :=
  ∃ c ∈ k.list, c.pid = pid ∧ (c.status = none ∨ c.status = some st)

variable {k k' : Children α} {c c' : Child α} {pid : Int} {st : WaitStatus} {a : α}

/-- Children of one pid are one. -/
theorem eq_of_pid_eq (h : c ∈ k.list) (h' : c' ∈ k.list) (e : c.pid = c'.pid) : c = c' :=
  List.inj_on_of_nodup_map k.nodup h h' e

/-- The child that is found is the one at the pid. -/
theorem find_eq_some : k.find pid = some c ↔ c ∈ k.list ∧ c.pid = pid := by
  constructor
  · intro h
    exact ⟨List.mem_of_find?_eq_some h, by simpa using List.find?_some h⟩
  · rintro ⟨hm, rfl⟩
    cases h : k.find c.pid with
    | none => simpa using List.find?_eq_none.mp h c hm
    | some c' =>
        rw [eq_of_pid_eq (List.mem_of_find?_eq_some h) hm (by simpa using List.find?_some h)]

/-- A `fork` that succeeds has added a child at a fresh pid. -/
theorem fork_eq_some {answer : Option Int} {r : Int × Children α}
    (h : k.fork answer a = some r) :
    ∃ hf : k.Fresh r.1, answer = some r.1 ∧ r.2 = k.insert r.1 a hf := by
  cases answer with
  | none => exact nomatch h
  | some pid =>
      simp only [fork] at h
      split at h
      · rename_i hf
        cases h
        exact ⟨hf, rfl, rfl⟩
      · exact nomatch h

/-- The children are those from before and the new one. -/
theorem mem_insert {owner : Option α} {h : k.Fresh pid} :
    c ∈ (k.insert pid owner h).list ↔ c = ⟨pid, owner, none⟩ ∨ c ∈ k.list :=
  List.mem_cons

/-- A child from before has another pid than a new one. -/
theorem Fresh.ne (h : k.Fresh pid) (hc : c ∈ k.list) : c.pid ≠ pid :=
  fun e => h.2 (e ▸ List.mem_map_of_mem hc)

/-- Another pid stays fresh. -/
theorem Fresh.insert {p : Int} {owner : Option α} {hf : k.Fresh pid} (h : k.Fresh p)
    (hne : p ≠ pid) : (k.insert pid owner hf).Fresh p :=
  ⟨h.1, by simpa [Children.insert, hne] using h.2⟩

/-- The children but the one at the pid. -/
theorem mem_remove : c ∈ (k.remove pid).list ↔ c ∈ k.list ∧ c.pid ≠ pid := by
  simp [remove]

/-- A child after `exit` was the same child before, alive if its status has changed. -/
theorem mem_exit (h : c ∈ (k.exit pid st).list) :
    ∃ c' ∈ k.list, c.pid = c'.pid ∧ c.owner = c'.owner ∧
      (c.status = c'.status ∨ c'.status = none ∧ c'.pid = pid ∧ c.status = some st) := by
  obtain ⟨c', hc', rfl⟩ := List.mem_map.mp h
  refine ⟨c', hc', ?_⟩
  split
  · rename_i h
    exact ⟨rfl, rfl, .inr ⟨h.2, h.1, rfl⟩⟩
  · exact ⟨rfl, rfl, .inl rfl⟩

/-- A child keeps its pid and owner through `exit`. -/
theorem exit_mem (h : c ∈ k.list) :
    ∃ c' ∈ (k.exit pid st).list, c'.pid = c.pid ∧ c'.owner = c.owner := by
  refine ⟨_, List.mem_map_of_mem h, ?_⟩
  split <;> exact ⟨rfl, rfl⟩

/-- A status waits to be collected where a terminated child has it. -/
theorem mem_zombies : (pid, st) ∈ k.zombies ↔ ∃ c ∈ k.list, c.pid = pid ∧ c.status = some st := by
  simp only [zombies, List.mem_filterMap, Option.map_eq_some_iff, Prod.mk.injEq]
  constructor
  · rintro ⟨c, hc, st', hs, rfl, rfl⟩
    exact ⟨c, hc, rfl, hs⟩
  · rintro ⟨c, hc, rfl, hs⟩
    exact ⟨c, hc, st, hs, rfl, rfl⟩

/-- At one pid at most one status waits. -/
theorem zombies_nodup (k : Children α) : (k.zombies.map (·.1)).Nodup := by
  have h : ∀ l : List (Child α),
      ((l.filterMap fun c => c.status.map (c.pid, ·)).map (·.1)).Sublist (l.map (·.pid)) := by
    intro l
    induction l with
    | nil => exact .slnil
    | cons c l ih =>
        cases hs : c.status with
        | none => simpa [List.filterMap_cons, hs] using ih.trans (List.sublist_cons_self _ _)
        | some st => simpa [List.filterMap_cons, hs] using ih
  exact k.nodup.sublist (h k.list)

/-- A status waits at a positive pid. -/
theorem zombies_pos (h : (pid, st) ∈ k.zombies) : 0 < pid := by
  obtain ⟨c, hc, rfl, -⟩ := mem_zombies.mp h
  exact k.pos c hc

/-- A terminated child has one status. -/
theorem zombies_unique {st' : WaitStatus} (h : (pid, st) ∈ k.zombies) (h' : (pid, st') ∈ k.zombies) :
    st = st' :=
  congrArg Prod.snd (List.inj_on_of_nodup_map k.zombies_nodup h h' rfl)

/-- To remove a child is to remove its status. -/
theorem zombies_remove (k : Children α) (pid : Int) :
    (k.remove pid).zombies = k.zombies.filter (·.1 ≠ pid) := by
  simp only [zombies, remove, List.filter_filterMap, List.filterMap_filter]
  congr 1
  funext c
  cases c.status <;> by_cases hp : c.pid = pid <;> simp [hp, Option.filter]

/-- Forked for `a`, and not terminated. -/
theorem mem_liveOf [DecidableEq α] :
    c ∈ k.liveOf a ↔ c ∈ k.list ∧ c.owner = some a ∧ c.status = none := by
  simp [liveOf]

/-- A child that is forked for `a` is one more live process of `a`. -/
theorem liveOf_insert_self [DecidableEq α] {h : k.Fresh pid} :
    (k.insert pid (some a) h).liveOf a = ⟨pid, some a, none⟩ :: k.liveOf a := by
  simp [liveOf, insert]

/-- A child that is forked for `a` is no process of another owner. -/
theorem liveOf_insert_ne [DecidableEq α] {a b : α} {h : k.Fresh pid} (hab : a ≠ b) :
    (k.insert pid (some a) h).liveOf b = k.liveOf b := by
  simp [liveOf, insert, hab]

/-- Live processes that share their pid are one. -/
theorem liveOf_length_le_one [DecidableEq α] (h : ∀ c ∈ k.liveOf a, c.pid = pid) :
    (k.liveOf a).length ≤ 1 := by
  have hd : ((k.liveOf a).map (·.pid)).Nodup := k.nodup.sublist (List.filter_sublist.map _)
  have hr : (k.liveOf a).map (·.pid) = List.replicate (k.liveOf a).length pid := by
    rw [List.eq_replicate_iff]
    refine ⟨List.length_map _, fun p hp => ?_⟩
    obtain ⟨c, hc, rfl⟩ := List.mem_map.mp hp
    exact h c hc
  rwa [hr, List.nodup_replicate] at hd

/-- A status that is there may be reported. -/
theorem mayReport_of_zombie (h : (pid, st) ∈ k.zombies) : k.MayReport pid st := by
  obtain ⟨c, hc, hp, hs⟩ := mem_zombies.mp h
  exact ⟨c, hc, hp, .inr hs⟩

/-- What may be reported after an exit could be reported before it. -/
theorem MayReport.of_exit {p : Int} {st' : WaitStatus} (h : (k.exit p st').MayReport pid st) :
    k.MayReport pid st := by
  obtain ⟨c, hc, rfl, hs⟩ := h
  obtain ⟨c', hc', hp, -, hs' | ⟨hs', -, -⟩⟩ := mem_exit hc
  · exact ⟨c', hc', hp.symm, hs' ▸ hs⟩
  · exact ⟨c', hc', hp.symm, .inl hs'⟩

/-- What may be reported after a removal could be reported before it. -/
theorem MayReport.of_remove {p : Int} (h : (k.remove p).MayReport pid st) : k.MayReport pid st := by
  obtain ⟨c, hc, hp⟩ := h
  exact ⟨c, (mem_remove.mp hc).1, hp⟩

/-- A new child at another pid adds nothing that may be reported here. -/
theorem MayReport.of_insert {p : Int} {owner : Option α} (hf : k.Fresh p) (hne : p ≠ pid)
    (h : (k.insert p owner hf).MayReport pid st) : k.MayReport pid st := by
  obtain ⟨c, hc, hp, hs⟩ := h
  rcases mem_insert.mp hc with rfl | hc
  · exact absurd hp hne
  · exact ⟨c, hc, hp, hs⟩

/-- Nothing is reported at a pid that is not positive. -/
theorem MayReport.pos (h : k.MayReport pid st) : 0 < pid := by
  obtain ⟨c, hc, rfl, -⟩ := h
  exact k.pos c hc

/-- Nothing is reported at -1. -/
theorem not_mayReport_neg_one : ¬ k.MayReport (-1) st :=
  fun h => absurd h.pos (by decide)

/-- `waitpid` collects a status that is there. -/
theorem waitpid_reaped (h : (pid, st) ∈ k.zombies) : k.waitpid pid = (.reaped st, k.remove pid) := by
  obtain ⟨c, hc, rfl, hs⟩ := mem_zombies.mp h
  simp only [waitpid, find_eq_some.mpr ⟨hc, rfl⟩, hs]

/-- `waitpid` does not wait for a child that is alive. -/
theorem waitpid_alive (h : c ∈ k.list) (hs : c.status = none) : k.waitpid c.pid = (.alive, k) := by
  simp only [waitpid, find_eq_some.mpr ⟨h, rfl⟩, hs]

/-- A child that exits can be collected. -/
theorem zombie_of_exit (h : c ∈ k.list) (hs : c.status = none) :
    (c.pid, st) ∈ (k.exit c.pid st).zombies := by
  refine mem_zombies.mpr ⟨_, List.mem_map_of_mem h, ?_, ?_⟩
  · rw [if_pos ⟨rfl, hs⟩]
  · rw [if_pos ⟨rfl, hs⟩]

/-! ### Who is alive -/

/-- The child at this pid is alive. -/
def Alive (k : Children α) (pid : Int) : Prop := ∃ c ∈ k.list, c.pid = pid ∧ c.status = none

/-- A new child is alive. -/
theorem alive_insert {owner : Option α} {h : k.Fresh pid} {p : Int} :
    (k.insert pid owner h).Alive p ↔ p = pid ∨ k.Alive p := by
  simp only [Alive, mem_insert, exists_eq_or_imp, eq_comm, and_true]

/-- A child that exits is not. -/
theorem alive_exit {p : Int} : (k.exit pid st).Alive p ↔ k.Alive p ∧ p ≠ pid := by
  constructor
  · rintro ⟨c, hc, rfl, hs⟩
    obtain ⟨c', hc', rfl⟩ := List.mem_map.mp hc
    by_cases h : c'.pid = pid ∧ c'.status = none
    · rw [if_pos h] at hs
      cases hs
    · rw [if_neg h] at hs ⊢
      exact ⟨⟨c', hc', rfl, hs⟩, fun hp => h ⟨hp, hs⟩⟩
  · rintro ⟨⟨c, hc, rfl, hs⟩, hne⟩
    exact ⟨_, List.mem_map_of_mem hc, by rw [if_neg fun h => hne h.1], by
      rw [if_neg fun h => hne h.1, hs]⟩

/-- There is nothing to collect of a child that is alive. -/
theorem waitpid_of_alive (h : k.Alive pid) : k.waitpid pid = (.alive, k) := by
  obtain ⟨c, hc, rfl, hs⟩ := h
  exact waitpid_alive hc hs

/-- `waitpid` collects no child that is alive. -/
theorem waitpid_of_not_alive (h : ¬ k.Alive pid) :
    (k.waitpid pid).1 ≠ .alive ∧ ∀ p, (k.waitpid pid).2.Alive p → k.Alive p := by
  rw [waitpid]
  cases hfind : k.find pid with
  | none => exact ⟨WaitResult.noConfusion, fun p hp => hp⟩
  | some c =>
      obtain ⟨hc, hpid⟩ := find_eq_some.mp hfind
      cases hs : c.status with
      | none => exact absurd ⟨c, hc, hpid, hs⟩ h
      | some status =>
          refine ⟨?_, ?_⟩
          · simp only [hs]
            exact WaitResult.noConfusion
          · simp only [hs]
            rintro p ⟨d, hd, hp⟩
            exact ⟨d, (mem_remove.mp hd).1, hp⟩

end Children

end Support
