import Mathlib.Data.Finset.Card
import Mathlib.Data.Finset.Insert
import LumiOS.Support.CStr
import LumiOS.Container.Lifecycle

/-!
# Container — Start

What `container_start` takes from the kernel, and what it gives back: two descriptors, a stack, a process.

It returns -1 at four places.  Where `pipe2` fails there is nothing to give back; where `malloc` or
`clone` fails the pipe stays open; and where the child does not get ready it is not killed, so that it
is gone only if it has terminated by itself.  So the attempts of a run release what they take exactly
when each of them fails at `pipe2`, or gets as far as the child and finds it ready or dead
(`start_releases_iff`).
-/

namespace LumiOS.Container

open Support

/-! ### What the kernel hands out -/

/-- A descriptor, or an address of `malloc`: the kernel gives out what is not held. -/
def acquire (held : Finset Nat) (a : Nat) : Option (Finset Nat) :=
  if a ∈ held then none else some (insert a held)

theorem acquire_eq_some {held held' : Finset Nat} {a : Nat} (h : acquire held a = some held') :
    a ∉ held ∧ held' = insert a held := by
  rw [acquire] at h
  split at h
  · cases h
  · rename_i hnot
    exact ⟨hnot, (Option.some.inj h).symm⟩

/-- `write_file`, by the descriptor `open` returns. -/
def writeFile (fds : Finset Nat) (opened : Option Nat) : Option (Finset Nat) :=
  match opened with
  | none => some fds
  | some fd => (acquire fds fd).map fun fds => fds.erase fd

/-- It closes what it opens. -/
theorem writeFile_eq {fds fds' : Finset Nat} {opened : Option Nat}
    (h : writeFile fds opened = some fds') : fds' = fds := by
  cases opened with
  | none => exact (Option.some.inj h).symm
  | some fd =>
      obtain ⟨held, hheld, rfl⟩ := Option.map_eq_some_iff.mp h
      obtain ⟨hnot, rfl⟩ := acquire_eq_some hheld
      exact Finset.erase_insert hnot

/-- A file that is written if this holds. -/
def writeFileIf (c : Prop) [Decidable c] (fds : Finset Nat) (opened : Option Nat) :
    Option (Finset Nat) :=
  if c then writeFile fds opened else some fds

theorem writeFileIf_eq {c : Prop} [Decidable c] {fds fds' : Finset Nat} {opened : Option Nat}
    (h : writeFileIf c fds opened = some fds') : fds' = fds := by
  rw [writeFileIf] at h
  split at h
  · exact writeFile_eq h
  · exact (Option.some.inj h).symm

/-! ### container_start -/

/-- The files that are written on the way. -/
inductive WrittenFile where
  | subtreeControl | memoryMax | cpuWeight | pidsMax | cgroupProcs | pidFile
deriving DecidableEq, Repr

/-- How the calls of `container_start` go. -/
structure Outcome where
  pipe2 : Option (Nat × Nat)
  /-- `mkdirp` returns 0. -/
  mkdirp : Bool
  /-- The descriptor `open` returns for each file. -/
  opened : WrittenFile → Option Nat
  malloc : Option Nat
  clone : Option Int
  /-- What `read` puts into `buf`. -/
  buf : List UInt8
  /-- How the child has terminated by the time `read` returns. -/
  exited : Option WaitStatus

/-- The child is ready; `buf` is zero where nothing is read. -/
def Outcome.Ready (o : Outcome) : Prop := o.buf.take 2 = ascii "OK"

instance (o : Outcome) : Decidable o.Ready := inferInstanceAs (Decidable (_ = _))

/-- `container_t`, as far as `container_start` reads and writes it. -/
structure ContainerT extends Ct where
  statusPipe : Nat × Nat := (0, 0)
  memoryLimit : Int64 := -1
  cpuShares : Int32 := 100

/-- A process that starts containers: the open descriptors, the blocks of `malloc`, and the
containers' init processes. -/
structure Host where
  ct : ContainerT := {}
  fds : Finset Nat
  blocks : Finset Nat := ∅
  children : Children Unit := .empty

def ctCgroupCreate (fds : Finset Nat) (o : Outcome) : Option (Finset Nat) :=
  writeFileIf o.mkdirp fds (o.opened .subtreeControl)

def ctCgroupSetLimits (fds : Finset Nat) (o : Outcome) (mem : Int64) (cpu : Int32) :
    Option (Finset Nat) := do
  let fds ← writeFileIf (0 < mem) fds (o.opened .memoryMax)
  let fds ← writeFileIf (0 < cpu) fds (o.opened .cpuWeight)
  writeFile fds (o.opened .pidsMax)

/-- The cgroup of the container. -/
def setupCgroup (fds : Finset Nat) (o : Outcome) (mem : Int64) (cpu : Int32) :
    Option (Finset Nat) := do
  let fds ← ctCgroupCreate fds o
  if 0 < mem ∨ 0 < cpu then ctCgroupSetLimits fds o mem cpu else some fds

namespace Host

def withState (s : Host) (state : CtState) : Host := { s with ct := { s.ct with state := state } }

/-- `container_start` once it has a child. -/
def awaitReady (s : Host) (o : Outcome) : Option (Int × Host) := do
  let fds ← writeFile s.fds (o.opened .cgroupProcs)
  let s := { s with
    fds := (fds.erase s.ct.statusPipe.2).erase s.ct.statusPipe.1
    children := match o.exited with
      | some status => s.children.exit s.ct.initPid status
      | none => s.children }
  if o.Ready then
    let fds ← writeFile s.fds (o.opened .pidFile)
    some (0, { s with fds := fds }.withState .running)
  else some (-1, s.withState .failed)

/-- `container_start` once it has its pipe. -/
def startChild (s : Host) (o : Outcome) : Option (Int × Host) :=
  match o.malloc with
  | none => some (-1, s.withState .failed)
  | some stack => do
    let blocks ← acquire s.blocks stack
    let s := { s with blocks := blocks.erase stack }
    match o.clone with
    | none => some (-1, s.withState .failed)
    | some pid =>
      let (pid, children) ← s.children.fork (some pid) ()
      { s with ct := { s.ct with initPid := pid }, children := children }.awaitReady o

/-- `container_start`: what it returns, and what it leaves.  There is nothing for an outcome that the
kernel does not produce. -/
def containerStart (s : Host) (o : Outcome) : Option (Int × Host) :=
  if s.ct.state = .running then some (0, s)
  else
    let s := s.withState .starting
    match o.pipe2 with
    | none => some (-1, s.withState .failed)
    | some (r, w) => do
      let fds ← acquire s.fds r
      let fds ← acquire fds w
      let fds ← setupCgroup fds o s.ct.memoryLimit s.ct.cpuShares
      { s with ct := { s.ct with statusPipe := (r, w) }, fds := fds }.startChild o

end Host

/-- How `container_stop` ends the child, by how that terminates within the three seconds. -/
def endChild (k : Children Unit) (pid : Int) (grace : Option WaitStatus) : Children Unit :=
  match k.waitpid pid with
  | (.alive, k) =>
    let k := match grace with
      | some status => k.exit pid status
      | none => k
    match k.waitpid pid with
    | (.alive, k) => ((k.exit pid (.signaled sigkill)).waitpid pid).2
    | (_, k) => k
  | (_, k) => k

def Host.containerStop (s : Host) (grace : Option WaitStatus) : Host :=
  if s.ct.state ≠ .running ∨ s.ct.initPid ≤ 0 then s
  else { s with
    ct := { s.ct with
      state := .stopped
      initPid := -1 }
    children := endChild s.children s.ct.initPid grace }

inductive StartEvent where
  | start (o : Outcome)
  | stop (grace : Option WaitStatus)
  /-- A child terminates. -/
  | exit (pid : Int) (status : WaitStatus)

def Host.step (s : Host) : StartEvent → Option Host
  | .start o => (s.containerStart o).map Prod.snd
  | .stop grace => some (s.containerStop grace)
  | .exit pid status => some { s with children := s.children.exit pid status }

def Host.Step (s : Host) (e : StartEvent) (s' : Host) : Prop := s.step e = some s'

/-! ### What an attempt does -/

/-- The child after the ready read. -/
def Outcome.afterRead (o : Outcome) (k : Children Unit) (pid : Int) : Children Unit :=
  match o.exited with
  | some status => k.exit pid status
  | none => k

/-- What an attempt returns and leaves. -/
inductive Attempt (s : Host) (o : Outcome) : Int → Host → Prop where
  | running (h : s.ct.state = .running) : Attempt s o 0 s
  | noPipe {s' : Host} (h : s.ct.state ≠ .running) (hpipe : o.pipe2 = none)
      (failed : s'.ct.state = .failed) (fds_eq : s'.fds = s.fds) (blocks_eq : s'.blocks = s.blocks)
      (children_eq : s'.children = s.children) : Attempt s o (-1) s'
  | noChild {s' : Host} {r w : Nat} (h : s.ct.state ≠ .running) (hpipe : o.pipe2 = some (r, w))
      (hr : r ∉ s.fds) (hw : w ∉ insert r s.fds) (hchild : o.malloc = none ∨ o.clone = none)
      (fds_eq : s'.fds = insert w (insert r s.fds)) : Attempt s o (-1) s'
  | cloned {s' : Host} {ret : Int} {r w stack : Nat} {pid : Int} (h : s.ct.state ≠ .running)
      (hpipe : o.pipe2 = some (r, w)) (hr : r ∉ s.fds) (hw : w ∉ insert r s.fds)
      (hmalloc : o.malloc = some stack) (hclone : o.clone = some pid) (hpid : s.children.Fresh pid)
      (fds_eq : s'.fds = s.fds) (blocks_eq : s'.blocks = s.blocks)
      (children_eq : s'.children = o.afterRead (s.children.insert pid (some ()) hpid) pid)
      (pid_eq : s'.ct.initPid = pid)
      (ready : o.Ready → ret = 0 ∧ s'.ct.state = .running)
      (notReady : ¬ o.Ready → ret = -1 ∧ s'.ct.state = .failed) : Attempt s o ret s'

section

variable {s s' : Host} {o : Outcome} {ret : Int} {r w : Nat} {fds fds' : Finset Nat}

theorem setupCgroup_eq {mem : Int64} {cpu : Int32} (h : setupCgroup fds o mem cpu = some fds') :
    fds' = fds := by
  rw [setupCgroup] at h
  obtain ⟨fds₁, h₁, hlimits⟩ := Option.bind_eq_some_iff.mp h
  have hcreate : fds₁ = fds := writeFileIf_eq h₁
  split at hlimits
  · rw [ctCgroupSetLimits] at hlimits
    obtain ⟨fds₂, h₂, hrest⟩ := Option.bind_eq_some_iff.mp hlimits
    obtain ⟨fds₃, h₃, hpids⟩ := Option.bind_eq_some_iff.mp hrest
    exact (writeFile_eq hpids).trans
      ((writeFileIf_eq h₃).trans ((writeFileIf_eq h₂).trans hcreate))
  · exact (Option.some.inj hlimits).symm.trans hcreate

/-- From the child on: both ends of the pipe are closed. -/
theorem Host.awaitReady_eq (h : s.awaitReady o = some (ret, s')) :
    s'.fds = (s.fds.erase s.ct.statusPipe.2).erase s.ct.statusPipe.1 ∧ s'.blocks = s.blocks ∧
      s'.children = o.afterRead s.children s.ct.initPid ∧ s'.ct.initPid = s.ct.initPid ∧
      (o.Ready → ret = 0 ∧ s'.ct.state = .running) ∧
      (¬ o.Ready → ret = -1 ∧ s'.ct.state = .failed) := by
  rw [awaitReady] at h
  obtain ⟨fds, hprocs, hread⟩ := Option.bind_eq_some_iff.mp h
  rw [writeFile_eq hprocs] at hread
  by_cases hready : o.Ready
  · simp only [if_pos hready] at hread
    obtain ⟨fds', hpid, hret⟩ := Option.bind_eq_some_iff.mp hread
    rw [writeFile_eq hpid] at hret
    cases hret
    exact ⟨rfl, rfl, rfl, rfl, fun _ => ⟨rfl, rfl⟩, fun hnot => absurd hready hnot⟩
  · simp only [if_neg hready] at hread
    cases hread
    exact ⟨rfl, rfl, rfl, rfl, fun hyes => absurd hyes hready, fun _ => ⟨rfl, rfl⟩⟩

/-- From the pipe on. -/
theorem Host.startChild_attempt {t : Host} (hstate : s.ct.state ≠ .running)
    (hpipe : o.pipe2 = some (r, w)) (hr : r ∉ s.fds) (hw : w ∉ insert r s.fds)
    (hfds : t.fds = insert w (insert r s.fds)) (hends : t.ct.statusPipe = (r, w))
    (hblocks : t.blocks = s.blocks) (hchildren : t.children = s.children)
    (h : t.startChild o = some (ret, s')) : Attempt s o ret s' := by
  rw [startChild] at h
  split at h
  · rename_i hmalloc
    cases h
    exact .noChild hstate hpipe hr hw (.inl hmalloc) hfds
  rename_i stack hmalloc
  obtain ⟨blocks, hacquire, hrest⟩ := Option.bind_eq_some_iff.mp h
  obtain ⟨hstack, rfl⟩ := acquire_eq_some hacquire
  dsimp only at hrest
  split at hrest
  · rename_i hclone
    cases hrest
    exact .noChild hstate hpipe hr hw (.inr hclone) hfds
  rename_i pid hclone
  obtain ⟨⟨pid', children⟩, hfork, hawait⟩ := Option.bind_eq_some_iff.mp hrest
  obtain ⟨hfresh, hpid, hinsert⟩ := Children.fork_eq_some hfork
  obtain ⟨hfds', hblocks', hch, hinit, hready, hnotReady⟩ := awaitReady_eq hawait
  cases hpid
  have hfresh' : s.children.Fresh pid' := hchildren ▸ hfresh
  refine .cloned hstate hpipe hr hw hmalloc hclone hfresh' ?_ ?_ ?_ hinit hready hnotReady
  · rw [hfds']
    show (t.fds.erase t.ct.statusPipe.2).erase t.ct.statusPipe.1 = s.fds
    rw [hfds, hends, Finset.erase_insert hw, Finset.erase_insert hr]
  · rw [hblocks', ← hblocks]
    exact Finset.erase_insert hstack
  · rw [hch]
    show o.afterRead children pid' = _
    rw [show children = t.children.insert pid' (some ()) hfresh from hinsert]
    congr 1
    cases t
    cases hchildren
    rfl

/-- **An attempt**, case by case. -/
theorem Host.containerStart_attempt (h : s.containerStart o = some (ret, s')) :
    Attempt s o ret s' := by
  rw [containerStart] at h
  split at h
  · rename_i hrunning
    cases h
    exact .running hrunning
  rename_i hstate
  dsimp only at h
  split at h
  · rename_i hpipe
    cases h
    exact .noPipe hstate hpipe rfl rfl rfl rfl
  rename_i r w hpipe
  obtain ⟨fds₁, h₁, hrest₁⟩ := Option.bind_eq_some_iff.mp h
  obtain ⟨hr, e₁⟩ := acquire_eq_some h₁
  obtain ⟨fds₂, h₂, hrest₂⟩ := Option.bind_eq_some_iff.mp hrest₁
  obtain ⟨hw, e₂⟩ := acquire_eq_some h₂
  obtain ⟨fds₃, h₃, hrest₃⟩ := Option.bind_eq_some_iff.mp hrest₂
  have hfds : fds₃ = insert w (insert r s.fds) := by
    rw [setupCgroup_eq h₃, e₂, e₁]
    rfl
  refine startChild_attempt hstate hpipe hr (e₁ ▸ hw) ?_ ?_ ?_ ?_ hrest₃
  · exact hfds
  · rfl
  · rfl
  · rfl

end

/-! ### What an attempt owes -/

/-- No container is alive. -/
def Host.NoChild (s : Host) : Prop := ∀ pid, ¬ s.children.Alive pid

/-- What an attempt that returns -1 leaves. -/
structure Released (s : Host) (o : Outcome) (s' : Host) : Prop where
  failed : s'.ct.state = .failed
  no_child : s'.NoChild
  pipe_closed : ∀ r w, o.pipe2 = some (r, w) → r ∉ s'.fds ∧ w ∉ s'.fds
  stack_freed : s'.blocks ⊆ s.blocks

/-- The attempt takes nothing that it leaves: it is not made, it fails at `pipe2`, or it gets as far as
the child, and that is ready or has terminated. -/
def Outcome.Safe (o : Outcome) (s : Host) : Prop :=
  s.ct.state = .running ∨ o.pipe2 = none ∨
    o.malloc ≠ none ∧ o.clone ≠ none ∧ (o.Ready ∨ o.exited ≠ none)

/-- The invariant of such attempts: the only container alive is the one that runs. -/
def Host.Kept (s : Host) : Prop :=
  ∀ pid, s.children.Alive pid → s.ct.state = .running ∧ pid = s.ct.initPid

section

variable {s s' : Host} {o : Outcome} {ret : Int} {e : StartEvent} {k : Children Unit} {pid p : Int}

/-- The new child is alive if it has not terminated, and the others as before. -/
theorem Outcome.alive_afterRead {hpid : k.Fresh pid} :
    (o.afterRead (k.insert pid (some ()) hpid) pid).Alive p ↔
      p = pid ∧ o.exited = none ∨ k.Alive p := by
  have hnot : ¬ k.Alive pid := fun ⟨c, hc, hp, _⟩ => hpid.ne hc hp
  rw [afterRead]
  cases o.exited with
  | none => simp only [Children.alive_insert, and_true]
  | some status =>
      simp only [Children.alive_exit, Children.alive_insert]
      constructor
      · rintro ⟨rfl | h, hne⟩
        · exact absurd rfl hne
        · exact .inr h
      · rintro (⟨-, h⟩ | h)
        · cases h
        · exact ⟨.inr h, fun e => hnot (e ▸ h)⟩

/-- Where `waitpid` finds no child alive, nothing more is done. -/
theorem reaped_of_not_alive {f : Children Unit → Children Unit} (h : ¬ k.Alive pid) :
    (match k.waitpid pid with
      | (.alive, k) => f k
      | (_, k) => k) = (k.waitpid pid).2 := by
  split
  · rename_i heq
    exact absurd (congrArg Prod.fst heq) (Children.waitpid_of_not_alive h).1
  · rename_i heq
    rw [heq]

/-- `container_stop` leaves no child at that pid, and brings none to life. -/
theorem alive_endChild {grace : Option WaitStatus} (h : (endChild k pid grace).Alive p) :
    k.Alive p ∧ p ≠ pid := by
  rw [endChild] at h
  by_cases halive : k.Alive pid
  · rw [Children.waitpid_of_alive halive] at h
    dsimp only at h
    -- the three seconds
    generalize hk : (match grace with
      | some status => k.exit pid status
      | none => k) = k₁ at h
    have hsub : ∀ q, k₁.Alive q → k.Alive q := by
      rintro q hq
      cases grace with
      | none =>
          obtain rfl : k = k₁ := hk
          exact hq
      | some status =>
          rw [← hk] at hq
          exact (Children.alive_exit.mp hq).1
    by_cases halive₁ : k₁.Alive pid
    · rw [Children.waitpid_of_alive halive₁] at h
      have hdead : ¬ (k₁.exit pid (.signaled sigkill)).Alive pid := fun h =>
        (Children.alive_exit.mp h).2 rfl
      obtain ⟨hq, hne⟩ := Children.alive_exit.mp ((Children.waitpid_of_not_alive hdead).2 p h)
      exact ⟨hsub p hq, hne⟩
    · rw [reaped_of_not_alive halive₁] at h
      have hq := (Children.waitpid_of_not_alive halive₁).2 p h
      exact ⟨hsub p hq, fun e => halive₁ (e ▸ hq)⟩
  · rw [reaped_of_not_alive halive] at h
    have hq := (Children.waitpid_of_not_alive halive).2 p h
    exact ⟨hq, fun e => halive (e ▸ hq)⟩

/-- A safe attempt that has its pipe gets as far as a child. -/
theorem Outcome.Safe.child {ends : Nat × Nat} (h : o.Safe s) (hstate : s.ct.state ≠ .running)
    (hpipe : o.pipe2 = some ends) :
    o.malloc ≠ none ∧ o.clone ≠ none ∧ (o.Ready ∨ o.exited ≠ none) := by
  rcases h with h | h | h
  · exact absurd h hstate
  · cases hpipe.symm.trans h
  · exact h

/-- A safe attempt keeps the invariant, and holds what was held. -/
theorem Attempt.kept (h : Attempt s o ret s') (hsafe : o.Safe s) (hkept : s.Kept) :
    s'.Kept ∧ s'.fds = s.fds ∧ s'.blocks = s.blocks := by
  cases h with
  | running => exact ⟨hkept, rfl, rfl⟩
  | noPipe hstate hpipe failed fds_eq blocks_eq children_eq =>
      refine ⟨fun pid hp => ?_, fds_eq, blocks_eq⟩
      exact absurd (hkept pid (children_eq ▸ hp)).1 hstate
  | noChild hstate hpipe hr hw hchild =>
      obtain ⟨hmalloc, hclone, -⟩ := hsafe.child hstate hpipe
      exact (hchild.elim hmalloc hclone).elim
  | cloned hstate hpipe hr hw hmalloc hclone hpid fds_eq blocks_eq children_eq pid_eq ready notReady =>
      refine ⟨fun p hp => ?_, fds_eq, blocks_eq⟩
      rw [children_eq] at hp
      rcases Outcome.alive_afterRead.mp hp with ⟨rfl, hexited⟩ | hp
      · obtain ⟨-, -, hready | h⟩ := hsafe.child hstate hpipe
        · exact ⟨(ready hready).2, pid_eq.symm⟩
        · exact absurd hexited h
      · exact absurd (hkept p hp).1 hstate

/-- Safe attempts release what they take. -/
theorem Attempt.released (h : Attempt s o (-1) s') (hsafe : o.Safe s) (hkept : s.Kept) :
    Released s o s' := by
  obtain ⟨hkept', hfds, hblocks⟩ := h.kept hsafe hkept
  have hfailed : s'.ct.state = .failed := by
    cases h with
    | noPipe _ _ failed => exact failed
    | noChild hstate hpipe hr hw hchild =>
        obtain ⟨hmalloc, hclone, -⟩ := hsafe.child hstate hpipe
        exact (hchild.elim hmalloc hclone).elim
    | cloned _ _ _ _ _ _ _ _ _ _ _ ready notReady =>
        refine (notReady fun hready => ?_).2
        exact absurd (ready hready).1 (by decide)
  refine ⟨hfailed, fun pid hp => ?_, fun r w hpipe => ?_, hblocks.subset⟩
  · exact CtState.noConfusion (hfailed.symm.trans (hkept' pid hp).1)
  · cases h with
    | noPipe _ hnone => cases hnone.symm.trans hpipe
    | noChild _ hpipe' hr hw =>
        cases hpipe'.symm.trans hpipe
        exact ⟨hfds ▸ hr, fun h => hw (Finset.mem_insert_of_mem (hfds ▸ h))⟩
    | cloned _ hpipe' hr hw =>
        cases hpipe'.symm.trans hpipe
        exact ⟨hfds ▸ hr, fun h => hw (Finset.mem_insert_of_mem (hfds ▸ h))⟩

/-- An attempt that releases what it takes is safe. -/
theorem Attempt.safe (h : Attempt s o ret s') (hreleased : ret = -1 → Released s o s') :
    o.Safe s := by
  cases h with
  | running hstate => exact .inl hstate
  | noPipe _ hpipe => exact .inr (.inl hpipe)
  | noChild _ hpipe _ _ _ fds_eq =>
      refine absurd ?_ ((hreleased rfl).pipe_closed _ _ hpipe).2
      rw [fds_eq]
      exact Finset.mem_insert_self _ _
  | cloned _ _ _ _ hmalloc hclone _ _ _ children_eq pid_eq _ notReady =>
      refine .inr (.inr ⟨?_, ?_, ?_⟩)
      · rw [hmalloc]
        exact Option.some_ne_none _
      · rw [hclone]
        exact Option.some_ne_none _
      · by_contra hnot
        rw [not_or, not_not] at hnot
        refine (hreleased (notReady hnot.1).1).no_child s'.ct.initPid ?_
        rw [children_eq, pid_eq]
        exact Outcome.alive_afterRead.mpr (.inl ⟨rfl, hnot.2⟩)

/-- Every step with a safe attempt keeps the invariant and the descriptors. -/
theorem Host.Step.kept (hs : s.Step e s') (hsafe : ∀ o, e = .start o → o.Safe s) (hkept : s.Kept) :
    s'.Kept ∧ s'.fds = s.fds := by
  cases e with
  | start o =>
      obtain ⟨⟨ret, t⟩, hstart, rfl⟩ := Option.map_eq_some_iff.mp hs
      obtain ⟨hkept', hfds, -⟩ := (containerStart_attempt hstart).kept (hsafe o rfl) hkept
      exact ⟨hkept', hfds⟩
  | stop grace =>
      cases hs
      rw [containerStop]
      split
      · exact ⟨hkept, rfl⟩
      · refine ⟨fun pid hp => ?_, rfl⟩
        obtain ⟨halive, hne⟩ := alive_endChild hp
        exact absurd (hkept pid halive).2 hne
  | exit pid status =>
      cases hs
      exact ⟨fun p hp => hkept p (Children.alive_exit.mp hp).1, rfl⟩

end

/-- A stopped container. -/
structure Host.Stopped (s : Host) : Prop where
  state_eq : s.ct.state = .stopped
  no_child : s.NoChild

/-- **What failed attempts release.**  In a run from a stopped container each attempt that returns -1
leaves nothing behind, and the descriptors stay as many as they were, exactly when each attempt that is
made fails at `pipe2`, or gets as far as a child that is ready or has terminated. -/
theorem start_releases_iff {s₀ : Host} (h₀ : s₀.Stopped) (es : List StartEvent) :
    ((∀ s o s', Takes Host.Step s₀ es s (.start o) s' → s.containerStart o = some (-1, s') →
        Released s o s') ∧
      ∀ s, Passes Host.Step s₀ es s → s.fds.card = s₀.fds.card) ↔
      ∀ s o s', Takes Host.Step s₀ es s (.start o) s' → o.Safe s := by
  constructor
  · rintro ⟨hreleased, -⟩ s o s' htake
    obtain ⟨⟨ret, t⟩, hstart, ht⟩ := Option.map_eq_some_iff.mp htake.rel
    cases ht
    refine (Host.containerStart_attempt hstart).safe fun hret => ?_
    subst hret
    exact hreleased s o t htake hstart
  · intro hsafe
    have hkept : ∀ s, Passes Host.Step s₀ es s → s.Kept ∧ s.fds = s₀.fds := fun s hpass => by
      refine hpass.induction (P := fun s => s.Kept ∧ s.fds = s₀.fds) ?_ ?_
      · exact ⟨fun pid hp => absurd hp (h₀.no_child pid), rfl⟩
      · rintro s₁ e s₂ htake ⟨hkept, hfds⟩
        obtain ⟨hkept', hfds'⟩ := htake.rel.kept (fun o he => hsafe s₁ o s₂ (he ▸ htake)) hkept
        exact ⟨hkept', hfds'.trans hfds⟩
    refine ⟨fun s o s' htake hstart => ?_, fun s hpass => congrArg Finset.card (hkept s hpass).2⟩
    exact (Host.containerStart_attempt hstart).released (hsafe s o s' htake)
      (hkept s htake.source).1

/-- A process with its three standard descriptors. -/
def standard : Host where
  fds := {0, 1, 2}

theorem standard_stopped : standard.Stopped :=
  ⟨rfl, fun _ ⟨_, hc, _⟩ => nomatch hc⟩

/-- There is no memory for the stack. -/
def noMemory : Outcome where
  pipe2 := some (3, 4)
  mkdirp := true
  opened := fun _ => some 5
  malloc := none
  clone := none
  buf := []
  exited := none

theorem start_releases_noMemory :
    ((∀ s o s', Takes Host.Step standard [.start noMemory] s (.start o) s' →
        s.containerStart o = some (-1, s') → Released s o s') ∧
      ∀ s, Passes Host.Step standard [.start noMemory] s → s.fds.card = standard.fds.card) ↔
      ∀ s o s', Takes Host.Step standard [.start noMemory] s (.start o) s' → o.Safe s :=
  start_releases_iff standard_stopped [.start noMemory]

/-- The pipe stays open when there is no memory for the stack. -/
theorem start_leaks : ¬ ∀ (s₀ : Host) (es : List StartEvent), s₀.Stopped →
    (∀ s o s', Takes Host.Step s₀ es s (.start o) s' → s.containerStart o = some (-1, s') →
        Released s o s') ∧
      ∀ s, Passes Host.Step s₀ es s → s.fds.card = s₀.fds.card := by
  intro h
  let leaked : Host := { standard with
    ct := { state := .failed, statusPipe := (3, 4) }
    fds := insert 4 (insert 3 {0, 1, 2}) }
  have hstart : standard.containerStart noMemory = some (-1, leaked) := by rfl
  have htake : Takes Host.Step standard [.start noMemory] standard (.start noMemory) leaked :=
    ⟨[], [], rfl, .nil _, by rw [Host.Step, Host.step, hstart]; rfl⟩
  have hreleased := (h standard [.start noMemory] standard_stopped).1 _ _ _ htake hstart
  exact (hreleased.pipe_closed 3 4 rfl).1 (by decide)

end LumiOS.Container
