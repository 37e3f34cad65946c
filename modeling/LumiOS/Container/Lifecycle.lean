import LumiOS.Support.Children
import LumiOS.Support.Runs

/-!
# Container — Lifecycle

`container.c` and the commands of its `main.c`, statement by statement as far as the container's state
and the PID file go.  A `Manager` is a `start` command, with the place where it is; several may run at
once, `SIGTERM` may reach each of them anywhere, and a container may end at any time.

The PID file is written at the end of `container_start` and removed at the end of `container_stop`,
which only the signal handler calls.  So as long as every manager that is to leave it goes through the
handler, none of them leaves it behind (`pidFile_removed`).
-/

namespace LumiOS.Container

open Support

/-! ### Managers -/

inductive CtState where
  | stopped
  | starting
  | running
  | stopping
  | failed
deriving DecidableEq, Repr

/-- `g_container`, as far as its life cycle goes. -/
structure Ct where
  state : CtState := .stopped
  initPid : Int := 0
deriving DecidableEq, Repr

/-- What a `start` command does next. -/
inductive Place where
  /-- `main` before its `access`. -/
  | access
  | containerInit
  /-- `container_start`, up to its first assignment, and before the calls it makes. -/
  | containerStart
  | pipe2
  | malloc
  | clone
  | cloned (pid : Int)
  | read
  | openPidFile
  /-- `container_wait`, before and after `waitpid`. -/
  | containerWait
  | waited (status : WaitStatus)
  /-- `main`, with the value to return. -/
  | leaving (ret : Int)
  /-- `container_stop` in the signal handler, once it has sent `SIGTERM`, and before its `unlink`. -/
  | containerStop
  | unlink
  | returned (ret : Int)
deriving DecidableEq, Repr

structure Manager where
  ct : Ct := {}
  place : Place := .access
  /-- The process it cloned, with its status once it has terminated; nothing once it is reaped. -/
  child : Option (Int × Option WaitStatus) := none
deriving DecidableEq, Repr

/-- The PID file, with the number in it; nothing where there is no such file. -/
abbrev PidFile := Option (Option Int)

/-- What the kernel answers to the call a manager makes. -/
structure Answer where
  ok : Bool
  /-- The pid `clone` returns. -/
  pid : Int
  /-- The write to the PID file succeeds. -/
  written : Bool
  /-- A `status` no `waitpid` assigned. -/
  junk : WaitStatus

/-- What `container_wait` returns for a status. -/
def waitResult : WaitStatus → Int
  | .exited code => code.toNat
  | .signaled _ => -1

namespace Manager

def withState (m : Manager) (state : CtState) : Manager := { m with ct := { m.ct with state := state } }

def goto (m : Manager) (place : Place) : Manager := { m with place := place }

/-- `container_start` returns -1, and `main` 1. -/
def fail (m : Manager) : Manager := (m.withState .failed).goto (.returned 1)

/-- What a manager does next, if it does not block; `fresh` are the pids the kernel may give out. -/
def next (a : Answer) (fresh : Int → Bool) (file : PidFile) (m : Manager) : Option (PidFile × Manager) :=
  match m.place with
  | .access => some (file, m.goto (if file = none then .containerInit else .returned 1))
  | .containerInit => some (file, { m with ct := ⟨.stopped, -1⟩, place := .containerStart })
  | .containerStart =>
    if m.ct.state = .running then some (file, m.goto .containerWait)
    else some (file, (m.withState .starting).goto .pipe2)
  | .pipe2 => some (file, if a.ok then m.goto .malloc else m.fail)
  | .malloc => some (file, if a.ok then m.goto .clone else m.fail)
  | .clone =>
    if a.ok = false then some (file, m.fail)
    else if 0 < a.pid ∧ fresh a.pid then
      some (file, { m with place := .cloned a.pid, child := some (a.pid, none) })
    else none
  | .cloned pid => some (file, { m with ct := { m.ct with initPid := pid }, place := .read })
  | .read => some (file, if a.ok then (m.withState .running).goto .openPidFile else m.fail)
  | .openPidFile =>
    some (if a.ok then some (if a.written then some m.ct.initPid else none) else file,
      m.goto .containerWait)
  | .containerWait =>
    if m.ct.initPid ≤ 0 then some (file, m.goto (.leaving 0))
    else
      match m.child with
      | some (_, none) => none
      | some (_, some status) => some (file, { m with place := .waited status, child := none })
      | none => some (file, m.goto (.waited a.junk))
  | .waited status =>
    some (file, { m with ct := ⟨.stopped, -1⟩, place := .leaving (waitResult status) })
  | .leaving ret => some (file, m.goto (.returned ret))
  -- the child is reaped, if it has not been: at once, after the three seconds, or after `SIGKILL`
  | .containerStop => some (file, { ct := ⟨.stopped, -1⟩, place := .unlink, child := none })
  | .unlink => some (if a.ok then none else file, m.goto (.returned 0))
  | .returned _ => none

/-- `SIGTERM` reaches the manager, if it is not handling one: the handler calls `container_stop`, and
then `exit(0)`. -/
def sigterm (m : Manager) : Option Manager :=
  match m.place with
  | .containerStop | .unlink | .returned _ => none
  | _ =>
    if m.ct.state ≠ .running ∨ m.ct.initPid ≤ 0 then some (m.goto (.returned 0))
    else some ((m.withState .stopping).goto .containerStop)

/-- The container's init process terminates. -/
def childExit (m : Manager) (pid : Int) (status : WaitStatus) : Manager :=
  if m.child = some (pid, none) then { m with child := some (pid, some status) } else m

/-- The pid is that of its container, which is alive or still to be reaped by the manager. -/
def holds (m : Manager) (pid : Int) : Bool :=
  match m.child, m.place with
  | some (_, some _), .returned _ => false
  | some (child, _), _ => child = pid
  | none, _ => false

end Manager

/-! ### Runs of the commands -/

/-- The PID file, and the `start` commands so far. -/
structure Android where
  pidFile : PidFile := none
  managers : List Manager := []

/-- The process the `stop` command sends `SIGTERM`. -/
def stopTarget : PidFile → Option Int
  | some (some pid) => if 0 < pid then some pid else none
  | _ => none

inductive CtEvent where
  /-- A `start` command begins. -/
  | start
  /-- A `stop` command, and how the container it signals terminates, if it does. -/
  | stop (status : Option WaitStatus)
  | next (i : Nat) (a : Answer)
  | sigterm (i : Nat)
  | exit (pid : Int) (status : WaitStatus)

namespace Android

/-- No container has the pid. -/
def fresh (w : Android) (pid : Int) : Bool := w.managers.all fun m => !m.holds pid

def childExit (w : Android) (pid : Int) (status : WaitStatus) : Android :=
  { w with managers := w.managers.map (·.childExit pid status) }

def step (w : Android) : CtEvent → Option Android
  | .start => some { w with managers := w.managers ++ [{}] }
  | .stop status =>
    match stopTarget w.pidFile, status with
    | some pid, some status => some (w.childExit pid status)
    | _, _ => some w
  | .next i a =>
    match w.managers[i]? with
    | none => none
    | some m =>
      (m.next a w.fresh w.pidFile).map fun r =>
        { pidFile := r.1, managers := w.managers.set i r.2 }
  | .sigterm i =>
    match w.managers[i]? with
    | none => none
    | some m => m.sigterm.map fun m => { w with managers := w.managers.set i m }
  | .exit pid status => some (w.childExit pid status)

def Step (w : Android) (e : CtEvent) (w' : Android) : Prop := w.step e = some w'

/-- Events in turn. -/
def exec : List CtEvent → Android → Option Android
  | [], w => some w
  | e :: es, w => (w.step e).bind (exec es)

theorem run_of_exec {w w' : Android} {es : List CtEvent} (h : exec es w = some w') :
    Run Step w es w' := by
  induction es generalizing w with
  | nil => cases h; exact .nil _
  | cons e es ih =>
      obtain ⟨w₁, h₁, h₂⟩ := Option.bind_eq_some_iff.mp h
      exact .cons h₁ (ih h₂)

/-- Every manager has returned, and no container is alive. -/
def Ended (w : Android) : Prop :=
  ∀ m ∈ w.managers, (∃ ret, m.place = .returned ret) ∧ ∀ pid, m.child ≠ some (pid, none)

end Android

/-- The event leaves the PID file to be removed: while it exists, no manager gets from its `waitpid`
to `CT_STOPPED`, and no `unlink` fails. -/
def CtEvent.CleansUp (w : Android) : CtEvent → Prop
  | .next i a => ∀ m, w.managers[i]? = some m → w.pidFile ≠ none →
      (∀ status, m.place ≠ .waited status) ∧ (m.place = .unlink → a.ok = true)
  | _ => True

/-! ### Who removes the file -/

/-- The manager has got past the write of the PID file, and has not removed it. -/
def Manager.Owns (m : Manager) : Prop :=
  m.place = .containerWait ∨ (∃ status, m.place = .waited status) ∨ m.place = .containerStop ∨
    m.place = .unlink

/-- What is known of `container_t`, by the place of its manager: one that has written the PID file, or
is about to, goes through `container_stop` on `SIGTERM`. -/
def Manager.Ok (m : Manager) : Prop :=
  match m.place with
  | .containerStart => m.ct.state = .stopped
  | .cloned pid => 0 < pid
  | .read => 0 < m.ct.initPid
  | .openPidFile | .containerWait | .waited _ => m.ct.state = .running ∧ 0 < m.ct.initPid
  | _ => True

section

variable {w w' : Android} {e : CtEvent} {m m' : Manager} {a : Answer} {fresh : Int → Bool}
  {file file' : PidFile}

/-- `waitpid` returns in `container_wait`. -/
theorem Manager.next_wait (hplace : m.place = .containerWait) (hpid : 0 < m.ct.initPid)
    (h : m.next a fresh file = some (file', m')) :
    file' = file ∧ ∃ status, m' = { m with place := .waited status, child := none } := by
  obtain ⟨ct, place, child⟩ := m
  obtain rfl : place = .containerWait := hplace
  have hpos : ¬ ct.initPid ≤ 0 := Int.not_le.mpr hpid
  cases child with
  | none =>
      simp only [Manager.next, if_neg hpos] at h
      cases h
      exact ⟨rfl, _, rfl⟩
  | some c =>
      obtain ⟨pid, status⟩ := c
      cases status with
      | none =>
          simp only [Manager.next, if_neg hpos] at h
          cases h
      | some status =>
          simp only [Manager.next, if_neg hpos] at h
          cases h
          exact ⟨rfl, status, rfl⟩

/-- A statement of a manager keeps what is known of it. -/
theorem Manager.Ok.next (hok : m.Ok) (h : m.next a fresh file = some (file', m')) : m'.Ok := by
  obtain ⟨ct, place, child⟩ := m
  cases place with
  | access =>
      cases h
      cases file <;> trivial
  | containerInit =>
      cases h
      rfl
  | containerStart =>
      have hstopped : ct.state = .stopped := hok
      have hne : ct.state ≠ .running := fun e => CtState.noConfusion (hstopped.symm.trans e)
      rw [Manager.next, if_neg hne] at h
      cases h
      trivial
  | pipe2 | malloc =>
      cases h
      cases a.ok <;> trivial
  | clone =>
      simp only [Manager.next] at h
      split at h
      · cases h
        trivial
      · split at h
        · rename_i hfresh
          cases h
          exact hfresh.1
        · cases h
  | cloned pid =>
      cases h
      exact hok
  | read =>
      cases h
      cases a.ok with
      | true => exact ⟨rfl, hok⟩
      | false => trivial
  | openPidFile =>
      cases h
      exact hok
  | containerWait =>
      have hrunning : ct.state = .running ∧ 0 < ct.initPid := hok
      obtain ⟨-, status, rfl⟩ := Manager.next_wait rfl hrunning.2 h
      exact hrunning
  | waited _ | leaving _ | containerStop | unlink =>
      cases h
      trivial
  | returned _ => cases h

/-- It writes the PID file only where it has it to remove then. -/
theorem Manager.next_file (h : m.next a fresh file = some (file', m')) :
    file' = file ∨ file' = none ∨ m'.Owns := by
  obtain ⟨ct, place, child⟩ := m
  cases place with
  | openPidFile =>
      cases h
      exact .inr (.inr (.inl rfl))
  | unlink =>
      cases h
      cases a.ok with
      | true => exact .inr (.inl rfl)
      | false => exact .inl rfl
  | access | containerInit | pipe2 | malloc | cloned _ | read | waited _ | leaving _ | containerStop =>
      cases h
      exact .inl rfl
  | containerStart | clone | containerWait =>
      simp only [Manager.next] at h
      repeat' split at h
      all_goals cases h
      all_goals exact .inl rfl
  | returned _ => cases h

/-- It has the file to remove until the file is gone, it goes on from `waitpid`, or `unlink` fails. -/
theorem Manager.Owns.next (howns : m.Owns) (hok : m.Ok) (h : m.next a fresh file = some (file', m')) :
    m'.Owns ∨ file' = none ∨ (∃ status, m.place = .waited status) ∨
      m.place = .unlink ∧ a.ok = false := by
  obtain ⟨ct, place, child⟩ := m
  rcases howns with rfl | ⟨status, rfl⟩ | rfl | rfl
  · have hrunning : ct.state = .running ∧ 0 < ct.initPid := hok
    obtain ⟨-, status, rfl⟩ := Manager.next_wait rfl hrunning.2 h
    exact .inl (.inr (.inl ⟨status, rfl⟩))
  · exact .inr (.inr (.inl ⟨status, rfl⟩))
  · cases h
    exact .inl (.inr (.inr (.inr rfl)))
  · cases h
    cases hunlink : a.ok with
    | true => exact .inr (.inl rfl)
    | false => exact .inr (.inr (.inr ⟨rfl, rfl⟩))

/-- `SIGTERM` takes a manager that has the file to remove to `container_stop`. -/
theorem Manager.sigterm_owns (hok : m.Ok) (h : m.sigterm = some m') : m'.Ok ∧ (m.Owns → m'.Owns) := by
  have hcases : (m' = m.goto (.returned 0) ∧ (m.ct.state ≠ .running ∨ m.ct.initPid ≤ 0)) ∨
      m' = (m.withState .stopping).goto .containerStop := by
    simp only [Manager.sigterm] at h
    split at h
    · cases h
    · cases h
    · cases h
    · split at h
      · rename_i hc
        exact .inl ⟨(Option.some.inj h).symm, hc⟩
      · exact .inr (Option.some.inj h).symm
  rcases hcases with ⟨rfl, hc⟩ | rfl
  · refine ⟨trivial, fun howns => ?_⟩
    have hrunning : m.ct.state = .running ∧ 0 < m.ct.initPid := by
      obtain ⟨ct, place, child⟩ := m
      rcases howns with rfl | ⟨status, rfl⟩ | rfl | rfl
      · exact hok
      · exact hok
      · cases h
      · cases h
    exact (hc.elim (absurd hrunning.1) fun hle => absurd hrunning.2 (Int.not_lt.mpr hle))
  · exact ⟨trivial, fun _ => .inr (.inr (.inl rfl))⟩

/-- The invariant of a run: the PID file is there only while some manager has it to remove. -/
structure Android.Kept (w : Android) : Prop where
  ok : ∀ m ∈ w.managers, m.Ok
  owned : w.pidFile ≠ none → ∃ (i : Nat) (m : Manager), w.managers[i]? = some m ∧ m.Owns

/-- A change of one manager, that may leave the file to the others, or to it. -/
theorem Android.Kept.set (h : w.Kept) {i : Nat} (hi : w.managers[i]? = some m) (hok : m'.Ok)
    (hfile : file' ≠ none → m'.Owns ∨ w.pidFile ≠ none ∧ ¬ m.Owns) :
    Android.Kept ⟨file', w.managers.set i m'⟩ := by
  obtain ⟨hlt, -⟩ := List.getElem?_eq_some_iff.mp hi
  refine ⟨fun m₁ hm => ?_, fun hne => ?_⟩
  · rcases List.mem_or_eq_of_mem_set hm with hm | rfl
    · exact h.ok m₁ hm
    · exact hok
  · rcases hfile hne with howns | ⟨hold, hno⟩
    · exact ⟨i, m', List.getElem?_set_self hlt, howns⟩
    · obtain ⟨j, m₁, hj, howns⟩ := h.owned hold
      have hij : i ≠ j := by
        rintro rfl
        obtain rfl := Option.some.inj (hi.symm.trans hj)
        exact hno howns
      exact ⟨j, m₁, by rw [List.getElem?_set_ne hij, hj], howns⟩

theorem Manager.childExit_eq (m : Manager) (pid : Int) (status : WaitStatus) :
    (m.childExit pid status).place = m.place ∧ (m.childExit pid status).ct = m.ct := by
  rw [Manager.childExit]
  split <;> exact ⟨rfl, rfl⟩

/-- A container that ends changes nothing for the file. -/
theorem Android.Kept.childExit (h : w.Kept) (pid : Int) (status : WaitStatus) :
    (w.childExit pid status).Kept := by
  have hok : ∀ m : Manager, m.Ok → (m.childExit pid status).Ok := by
    intro m hm
    obtain ⟨hplace, hct⟩ := m.childExit_eq pid status
    rw [Manager.Ok, hplace, hct]
    exact hm
  have howns : ∀ m : Manager, m.Owns → (m.childExit pid status).Owns := by
    intro m hm
    rw [Manager.Owns, (m.childExit_eq pid status).1]
    exact hm
  refine ⟨fun m hm => ?_, fun hne => ?_⟩
  · obtain ⟨m₁, hm₁, rfl⟩ := List.mem_map.mp hm
    exact hok m₁ (h.ok m₁ hm₁)
  · obtain ⟨i, m, hi, hm⟩ := h.owned hne
    exact ⟨i, _, by rw [Android.childExit, List.getElem?_map, hi]; rfl, howns m hm⟩

/-- **An event that leaves the file to be removed** keeps the invariant. -/
theorem Android.Step.kept (hs : w.Step e w') (hclean : e.CleansUp w) (h : w.Kept) : w'.Kept := by
  cases e with
  | start =>
      cases hs
      refine ⟨fun m hm => ?_, fun hne => ?_⟩
      · rcases List.mem_append.mp hm with hm | hm
        · exact h.ok m hm
        · obtain rfl := List.mem_singleton.mp hm
          trivial
      · obtain ⟨i, m, hi, howns⟩ := h.owned hne
        have hlt := (List.getElem?_eq_some_iff.mp hi).1
        exact ⟨i, m, by rw [List.getElem?_append_left hlt, hi], howns⟩
  | stop status =>
      simp only [Android.Step, Android.step] at hs
      split at hs
      · cases hs
        exact h.childExit _ _
      · cases hs
        exact h
  | next i a =>
      simp only [Android.Step, Android.step] at hs
      split at hs
      · cases hs
      · rename_i m hi
        obtain ⟨⟨file', m'⟩, hnext, rfl⟩ := Option.map_eq_some_iff.mp hs
        have hok := h.ok m (List.mem_of_getElem? hi)
        refine h.set hi (hok.next hnext) fun hne => ?_
        by_cases howns : m'.Owns
        · exact .inl howns
        have hsame : file' = w.pidFile :=
          (Manager.next_file hnext).resolve_right fun hor => hor.elim hne howns
        rw [hsame] at hne
        -- the manager had nothing to remove, or it would have removed it
        refine .inr ⟨hne, fun hm => ?_⟩
        obtain ⟨hwaited, hunlink⟩ := hclean m hi hne
        rcases hm.next hok hnext with hm' | hnone | ⟨status, hplace⟩ | ⟨hplace, hfail⟩
        · exact howns hm'
        · exact hne (hsame.symm.trans hnone)
        · exact hwaited status hplace
        · exact Bool.noConfusion (hfail.symm.trans (hunlink hplace))
  | sigterm i =>
      simp only [Android.Step, Android.step] at hs
      split at hs
      · cases hs
      · rename_i m hi
        obtain ⟨m', hterm, rfl⟩ := Option.map_eq_some_iff.mp hs
        obtain ⟨hok, howns⟩ := Manager.sigterm_owns (h.ok m (List.mem_of_getElem? hi)) hterm
        refine h.set hi hok fun hne => ?_
        by_cases hm : m.Owns
        · exact .inl (howns hm)
        · exact .inr ⟨hne, hm⟩
  | exit pid status =>
      cases hs
      exact h.childExit pid status

/-- **No stale PID file.**  In a run in which no manager gets from its `waitpid` to `CT_STOPPED` while
the PID file exists, and no `unlink` of it fails, the file is gone whenever every manager has returned
and no container is alive; and the next `start` is not refused. -/
theorem pidFile_removed {es : List CtEvent}
    (hrun : Run (fun w e w' => e.CleansUp w ∧ w.Step e w') {} es w) (hended : w.Ended) :
    w.pidFile = none ∧
      ∀ a : Answer, (Manager.next a w.fresh w.pidFile {}).map (·.2.place) = some .containerInit := by
  have hkept : w.Kept := hrun.invariant (fun _ _ _ h hs => hs.2.kept hs.1 h)
    ⟨fun m hm => absurd hm List.not_mem_nil, fun hne => absurd rfl hne⟩
  have hnone : w.pidFile = none := by
    by_contra hne
    obtain ⟨i, m, hi, howns⟩ := hkept.owned hne
    obtain ⟨⟨ret, hret⟩, -⟩ := hended m (List.mem_of_getElem? hi)
    rcases howns with hm | ⟨status, hm⟩ | hm | hm <;> exact Place.noConfusion (hret.symm.trans hm)
  refine ⟨hnone, fun a => ?_⟩
  rw [hnone]
  rfl

end

/-! ### The ends of a container -/

def Answer.good : Answer := ⟨true, 100, true, .exited 0⟩

/-- A `start` command up to its `waitpid`, with container 100. -/
def startUp : List CtEvent := .start :: List.replicate 9 (.next 0 .good)

/-- The command then. -/
def waiting : Android := ⟨some (some 100), [⟨⟨.running, 100⟩, .containerWait, some (100, none)⟩]⟩

theorem startUp_run : Run (fun w e w' => e.CleansUp w ∧ w.Step e w') {} startUp waiting := by
  have hnone : ∀ {w : Android} {e : CtEvent}, w.pidFile = none → e.CleansUp w := by
    intro w e h
    cases e with
    | next i a => exact fun _ _ hne => absurd h hne
    | start | stop _ | sigterm _ | exit _ _ => trivial
  exact .cons ⟨hnone rfl, rfl⟩ <| .cons ⟨hnone rfl, rfl⟩ <| .cons ⟨hnone rfl, rfl⟩ <|
    .cons ⟨hnone rfl, rfl⟩ <| .cons ⟨hnone rfl, rfl⟩ <| .cons ⟨hnone rfl, rfl⟩ <|
    .cons ⟨hnone rfl, rfl⟩ <| .cons ⟨hnone rfl, rfl⟩ <| .cons ⟨hnone rfl, rfl⟩ <|
    .cons ⟨hnone rfl, rfl⟩ (.nil _)

/-- A manager that returned with this value, and whose container was reaped. -/
def ended (file : PidFile) : Android := ⟨file, [⟨⟨.stopped, -1⟩, .returned 0, none⟩]⟩

theorem ended_ended (file : PidFile) : (ended file).Ended := by
  intro m hm
  obtain rfl := List.mem_singleton.mp hm
  refine ⟨⟨0, rfl⟩, fun pid h => ?_⟩
  cases h

/-- `SIGTERM` ends a manager that waits, and no file is left. -/
theorem pidFile_removed_sigterm : (ended none).pidFile = none := by
  have hrun : Run (fun w e w' => e.CleansUp w ∧ w.Step e w') waiting
      [.sigterm 0, .next 0 .good, .next 0 .good] (ended none) := by
    refine .cons ⟨trivial, rfl⟩ (.cons ⟨?_, rfl⟩ (.cons ⟨?_, rfl⟩ (.nil _)))
    · rintro m hm -
      obtain rfl := Option.some.inj hm
      exact ⟨fun _ => Place.noConfusion, Place.noConfusion⟩
    · rintro m hm -
      obtain rfl := Option.some.inj hm
      exact ⟨fun _ => Place.noConfusion, fun _ => rfl⟩
  exact (pidFile_removed (startUp_run.append hrun) (ended_ended none)).1

/-- A container that exits leaves its PID file, and the next `start` is refused. -/
theorem pidFile_stale :
    ¬ ∀ (es : List CtEvent) (w : Android), Run Android.Step {} es w → w.Ended →
      w.pidFile = none ∧
        ∀ a : Answer, (Manager.next a w.fresh w.pidFile {}).map (·.2.place) = some .containerInit := by
  intro h
  have hrun : Run Android.Step {}
      (startUp ++ [.exit 100 (.exited 0), .next 0 .good, .next 0 .good, .next 0 .good])
      (ended (some (some 100))) :=
    (startUp_run.mono fun _ _ _ h => h.2).append (Android.run_of_exec rfl)
  exact absurd (h _ _ hrun (ended_ended _)).1 (by decide)

end LumiOS.Container
