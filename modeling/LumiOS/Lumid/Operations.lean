import LumiOS.Lumid.Refine

/-!
# Lumid — Operations

An induction rule for what the moves of `Moves.lean` are too coarse for.  A move does not say what
`service_start` checked before its fork, nor when in an operation an action is taken; here a property
of the state and its trace is followed through the code, one operation at a time.  What the operations
keep, every event keeps (`Kept.step`); a load is left to the property, since it alone changes what is
registered.

A property is given by what it looks at.  It looks at the registry and at the trace, and in the trace
not at the actions that neither begin nor end a process (`QuietKept`): so the clock, the limits and the
statuses of children do not matter to it, and neither do requests that only ask.  What is left to prove of
it are five operations: a flag of `ENABLE` and `DISABLE`, the mark of a restart, a start, a stop, and the
status of one child (`Kept`).
-/

namespace LumiOS.Lumid

open Support

/-- The actions that neither begin nor end the life of a service's process, nor send it a signal. -/
def Action.Quiet : Action → Prop
  | .fork _ _ | .reap _ _ | .cgroupRemove _ | .kill _ _ => False
  | _ => True

/-- `I` looks at the registry and the trace only, and not at quiet actions. -/
structure QuietKept (I : Sys → Prop) : Prop where
  same : ∀ {s s' : Sys}, s'.services = s.services → s'.trace = s.trace → I s → I s'
  note : ∀ {s : Sys} {a : Action}, a.Quiet → I s → I (s.emit a)

/-- Every operation of the code keeps `I`. -/
structure Kept (I : Sys → Prop) : Prop extends QuietKept I where
  admin : ∀ {s : Sys} {n : Name} {b : Bool}, I s → I (s.upd n ({ · with enabled := b }))
  mark : ∀ {s : Sys} {n : Name}, I s → I (s.upd n ({ · with state := .restarting }))
  start : ∀ {s : Sys} (env : Env) (n : Name), I s → I (serviceStart env s n).2
  stop : ∀ {s : Sys} (env : Env) (n : Name), I s → I (serviceStop env s n).2
  reap : ∀ {s : Sys} (env : Env) (report : Int × WaitStatus), I s → I (reapOne env s report)

section

variable {I : Sys → Prop} {s s' : Sys} {env : Env} {n : Name} {pid : Int}

/-! ### Parts of the operations -/

/-- The children are not looked at. -/
theorem QuietKept.withChildren (K : QuietKept I) (k : Children Name) (h : I s) :
    I (s.withChildren k) := K.same (s := s) rfl rfl h

/-- The clock is not looked at. -/
theorem QuietKept.readClock (K : QuietKept I) (t : UInt64) (h : I s) : I (s.readClock t) :=
  K.same (s := s) rfl rfl h

/-- The start order is not looked at. -/
theorem QuietKept.resolve (K : QuietKept I) (h : I s) : I s.resolve.2 := by
  have h' : I { s with startOrder := (serviceResolveDeps s.services.list).2 } := K.same (s := s) rfl rfl h
  exact h'

/-- The limits of a process are a quiet action. -/
theorem QuietKept.limited (K : QuietKept I) (cfg : ServiceConfig) (h : I s) :
    I (s.limited cfg pid) := by
  simp only [Sys.limited]
  split
  · exact K.note trivial h
  · exact h

/-- The signals of a stop are the caller's to account for. -/
theorem QuietKept.terminate (K : QuietKept I)
    (hkill : 0 < pid → ∀ s sig, I s → I (s.emit (.kill pid sig))) (h : I s) :
    I (terminate env s n pid) := by
  have hk : I (if 0 < pid then s.emit (.kill pid sigTerm) else s) := by
    split
    · rename_i hpos
      exact hkill hpos s sigTerm h
    · exact h
  have hu := K.note (a := .usleep 500000) trivial hk
  simp only [LumiOS.Lumid.terminate]
  cases env.grace n with
  | none => exact hu
  | some st => exact K.withChildren _ hu

/-- A `waitpid` is a quiet action, whatever it collects. -/
theorem QuietKept.waitpid (K : QuietKept I) (h : I s) : I (s.waitpid pid).2 :=
  K.note (a := .waitpid pid _) trivial (K.withChildren _ h)

/-- The two `waitpid` calls of a stop, the second after a `SIGKILL`. -/
theorem QuietKept.collect (K : QuietKept I) (hkill : ∀ s sig, I s → I (s.emit (.kill pid sig)))
    (h : I s) : I (collect env s n pid).2 := by
  have hw : I (s.waitpid pid).2 := K.waitpid h
  have hk : I ((((s.waitpid pid).2.emit (.kill pid sigKill)).childExit pid
      (env.killed n)).waitpid pid).2 :=
    K.waitpid (K.withChildren _ (hkill _ sigKill hw))
  simp only [LumiOS.Lumid.collect]
  generalize s.waitpid pid = r at hw hk
  rcases r with ⟨_ | _ | st, s₁⟩
  · exact hw
  · simp only at hk ⊢
    generalize ((s₁.emit (.kill pid sigKill)).childExit pid (env.killed n)).waitpid pid = r₂ at hk
    rcases r₂ with ⟨_ | _ | st, s₂⟩ <;> exact hk
  · exact hw

/-! ### Loops -/

/-- The starts of a boot. -/
theorem Kept.startAllLoop (K : Kept I) : ∀ (ns : List Name) (failed : Nat) {s : Sys}, I s →
    I (startAllLoop env ns failed s).2
  | [], _, _, h => h
  | n :: ns, failed, s, h => by
      simp only [LumiOS.Lumid.startAllLoop]
      cases s.services.find n with
      | none => exact K.startAllLoop ns failed h
      | some svc =>
          simp only
          split
          · exact K.startAllLoop ns _ (K.start env n (K.note (a := .operatorStart n) trivial h))
          · exact K.startAllLoop ns failed h

/-- One service of the supervisor's pass. -/
theorem Kept.checkOne (K : Kept I) (now : UInt64) (n : Name) (h : I s) : I (checkOne env now s n) := by
  simp only [LumiOS.Lumid.checkOne]
  cases hn : s.services.find n with
  | none => exact h
  | some svc =>
      have hst : I (serviceStart env (s.emit (.autoStart n)) n).2 :=
        K.start env n (K.note (a := .autoStart n) trivial h)
      simp only
      split
      · split
        · rename_i hneg
          rw [serviceStart_failed (s := s.emit (.autoStart n)) hn hneg]
          exact hst
        · exact hst
      · exact h

/-- The supervisor's pass. -/
theorem Kept.checkLoop (K : Kept I) (now : UInt64) : ∀ (ns : List Name) {s : Sys}, I s →
    I (checkLoop env now ns s)
  | [], _, h => h
  | n :: ns, _, h => K.checkLoop now ns (K.checkOne now n h)

/-- The statuses of the children, one after the other. -/
theorem Kept.sigchld (K : Kept I) : ∀ (reports : List (Int × WaitStatus)) {s : Sys}, I s →
    I (supervisorHandleSigchld env reports s)
  | [], _, h => h
  | r :: reports, _, h => K.sigchld reports (K.reap env r h)

/-- A restart is a mark and a start: its stop does nothing. -/
theorem Kept.restart (K : Kept I) (h : I s) : I (serviceRestart env s n).2 := by
  cases hn : s.services.find n with
  | none =>
      simp only [serviceRestart, hn]
      exact h
  | some svc =>
      rw [serviceRestart_eq hn]
      refine K.start env n (K.mark (K.note (a := .operatorStart n) trivial ?_))
      split
      · exact K.note (a := .usleep _) trivial h
      · exact h

/-! ### Events -/

/-- A request, whatever its command. -/
theorem Kept.request (K : Kept I) (read : Option Request) (h : I s) :
    I (socketHandleRequest env s read).2 := by
  cases read with
  | none => exact h
  | some req =>
      refine socketHandleRequest_cases (motive := I) env req ?asked ?start ?stop ?restart ?admin ?power
      case asked =>
        intro t
        exact K.readClock t h
      case start =>
        intro svc _ _
        exact K.start env _ (K.note (a := .operatorStart svc.name) trivial h)
      case stop =>
        intro svc _ _
        exact K.stop env _ h
      case restart =>
        intro svc _ _
        exact K.restart h
      case admin =>
        intro svc b _
        exact K.admin h
      case power =>
        intro _
        exact K.note trivial h

/-- **The rule.**  What every operation keeps, and a load does, every event keeps. -/
theorem Kept.step (K : Kept I) {e : Event} (he : Step s e s') (h : I s)
    (hload : ∀ dir, I (serviceLoadAll dir s).2) : I s' := by
  cases e with
  | exit pid st => cases he; exact K.withChildren _ h
  | adopt pid => cases he; exact K.withChildren _ h
  | tick t => cases he; exact K.readClock t h
  | boot dir env =>
      cases he
      have hr : I (serviceLoadAll dir s).2.resolve.2 := K.resolve (hload dir)
      simp only [loadAndStartServices]
      split
      · exact hload dir
      · split
        · exact hr
        · exact K.startAllLoop _ _ hr
  | request read env => cases he; exact K.request read h
  | sigchld reports env =>
      obtain ⟨-, rfl⟩ := he.sigchld_inv
      exact K.sigchld reports h
  | sighup dir => cases he; exact K.resolve (hload dir)
  | check env =>
      cases he
      simp only [supervisorCheckServices]
      split
      · exact h
      · have h' : I { s with lastCheckTime := s.clock } := K.same (s := s) rfl rfl h
        exact K.checkLoop _ _ h'

end

end LumiOS.Lumid
