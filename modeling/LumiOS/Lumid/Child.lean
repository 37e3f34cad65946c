import LumiOS.Lumid.Service

/-!
# Lumid — Child

The child's side of `service_start`, from `fork` to `execl`, and `util_drop_privileges` of `util.c`.
The child runs the service as the user its file names, if it names one.  The answers of the system to
the five calls that take part are a `UserDb` and a `Kernel`.

`service_start` does not look at what `util_drop_privileges` returns.  When it returned 0, the process
that reaches `execl` has the user's uid, and the gid of the named group or, when there is no such
group, the user's primary one (`childMain_creds`).
-/

namespace LumiOS.Lumid

open Support

/-! ### Processes -/

structure Creds where
  uid : UInt32
  gid : UInt32
  groups : List UInt32
deriving DecidableEq, Repr

structure ChildProcess where
  creds : Creds
  environ : List (List UInt8 × List UInt8)
  /-- The working directory, as it was named; nothing while it is lumid's. -/
  cwd : Option (List UInt8)
  /-- Standard output and standard error go to the service's log. -/
  logged : Bool
  sessionLeader : Bool
deriving DecidableEq, Repr

/-- `pw_uid` and `pw_gid` of a `struct passwd`. -/
structure Passwd where
  uid : UInt32
  gid : UInt32
deriving DecidableEq, Repr

/-- The user and group databases: `getpwnam`, and the `gr_gid` that `getgrnam` finds. -/
structure UserDb where
  getpwnam : List UInt8 → Option Passwd
  getgrnam : List UInt8 → Option UInt32

/-- The answers of the kernel: the groups `initgroups` sets if it succeeds, and whether the other
calls do. -/
structure Kernel where
  initgroups : List UInt8 → UInt32 → Option (List UInt32)
  setgid : UInt32 → Bool
  setuid : UInt32 → Bool
  chdir : List UInt8 → Bool

/-! ### Dropping privileges -/

/-- The gid `util_drop_privileges` chooses: the named group's, and the primary one when no group is
named or the group is not found. -/
def chosenGid (db : UserDb) (pw : Passwd) (group : List UInt8) : UInt32 :=
  if group = [] then pw.gid
  else
    match db.getgrnam group with
    | some gid => gid
    | none => pw.gid

def utilDropPrivileges (db : UserDb) (k : Kernel) (user group : List UInt8) (creds : Creds) :
    Int × Creds :=
  if user = [] then (0, creds)
  else
    match db.getpwnam user with
    | none => (-1, creds)
    | some pw =>
      let gid := chosenGid db pw group
      let creds :=
        match k.initgroups user gid with
        | some groups => { creds with groups := groups }
        | none => creds
      if k.setgid gid then
        let creds := { creds with gid := gid }
        if k.setuid pw.uid then (0, { creds with uid := pw.uid }) else (-1, creds)
      else (-1, creds)

/-! ### The child -/

/-- The part of `service_t` the child reads. -/
structure ExecConfig where
  execPath : CStr maxPathLen
  execArgs : CStr maxPathLen
  workingDir : CStr maxPathLen
  user : CStr maxNameLen
  group : CStr maxNameLen
  env : List (CStr maxNameLen × CStr maxPathLen)
  logFd : Int
deriving DecidableEq, Repr

/-- `setenv(key, value, 1)`, which refuses an empty key and one with a `=`. -/
def setenv (environ : List (List UInt8 × List UInt8)) (key value : List UInt8) :
    List (List UInt8 × List UInt8) :=
  if key = [] ∨ key.contains 61 then environ
  else environ.filter (·.1 ≠ key) ++ [(key, value)]

inductive ChildEnd where
  /-- `_exit`, before `execl`. -/
  | exit (code : Nat)
  /-- The child reaches `execl` with these arguments. -/
  | execl (argv : List (List UInt8)) (p : ChildProcess)
deriving DecidableEq, Repr

/-- The arguments of the `execl`. -/
def ExecConfig.argv (cfg : ExecConfig) : List (List UInt8) :=
  if cfg.execArgs.bytes ≠ [] then [ascii "/bin/sh", ascii "sh", ascii "-c", cfg.execArgs.bytes]
  else [cfg.execPath.bytes, cfg.execPath.bytes]

/-- The environment the child passes on. -/
def ExecConfig.environ (cfg : ExecConfig) (environ : List (List UInt8 × List UInt8)) :
    List (List UInt8 × List UInt8) :=
  cfg.env.foldl
    (fun (environ : List (List UInt8 × List UInt8)) (kv : CStr maxNameLen × CStr maxPathLen) =>
      setenv environ kv.1.bytes kv.2.bytes) environ

def childMain (db : UserDb) (k : Kernel) (cfg : ExecConfig) (p : ChildProcess) : ChildEnd :=
  let p := if 0 ≤ cfg.logFd then { p with logged := true } else p
  let p := { p with environ := cfg.environ p.environ }
  if cfg.workingDir.bytes ≠ [] ∧ k.chdir cfg.workingDir.bytes = false then .exit 127
  else
    let p := if cfg.workingDir.bytes ≠ [] then { p with cwd := some cfg.workingDir.bytes } else p
    -- the return value is dropped
    let p :=
      if cfg.user.bytes ≠ [] then
        { p with creds := (utilDropPrivileges db k cfg.user.bytes cfg.group.bytes p.creds).2 }
      else p
    .execl cfg.argv { p with sessionLeader := true }

section

variable {db : UserDb} {k : Kernel} {user group : List UInt8} {creds : Creds} {cfg : ExecConfig}
  {p q : ChildProcess} {argv : List (List UInt8)}

/-- What `util_drop_privileges` needs to return 0, and what it has done then. -/
theorem utilDropPrivileges_eq_zero (hu : user ≠ []) :
    (utilDropPrivileges db k user group creds).1 = 0 ↔
      ∃ pw, db.getpwnam user = some pw ∧ k.setgid (chosenGid db pw group) = true ∧
        k.setuid pw.uid = true ∧
        (utilDropPrivileges db k user group creds).2.uid = pw.uid ∧
        (utilDropPrivileges db k user group creds).2.gid = chosenGid db pw group := by
  simp only [utilDropPrivileges, if_neg hu]
  cases db.getpwnam user with
  | none => simp
  | some pw =>
      cases hg : k.setgid (chosenGid db pw group) with
      | false => simp [hg]
      | true =>
          cases hs : k.setuid pw.uid with
          | false => simp [hg, hs]
          | true => simp [hg, hs]

/-- The drop is made on the credentials the child was forked with. -/
theorem childMain_execl (hu : cfg.user.bytes ≠ []) (h : childMain db k cfg p = .execl argv q) :
    q.creds = (utilDropPrivileges db k cfg.user.bytes cfg.group.bytes p.creds).2 := by
  simp only [childMain, if_pos hu] at h
  split at h
  · cases h
  · obtain ⟨-, rfl⟩ := ChildEnd.execl.inj h
    by_cases hl : 0 ≤ cfg.logFd <;> by_cases hw : cfg.workingDir.bytes ≠ [] <;> simp [hl, hw]

/-- **The credentials a service runs with.**  When the service names a user, the child reaches `execl`
and `util_drop_privileges` returned 0, its uid is that user's, and its gid is the named group's if
there is such a group, and the user's primary gid if none is named or the group is not found. -/
theorem childMain_creds (hu : cfg.user.bytes ≠ []) (h : childMain db k cfg p = .execl argv q)
    (hok : (utilDropPrivileges db k cfg.user.bytes cfg.group.bytes p.creds).1 = 0) :
    ∃ pw, db.getpwnam cfg.user.bytes = some pw ∧ q.creds.uid = pw.uid ∧
      (∀ gid, cfg.group.bytes ≠ [] → db.getgrnam cfg.group.bytes = some gid →
        q.creds.gid = gid) ∧
      (cfg.group.bytes = [] ∨ db.getgrnam cfg.group.bytes = none → q.creds.gid = pw.gid) := by
  obtain ⟨pw, hpw, -, -, huid, hgid⟩ := (utilDropPrivileges_eq_zero hu).mp hok
  rw [childMain_execl hu h]
  refine ⟨pw, hpw, huid, fun gid hne hgr => ?_, fun hno => ?_⟩
  · rw [hgid, chosenGid, if_neg hne, hgr]
  · rw [hgid, chosenGid]
    split
    · rfl
    · rename_i hne
      rw [hno.resolve_left hne]

end

/-- A user database with the user `audio` and no group. -/
def audioDb : UserDb where
  getpwnam user := if user = ascii "audio" then some ⟨63, 63⟩ else none
  getgrnam _ := none

/-- A kernel that grants everything. -/
def Kernel.grants : Kernel where
  initgroups _ gid := some [gid]
  setgid _ := true
  setuid _ := true
  chdir _ := true

/-- A service that runs as the user `audio` and the group `video`. -/
def audiod : ExecConfig where
  execPath := .lit "/usr/bin/audiod" (by decide)
  execArgs := .lit "" (by decide)
  workingDir := .lit "" (by decide)
  user := .lit "audio" (by decide)
  group := .lit "video" (by decide)
  env := []
  logFd := -1

/-- A child of lumid, which runs as root. -/
def rootChild : ChildProcess where
  creds := ⟨0, 0, []⟩
  environ := []
  cwd := none
  logged := false
  sessionLeader := false

/-- The child of `audiod` when it reaches `execl`. -/
def audiodChild : ChildProcess :=
  { rootChild with creds := ⟨63, 63, [63]⟩, sessionLeader := true }

theorem audiod_execl :
    childMain audioDb .grants audiod rootChild = .execl audiod.argv audiodChild := by decide

theorem childMain_creds_audiod :
    ∃ pw, audioDb.getpwnam (ascii "audio") = some pw ∧ audiodChild.creds.uid = pw.uid := by
  obtain ⟨pw, hpw, huid, -⟩ := childMain_creds (by decide) audiod_execl (by decide)
  exact ⟨pw, hpw, huid⟩

/-- A group nobody has defined leaves the service with its user's primary group. -/
theorem childMain_group_unknown :
    ¬ ∀ db k cfg p argv q, cfg.user.bytes ≠ [] → childMain db k cfg p = .execl argv q →
      ∃ pw, db.getpwnam cfg.user.bytes = some pw ∧ q.creds.uid = pw.uid ∧
        (cfg.group.bytes ≠ [] → db.getgrnam cfg.group.bytes = some q.creds.gid) ∧
        (cfg.group.bytes = [] → q.creds.gid = pw.gid) := by
  intro h
  obtain ⟨pw, -, -, hg, -⟩ := h audioDb .grants audiod rootChild _ _ (by decide) audiod_execl
  cases hg (by decide)

end LumiOS.Lumid
