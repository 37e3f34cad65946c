import LumiOS.Support.MountView
import LumiOS.Container.Properties

/-!
# Container — Child

`container_child`, the first process of a container: its mounts, device nodes and host name, up to
`execve`.  Any of its calls to the kernel may fail.

The child makes its mounts private first, and stops where that fails.  So the host sees none of them, if
the child has mounts of its own; if it was cloned without `CLONE_NEWNS` the host sees the change itself
(`container_isolated_iff`).
-/

namespace LumiOS.Container

open Support Support.MountView

/-! ### Namespaces -/

/-- `NS_MOUNT`. -/
def nsMount : UInt32 := (1 : UInt32) <<< 0

/-- `NS_PID`. -/
def nsPid : UInt32 := (1 : UInt32) <<< 1

/-- `NS_NET`. -/
def nsNet : UInt32 := (1 : UInt32) <<< 2

/-- `NS_IPC`. -/
def nsIpc : UInt32 := (1 : UInt32) <<< 3

/-- `NS_UTS`. -/
def nsUts : UInt32 := (1 : UInt32) <<< 4

/-- `NS_CGROUP`. -/
def nsCgroup : UInt32 := (1 : UInt32) <<< 6

/-- `NS_ALL`. -/
def nsAll : UInt32 := nsMount ||| nsPid ||| nsNet ||| nsIpc ||| nsUts ||| nsCgroup

/-- `SIGCHLD`. -/
def sigchld : UInt32 := 17

/-- `CLONE_NEWNS`. -/
def cloneNewns : UInt32 := 0x00020000

/-- `CLONE_NEWCGROUP`. -/
def cloneNewcgroup : UInt32 := 0x02000000

/-- `CLONE_NEWUTS`. -/
def cloneNewuts : UInt32 := 0x04000000

/-- `CLONE_NEWIPC`. -/
def cloneNewipc : UInt32 := 0x08000000

/-- `CLONE_NEWPID`. -/
def cloneNewpid : UInt32 := 0x20000000

/-- `CLONE_NEWNET`. -/
def cloneNewnet : UInt32 := 0x40000000

/-- `ct_config_t`, as far as the child goes. -/
structure CtConfig where
  nsFlags : UInt32
  shareNetwork : Bool
  gpuPassthrough : Bool
  hostname : CStr 64

/-- The defaults of `container_init`. -/
def CtConfig.init (config : CtConfig) : CtConfig :=
  { config with
    nsFlags := if config.nsFlags = 0 then nsAll else config.nsFlags
    hostname := if config.hostname.bytes = [] then .cut CStr.pos_64 (ascii "android")
      else config.hostname }

/-- The flags `container_start` gives to `clone`. -/
def CtConfig.cloneFlags (config : CtConfig) : UInt32 :=
  let when (c : Bool) (flag : UInt32) : UInt32 := if c then flag else 0
  sigchld ||| when (config.nsFlags &&& nsMount ≠ 0) cloneNewns |||
    when (config.nsFlags &&& nsPid ≠ 0) cloneNewpid |||
    when (config.nsFlags &&& nsIpc ≠ 0) cloneNewipc |||
    when (config.nsFlags &&& nsUts ≠ 0) cloneNewuts |||
    when (config.nsFlags &&& nsCgroup ≠ 0) cloneNewcgroup |||
    when (!config.shareNetwork && config.nsFlags &&& nsNet ≠ 0) cloneNewnet

/-! ### The process -/

/-- `ANDROID_ROOT`. -/
def androidRoot : List UInt8 := ascii "/var/lib/android"

/-- Which calls the kernel permits, by the path they are about, and what else they bring. -/
structure ChildEnv where
  makePrivate : Bool
  mount : List UInt8 → Bool
  mkdir : List UInt8 → Bool
  mknod : List UInt8 → Bool
  sethostname : Bool
  chdir : Bool
  execve : Bool
  /-- What a `proc` and a `sysfs` have at the paths beneath them. -/
  proc : List UInt8 → Option FileKind
  sysfs : List UInt8 → Option FileKind
  /-- The text of `ANDROID_PROPS_FILE`, if it can be opened. -/
  propsFile : Option (List UInt8)

/-- The child, and what it sees of the file system. -/
structure Child where
  view : MountView
  /-- The bind mounts it has made, the last one in front: from where, and on what path. -/
  bound : List (List UInt8 × List UInt8)
  hostname : List UInt8
  cwd : List UInt8
  props : Props
  /-- The parent has been told that the child is ready. -/
  ready : Bool

section

variable (env : ChildEnv)

/-- `mkdir`, where there is nothing yet. -/
def Child.mkdir (path : List UInt8) (c : Child) : Child :=
  if env.mkdir path = true ∧ c.view.kind path = none then { c with view := c.view.make path .dir }
  else c

/-- `mknod`, where there is nothing yet. -/
def Child.mknod (path : List UInt8) (c : Child) : Child :=
  if env.mknod path = true ∧ c.view.kind path = none then { c with view := c.view.make path .other }
  else c

/-- `mount` of a file system on a directory; none of the callers minds whether it fails. -/
def Child.mount (path : List UInt8) (inside : List UInt8 → Option FileKind) (c : Child) : Child :=
  if env.mount path = true ∧ c.view.kind path = some .dir then
    { c with view := c.view.cover path .dir inside false }
  else c

/-- `bind_mount`, which nothing calls for a read-only mount.  The kernel binds directories on directories,
and other files on other files. -/
def bindMount (src dst : List UInt8) (c : Child) : Int × Child :=
  match c.view.kind src with
  | none => (-1, c)
  | some k =>
    let c := c.mkdir env dst
    if env.mount dst = true ∧ c.view.kind dst = some k then
      (0, { c with
        view := c.view.cover dst k (fun q => c.view.kind (src ++ q.drop dst.length)) (c.view.shared src)
        bound := (src, dst) :: c.bound })
    else (-1, c)

/-! ### namespace.c -/

/-- A file system without files. -/
def nothing : List UInt8 → Option FileKind := fun _ => none

/-- `ns_setup_mount`: the mounts are made private, or the child gives up. -/
def nsSetupMount (c : Child) : Int × Child :=
  if env.makePrivate = false then (-1, c)
  else
    let c := { c with view := c.view.makePrivate }
    let c := c.mkdir env (ascii "/proc")
    let c := c.mount env (ascii "/proc") env.proc
    (0, c.mount env (ascii "/dev") nothing)

/-- `ns_setup_uts`. -/
def nsSetupUts (hostname : List UInt8) (c : Child) : Int × Child :=
  if env.sethostname then (0, { c with hostname := hostname }) else (-1, c)

/-! ### mounts.c -/

/-- A file beneath `ANDROID_ROOT`. -/
def inRoot (name : String) : List UInt8 := androidRoot ++ ascii name

/-- `mounts_setup_android_rootfs`, which never fails. -/
def mountsSetupAndroidRootfs (c : Child) : Int × Child :=
  let c := (c.mkdir env (inRoot "/dev")).mount env (inRoot "/dev") nothing
  let c := (c.mkdir env (inRoot "/proc")).mount env (inRoot "/proc") env.proc
  let c := (c.mkdir env (inRoot "/sys")).mount env (inRoot "/sys") env.sysfs
  (0, (c.mkdir env (inRoot "/tmp")).mount env (inRoot "/tmp") nothing)

/-- The device nodes that are made. -/
def deviceNames : List (List UInt8) := [ascii "null", ascii "zero", ascii "random", ascii "urandom"]

/-- The device that is bound, where there is one. -/
def binderDevice : List UInt8 := ascii "/dev/binder"

/-- `mounts_bind_device_nodes`. -/
def mountsBindDeviceNodes (c : Child) : Int × Child :=
  let c := deviceNames.foldl (fun c name => c.mknod env (inRoot "/dev" ++ ascii "/" ++ name)) c
  if (c.view.kind binderDevice).isSome then
    (0, (bindMount env binderDevice (inRoot "/dev" ++ ascii "/binder") c).2)
  else (0, c)

/-- The directory that host and container share. -/
def sharedDir : List UInt8 := ascii "/data/shared"

/-- `mounts_setup_shared_storage`. -/
def mountsSetupSharedStorage (c : Child) : Int × Child :=
  let c := c.mkdir env (inRoot "/sdcard")
  if (c.view.kind sharedDir).isSome then (0, (bindMount env sharedDir (inRoot "/sdcard") c).2)
  else (0, c)

/-- The devices `--gpu` is about. -/
def gpuDevs : List (List UInt8) :=
  [ascii "/dev/dri/renderD128", ascii "/dev/dri/card0", ascii "/dev/kgsl-3d0", ascii "/dev/mali0"]

/-- The path up to the last slash. -/
def parentDir (path : List UInt8) : List UInt8 := (path.rdropWhile (· ≠ 47)).dropLast

/-- Where a device is bound: its path without `/dev`, in the `/dev` of the container. -/
def gpuTarget (dev : List UInt8) : List UInt8 := inRoot "/dev" ++ dev.drop 4

/-- The loop of `mounts_setup_gpu_access`, for one device. -/
def bindGpu (c : Child) (dev : List UInt8) : Child :=
  if (c.view.kind dev).isSome then
    (bindMount env dev (gpuTarget dev) (c.mkdir env (parentDir (gpuTarget dev)))).2
  else c

/-- `mounts_setup_gpu_access`. -/
def mountsSetupGpuAccess (c : Child) : Int × Child :=
  (0, gpuDevs.foldl (bindGpu env) (c.mkdir env (inRoot "/dev" ++ ascii "/dri")))

/-! ### container.c -/

/-- The program the child runs, by its path from the root directory, which nothing has changed. -/
def initPath : List UInt8 := ascii "/system/bin/init"

/-- How `container_child` ends. -/
inductive ChildEnd where
  | returned (ret : Int)
  | executed (path : List UInt8)
deriving DecidableEq, Repr

/-- `container_child` from `chdir` on. -/
def childExec (c : Child) : ChildEnd × Child :=
  if env.chdir = false then (.returned 1, c)
  else
    let c := { c with cwd := androidRoot }
    if env.execve then (.executed initPath, c) else (.returned 1, c)

/-- `container_child`. -/
def containerChild (config : CtConfig) (c : Child) : ChildEnd × Child :=
  let c := { c with ready := true }
  let (ret, c) := nsSetupMount env c
  if ret < 0 then (.returned 1, c)
  else
    let (ret, c) := mountsSetupAndroidRootfs env c
    if ret < 0 then (.returned 1, c)
    else
      let (_, c) := mountsBindDeviceNodes env c
      let (_, c) := mountsSetupSharedStorage env c
      let c := if config.gpuPassthrough then (mountsSetupGpuAccess env c).2 else c
      let c := if config.hostname.bytes ≠ [] then (nsSetupUts env config.hostname.bytes c).2 else c
      let c := { c with props := (propsLoadDefaults env.propsFile propsInit).2 }
      childExec env c

/-- The child of a `container_start`: it sees the files of the host. -/
def cloned (config : CtConfig) (host : MountView) (hostname cwd : List UInt8) : Child where
  view := { host with own := config.cloneFlags &&& cloneNewns ≠ 0 }
  bound := []
  hostname := hostname
  cwd := cwd
  props := propsInit
  ready := false

end

/-! ### What the host sees -/

/-- What a call of the child may do: what the host saw it still sees, and what is mounted in private it
does not see. -/
structure Later (c c' : Child) : Prop where
  own : c'.view.own = c.view.own
  received : c.view.received <:+ c'.view.received
  isolated : c.view.Isolated → c'.view.Isolated ∧ c'.view.received = c.view.received

section

variable {env : ChildEnv} {c c' c'' : Child} {config : CtConfig}

namespace Later

/-- Nothing has been done. -/
theorem refl (c : Child) : Later c c := ⟨rfl, List.suffix_refl _, fun h => ⟨h, rfl⟩⟩

/-- One thing after the other. -/
theorem trans (h : Later c c') (h' : Later c' c'') : Later c c'' where
  own := h'.own.trans h.own
  received := h.received.trans h'.received
  isolated hi :=
    let ⟨hi', e⟩ := h.isolated hi
    let ⟨hi'', e'⟩ := h'.isolated hi'
    ⟨hi'', e'.trans e⟩

/-- The view is the same. -/
theorem of_view (h : c'.view = c.view) : Later c c' where
  own := congrArg _ h
  received := h ▸ List.suffix_refl _
  isolated hi := ⟨h ▸ hi, congrArg _ h⟩

/-- A file is made. -/
theorem make {path : List UInt8} {k : FileKind} (h : c'.view = c.view.make path k) : Later c c' := by
  refine ⟨?_, ?_, ?_⟩
  · rw [h]
    rfl
  · rw [h]
    exact List.suffix_refl _
  · rw [h]
    exact fun hi => ⟨hi.make, rfl⟩

/-- Something is mounted, in the view of others only if it was shared before. -/
theorem cover {path : List UInt8} {top : FileKind} {inside : List UInt8 → Option FileKind}
    {joined : Bool} (hjoined : c.view.Isolated → joined = false)
    (h : c'.view = c.view.cover path top inside joined) : Later c c' := by
  refine ⟨?_, ?_, ?_⟩
  · rw [h]
    rfl
  · rw [h]
    exact received_suffix_cover
  · rw [h]
    intro hi
    rw [hjoined hi]
    exact ⟨hi.cover, hi.received_cover⟩

/-- A directory is made, or it is not. -/
theorem mkdir (env : ChildEnv) (path : List UInt8) (c : Child) : Later c (c.mkdir env path) := by
  rw [Child.mkdir]
  split
  · exact .make rfl
  · exact .refl c

/-- A device node is made, or it is not. -/
theorem mknod (env : ChildEnv) (path : List UInt8) (c : Child) : Later c (c.mknod env path) := by
  rw [Child.mknod]
  split
  · exact .make rfl
  · exact .refl c

/-- A file system is mounted, or it is not. -/
theorem mount (env : ChildEnv) (path : List UInt8) (inside : List UInt8 → Option FileKind) (c : Child) :
    Later c (c.mount env path inside) := by
  rw [Child.mount]
  split
  · exact .cover (fun _ => rfl) rfl
  · exact .refl c

/-- A bind mount joins no peer group that the mounts are not shared with. -/
theorem bindMount (env : ChildEnv) (src dst : List UInt8) (c : Child) :
    Later c (bindMount env src dst c).2 := by
  rw [Container.bindMount]
  split
  · exact .refl c
  · dsimp only
    split
    · refine (mkdir env dst c).trans (.cover (fun hi => ?_) rfl)
      exact hi.unshared src
    · exact mkdir env dst c

/-- A loop. -/
theorem foldl {α : Type} {f : Child → α → Child} (hf : ∀ c a, Later c (f c a)) :
    ∀ (as : List α) (c : Child), Later c (as.foldl f c)
  | [], c => .refl c
  | a :: as, c => (hf c a).trans (foldl hf as (f c a))

/-- The mounts of the container's root. -/
theorem rootfs (env : ChildEnv) (c : Child) : Later c (mountsSetupAndroidRootfs env c).2 :=
  have h₁ := (mkdir env (inRoot "/dev") c).trans (mount env (inRoot "/dev") nothing _)
  have h₂ := h₁.trans ((mkdir env (inRoot "/proc") _).trans (mount env (inRoot "/proc") env.proc _))
  have h₃ := h₂.trans ((mkdir env (inRoot "/sys") _).trans (mount env (inRoot "/sys") env.sysfs _))
  h₃.trans ((mkdir env (inRoot "/tmp") _).trans (mount env (inRoot "/tmp") nothing _))

/-- The device nodes. -/
theorem deviceNodes (env : ChildEnv) (c : Child) : Later c (mountsBindDeviceNodes env c).2 := by
  have hnodes := foldl (f := fun c name => c.mknod env (inRoot "/dev" ++ ascii "/" ++ name))
    (fun c _ => mknod env _ c) deviceNames c
  simp only [mountsBindDeviceNodes]
  split
  · exact hnodes.trans (bindMount env _ _ _)
  · exact hnodes

/-- The shared directory. -/
theorem sharedStorage (env : ChildEnv) (c : Child) : Later c (mountsSetupSharedStorage env c).2 := by
  simp only [mountsSetupSharedStorage]
  split
  · exact (mkdir env _ c).trans (bindMount env _ _ _)
  · exact mkdir env _ c

/-- The devices of `--gpu`. -/
theorem gpuAccess (env : ChildEnv) (c : Child) : Later c (mountsSetupGpuAccess env c).2 := by
  have hdev : ∀ c dev, Later c (bindGpu env c dev) := by
    intro c dev
    rw [bindGpu]
    split
    · exact (mkdir env _ c).trans (bindMount env _ _ _)
    · exact .refl c
  exact (mkdir env (inRoot "/dev" ++ ascii "/dri") c).trans (foldl hdev gpuDevs _)

/-- Setting the host name changes no mount. -/
theorem setupUts (env : ChildEnv) (hostname : List UInt8) (c : Child) :
    Later c (nsSetupUts env hostname c).2 := by
  rw [nsSetupUts]
  split
  · exact .of_view rfl
  · exact .refl c

/-- `chdir` and `execve` change no mount. -/
theorem exec (env : ChildEnv) (c : Child) : Later c (childExec env c).2 := by
  rw [childExec]
  split
  · exact .refl c
  · dsimp only
    split
    · exact .of_view rfl
    · exact .of_view rfl

end Later

/-- Without private mounts the child stops. -/
theorem containerChild_failed (h : env.makePrivate = false) :
    containerChild env config c = (.returned 1, { c with ready := true }) := by
  simp only [containerChild, nsSetupMount, if_pos h]
  rfl

/-- Otherwise all it does comes after that. -/
theorem containerChild_later (h : env.makePrivate = true) :
    Later { c with ready := true, view := c.view.makePrivate } (containerChild env config c).2 := by
  have hgpu : ∀ c, Later c (if config.gpuPassthrough then (mountsSetupGpuAccess env c).2 else c) := by
    intro c
    split
    · exact .gpuAccess env c
    · exact .refl c
  have huts : ∀ c, Later c (if config.hostname.bytes ≠ [] then
      (nsSetupUts env config.hostname.bytes c).2 else c) := by
    intro c
    split
    · exact .setupUts env _ c
    · exact .refl c
  have hprivate : env.makePrivate ≠ false := fun h' => nomatch h.symm.trans h'
  have hzero : ¬ (0 : Int) < 0 := by decide
  have hproc := (Later.mkdir env (ascii "/proc")
    { c with ready := true, view := c.view.makePrivate }).trans (.mount env (ascii "/proc") env.proc _)
  have hns := hproc.trans (.mount env (ascii "/dev") nothing _)
  have hroot := hns.trans (.rootfs env _)
  have hstorage := (hroot.trans (.deviceNodes env _)).trans (.sharedStorage env _)
  have hlast := (hstorage.trans (hgpu _)).trans (huts _)
  simp only [containerChild, nsSetupMount, if_neg hprivate, if_neg hzero]
  split
  · exact hroot
  · refine hlast.trans (.trans ?_ (.exec env _))
    exact .of_view rfl

/-- What the child has done to the mounts others see. -/
theorem received_iff (env : ChildEnv) (config : CtConfig) (c : Child) :
    (containerChild env config c).2.view.received = c.view.received ↔
      c.view.own = true ∨ env.makePrivate = false := by
  cases hprivate : env.makePrivate with
  | false =>
      rw [containerChild_failed hprivate]
      exact iff_of_true rfl (.inr rfl)
  | true =>
      have hlater : Later _ (containerChild env config c).2 := containerChild_later hprivate
      cases hown : c.view.own with
      | true =>
          obtain ⟨-, e⟩ := hlater.isolated (isolated_makePrivate hown)
          refine iff_of_true (e.trans ?_) (.inl rfl)
          rw [makePrivate, if_pos hown]
      | false =>
          refine iff_of_false (fun e => ?_) (by simp)
          have hle := hlater.received.length_le
          rw [e, makePrivate, hown] at hle
          exact absurd hle (by simp)

/-- The flag that gives the child mounts of its own. -/
theorem cloneFlags_newns (config : CtConfig) :
    config.cloneFlags &&& cloneNewns ≠ 0 ↔ config.nsFlags &&& nsMount ≠ 0 := by
  have hall : ∀ m p i u g n : Bool,
      (sigchld ||| (if m then cloneNewns else 0) ||| (if p then cloneNewpid else 0) |||
        (if i then cloneNewipc else 0) ||| (if u then cloneNewuts else 0) |||
        (if g then cloneNewcgroup else 0) ||| (if n then cloneNewnet else 0)) &&& cloneNewns ≠ 0 ↔
      m = true := by decide
  exact (hall _ _ _ _ _ _).trans decide_eq_true_iff

end

/-- **The isolation of a container's mounts.**  Whatever the kernel permits, and however the mounts of the
host are shared, the host sees no change of its mounts exactly when the configuration, with the defaults
of `container_init`, asks for mounts of its own, or the first call fails.  In that case the child stops,
and has changed nothing. -/
theorem container_isolated_iff (env : ChildEnv) (config : CtConfig) (host : MountView)
    (hostname cwd : List UInt8) :
    ((containerChild env config.init (cloned config.init host hostname cwd)).2.view.received =
        host.received ↔
      config.nsFlags = 0 ∨ config.nsFlags &&& nsMount ≠ 0 ∨ env.makePrivate = false) ∧
    (env.makePrivate = false →
      containerChild env config.init (cloned config.init host hostname cwd) =
        (.returned 1, { cloned config.init host hostname cwd with ready := true })) := by
  refine ⟨?_, containerChild_failed⟩
  have hown : (cloned config.init host hostname cwd).view.own = true ↔
      config.nsFlags = 0 ∨ config.nsFlags &&& nsMount ≠ 0 := by
    refine decide_eq_true_iff.trans ((cloneFlags_newns config.init).trans ?_)
    by_cases hzero : config.nsFlags = 0
    · have hinit : config.init.nsFlags = nsAll := if_pos hzero
      rw [hinit]
      exact iff_of_true (by decide) (.inl hzero)
    · have hinit : config.init.nsFlags = config.nsFlags := if_neg hzero
      rw [hinit, or_iff_right hzero]
  rw [← or_assoc, ← hown]
  exact received_iff env config.init _

end LumiOS.Container
