import LumiOS.Container.Child

/-!
# Container — Devices

The devices of the host that a container is to have: binder, and with `--gpu` those for graphics.

`ns_setup_mount` mounts an empty file system on `/dev` before the devices are looked for there, and
`mounts_setup_android_rootfs` one on the `/dev` of the container, in which `bind_mount` makes a directory
to bind a device on, which cannot be bound on a directory.  If either is mounted the container gets none
of the devices (`no_device_bound`), unless the host has a directory where the device should be.
-/

namespace LumiOS.Container

open Support Support.MountView

/-! ### What stays out of the way -/

/-- The devices that are looked for. -/
def devices : List (List UInt8) := binderDevice :: gpuDevs

/-- Where they are to be bound. -/
def targets : List (List UInt8) := (inRoot "/dev" ++ ascii "/binder") :: gpuDevs.map gpuTarget

/-- A mount on this path covers none of those. -/
def Clear (path : List UInt8) (watched : List (List UInt8)) : Prop :=
  ∀ q ∈ watched, q ≠ path ∧ ¬ Beneath path q

instance (path : List UInt8) (watched : List (List UInt8)) : Decidable (Clear path watched) :=
  inferInstanceAs (Decidable (∀ q ∈ watched, _))

/-- What comes later binds no device, leaves the devices as they are, and puts nothing but directories
where they are to be bound. -/
structure Spares (c c' : Child) : Prop where
  devices : ∀ dev ∈ devices, c'.view.kind dev = c.view.kind dev
  targets : ∀ t ∈ targets, c'.view.kind t = c.view.kind t ∨ c'.view.kind t = some .dir
  bound : ∀ p ∈ c'.bound, p ∈ c.bound ∨ p.1 = sharedDir

/-- No device can be bound: there is none to be seen, or no file to bind it on. -/
def Barred (c : Child) : Prop :=
  (∀ dev ∈ devices, c.view.kind dev = none) ∨
    (∀ dev ∈ devices, c.view.kind dev ≠ some .dir) ∧ ∀ t ∈ targets, c.view.kind t ≠ some .other

section

variable {env : ChildEnv} {c c' c'' : Child} {path dev dst : List UInt8} {config : CtConfig}

namespace Spares

theorem refl (c : Child) : Spares c c := ⟨fun _ _ => rfl, fun _ _ => .inl rfl, fun _ h => .inl h⟩

theorem trans (h : Spares c c') (h' : Spares c' c'') : Spares c c'' where
  devices dev hdev := (h'.devices dev hdev).trans (h.devices dev hdev)
  targets t ht := (h'.targets t ht).elim (fun e => (h.targets t ht).imp e.trans e.trans) .inr
  bound p hp := (h'.bound p hp).elim (h.bound p) .inr

theorem barred (h : Spares c c') (hb : Barred c) : Barred c' := by
  rcases hb with hnone | ⟨hdev, ht⟩
  · exact .inl fun dev hm => (h.devices dev hm).trans (hnone dev hm)
  · refine .inr ⟨fun dev hm => h.devices dev hm ▸ hdev dev hm, fun t hm => ?_⟩
    rcases h.targets t hm with e | e
    · exact e ▸ ht t hm
    · rw [e]
      decide

theorem mkdir (hpath : path ∉ Container.devices) : Spares c (c.mkdir env path) := by
  rw [Child.mkdir]
  split
  · refine ⟨fun dev hdev => make_kind_ne (ne_of_mem_of_not_mem hdev hpath), fun t _ => ?_,
      fun _ h => .inl h⟩
    by_cases ht : t = path
    · exact .inr (if_pos ht)
    · exact .inl (if_neg ht)
  · exact .refl c

theorem mknod (hdev : path ∉ Container.devices) (ht : path ∉ Container.targets) :
    Spares c (c.mknod env path) := by
  rw [Child.mknod]
  split
  · exact ⟨fun dev hm => make_kind_ne (ne_of_mem_of_not_mem hm hdev),
      fun t hm => .inl (make_kind_ne (ne_of_mem_of_not_mem hm ht)), fun _ h => .inl h⟩
  · exact .refl c

theorem mount {inside : List UInt8 → Option FileKind} (hdev : Clear path Container.devices)
    (ht : Clear path Container.targets) : Spares c (c.mount env path inside) := by
  rw [Child.mount]
  split
  · exact ⟨fun dev hm => cover_kind_apart (hdev dev hm).1 (hdev dev hm).2,
      fun t hm => .inl (cover_kind_apart (ht t hm).1 (ht t hm).2), fun _ h => .inl h⟩
  · exact .refl c

/-- A bind that is no device's. -/
theorem bindShared (hmake : dst ∉ Container.devices) (hdev : Clear dst Container.devices)
    (ht : Clear dst Container.targets) : Spares c (bindMount env sharedDir dst c).2 := by
  rw [bindMount]
  split
  · exact .refl c
  · have hmkdir : Spares c (c.mkdir env dst) := .mkdir hmake
    dsimp only
    split
    · refine hmkdir.trans ⟨fun dev hm => cover_kind_apart (hdev dev hm).1 (hdev dev hm).2,
        fun t hm => .inl (cover_kind_apart (ht t hm).1 (ht t hm).2), fun p hp => ?_⟩
      rcases List.mem_cons.mp hp with rfl | hp
      · exact .inr rfl
      · exact .inl hp
    · exact hmkdir

/-- **A device is not bound** where that is barred. -/
theorem bindDevice (hb : Barred c) (hm : dev ∈ Container.devices) (hdst : dst ∈ Container.targets)
    (hmake : dst ∉ Container.devices) : Spares c (bindMount env dev dst c).2 := by
  rw [bindMount]
  split
  · exact .refl c
  · rename_i k hk
    have hmkdir : Spares c (c.mkdir env dst) := .mkdir hmake
    rcases hb with hnone | hsecond
    · exact absurd (hk.symm.trans (hnone dev hm)) (Option.some_ne_none k)
    · -- the device is no directory, and there is no other file to bind it on
      obtain rfl : k = .other := by
        cases k with
        | dir => exact absurd hk (hsecond.1 dev hm)
        | other => rfl
      have hno : (c.mkdir env dst).view.kind dst ≠ some .other := by
        rcases hmkdir.targets dst hdst with e | e
        · exact e ▸ hsecond.2 dst hdst
        · rw [e]
          decide
      dsimp only
      rw [if_neg fun h => hno h.2]
      exact hmkdir

theorem bindGpu (hb : Barred c) (hm : dev ∈ gpuDevs) : Spares c (bindGpu env c dev) := by
  have hpaths : ∀ dev ∈ gpuDevs, dev ∈ Container.devices ∧ gpuTarget dev ∈ Container.targets ∧
      gpuTarget dev ∉ Container.devices ∧ parentDir (gpuTarget dev) ∉ Container.devices := by
    decide +kernel
  obtain ⟨hdev, htarget, hmake, hparent⟩ := hpaths dev hm
  rw [Container.bindGpu]
  split
  · have hmkdir : Spares c (c.mkdir env (parentDir (gpuTarget dev))) := .mkdir hparent
    exact hmkdir.trans (bindDevice (hmkdir.barred hb) hdev htarget hmake)
  · exact .refl c

theorem gpuLoop : ∀ (devs : List (List UInt8)) (c : Child), (∀ dev ∈ devs, dev ∈ gpuDevs) →
    Barred c → Spares c (devs.foldl (Container.bindGpu env) c)
  | [], c, _, _ => .refl c
  | dev :: devs, c, hm, hb =>
      have hstep : Spares c (Container.bindGpu env c dev) := bindGpu hb (hm dev List.mem_cons_self)
      hstep.trans (gpuLoop devs _ (fun d hd => hm d (List.mem_cons_of_mem dev hd)) (hstep.barred hb))

theorem gpuAccess (hb : Barred c) : Spares c (mountsSetupGpuAccess env c).2 := by
  have hmkdir : Spares c (c.mkdir env (inRoot "/dev" ++ ascii "/dri")) := .mkdir (by decide +kernel)
  exact hmkdir.trans (gpuLoop gpuDevs _ (fun _ h => h) (hmkdir.barred hb))

theorem nodes : ∀ (names : List (List UInt8)) (c : Child), (∀ name ∈ names, name ∈ deviceNames) →
    Spares c (names.foldl (fun c name => c.mknod env (inRoot "/dev" ++ ascii "/" ++ name)) c)
  | [], c, _ => .refl c
  | name :: names, c, hm => by
      have hpaths : ∀ name ∈ deviceNames,
          inRoot "/dev" ++ ascii "/" ++ name ∉ Container.devices ∧
            inRoot "/dev" ++ ascii "/" ++ name ∉ Container.targets := by decide +kernel
      obtain ⟨hdev, ht⟩ := hpaths name (hm name List.mem_cons_self)
      have hstep : Spares c (c.mknod env (inRoot "/dev" ++ ascii "/" ++ name)) := .mknod hdev ht
      exact hstep.trans (nodes names _ fun n hn => hm n (List.mem_cons_of_mem name hn))

theorem deviceNodes (hb : Barred c) : Spares c (mountsBindDeviceNodes env c).2 := by
  have hnodes : Spares c
      (deviceNames.foldl (fun c name => c.mknod env (inRoot "/dev" ++ ascii "/" ++ name)) c) :=
    nodes deviceNames c fun _ h => h
  simp only [mountsBindDeviceNodes]
  split
  · exact hnodes.trans (bindDevice (hnodes.barred hb) List.mem_cons_self List.mem_cons_self
      (by decide +kernel))
  · exact hnodes

theorem sharedStorage : Spares c (mountsSetupSharedStorage env c).2 := by
  have hmkdir : Spares c (c.mkdir env (inRoot "/sdcard")) := .mkdir (by decide +kernel)
  simp only [mountsSetupSharedStorage]
  split
  · exact hmkdir.trans (bindShared (by decide +kernel) (by decide +kernel) (by decide +kernel))
  · exact hmkdir

/-- Nothing is mounted or bound. -/
theorem of_eq (hview : c'.view = c.view) (hbound : c'.bound = c.bound) : Spares c c' where
  devices _ _ := hview ▸ rfl
  targets _ _ := .inl (hview ▸ rfl)
  bound _ hp := .inl (hbound ▸ hp)

theorem setupUts (hostname : List UInt8) : Spares c (nsSetupUts env hostname c).2 := by
  rw [nsSetupUts]
  split
  · exact .of_eq rfl rfl
  · exact .refl c

theorem exec : Spares c (childExec env c).2 := by
  rw [childExec]
  split
  · exact .refl c
  · dsimp only
    split
    · exact .of_eq rfl rfl
    · exact .of_eq rfl rfl

end Spares

/-- `container_child` behind the root file system. -/
def furnish (env : ChildEnv) (config : CtConfig) (c : Child) : ChildEnd × Child :=
  let (_, c) := mountsBindDeviceNodes env c
  let (_, c) := mountsSetupSharedStorage env c
  let c := if config.gpuPassthrough then (mountsSetupGpuAccess env c).2 else c
  let c := if config.hostname.bytes ≠ [] then (nsSetupUts env config.hostname.bytes c).2 else c
  let c := { c with props := (propsLoadDefaults env.propsFile propsInit).2 }
  childExec env c

/-- Nothing behind the root file system binds a device. -/
theorem spares_furnish (hb : Barred c) : Spares c (furnish env config c).2 := by
  have hgpu : ∀ c, Barred c →
      Spares c (if config.gpuPassthrough then (mountsSetupGpuAccess env c).2 else c) := by
    intro c hb
    split
    · exact .gpuAccess hb
    · exact .refl c
  have huts : ∀ c, Spares c (if config.hostname.bytes ≠ [] then
      (nsSetupUts env config.hostname.bytes c).2 else c) := by
    intro c
    split
    · exact .setupUts _
    · exact .refl c
  have hnodes : Spares c (mountsBindDeviceNodes env c).2 := .deviceNodes hb
  have hstorage : Spares c (mountsSetupSharedStorage env (mountsBindDeviceNodes env c).2).2 :=
    hnodes.trans .sharedStorage
  have hlast := (hstorage.trans (hgpu _ (hstorage.barred hb))).trans (huts _)
  refine hlast.trans (.trans ?_ .exec)
  exact .of_eq rfl rfl

/-! ### The two mounts -/

/-- The empty file system on `/dev` is mounted. -/
def DevMounted (env : ChildEnv) (view : MountView) : Prop :=
  env.mount (ascii "/dev") = true ∧ view.kind (ascii "/dev") = some .dir

/-- The empty file system on the `/dev` of the container is mounted. -/
def RootDevMounted (env : ChildEnv) (view : MountView) : Prop :=
  env.mount (inRoot "/dev") = true ∧
    (view.kind (inRoot "/dev") = some .dir ∨
      view.kind (inRoot "/dev") = none ∧ env.mkdir (inRoot "/dev") = true)

theorem kind_mkdir {q : List UInt8} (h : q ≠ path) :
    (c.mkdir env path).view.kind q = c.view.kind q := by
  rw [Child.mkdir]
  split
  · exact make_kind_ne h
  · rfl

theorem kind_mount {q : List UInt8} {inside : List UInt8 → Option FileKind}
    (h : q ≠ path ∧ ¬ Beneath path q) : (c.mount env path inside).view.kind q = c.view.kind q := by
  rw [Child.mount]
  split
  · exact cover_kind_apart h.1 h.2
  · rfl

theorem bound_mkdir : (c.mkdir env path).bound = c.bound := by
  rw [Child.mkdir]
  split <;> rfl

theorem bound_mount {inside : List UInt8 → Option FileKind} :
    (c.mount env path inside).bound = c.bound := by
  rw [Child.mount]
  split <;> rfl

/-- Beneath an empty file system there is nothing. -/
theorem kind_mounted {q : List UInt8} (hmount : env.mount path = true)
    (hdir : c.view.kind path = some .dir) (h : Beneath path q) :
    (c.mount env path nothing).view.kind q = none := by
  rw [Child.mount, if_pos ⟨hmount, hdir⟩]
  exact cover_kind_beneath h

theorem kind_makePrivate (view : MountView) : view.makePrivate.kind = view.kind := by
  rw [makePrivate]
  split <;> rfl

/-- `ns_setup_mount` goes on to this state. -/
def prepared (env : ChildEnv) (c : Child) : Child :=
  ({ c with view := c.view.makePrivate }.mkdir env (ascii "/proc")).mount env (ascii "/proc") env.proc

theorem kind_prepared {q : List UInt8} (h : q ≠ ascii "/proc" ∧ ¬ Beneath (ascii "/proc") q) :
    (prepared env c).view.kind q = c.view.kind q := by
  rw [prepared, kind_mount h, kind_mkdir h.1]
  exact congrFun (kind_makePrivate c.view) q

theorem nsSetupMount_eq (h : env.makePrivate = true) :
    nsSetupMount env c = (0, (prepared env c).mount env (ascii "/dev") nothing) := by
  have hne : env.makePrivate ≠ false := fun h' => nomatch h.symm.trans h'
  rw [nsSetupMount, if_neg hne]
  rfl

/-- The child as far as its root file system, and what comes then. -/
theorem containerChild_furnish (h : env.makePrivate = true) :
    containerChild env config c =
      furnish env config (mountsSetupAndroidRootfs env (nsSetupMount env { c with ready := true }).2).2 := by
  rw [containerChild, nsSetupMount_eq h]
  rfl

/-- What `mounts_setup_android_rootfs` mounts behind the `/dev` of the container. -/
theorem rootfs_rest {q : List UInt8}
    (hproc : q ≠ inRoot "/proc" ∧ ¬ Beneath (inRoot "/proc") q)
    (hsys : q ≠ inRoot "/sys" ∧ ¬ Beneath (inRoot "/sys") q)
    (htmp : q ≠ inRoot "/tmp" ∧ ¬ Beneath (inRoot "/tmp") q) :
    (mountsSetupAndroidRootfs env c).2.view.kind q =
      ((c.mkdir env (inRoot "/dev")).mount env (inRoot "/dev") nothing).view.kind q := by
  rw [mountsSetupAndroidRootfs, kind_mount htmp, kind_mkdir htmp.1, kind_mount hsys, kind_mkdir hsys.1,
    kind_mount hproc, kind_mkdir hproc.1]

theorem bound_rootfs : (mountsSetupAndroidRootfs env c).2.bound = c.bound := by
  simp only [mountsSetupAndroidRootfs, bound_mount, bound_mkdir]

/-- The devices and their targets are on none of the other paths. -/
theorem clear_paths : ∀ q ∈ devices ++ targets,
    (q ≠ ascii "/proc" ∧ ¬ Beneath (ascii "/proc") q) ∧
      (q ≠ inRoot "/proc" ∧ ¬ Beneath (inRoot "/proc") q) ∧
      (q ≠ inRoot "/sys" ∧ ¬ Beneath (inRoot "/sys") q) ∧
      (q ≠ inRoot "/tmp" ∧ ¬ Beneath (inRoot "/tmp") q) := by decide +kernel

/-- **Either mount bars the devices.** -/
theorem barred_rootfs (hprivate : env.makePrivate = true)
    (hdev : ∀ dev ∈ devices, c.view.kind dev ≠ some .dir)
    (hmounted : DevMounted env c.view ∨ RootDevMounted env c.view) :
    Barred (mountsSetupAndroidRootfs env (nsSetupMount env c).2).2 := by
  rw [nsSetupMount_eq hprivate]
  have hdevs : ∀ dev ∈ devices, Beneath (ascii "/dev") dev ∧
      (dev ≠ inRoot "/dev" ∧ ¬ Beneath (inRoot "/dev") dev) := by decide +kernel
  have htargets : ∀ t ∈ targets, Beneath (inRoot "/dev") t := by decide +kernel
  have hpaths : ∀ q ∈ [ascii "/dev", inRoot "/dev"],
      q ≠ ascii "/proc" ∧ ¬ Beneath (ascii "/proc") q := by decide +kernel
  have hprepared : ∀ q ∈ [ascii "/dev", inRoot "/dev"],
      (prepared env c).view.kind q = c.view.kind q := fun q hq => kind_prepared (hpaths q hq)
  -- what becomes of a device in the second half
  have hlast : ∀ (d : Child) dev, dev ∈ devices →
      (mountsSetupAndroidRootfs env d).2.view.kind dev = d.view.kind dev := by
    intro d dev hm
    obtain ⟨-, hproc, hsys, htmp⟩ := clear_paths dev (List.mem_append_left _ hm)
    rw [rootfs_rest hproc hsys htmp, kind_mount (hdevs dev hm).2, kind_mkdir (hdevs dev hm).2.1]
  by_cases hd : DevMounted env c.view
  · have hdir : (prepared env c).view.kind (ascii "/dev") = some .dir :=
      (hprepared _ List.mem_cons_self).trans hd.2
    exact .inl fun dev hm => (hlast _ dev hm).trans (kind_mounted hd.1 hdir (hdevs dev hm).1)
  · obtain ⟨hmount, hroot⟩ := hmounted.resolve_left hd
    have hsame : (prepared env c).mount env (ascii "/dev") nothing = prepared env c := by
      refine if_neg fun h => hd ⟨h.1, ?_⟩
      rw [← hprepared _ List.mem_cons_self]
      exact h.2
    have hrootdir : ((prepared env c).mkdir env (inRoot "/dev")).view.kind (inRoot "/dev") =
        some .dir := by
      have hkind := hprepared (inRoot "/dev") (by simp)
      rcases hroot with hdir | ⟨hnone, hmkdir⟩
      · have hsome : (prepared env c).view.kind (inRoot "/dev") = some .dir := hkind.trans hdir
        have hstays : (prepared env c).mkdir env (inRoot "/dev") = prepared env c := by
          refine if_neg fun h => ?_
          rw [hsome] at h
          exact nomatch h.2
        rw [hstays]
        exact hsome
      · have hmade : (prepared env c).mkdir env (inRoot "/dev") =
            { prepared env c with view := (prepared env c).view.make (inRoot "/dev") .dir } :=
          if_pos ⟨hmkdir, hkind.trans hnone⟩
        rw [hmade]
        exact make_kind_self
    rw [hsame]
    refine .inr ⟨fun dev hm => ?_, fun t hm => ?_⟩
    · rw [hlast _ dev hm, kind_prepared (clear_paths dev (List.mem_append_left _ hm)).1]
      exact hdev dev hm
    · obtain ⟨-, hproc, hsys, htmp⟩ := clear_paths t (List.mem_append_right _ hm)
      rw [rootfs_rest hproc hsys htmp, kind_mounted hmount hrootdir (htargets t hm)]
      decide

end

/-- **No device reaches the container.**  On a host that has no directory in the place of a device (`hdev`),
if the kernel mounts the empty file system on `/dev`, or that on the `/dev` of the container, then
whatever else it permits, and with `--gpu` or without, nothing is bound in the container but the shared
directory. -/
theorem no_device_bound {env : ChildEnv} {config : CtConfig} {c : Child} (hbound : c.bound = [])
    (hdev : ∀ dev ∈ devices, c.view.kind dev ≠ some .dir)
    (hmounted : DevMounted env c.view ∨ RootDevMounted env c.view) :
    ∀ p ∈ (containerChild env config c).2.bound, p.1 = sharedDir := by
  cases hprivate : env.makePrivate with
  | false =>
      rw [containerChild_failed hprivate]
      simp [hbound]
  | true =>
      have hroot := barred_rootfs (c := { c with ready := true }) hprivate hdev hmounted
      have hnone : (mountsSetupAndroidRootfs env
          (nsSetupMount env { c with ready := true }).2).2.bound = [] := by
        rw [bound_rootfs, nsSetupMount_eq hprivate, bound_mount, prepared, bound_mount, bound_mkdir]
        exact hbound
      rw [containerChild_furnish hprivate]
      intro p hp
      refine ((spares_furnish hroot).bound p hp).resolve_left ?_
      rw [hnone]
      exact List.not_mem_nil

/-- A kernel that permits everything. -/
def permissive : ChildEnv where
  makePrivate := true
  mount _ := true
  mkdir _ := true
  mknod _ := true
  sethostname := true
  chdir := true
  execve := true
  proc := nothing
  sysfs := nothing
  propsFile := none

/-- A host with binder. -/
def hostView : MountView where
  kind q :=
    if q = ascii "/dev" ∨ q = androidRoot ∨ q = sharedDir then some .dir
    else if q = binderDevice then some .other
    else none
  own := false
  shared _ := true
  received := []

/-- With every permission and `--gpu`, the container is without its devices. -/
theorem no_device_bound_permissive :
    (∃ dev ∈ devices, hostView.kind dev = some .other) ∧
      ∀ p ∈ (containerChild permissive ⟨nsAll, false, true, CStr.cut CStr.pos_64 []⟩
        (cloned ⟨nsAll, false, true, CStr.cut CStr.pos_64 []⟩ hostView [] [])).2.bound, p.1 = sharedDir :=
  ⟨⟨binderDevice, List.mem_cons_self, by decide +kernel⟩,
    no_device_bound rfl (by decide +kernel) (.inl ⟨rfl, by decide +kernel⟩)⟩

end LumiOS.Container
