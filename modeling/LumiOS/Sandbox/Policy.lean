import LumiOS.Support.CStr
import LumiOS.Sandbox.Seccomp

/-!
# Sandbox — Policy

`sbx_policy_t` and the functions that build one: `sbx_policy_default`, `landlock_add_path` and
`seccomp_add_rule` with its two presets.

The numbers of the system calls come from the C library's headers, which also decide which of the
names behind an `#ifdef` exist: they are a `SyscallTable`.  A level is the `int` that `atoi` and
`printf` see of an `sbx_level_t`.

A policy is built by filling arrays with counters.  Nobody looks at the answer when an array is full, so
what does not fit is left out; a rule that is in a list is never changed, and never taken out.  What the
kernel makes of a policy is in Landlock, Seccomp and Apply, what a file makes of one in PolicyFile.
-/

namespace LumiOS.Sandbox

open Support

/-! ### Flags and levels of `sandbox.h` -/

/-- `SBX_FS_READ`. -/
def fsRead : UInt32 := 1

/-- `SBX_FS_WRITE`. -/
def fsWrite : UInt32 := 2

/-- `SBX_FS_EXECUTE`. -/
def fsExecute : UInt32 := 4

/-- `SBX_FS_CREATE`. -/
def fsCreate : UInt32 := 8

/-- `SBX_FS_DELETE`. -/
def fsDelete : UInt32 := 16

/-- `SBX_FS_TRUNCATE`. -/
def fsTruncate : UInt32 := 32

/-- `SBX_NET_NONE`. -/
def netNone : UInt32 := 0

/-- `SBX_NET_TCP_CONNECT`. -/
def netTcpConnect : UInt32 := 1

/-- `SBX_NET_DNS`. -/
def netDns : UInt32 := 8

/-- `SBX_NET_FULL`. -/
def netFull : UInt32 := 0xFF

/-- `SBX_IPC_NONE`. -/
def ipcNone : UInt32 := 0

/-- `SBX_IPC_PIPE`. -/
def ipcPipe : UInt32 := 1

/-- `SBX_IPC_SOCKET`. -/
def ipcSocket : UInt32 := 2

/-- `SBX_IPC_SHM`. -/
def ipcShm : UInt32 := 4

/-- `SBX_IPC_DBUS`. -/
def ipcDbus : UInt32 := 8

/-- `SBX_HW_NONE`. -/
def hwNone : UInt32 := 0

/-- No sandbox. -/
def levelNone : Int32 := 0

/-- Limits of the file system only. -/
def levelTrusted : Int32 := 1

/-- Files and system calls. -/
def levelNormal : Int32 := 2

/-- Files and system calls, and no network. -/
def levelStrict : Int32 := 3

/-- All restrictions. -/
def levelUntrusted : Int32 := 4

/-- `SBX_MAX_PATH_RULES`. -/
def maxPathRules : Nat := 64

/-! ### Policies -/

/-- `sbx_path_rule_t`. -/
structure PathRule where
  path : CStr 256
  flags : UInt32
deriving DecidableEq, Repr

/-- `sbx_policy_t`; the rules are those below `num_path_rules` and `num_syscall_rules`, and a field
left out is zero. -/
structure Policy extends SyscallPolicy where
  name : CStr 64 := .cut (by decide) []
  level : Int32 := levelNone
  pathRules : List PathRule := []
  pathRules_le : pathRules.length ≤ maxPathRules := by decide
  netFlags : UInt32 := 0
  ipcFlags : UInt32 := 0
  hwFlags : UInt32 := 0
  apparmorProfile : CStr 128 := .cut (by decide) []
  maxMemory : UInt64 := 0
  maxPids : UInt32 := 0
  maxFds : UInt32 := 0
  maxCpuPct : UInt32 := 0

/-- A policy after `memset`. -/
def Policy.zero : Policy := { SyscallPolicy.empty with }

/-- `landlock_add_path`: the rule goes behind the others, where there is room. -/
def landlockAddPath (policy : Policy) (path : List UInt8) (flags : UInt32) : Int × Policy :=
  if h : maxPathRules ≤ policy.pathRules.length then (-1, policy)
  else
    (0, { policy with
      pathRules := policy.pathRules ++ [⟨.cut (by decide) path, flags⟩]
      pathRules_le := by
        rw [List.length_append]
        exact Nat.not_le.mp h })

/-- `seccomp_add_rule` on a whole policy. -/
def Policy.addRule (policy : Policy) (syscallNr : Int32) (action : SyscallAction) : Int × Policy :=
  let (ret, syscalls) := seccompAddRule policy.toSyscallPolicy syscallNr action
  (ret, { policy with toSyscallPolicy := syscalls })

/-- What a list with room for `n` takes, in two parts. -/
theorem take_take_append {α : Type} (n : Nat) (xs ys : List α) :
    (xs.take n ++ ys).take n = (xs ++ ys).take n := by
  rw [List.take_append, List.take_append, List.take_take, Nat.min_self, List.length_take]
  congr 2
  omega

/-! ### Presets -/

/-- The `SYS_` names of `seccomp.c`. -/
inductive SyscallName where
  | mount | umount2 | pivotRoot
  | reboot | kexecLoad
  | initModule | finitModule | deleteModule
  | swapon | swapoff
  | sethostname | setdomainname
  | acct | lookupDcookie | perfEventOpen | bpf
  | socket | connect | accept | bind | listen
  | sendto | recvfrom | sendmsg | recvmsg
  | setsockopt | getsockopt
  | ptrace
  | processVmReadv | processVmWritev
  | userfaultfd
  | ioUringSetup | ioUringEnter | ioUringRegister
  | keyctl | requestKey | addKey
deriving DecidableEq, Repr

/-- The number of a system call, if the headers define the name. -/
abbrev SyscallTable := SyscallName → Option Int32

/-- `blocked_normal`, without the `-1` at its end. -/
def blockedNormal : List SyscallName :=
  [.mount, .umount2, .pivotRoot, .reboot, .kexecLoad, .initModule, .finitModule, .deleteModule,
    .swapon, .swapoff, .sethostname, .setdomainname, .acct, .lookupDcookie, .perfEventOpen, .bpf]

/-- `blocked_strict`, without the `-1` at its end. -/
def blockedStrict : List SyscallName :=
  [.socket, .connect, .accept, .bind, .listen, .sendto, .recvfrom, .sendmsg, .recvmsg, .setsockopt,
    .getsockopt, .ptrace, .processVmReadv, .processVmWritev, .userfaultfd, .ioUringSetup,
    .ioUringEnter, .ioUringRegister, .keyctl, .requestKey, .addKey]

/-- The loop of a preset over its array, up to the first negative number. -/
def denyAll : List Int32 → Policy → Policy
  | [], policy => policy
  | nr :: nrs, policy => if 0 ≤ nr then denyAll nrs (policy.addRule nr .deny).2 else policy

/-- A blacklist of what administers the system. -/
def seccompPresetNormal (sys : SyscallTable) (policy : Policy) : Policy :=
  denyAll (blockedNormal.filterMap sys) { policy with syscallWhitelist := false }

/-- That blacklist, with the network and what reaches into other processes. -/
def seccompPresetStrict (sys : SyscallTable) (policy : Policy) : Policy :=
  denyAll (blockedStrict.filterMap sys) (seccompPresetNormal sys policy)

/-! ### The default policies -/

/-- A call of `landlock_add_path` whose answer is not looked at. -/
def Policy.withPath (policy : Policy) (path : String) (flags : UInt32) : Policy :=
  (landlockAddPath policy (ascii path) flags).2

/-- `SBX_LEVEL_NONE`: everything is permitted. -/
def policyNone (policy : Policy) : Policy :=
  { policy with
    netFlags := netFull
    ipcFlags := ipcPipe ||| ipcSocket ||| ipcShm ||| ipcDbus
    hwFlags := 0xFF }

/-- `SBX_LEVEL_TRUSTED`: three paths, and no filter. -/
def policyTrusted (policy : Policy) : Policy :=
  let policy := policy.withPath "/usr" (fsRead ||| fsExecute)
  let policy := policy.withPath "/etc" fsRead
  let policy := policy.withPath "/tmp" (fsRead ||| fsWrite ||| fsCreate)
  { policy with
    netFlags := netFull
    ipcFlags := ipcPipe ||| ipcSocket ||| ipcDbus
    hwFlags := 0xFF }

/-- `SBX_LEVEL_NORMAL`: five paths, and the normal filter. -/
def policyNormal (sys : SyscallTable) (policy : Policy) : Policy :=
  let policy := policy.withPath "/usr" (fsRead ||| fsExecute)
  let policy := policy.withPath "/etc" fsRead
  let policy := policy.withPath "/tmp" (fsRead ||| fsWrite ||| fsCreate)
  let policy := policy.withPath "/dev/null" (fsRead ||| fsWrite)
  let policy := policy.withPath "/dev/urandom" fsRead
  let policy := seccompPresetNormal sys policy
  { policy with
    netFlags := netTcpConnect ||| netDns
    ipcFlags := ipcPipe ||| ipcDbus
    hwFlags := hwNone
    maxFds := 256
    maxPids := 16 }

/-- `SBX_LEVEL_STRICT`: four paths, and the strict filter. -/
def policyStrict (sys : SyscallTable) (policy : Policy) : Policy :=
  let policy := policy.withPath "/usr" (fsRead ||| fsExecute)
  let policy := policy.withPath "/etc" fsRead
  let policy := policy.withPath "/dev/null" (fsRead ||| fsWrite)
  let policy := policy.withPath "/dev/urandom" fsRead
  let policy := seccompPresetStrict sys policy
  { policy with
    netFlags := netNone
    ipcFlags := ipcPipe
    hwFlags := hwNone
    maxFds := 64
    maxPids := 4 }

/-- `SBX_LEVEL_UNTRUSTED`: two paths, the strict filter, and limits. -/
def policyUntrusted (sys : SyscallTable) (policy : Policy) : Policy :=
  let policy := policy.withPath "/usr/lib" fsRead
  let policy := policy.withPath "/dev/null" (fsRead ||| fsWrite)
  let policy := seccompPresetStrict sys policy
  { policy with
    netFlags := netNone
    ipcFlags := ipcNone
    hwFlags := hwNone
    maxMemory := 256 * 1024 * 1024
    maxFds := 32
    maxPids := 2
    maxCpuPct := 50 }

/-- `sbx_policy_default`.  A level that is none of the five leaves the policy zero, but for the level. -/
def sbxPolicyDefault (sys : SyscallTable) (level : Int32) : Policy :=
  let policy := { Policy.zero with level := level }
  if level = levelNone then policyNone policy
  else if level = levelTrusted then policyTrusted policy
  else if level = levelNormal then policyNormal sys policy
  else if level = levelStrict then policyStrict sys policy
  else if level = levelUntrusted then policyUntrusted sys policy
  else policy

/-- The numbers of x86_64. -/
def SyscallTable.x86 : SyscallTable
  | .mount => some 165
  | .umount2 => some 166
  | .pivotRoot => some 155
  | .reboot => some 169
  | .kexecLoad => some 246
  | .initModule => some 175
  | .finitModule => some 313
  | .deleteModule => some 176
  | .swapon => some 167
  | .swapoff => some 168
  | .sethostname => some 170
  | .setdomainname => some 171
  | .acct => some 163
  | .lookupDcookie => some 212
  | .perfEventOpen => some 298
  | .bpf => some 321
  | .socket => some 41
  | .connect => some 42
  | .accept => some 43
  | .bind => some 49
  | .listen => some 50
  | .sendto => some 44
  | .recvfrom => some 45
  | .sendmsg => some 46
  | .recvmsg => some 47
  | .setsockopt => some 54
  | .getsockopt => some 55
  | .ptrace => some 101
  | .processVmReadv => some 310
  | .processVmWritev => some 311
  | .userfaultfd => some 323
  | .ioUringSetup => some 425
  | .ioUringEnter => some 426
  | .ioUringRegister => some 427
  | .keyctl => some 250
  | .requestKey => some 249
  | .addKey => some 248

end LumiOS.Sandbox
