import LumiOS.Lumid.Lumictl
import LumiOS.Support.Text

/-!
# Lumid — RequestBytes

The bytes of a request as they stand on the stack of `socket_handle_request`, and how far from the start
of `service_name` they are read.

`strcmp` stops inside the 64 bytes, since every registered name is shorter; a `%s` goes on to the first
NUL.  A name that fills its array is read beyond it wherever it is printed (`safe_iff`).
-/

namespace LumiOS.Lumid

open Support

/-- `ipc_request_t`. -/
structure RequestBytes where
  cmd : Int32
  serviceName : List UInt8
  flags : List UInt8
  serviceName_length : serviceName.length = maxNameLen
  flags_length : flags.length = 4
deriving DecidableEq, Repr

/-- The memory from `service_name` on, with what stands behind the request. -/
def RequestBytes.memory (req : RequestBytes) (behind : List UInt8) : List UInt8 :=
  req.serviceName ++ req.flags ++ behind

/-- The case of the `switch` a `cmd` takes. -/
def ipcCmd (cmd : Int32) : IpcCmd :=
  if cmd = 1 then .start
  else if cmd = 2 then .stop
  else if cmd = 3 then .restart
  else if cmd = 4 then .status
  else if cmd = 5 then .statusAll
  else if cmd = 6 then .enable
  else if cmd = 7 then .disable
  else if cmd = 8 then .log
  else if cmd = 9 then .poweroff
  else if cmd = 10 then .reboot
  else .other cmd.toInt

inductive LogLevel where
  | debug
  | info
  | warn
  | error
  | fatal
deriving DecidableEq, Repr

/-! ### What is read

Each function returns, with its result, how many bytes of the memory it has read. -/

/-- `strcmp` of a string with the one in memory: whether they are equal. -/
def strcmp : List UInt8 → List UInt8 → Bool × Nat
  | [], [] => (true, 1)
  | [], d :: _ => (d = 0, 1)
  | _ :: _, [] => (false, 1)
  | c :: s, d :: mem =>
    if c = d then
      let (equal, count) := strcmp s mem
      (equal, count + 1)
    else (false, 1)

/-- `service_find`. -/
def serviceFind (mem : List UInt8) : List Service → Option Service × Nat
  | [] => (none, 0)
  | svc :: services =>
    let (equal, count) := strcmp svc.name.bytes mem
    if equal then (some svc, count)
    else
      let (found, count') := serviceFind mem services
      (found, max count count')

/-- `%s`: the string, and its terminator. -/
def printString (mem : List UInt8) : List UInt8 × Nat := (cstring mem, (cstring mem).length + 1)

/-- The commands that answer for a name they do not find. -/
def IpcCmd.NamesMissing (cmd : IpcCmd) : Prop :=
  cmd = .start ∨ cmd = .stop ∨ cmd = .restart ∨ cmd = .status

instance (cmd : IpcCmd) : Decidable cmd.NamesMissing :=
  inferInstanceAs (Decidable (_ ∨ _))

/-- The lookup in `socket_handle_request`. -/
def lookup (mem : List UInt8) (r : Registry) : Option Service × Nat :=
  if mem.head? = some 0 then (none, 1)
  else
    let (svc, count) := serviceFind mem r.list
    (svc, max 1 count)

/-- `socket_handle_request` on the bytes of a request: the responses, and how many bytes from the start
of `service_name` have been read. -/
def socketHandleBytes (level : LogLevel) (env : Env) (s : Sys) (req : RequestBytes)
    (behind : List UInt8) : List Response × Nat :=
  let mem := req.memory behind
  let logged := if level = .debug then (printString mem).2 else 0
  let (svc, looked) := lookup mem s.services
  let printed := if (ipcCmd req.cmd).NamesMissing ∧ svc = none then (printString mem).2 else 0
  let (responses, _) := socketHandleRequest env s (some ⟨ipcCmd req.cmd, (printString mem).1⟩)
  (responses, max logged (max looked printed))

/-- The name of a request as far as it reaches within its array. -/
def RequestBytes.name (req : RequestBytes) : List UInt8 := cstring req.serviceName

/-- The name is read within its array, and the responses for one that is not registered depend on the
command and the name only. -/
def RequestBytes.Safe (level : LogLevel) (env : Env) (s : Sys) (req : RequestBytes)
    (behind : List UInt8) : Prop :=
  (socketHandleBytes level env s req behind).2 ≤ maxNameLen ∧
    ((∀ svc ∈ s.services.list, svc.name.bytes ≠ req.name) →
      ∀ (req' : RequestBytes) (behind' : List UInt8), req'.cmd = req.cmd → req'.name = req.name →
        (socketHandleBytes level env s req' behind').1 = (socketHandleBytes level env s req behind).1)

section

variable {s mem behind : List UInt8} {r : Registry} {req req' : RequestBytes}

/-! ### Comparisons -/

/-- `strcmp` reads a byte more than the name it compares with has, at most. -/
theorem strcmp_count (s mem : List UInt8) : (strcmp s mem).2 ≤ s.length + 1 := by
  induction s generalizing mem with
  | nil => cases mem <;> exact Nat.le_refl _
  | cons c s ih =>
      cases mem with
      | nil => exact Nat.le_add_left 1 _
      | cons d mem =>
          rw [strcmp]
          split
          · exact Nat.succ_le_succ (ih mem)
          · exact Nat.le_add_left 1 _

theorem strcmp_eq (h : 0 ∉ s) (mem : List UInt8) : (strcmp s mem).1 = true ↔ s = cstring mem := by
  induction s generalizing mem with
  | nil =>
      cases mem with
      | nil => exact iff_of_true rfl rfl
      | cons d mem =>
          rw [strcmp, cstring, List.takeWhile_cons]
          by_cases hd : d = 0
          · simp [hd]
          · simp [hd]
  | cons c s ih =>
      rw [List.mem_cons, not_or] at h
      cases mem with
      | nil => exact iff_of_false Bool.false_ne_true (List.cons_ne_nil c s)
      | cons d mem =>
          rw [strcmp]
          by_cases hd : c = d
          · subst hd
            rw [if_pos rfl, cstring, List.takeWhile_cons_of_pos (by simpa using Ne.symm h.1),
              List.cons_inj_right]
            exact ih h.2 mem
          · rw [if_neg hd, cstring, List.takeWhile_cons]
            refine iff_of_false Bool.false_ne_true fun heq => ?_
            split at heq
            · exact hd (List.cons.inj heq).1
            · cases heq

/-! ### The lookup -/

theorem serviceFind_count (mem : List UInt8) (services : List Service) :
    (serviceFind mem services).2 ≤ maxNameLen := by
  induction services with
  | nil => exact Nat.zero_le _
  | cons svc services ih =>
      have hone : (strcmp svc.name.bytes mem).2 ≤ maxNameLen :=
        (strcmp_count _ mem).trans svc.name.length_lt
      simp only [serviceFind]
      split
      · exact hone
      · exact Nat.max_le.mpr ⟨hone, ih⟩

theorem serviceFind_eq (mem : List UInt8) (services : List Service) :
    (serviceFind mem services).1 = services.find? (·.name.bytes = cstring mem) := by
  induction services with
  | nil => rfl
  | cons svc services ih =>
      have hone := strcmp_eq svc.name.nul_free mem
      simp only [serviceFind, List.find?_cons]
      by_cases h : svc.name.bytes = cstring mem
      · rw [if_pos (hone.mpr h), decide_eq_true h]
      · rw [if_neg fun heq => h (hone.mp heq), decide_eq_false h]
        exact ih

theorem lookup_count (mem : List UInt8) (r : Registry) : (lookup mem r).2 ≤ maxNameLen := by
  rw [lookup]
  split
  · decide
  · exact Nat.max_le.mpr ⟨by decide, serviceFind_count mem r.list⟩

/-- The service that is found is the one the handler works on. -/
theorem lookup_eq (cmd : IpcCmd) (h : mem ≠ []) (r : Registry) :
    (lookup mem r).1 = Request.service ⟨cmd, cstring mem⟩ r := by
  cases mem with
  | nil => exact absurd rfl h
  | cons c mem =>
      rw [lookup, Request.service, cstring, List.takeWhile_cons]
      by_cases hc : c = 0
      · simp [hc]
      · simp only [List.head?_cons, Option.some.injEq, hc, if_false, ne_eq, not_false_eq_true,
          decide_true, if_true, List.cons_ne_nil, serviceFind_eq]
        simp [cstring, hc]

/-! ### Names that end, and names that fill their array -/

theorem memory_ne_nil (req : RequestBytes) (behind : List UInt8) : req.memory behind ≠ [] := fun h => by
  have hlen := congrArg List.length h
  simp [RequestBytes.memory, req.serviceName_length, maxNameLen] at hlen

theorem name_length_lt_iff (req : RequestBytes) : req.name.length < maxNameLen ↔ 0 ∈ req.serviceName := by
  rw [← req.serviceName_length]
  exact cstring_length_lt_iff

/-- A name that ends is the string that begins there. -/
theorem cstring_memory (h : 0 ∈ req.serviceName) (behind : List UInt8) :
    cstring (req.memory behind) = req.name := by
  rw [RequestBytes.memory, List.append_assoc, cstring_append_of_mem h, RequestBytes.name]

/-- One that does not is a part of it. -/
theorem cstring_memory_of_full (h : 0 ∉ req.serviceName) (behind : List UInt8) :
    cstring (req.memory behind) = req.serviceName ++ cstring (req.flags ++ behind) := by
  rw [RequestBytes.memory, List.append_assoc, cstring_append h]

theorem printString_count (req : RequestBytes) (behind : List UInt8) :
    (printString (req.memory behind)).2 ≤ maxNameLen ↔ 0 ∈ req.serviceName := by
  by_cases h : 0 ∈ req.serviceName
  · refine iff_of_true ?_ h
    rw [printString, cstring_memory h]
    exact (name_length_lt_iff req).mpr h
  · refine iff_of_false ?_ h
    rw [printString, cstring_memory_of_full h, List.length_append, req.serviceName_length]
    omega

/-- No service has a name that fills the array. -/
theorem unknown_of_full (h : 0 ∉ req.serviceName) (cmd : IpcCmd) (behind : List UInt8) (r : Registry) :
    Request.service ⟨cmd, cstring (req.memory behind)⟩ r = none := by
  refine Request.service_unknown fun svc _ heq => ?_
  have hlen := svc.name.length_lt
  rw [heq, cstring_memory_of_full h, List.length_append, req.serviceName_length] at hlen
  omega

/-- The responses to a command that does not name what it misses. -/
theorem responses_unknown {cmd : IpcCmd} (hcmd : ¬ cmd.NamesMissing) (env : Env) (s : Sys)
    {name name' : List UInt8} (h : Request.service ⟨cmd, name⟩ s.services = none)
    (h' : Request.service ⟨cmd, name'⟩ s.services = none) :
    (socketHandleRequest env s (some ⟨cmd, name⟩)).1 =
      (socketHandleRequest env s (some ⟨cmd, name'⟩)).1 := by
  cases cmd with
  | start => exact absurd (.inl rfl) hcmd
  | stop => exact absurd (.inr (.inl rfl)) hcmd
  | restart => exact absurd (.inr (.inr (.inl rfl))) hcmd
  | status => exact absurd (.inr (.inr (.inr rfl))) hcmd
  | _ => simp only [socketHandleRequest, h, h', IpcCmd.toInt]

/-! ### The reads -/

/-- The array is not left exactly where the name ends within it, or is never printed. -/
theorem count_le_iff (level : LogLevel) (env : Env) (s : Sys) (req : RequestBytes)
    (behind : List UInt8) :
    (socketHandleBytes level env s req behind).2 ≤ maxNameLen ↔
      0 ∈ req.serviceName ∨ level ≠ .debug ∧ ¬ (ipcCmd req.cmd).NamesMissing := by
  have hlook := lookup_count (req.memory behind) s.services
  have hprint (c : Prop) [Decidable c] :
      (if c then (printString (req.memory behind)).2 else 0) ≤ maxNameLen ↔ (c → 0 ∈ req.serviceName) := by
    split
    · rename_i hc
      rw [printString_count, forall_prop_of_true hc]
    · rename_i hc
      exact iff_of_true (Nat.zero_le _) fun h => absurd h hc
  have hnone (h : 0 ∉ req.serviceName) : (lookup (req.memory behind) s.services).1 = none := by
    rw [lookup_eq (ipcCmd req.cmd) (memory_ne_nil req behind), unknown_of_full h]
  simp only [socketHandleBytes, Nat.max_le, hlook, true_and, hprint]
  by_cases h : 0 ∈ req.serviceName
  · simp only [h, implies_true, and_self, true_or]
  · simp only [h, imp_false, false_or, hnone h, and_true, ne_eq]

/-- **A request is read within its array, and answered from it,** exactly when its name ends there, or is
neither logged nor printed. -/
theorem safe_iff (level : LogLevel) (env : Env) (s : Sys) (req : RequestBytes) (behind : List UInt8) :
    req.Safe level env s behind ↔
      0 ∈ req.serviceName ∨ level ≠ .debug ∧ ¬ (ipcCmd req.cmd).NamesMissing := by
  rw [RequestBytes.Safe, count_le_iff]
  refine and_iff_left_of_imp fun h _ req' behind' hcmd hname => ?_
  change (socketHandleRequest env s (some ⟨ipcCmd req'.cmd, cstring (req'.memory behind')⟩)).1 =
    (socketHandleRequest env s (some ⟨ipcCmd req.cmd, cstring (req.memory behind)⟩)).1
  rw [hcmd]
  by_cases hnul : 0 ∈ req.serviceName
  · have hnul' : 0 ∈ req'.serviceName := by
      rw [← name_length_lt_iff, hname]
      exact (name_length_lt_iff req).mpr hnul
    rw [cstring_memory hnul, cstring_memory hnul', hname]
  · have hnul' : 0 ∉ req'.serviceName := by
      rw [← name_length_lt_iff, hname]
      exact fun hlt => hnul ((name_length_lt_iff req).mp hlt)
    exact responses_unknown (h.resolve_left hnul).2 env s (unknown_of_full hnul' _ _ _)
      (unknown_of_full hnul _ _ _)

end

/-- A `CMD_STATUS` with a name of 64 letters. -/
def fullName : RequestBytes where
  cmd := 4
  serviceName := List.replicate 64 65
  flags := ascii "leak"
  serviceName_length := List.length_replicate
  flags_length := rfl

/-- The flags are read as a part of it. -/
theorem fullName_unsafe : ¬ ∀ level env s (req : RequestBytes) behind, req.Safe level env s behind := by
  intro h
  have hreads := (h .info (Env.plain 11 0) (Sys.init 0) fullName []).1
  exact absurd hreads (by decide +kernel)

end LumiOS.Lumid
