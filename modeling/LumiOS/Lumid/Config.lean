import LumiOS.Support.Numerals
import LumiOS.Support.Words
import LumiOS.Lumid.Child
import LumiOS.Lumid.Machine

/-!
# Lumid — Config

The parser of service files, `config.c`: a loop over the lines with the section in force and the
service it fills.  On lines that fit its buffers it is a fold over the file's assignments, and leaves in
a service fresh from `service_create` what `reference` says of them (`configParseService_reference`).

`strncpy` pads with zeroes, so that a string that is assigned again leaves nothing of the one before it
(`Buf.strncpy_eq`).  A `=` behind 128 bytes makes `config_parse_value` write outside `char key[128]`;
the model has no result then.
-/

namespace LumiOS.Lumid

open Support

def maxLineLen : Nat := 1024

def maxDeps : Nat := 32

def maxEnv : Nat := 64

/-! ### Values -/

/-- `config_parse_value`: the key and the value, and the length the key had before it was trimmed,
which is where the NUL goes. -/
def configParseValue (line : List UInt8) (max : Nat) : Option (Nat × List UInt8 × List UInt8) :=
  match breakAt 61 line with
  | none => none
  | some (before, after) =>
    let keyLen := if max ≤ before.length then max - 1 else before.length
    some (keyLen, trim (before.take keyLen), trimRight ((trimLeft after).take (max - 1)))

def parseRestartPolicy (str : List UInt8) : RestartPolicy :=
  if str = ascii "always" then .always
  else if str = ascii "on-failure" then .onFailure
  else if str = ascii "on-abnormal" then .onAbnormal
  else .never

def parseServiceType (str : List UInt8) : SvcType :=
  if str = ascii "forking" then .forking
  else if str = ascii "oneshot" then .oneshot
  else if str = ascii "notify" then .notify
  else .simple

/-- `parse_dep_list`: the entries it writes, as many as it returns. -/
def parseDepList (str : List UInt8) (maxCount : Nat) : List Name :=
  ((tokens (ascii " \t,") (str.take (maxLineLen - 1))).take maxCount).map (CStr.cut (by decide))

/-- `util_parse_size`, when it returns 0.  A product out of range wraps. -/
def utilParseSize (str : List UInt8) : Option Int64 :=
  match scanInteger 10 str with
  | none => none
  | some n =>
    match n.rest.head? with
    | none => some n.toLong
    | some c =>
      if c = 75 ∨ c = 107 then some (n.toLong * 1024)
      else if c = 77 ∨ c = 109 then some (n.toLong * (1024 * 1024))
      else if c = 71 ∨ c = 103 then some (n.toLong * (1024 * 1024 * 1024))
      else if c = 84 ∨ c = 116 then some (n.toLong * (1024 * 1024 * 1024 * 1024))
      else if c = 0 ∨ c = 10 ∨ c = 13 then some n.toLong
      else none

/-! ### The service a file is parsed into -/

/-- The fields of `service_t` that `config_parse_service` writes: strings with the whole of their
arrays, lists up to their count. -/
structure ServiceFile where
  name : Buf maxNameLen
  description : Buf maxPathLen
  execPath : Buf maxPathLen
  execArgs : Buf maxPathLen
  workingDir : Buf maxPathLen
  type : SvcType
  user : Buf maxNameLen
  group : Buf maxNameLen
  requires : List Name
  after : List Name
  before : List Name
  restartPolicy : RestartPolicy
  restartDelayMs : Int32
  restartMaxRetries : Int32
  memoryMax : Int64
  memoryHigh : Int64
  cpuWeight : Int32
  cpuMax : Int32
  ioWeight : Int32
  pidsMax : Int32
  env : List (Buf maxNameLen × Buf maxPathLen)
deriving DecidableEq, Repr

/-- As `service_create` leaves them. -/
def ServiceFile.created : ServiceFile where
  name := .zero (by decide)
  description := .zero (by decide)
  execPath := .zero (by decide)
  execArgs := .zero (by decide)
  workingDir := .zero (by decide)
  type := .simple
  user := .zero (by decide)
  group := .zero (by decide)
  requires := []
  after := []
  before := []
  restartPolicy := .never
  restartDelayMs := 1000
  restartMaxRetries := 5
  memoryMax := -1
  memoryHigh := -1
  cpuWeight := 100
  cpuMax := -1
  ioWeight := 100
  pidsMax := -1
  env := []

/-- The keys outside `[environment]`. -/
inductive ConfigKey where
  | name | description | exec | args | type | user | group | workdir
  | requires | after | before
  | policy | delay | maxRetries
  | memoryMax | memoryHigh | cpuWeight | cpuMax | ioWeight | pidsMax
deriving DecidableEq, Repr

def ConfigKey.of (sect key : List UInt8) : Option ConfigKey :=
  if sect = ascii "service" then
    if key = ascii "name" then some .name
    else if key = ascii "description" then some .description
    else if key = ascii "exec" then some .exec
    else if key = ascii "args" then some .args
    else if key = ascii "type" then some .type
    else if key = ascii "user" then some .user
    else if key = ascii "group" then some .group
    else if key = ascii "workdir" then some .workdir
    else none
  else if sect = ascii "dependencies" then
    if key = ascii "requires" then some .requires
    else if key = ascii "after" then some .after
    else if key = ascii "before" then some .before
    else none
  else if sect = ascii "restart" then
    if key = ascii "policy" then some .policy
    else if key = ascii "delay" then some .delay
    else if key = ascii "max_retries" then some .maxRetries
    else none
  else if sect = ascii "cgroup" then
    if key = ascii "memory_max" then some .memoryMax
    else if key = ascii "memory_high" then some .memoryHigh
    else if key = ascii "cpu_weight" then some .cpuWeight
    else if key = ascii "cpu_max" then some .cpuMax
    else if key = ascii "io_weight" then some .ioWeight
    else if key = ascii "pids_max" then some .pidsMax
    else none
  else none

/-- What a key does with its value. -/
def ServiceFile.assign (svc : ServiceFile) (key : ConfigKey) (value : List UInt8) : ServiceFile :=
  match key with
  | .name => { svc with name := svc.name.strncpy value }
  | .description => { svc with description := svc.description.strncpy value }
  | .exec => { svc with execPath := svc.execPath.strncpy value }
  | .args => { svc with execArgs := svc.execArgs.strncpy value }
  | .type => { svc with type := parseServiceType value }
  | .user => { svc with user := svc.user.strncpy value }
  | .group => { svc with group := svc.group.strncpy value }
  | .workdir => { svc with workingDir := svc.workingDir.strncpy value }
  | .requires => { svc with requires := parseDepList value maxDeps }
  | .after => { svc with after := parseDepList value maxDeps }
  | .before => { svc with before := parseDepList value maxDeps }
  | .policy => { svc with restartPolicy := parseRestartPolicy value }
  | .delay => { svc with restartDelayMs := atoi value }
  | .maxRetries => { svc with restartMaxRetries := atoi value }
  | .memoryMax => { svc with memoryMax := (utilParseSize value).getD svc.memoryMax }
  | .memoryHigh => { svc with memoryHigh := (utilParseSize value).getD svc.memoryHigh }
  | .cpuWeight => { svc with cpuWeight := atoi value }
  | .cpuMax => { svc with cpuMax := atoi value }
  | .ioWeight => { svc with ioWeight := atoi value }
  | .pidsMax => { svc with pidsMax := atoi value }

/-- A key and its value, in the section in force. -/
def ServiceFile.setPair (svc : ServiceFile) (sect key value : List UInt8) : ServiceFile :=
  if sect = ascii "environment" then
    if svc.env.length < maxEnv then
      -- the entry is still zero: each is written once
      { svc with env := svc.env ++
        [((Buf.zero (by decide)).strncpy key, (Buf.zero (by decide)).strncpy value)] }
    else svc
  else
    match ConfigKey.of sect key with
    | some k => svc.assign k value
    | none => svc

/-! ### The loop -/

/-- `section`, and the service. -/
structure ConfigState where
  sect : Buf 64
  svc : ServiceFile

/-- What a line does, as it is after `trim`; nothing if it writes outside `char key[128]`. -/
def configLine (st : ConfigState) (l : List UInt8) : Option ConfigState :=
  if l = [] ∨ l.head? = some 35 ∨ l.head? = some 59 then some st
  else if l.head? = some 91 then
    match breakAt 93 l with
    | none => some st
    | some (header, _) => some { st with sect := st.sect.strncpy header.tail }
  else
    match configParseValue l maxPathLen with
    | none => some st
    | some (keyLen, key, value) =>
      if keyLen < 128 then some { st with svc := st.svc.setPair st.sect.string.bytes key value }
      else none

/-- The loop of `config_parse_service`, for one call of `fgets`. -/
def configPiece (st : ConfigState) (piece : List UInt8) : Option ConfigState :=
  configLine st (trim (cstring piece))

/-- The loop over the file. -/
def configLoop (text : List UInt8) (svc : ServiceFile) : Option ConfigState :=
  (pieces (maxLineLen - 1) text).foldlM configPiece ⟨.zero CStr.pos_64, svc⟩

/-- The validation at the end. -/
def configResult (svc : ServiceFile) : Int :=
  if svc.name.string.bytes = [] then -1
  else if svc.execPath.string.bytes = [] then -1
  else 0

/-- `config_parse_service` on a file with this text, if `fopen` finds it.  There is no result when a
line writes outside an array. -/
def configParseService (file : Option (List UInt8)) (svc : ServiceFile) :
    Option (Int × ServiceFile) :=
  match file with
  | none => some (-1, svc)
  | some text => (configLoop text svc).map fun st => (configResult st.svc, st.svc)

/-! ### The reference -/

/-- The section and the key under which a file names a field. -/
def ConfigKey.names : ConfigKey → List UInt8 × List UInt8
  | .name => (ascii "service", ascii "name")
  | .description => (ascii "service", ascii "description")
  | .exec => (ascii "service", ascii "exec")
  | .args => (ascii "service", ascii "args")
  | .type => (ascii "service", ascii "type")
  | .user => (ascii "service", ascii "user")
  | .group => (ascii "service", ascii "group")
  | .workdir => (ascii "service", ascii "workdir")
  | .requires => (ascii "dependencies", ascii "requires")
  | .after => (ascii "dependencies", ascii "after")
  | .before => (ascii "dependencies", ascii "before")
  | .policy => (ascii "restart", ascii "policy")
  | .delay => (ascii "restart", ascii "delay")
  | .maxRetries => (ascii "restart", ascii "max_retries")
  | .memoryMax => (ascii "cgroup", ascii "memory_max")
  | .memoryHigh => (ascii "cgroup", ascii "memory_high")
  | .cpuWeight => (ascii "cgroup", ascii "cpu_weight")
  | .cpuMax => (ascii "cgroup", ascii "cpu_max")
  | .ioWeight => (ascii "cgroup", ascii "io_weight")
  | .pidsMax => (ascii "cgroup", ascii "pids_max")

/-- How a trimmed line reads. -/
inductive LineKind where
  /-- Blank, a comment, or malformed. -/
  | skipped
  | header (sect : List UInt8)
  | pair (key value : List UInt8)
deriving DecidableEq, Repr

/-- A value: the text without the blanks around it, of which `value` holds 255 bytes. -/
def lineValue (s : List UInt8) : List UInt8 := trimRight ((trimLeft s).take (maxPathLen - 1))

def LineKind.of (l : List UInt8) : LineKind :=
  if l = [] ∨ l.head? = some 35 ∨ l.head? = some 59 then .skipped
  else if l.head? = some 91 then
    match breakAt 93 l with
    | none => .skipped
    | some (before, _) => .header before.tail
  else
    match breakAt 61 l with
    | none => .skipped
    | some (key, value) => .pair (trim key) (lineValue value)

/-- An assignment of a file, with the section it stands in. -/
structure Assignment where
  sect : List UInt8
  key : List UInt8
  value : List UInt8
deriving DecidableEq, Repr

/-- The assignments of these lines, from a section on.  Of the name of a section, 63 bytes are kept. -/
def assignments : List UInt8 → List (List UInt8) → List Assignment
  | _, [] => []
  | sect, line :: lines =>
    match LineKind.of (trim line) with
    | .skipped => assignments sect lines
    | .header sect => assignments (sect.take 63) lines
    | .pair key value => ⟨sect, key, value⟩ :: assignments sect lines

/-- The values a field is assigned, in order. -/
def values (as : List Assignment) (k : ConfigKey) : List (List UInt8) :=
  (as.filter fun a => (a.sect, a.key) = k.names).map (·.value)

/-- The last of them. -/
def lastValue (as : List Assignment) (k : ConfigKey) : Option (List UInt8) := (values as k).getLast?

/-- The array of a string field: its last value, cut to fit, and zeroes. -/
def lastString {cap : Nat} (h : 0 < cap) (as : List Assignment) (k : ConfigKey) : Buf cap :=
  .holding (.cut h ((lastValue as k).getD []))

def lastInt (as : List Assignment) (k : ConfigKey) (default : Int32) : Int32 :=
  ((lastValue as k).map atoi).getD default

/-- A space, a tab or a comma. -/
def isSep (c : UInt8) : Bool := (ascii " \t,").contains c

/-- The names in a list: the words between separators, 32 of them at most, and 63 bytes of each. -/
def listNames (value : List UInt8) : List Name :=
  ((words isSep value).take maxDeps).map (CStr.cut CStr.pos_64)

def lastList (as : List Assignment) (k : ConfigKey) : List Name :=
  ((lastValue as k).map listNames).getD []

/-- The types, as a file names them. -/
def typeNames : List (List UInt8 × SvcType) :=
  [(ascii "forking", .forking), (ascii "oneshot", .oneshot), (ascii "notify", .notify),
    (ascii "simple", .simple)]

/-- The policies, as a file names them. -/
def policyNames : List (List UInt8 × RestartPolicy) :=
  [(ascii "always", .always), (ascii "on-failure", .onFailure), (ascii "on-abnormal", .onAbnormal),
    (ascii "never", .never)]

/-- What the last value names; any other name, and none, is for the default. -/
def lastNamed {α : Type} (names : List (List UInt8 × α)) (default : α) (as : List Assignment)
    (k : ConfigKey) : α :=
  ((lastValue as k).bind fun value => List.lookup value names).getD default

/-- The last size `util_parse_size` accepts. -/
def lastSize (as : List Assignment) (k : ConfigKey) : Int64 :=
  ((values as k).filterMap utilParseSize).getLast?.getD (-1)

/-- What the assignments of a file leave in a service. -/
def reference (as : List Assignment) : ServiceFile where
  name := lastString (by decide) as .name
  description := lastString (by decide) as .description
  execPath := lastString (by decide) as .exec
  execArgs := lastString (by decide) as .args
  workingDir := lastString (by decide) as .workdir
  type := lastNamed typeNames .simple as .type
  user := lastString (by decide) as .user
  group := lastString (by decide) as .group
  requires := lastList as .requires
  after := lastList as .after
  before := lastList as .before
  restartPolicy := lastNamed policyNames .never as .policy
  restartDelayMs := lastInt as .delay 1000
  restartMaxRetries := lastInt as .maxRetries 5
  memoryMax := lastSize as .memoryMax
  memoryHigh := lastSize as .memoryHigh
  cpuWeight := lastInt as .cpuWeight 100
  cpuMax := lastInt as .cpuMax (-1)
  ioWeight := lastInt as .ioWeight 100
  pidsMax := lastInt as .pidsMax (-1)
  env := ((as.filter (·.sect = ascii "environment")).take maxEnv).map fun a =>
    (.holding (.cut (by decide) a.key), .holding (.cut (by decide) a.value))

/-! ### The fold -/

section

variable {as : List Assignment} {a : Assignment} {k : ConfigKey}

theorem ConfigKey.of_names (k : ConfigKey) : ConfigKey.of k.names.1 k.names.2 = some k := by
  cases k <;> rfl

/-- A list that a line holds is cut nowhere before it is parsed. -/
theorem parseDepList_eq {value : List UInt8} (h : value.length < maxLineLen) :
    parseDepList value maxDeps = listNames value := by
  have hlen : value.length ≤ maxLineLen - 1 := Nat.le_of_lt_succ h
  rw [parseDepList, List.take_of_length_le hlen, tokens_eq_words]
  rfl

theorem getD_lookup_cons {α : Type} (str name : List UInt8) (x default : α)
    (names : List (List UInt8 × α)) :
    (List.lookup str ((name, x) :: names)).getD default =
      if str = name then x else (List.lookup str names).getD default := by
  rw [List.lookup_cons]
  by_cases h : str = name
  · rw [beq_iff_eq.mpr h, if_pos h, Option.getD_some]
  · rw [beq_false_of_ne h, if_neg h]

/-- The default is named by its own name as well. -/
theorem parseServiceType_eq (str : List UInt8) :
    parseServiceType str = (List.lookup str typeNames).getD .simple := by
  simp only [parseServiceType, typeNames, getD_lookup_cons, List.lookup_nil, Option.getD_none, ite_self]

theorem parseRestartPolicy_eq (str : List UInt8) :
    parseRestartPolicy str = (List.lookup str policyNames).getD .never := by
  simp only [parseRestartPolicy, policyNames, getD_lookup_cons, List.lookup_nil, Option.getD_none,
    ite_self]

/-- One step down a chain of comparisons. -/
theorem eq_or_of_ite {α : Type} {c : Prop} [Decidable c] {x y : α} {o : Option α}
    (h : (if c then some x else o) = some y) : (c ∧ x = y) ∨ o = some y := by
  split at h
  · rename_i hc
    exact .inl ⟨hc, Option.some.inj h⟩
  · exact .inr h

theorem ConfigKey.of_eq_some {sect key : List UInt8} (h : ConfigKey.of sect key = some k) :
    (sect, key) = k.names := by
  rw [ConfigKey.of] at h
  by_cases hs : sect = ascii "service"
  · rw [if_pos hs] at h
    repeat (obtain ⟨hk, rfl⟩ | h := eq_or_of_ite h; · rw [hs, hk]; rfl)
    cases h
  rw [if_neg hs] at h
  by_cases hs : sect = ascii "dependencies"
  · rw [if_pos hs] at h
    repeat (obtain ⟨hk, rfl⟩ | h := eq_or_of_ite h; · rw [hs, hk]; rfl)
    cases h
  rw [if_neg hs] at h
  by_cases hs : sect = ascii "restart"
  · rw [if_pos hs] at h
    repeat (obtain ⟨hk, rfl⟩ | h := eq_or_of_ite h; · rw [hs, hk]; rfl)
    cases h
  rw [if_neg hs] at h
  by_cases hs : sect = ascii "cgroup"
  · rw [if_pos hs] at h
    repeat (obtain ⟨hk, rfl⟩ | h := eq_or_of_ite h; · rw [hs, hk]; rfl)
    cases h
  rw [if_neg hs] at h
  cases h

theorem ConfigKey.sect_ne (k : ConfigKey) : k.names.1 ≠ ascii "environment" := by
  cases k <;> decide

theorem ConfigKey.of_environment (key : List UInt8) :
    ConfigKey.of (ascii "environment") key = none := by
  cases h : ConfigKey.of (ascii "environment") key with
  | none => rfl
  | some k => exact absurd (congrArg Prod.fst (ConfigKey.of_eq_some h)).symm k.sect_ne

theorem values_concat (as : List Assignment) (a : Assignment) (k : ConfigKey) :
    values (as ++ [a]) k =
      values as k ++ if ConfigKey.of a.sect a.key = some k then [a.value] else [] := by
  have hiff : ((a.sect, a.key) = k.names) ↔ ConfigKey.of a.sect a.key = some k := by
    constructor
    · intro h
      rw [← ConfigKey.of_names k, ← h]
    · exact ConfigKey.of_eq_some
  simp only [values, List.filter_append, List.map_append, List.filter_cons, List.filter_nil,
    decide_eq_true_iff, hiff]
  split <;> rfl

/-- The pairs of `[environment]`. -/
theorem env_concat (as : List Assignment) (a : Assignment) :
    (reference (as ++ [a])).env =
      if a.sect = ascii "environment" ∧ (reference as).env.length < maxEnv then
        (reference as).env ++ [(.holding (.cut (by decide) a.key), .holding (.cut (by decide) a.value))]
      else (reference as).env := by
  simp only [reference, List.filter_append, List.filter_cons, List.filter_nil, decide_eq_true_iff]
  by_cases hs : a.sect = ascii "environment"
  · simp only [hs, if_true, true_and, List.length_map, List.length_take]
    rw [List.take_append]
    split
    · rename_i hlt
      rw [List.map_append, List.take_of_length_le (l := [a]) (by
        rw [List.length_singleton]
        omega)]
      rfl
    · rename_i hlt
      rw [show maxEnv - _ = 0 from by omega, List.take_zero, List.append_nil]
  · simp [hs]

/-- A pair that assigns no field may be one of the environment. -/
theorem reference_concat_of_none (as : List Assignment)
    (h : ConfigKey.of a.sect a.key = none) :
    reference (as ++ [a]) = { reference as with env := (reference (as ++ [a])).env } := by
  simp [reference, lastString, lastInt, lastList, lastNamed, lastSize, lastValue, values_concat, h]

/-- **One more assignment.** -/
theorem reference_concat (as : List Assignment) (ha : a.value.length < maxLineLen) :
    reference (as ++ [a]) = (reference as).setPair a.sect a.key a.value := by
  have henv := env_concat as a
  rw [ServiceFile.setPair]
  by_cases hs : a.sect = ascii "environment"
  · have hk : ConfigKey.of a.sect a.key = none := hs ▸ ConfigKey.of_environment a.key
    rw [if_pos hs, reference_concat_of_none as hk, henv]
    simp only [hs, true_and, Buf.strncpy_eq]
    split <;> rfl
  · rw [if_neg hs]
    cases hk : ConfigKey.of a.sect a.key with
    | none =>
        rw [reference_concat_of_none as hk, henv, if_neg fun h => hs h.1]
    | some k =>
        cases k <;>
          simp [reference, hs, lastString, lastInt, lastList, lastNamed, lastSize, lastValue,
            values_concat, hk, ServiceFile.assign, Buf.strncpy_eq, parseDepList_eq ha,
            parseServiceType_eq, parseRestartPolicy_eq]

/-- **The fold over the assignments.**  It leaves in a fresh service what the reference says. -/
theorem foldl_setPair (h : ∀ a ∈ as, a.value.length < maxLineLen) :
    as.foldl (fun (svc : ServiceFile) (a : Assignment) => svc.setPair a.sect a.key a.value) .created =
      reference as := by
  induction as using List.reverseRecOn with
  | nil => rfl
  | append_singleton as a ih =>
      have hlast : a.value.length < maxLineLen := h a (List.mem_append_right _ List.mem_cons_self)
      rw [List.foldl_append, List.foldl_cons, List.foldl_nil,
        ih fun b hb => h b (List.mem_append_left _ hb), reference_concat as hlast]

end

/-! ### The lines of a file -/

/-- A line of a service file: text, shorter than the buffer, whose key fits. -/
structure ServiceLine (l : List UInt8) : Prop where
  nul_free : 0 ∉ l
  no_newline : newline ∉ l
  length_lt : l.length < maxLineLen - 1
  key_lt : ∀ key value, breakAt 61 (trim l) = some (key, value) → key.length < 128

/-- What a line makes of the state, by its kind. -/
def ConfigState.read (st : ConfigState) : LineKind → ConfigState
  | .skipped => st
  | .header sect => { st with sect := .holding (.cut CStr.pos_64 sect) }
  | .pair key value => { st with svc := st.svc.setPair st.sect.string.bytes key value }

/-- A line does what its kind says in every state, or writes outside an array in every state. -/
theorem configLine_eq_or (l : List UInt8) :
    (∀ st, configLine st l = some (st.read (LineKind.of l))) ∨
      (∀ st, configLine st l = none) ∧ LineKind.of l ≠ .skipped ∧
        ∃ key value, breakAt 61 l = some (key, value) ∧ 128 ≤ key.length := by
  simp only [configLine, LineKind.of]
  split
  · exact .inl fun _ => rfl
  · split
    · cases breakAt 93 l with
      | none => exact .inl fun _ => rfl
      | some p => exact .inl fun st => by simp only [ConfigState.read, Buf.strncpy_eq]
    · rw [configParseValue]
      cases hb : breakAt 61 l with
      | none => exact .inl fun _ => rfl
      | some p =>
          by_cases hlen : p.1.length < 128
          · have hmax : ¬ maxPathLen ≤ p.1.length := Nat.not_le.mpr (hlen.trans (by decide))
            simp only [if_neg hmax, if_pos hlen, List.take_length]
            exact .inl fun _ => rfl
          · have hcut : ¬ (if maxPathLen ≤ p.1.length then maxPathLen - 1 else p.1.length) < 128 := by
              split
              · decide
              · exact hlen
            simp only [if_neg hcut]
            have hpair : LineKind.pair (trim p.1) (lineValue p.2) ≠ .skipped := by
              intro h
              cases h
            exact .inr ⟨fun _ => trivial, hpair, p.1, p.2, rfl, Nat.not_lt.mp hlen⟩

theorem configLine_eq (st : ConfigState) {l : List UInt8}
    (hkey : ∀ key value, breakAt 61 l = some (key, value) → key.length < 128) :
    configLine st l = some (st.read (LineKind.of l)) := by
  rcases configLine_eq_or l with h | ⟨-, -, key, value, hb, hlen⟩
  · exact h st
  · exact absurd (hkey key value hb) (Nat.not_lt.mpr hlen)

theorem mem_of_header {l sect : List UInt8} (h : LineKind.of l = .header sect) :
    ∀ c ∈ sect, c ∈ l := by
  intro c hc
  simp only [LineKind.of] at h
  split at h
  · cases h
  · split at h
    · cases hb : breakAt 93 l with
      | none => rw [hb] at h; cases h
      | some p =>
          rw [hb] at h
          cases h
          rw [(eq_of_breakAt hb).1]
          exact List.mem_append_left _ (List.mem_of_mem_tail hc)
    · cases hb : breakAt 61 l with
      | none => rw [hb] at h; cases h
      | some p => rw [hb] at h; cases h

theorem value_lt_of_pair {l key value : List UInt8} (h : LineKind.of l = .pair key value) :
    value.length < maxLineLen := by
  have hvalue (s : List UInt8) : (lineValue s).length < maxLineLen :=
    ((List.rdropWhile_prefix _ _).length_le.trans (List.length_take_le _ _)).trans_lt (by decide)
  simp only [LineKind.of] at h
  split at h
  · cases h
  · split at h
    · cases hb : breakAt 93 l with
      | none => rw [hb] at h; cases h
      | some p => rw [hb] at h; cases h
    · cases hb : breakAt 61 l with
      | none => rw [hb] at h; cases h
      | some p =>
          rw [hb] at h
          cases h
          exact hvalue p.2

theorem mem_of_mem_trim {c : UInt8} {l : List UInt8} (h : c ∈ trim l) : c ∈ l :=
  List.dropWhile_subset _ ((List.rdropWhile_prefix _ _).subset h)

/-- The lines leave the service with their assignments, from the section in force on. -/
theorem configLines (lines : List (List UInt8)) (st : ConfigState)
    (h : ∀ l ∈ lines, ServiceLine l) :
    ∃ st', lines.foldlM (fun (st : ConfigState) (l : List UInt8) => configLine st (trim l)) st =
        some st' ∧
      st'.svc = (assignments st.sect.string.bytes lines).foldl
        (fun (svc : ServiceFile) (a : Assignment) => svc.setPair a.sect a.key a.value) st.svc := by
  induction lines generalizing st with
  | nil => exact ⟨st, rfl, rfl⟩
  | cons l lines ih =>
      have hl := h l List.mem_cons_self
      obtain ⟨st', hrun, hsvc⟩ := ih (st.read (LineKind.of (trim l)))
        fun m hm => h m (List.mem_cons_of_mem l hm)
      refine ⟨st', ?_, ?_⟩
      · rw [List.foldlM_cons, configLine_eq st hl.key_lt]
        exact hrun
      · rw [hsvc, assignments]
        cases hk : LineKind.of (trim l) with
        | skipped => rfl
        | header sect =>
            have h0 : 0 ∉ sect := fun hm => hl.nul_free (mem_of_mem_trim (mem_of_header hk 0 hm))
            have hs : (CStr.cut (by decide) sect : CStr 64).bytes = sect.take 63 :=
              congrArg (List.take 63) (cstring_of_not_mem h0)
            simp only [ConfigState.read, Buf.string_holding, hs]
        | pair key value => rfl

/-- A line of a service file as `fgets` reads it. -/
theorem configPiece_line {l : List UInt8} (hl : ServiceLine l) (st : ConfigState) :
    configPiece st (l ++ [newline]) = configLine st (trim l) := by
  have h0 : 0 ∉ l ++ [newline] := by
    rw [List.mem_append, not_or]
    exact ⟨hl.nul_free, by decide⟩
  rw [configPiece, cstring_of_not_mem h0, trim_concat l (by decide)]

/-- The last line may lack its newline, and is not read when it is empty. -/
theorem configPiece_last {last : List UInt8} (hl : ServiceLine last) (st : ConfigState) :
    (if last = [] then [] else [last]).foldlM configPiece st = configLine st (trim last) := by
  split
  · rename_i he
    rw [he]
    rfl
  · rw [List.foldlM_cons, configPiece, cstring_of_not_mem hl.nul_free]
    cases configLine st (trim last) <;> rfl

theorem foldlM_configPiece {lines : List (List UInt8)} (h : ∀ l ∈ lines, ServiceLine l)
    (st : ConfigState) : (lines.map (· ++ [newline])).foldlM configPiece st =
      lines.foldlM (fun (st : ConfigState) (l : List UInt8) => configLine st (trim l)) st := by
  induction lines generalizing st with
  | nil => rfl
  | cons l lines ih =>
      rw [List.map_cons, List.foldlM_cons, List.foldlM_cons,
        configPiece_line (h l List.mem_cons_self)]
      exact congrArg _ (funext fun st => ih (fun m hm => h m (List.mem_cons_of_mem l hm)) st)

/-- The loop reads the file line by line. -/
theorem configLoop_lines {lines : List (List UInt8)} {last : List UInt8}
    (h : ∀ l ∈ lines ++ [last], ServiceLine l) (svc : ServiceFile) :
    configLoop (unlines lines ++ last) svc =
      (lines ++ [last]).foldlM (fun (st : ConfigState) (l : List UInt8) => configLine st (trim l))
        ⟨.zero (by decide), svc⟩ := by
  have hlast := h last (List.mem_append_right _ List.mem_cons_self)
  have hlines : ∀ l ∈ lines, ServiceLine l := fun l hl => h l (List.mem_append_left _ hl)
  have hpieces : pieces (maxLineLen - 1) (unlines lines ++ last) =
      lines.map (· ++ [newline]) ++ if last = [] then [] else [last] := by
    have hn : maxLineLen - 1 = 1022 + 1 := rfl
    rw [hn, pieces_append (LineStart.unlines lines), pieces_unlines lines fun l hl =>
        ⟨(hlines l hl).no_newline, Nat.le_of_lt_succ (hlines l hl).length_lt⟩,
      pieces_last hlast.no_newline (Nat.le_of_lt hlast.length_lt)]
  rw [configLoop, hpieces, List.foldlM_append, List.foldlM_append, foldlM_configPiece hlines]
  refine congrArg _ (funext fun st => ?_)
  rw [configPiece_last hlast, List.foldlM_cons]
  cases configLine st (trim last) <;> rfl

/-- The values of a file are shorter than its lines may be. -/
theorem value_lt_of_assignments (sect : List UInt8) (lines : List (List UInt8)) :
    ∀ a ∈ assignments sect lines, a.value.length < maxLineLen := by
  induction lines generalizing sect with
  | nil => exact fun a ha => by cases ha
  | cons line lines ih =>
      rw [assignments]
      cases hk : LineKind.of (trim line) with
      | skipped => exact ih sect
      | header sect' => exact ih (sect'.take 63)
      | pair key value =>
          intro a ha
          rcases List.mem_cons.mp ha with rfl | ha
          · exact value_lt_of_pair hk
          · exact ih sect a ha

theorem configParseService_lines {lines : List (List UInt8)} {last : List UInt8}
    (h : ∀ l ∈ lines ++ [last], ServiceLine l) :
    configParseService (some (unlines lines ++ last)) .created =
      some (configResult (reference (assignments [] (lines ++ [last]))),
        reference (assignments [] (lines ++ [last]))) := by
  obtain ⟨st, hrun, hsvc⟩ := configLines (lines ++ [last]) ⟨.zero (by decide), .created⟩ h
  have hsect : (Buf.zero (by decide) : Buf 64).string.bytes = [] :=
    congrArg CStr.bytes (Buf.string_holding _)
  rw [hsect, foldl_setPair (value_lt_of_assignments _ _)] at hsvc
  rw [configParseService]
  simp only [configLoop_lines h, hrun, Option.map_some, hsvc]

theorem configResult_eq (svc : ServiceFile) : configResult svc =
    if svc.name.string.bytes ≠ [] ∧ svc.execPath.string.bytes ≠ [] then 0 else -1 := by
  rw [configResult]
  split
  · rename_i hn
    rw [if_neg fun h => h.1 hn]
  · rename_i hn
    split
    · rename_i he
      rw [if_neg fun h => h.2 he]
    · rename_i he
      rw [if_pos ⟨hn, he⟩]

/-- **A service file, parsed.**  On lines that fit, the parser leaves in a fresh service what the
reference says of the assignments of the file, and returns 0 exactly when there are a name and a
program. -/
theorem configParseService_reference {lines : List (List UInt8)} {last : List UInt8}
    (h : ∀ l ∈ lines ++ [last], ServiceLine l) :
    let svc := reference (assignments [] (lines ++ [last]))
    configParseService (some (unlines lines ++ last)) .created =
      some (if svc.name.string.bytes ≠ [] ∧ svc.execPath.string.bytes ≠ [] then 0 else -1, svc) := by
  intro svc
  rw [configParseService_lines h, configResult_eq]

/-- A short line has no room for a key that does not fit. -/
theorem ServiceLine.of_short {l : List UInt8} (h : 0 ∉ l ∧ newline ∉ l ∧ l.length ≤ 128) :
    ServiceLine l where
  nul_free := h.1
  no_newline := h.2.1
  length_lt := h.2.2.trans_lt (by decide)
  key_lt := by
    intro key value hb
    have hle : (trim l).length ≤ l.length :=
      (List.rdropWhile_prefix _ _).length_le.trans (List.length_dropWhile_le _ _)
    rw [(eq_of_breakAt hb).1, List.length_append, List.length_cons] at hle
    omega

/-- A service file that names its service twice. -/
def renamedLines : List (List UInt8) :=
  [ascii "[service]", ascii "name = long-name", ascii "exec = /bin/devd", ascii "name = devd"]

/-- It is started under the second name, of which nothing of the first is left. -/
theorem configParseService_reference_renamed :
    ∃ svc, configParseService (some (unlines renamedLines ++ [])) .created = some (0, svc) ∧
      svc.name = .holding (.lit "devd" (by decide)) := by
  have h : ∀ l ∈ renamedLines ++ [[]], 0 ∉ l ∧ newline ∉ l ∧ l.length ≤ 128 := by decide
  have hparse := configParseService_reference fun l hl => ServiceLine.of_short (h l hl)
  have hok : (reference (assignments [] (renamedLines ++ [[]]))).name.string.bytes ≠ [] ∧
      (reference (assignments [] (renamedLines ++ [[]]))).execPath.string.bytes ≠ [] := by decide
  exact ⟨_, hparse.trans (by rw [if_pos hok]), by decide⟩

/-! ### Where lumid uses the service -/

/-- What the rest of lumid reads of the service, except for starting it. -/
def ServiceFile.config (svc : ServiceFile) : ServiceConfig where
  name := svc.name.string
  type := svc.type
  requires := svc.requires
  after := svc.after
  before := svc.before
  restartPolicy := svc.restartPolicy
  restartDelayMs := svc.restartDelayMs.toInt
  restartMaxRetries := svc.restartMaxRetries.toInt
  cgroup :=
    { memoryMax := svc.memoryMax.toInt
      memoryHigh := svc.memoryHigh.toInt
      cpuWeight := svc.cpuWeight.toInt
      cpuMax := svc.cpuMax.toInt
      ioWeight := svc.ioWeight.toInt
      pidsMax := svc.pidsMax.toInt }

/-- What the child of `service_start` reads of it. -/
def ServiceFile.execConfig (svc : ServiceFile) (logFd : Int) : ExecConfig where
  execPath := svc.execPath.string
  execArgs := svc.execArgs.string
  workingDir := svc.workingDir.string
  user := svc.user.string
  group := svc.group.string
  env := svc.env.map fun kv => (kv.1.string, kv.2.string)
  logFd := logFd

/-- The entry of the service directory for a file. -/
def DirEntry.ofFile (fileName : List UInt8) (file : Option (List UInt8)) : Option DirEntry :=
  (configParseService file .created).map fun p =>
    ⟨fileName, if p.1 < 0 then none else some p.2.config⟩

/-- A file that names no program, or no service, is not loaded. -/
theorem DirEntry.ofFile_lines (fileName : List UInt8) {lines : List (List UInt8)} {last : List UInt8}
    (h : ∀ l ∈ lines ++ [last], ServiceLine l) :
    let svc := reference (assignments [] (lines ++ [last]))
    DirEntry.ofFile fileName (some (unlines lines ++ last)) =
      some ⟨fileName, if svc.name.string.bytes ≠ [] ∧ svc.execPath.string.bytes ≠ [] then
        some svc.config else none⟩ := by
  intro svc
  rw [DirEntry.ofFile, configParseService_lines h, configResult_eq, Option.map_some]
  by_cases hs : svc.name.string.bytes ≠ [] ∧ svc.execPath.string.bytes ≠ []
  · rw [if_pos hs, if_pos hs]
    rfl
  · rw [if_neg hs, if_neg hs]
    rfl

/-- The environment a service is started with: the first pairs of the file, each cut to fit. -/
theorem ServiceFile.execConfig_env (as : List Assignment) (logFd : Int) :
    ((reference as).execConfig logFd).env =
      ((as.filter (·.sect = ascii "environment")).take maxEnv).map fun a =>
        (.cut (by decide) a.key, .cut (by decide) a.value) := by
  simp only [ServiceFile.execConfig, reference, List.map_map]
  exact List.map_congr_left fun a _ => by simp only [Function.comp, Buf.string_holding]

end LumiOS.Lumid
