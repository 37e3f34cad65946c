import LumiOS.Support.Numerals
import LumiOS.Sandbox.Apply

/-!
# Sandbox — PolicyFile

`sbx_policy_save` and `sbx_policy_load`.  A file is a list of settings, and loading it is setting one
after another (`policyOfText_settings`); so what the file says of a policy comes back from it
(`policyOfText_policyLines`).

It says nothing of the syscall rules: `sbx_policy_save` has a loop over the path rules and none over
these.  A policy that went through a file installs no seccomp filter (`policyFile_sameLayers_iff`).
-/

namespace LumiOS.Sandbox

open Support

/-! ### Files -/

/-- The files `fopen` finds.  What is written to a file that was opened arrives. -/
structure Disk where
  content : List UInt8 → Option (List UInt8)
  readable : List UInt8 → Bool
  writable : List UInt8 → Bool

/-- `fopen` for reading, and the text. -/
def Disk.read (disk : Disk) (path : List UInt8) : Option (List UInt8) :=
  if disk.readable path then disk.content path else none

/-- A text written to a path. -/
def Disk.write (disk : Disk) (path text : List UInt8) : Disk :=
  { disk with content := fun p => if p = path then some text else disk.content p }

/-! ### Saving -/

/-- The line of a path rule. -/
def PathRule.line (r : PathRule) : List UInt8 :=
  ascii "path=" ++ (r.path.bytes ++ ascii ":" ++ printHex r.flags)

/-- The lines of `sbx_policy_save`, one for each `fprintf`. -/
def policyLines (policy : Policy) : List (List UInt8) :=
  [ascii "# LumiOS sandbox policy",
    ascii "name=" ++ policy.name.bytes,
    ascii "level=" ++ printInt policy.level,
    ascii "net=" ++ printHex policy.netFlags,
    ascii "ipc=" ++ printHex policy.ipcFlags,
    ascii "hw=" ++ printHex policy.hwFlags] ++
  (if policy.apparmorProfile.bytes ≠ [] then [ascii "apparmor=" ++ policy.apparmorProfile.bytes]
    else []) ++
  (if policy.maxMemory ≠ 0 then [ascii "max_memory=" ++ printUnsigned policy.maxMemory.toNat]
    else []) ++
  (if policy.maxPids ≠ 0 then [ascii "max_pids=" ++ printUnsigned policy.maxPids.toNat] else []) ++
  (if policy.maxFds ≠ 0 then [ascii "max_fds=" ++ printUnsigned policy.maxFds.toNat] else []) ++
  policy.pathRules.map PathRule.line

def sbxPolicySave (disk : Disk) (policy : Policy) (path : List UInt8) : Int × Disk :=
  if disk.writable path then (0, disk.write path (unlines (policyLines policy))) else (-1, disk)

/-! ### Loading -/

/-- `sscanf(line, "%63[^=]=%255s", key, val)`, when it returns 2. -/
def scanPair (line : List UInt8) : Option (List UInt8 × List UInt8) :=
  let key := (line.takeWhile (· ≠ 61)).take 63
  let rest := line.drop key.length
  let val := ((trimLeft rest.tail).takeWhile (!isSpace ·)).take 255
  if key ≠ [] ∧ rest.head? = some 61 ∧ val ≠ [] then some (key, val) else none

/-- The keys `sbx_policy_load` knows. -/
inductive PolicyKey where
  | name | level | net | ipc | hw | apparmor | maxMemory | maxPids | maxFds | path
deriving DecidableEq, Repr

def PolicyKey.of (key : List UInt8) : Option PolicyKey :=
  if key = ascii "name" then some .name
  else if key = ascii "level" then some .level
  else if key = ascii "net" then some .net
  else if key = ascii "ipc" then some .ipc
  else if key = ascii "hw" then some .hw
  else if key = ascii "apparmor" then some .apparmor
  else if key = ascii "max_memory" then some .maxMemory
  else if key = ascii "max_pids" then some .maxPids
  else if key = ascii "max_fds" then some .maxFds
  -- `strncmp(key, "path", 4)`
  else if key.take 4 = ascii "path" then some .path
  else none

/-- What a line with this key does. -/
def Policy.assign (policy : Policy) (key : PolicyKey) (val : List UInt8) : Policy :=
  match key with
  | .name => { policy with name := .cut CStr.pos_64 val }
  | .level => { policy with level := atoi val }
  | .net => { policy with netFlags := (strtoul 0 val).toUInt32 }
  | .ipc => { policy with ipcFlags := (strtoul 0 val).toUInt32 }
  | .hw => { policy with hwFlags := (strtoul 0 val).toUInt32 }
  | .apparmor => { policy with apparmorProfile := .cut CStr.pos_128 val }
  | .maxMemory => { policy with maxMemory := strtoul 0 val }
  | .maxPids => { policy with maxPids := (atoi val).toUInt32 }
  | .maxFds => { policy with maxFds := (atoi val).toUInt32 }
  | .path =>
      match breakAt 58 val with
      -- with room for the rule, what `landlock_add_path` does
      | some (path, flags) => (landlockAddPath policy path (strtoul 0 flags).toUInt32).2
      | none => policy

/-- A line, up to its newline. -/
def policyLine (piece : List UInt8) : List UInt8 := (cstring piece).takeWhile (· ≠ newline)

/-- What the loop of `sbx_policy_load` takes from a line, if it does not skip it. -/
def parsePolicyLine (line : List UInt8) : Option (PolicyKey × List UInt8) :=
  if line.head? = some 35 ∨ line = [] then none
  else
    match scanPair line with
    | none => none
    | some (key, val) => (PolicyKey.of key).map fun k => (k, val)

/-- The loop of `sbx_policy_load`, for one call of `fgets`. -/
def loadPiece (policy : Policy) (piece : List UInt8) : Policy :=
  match parsePolicyLine (policyLine piece) with
  | none => policy
  | some (key, val) => policy.assign key val

/-- `char line[512]`. -/
def policyLineSize : Nat := 512

/-- The policy a text is loaded as. -/
def policyOfText (text : List UInt8) : Policy :=
  (pieces (policyLineSize - 1) text).foldl loadPiece .zero

def sbxPolicyLoad (disk : Disk) (policy : Policy) (path : List UInt8) : Int × Policy :=
  match disk.read path with
  | none => (-1, policy)
  | some text => (0, policyOfText text)

/-! ### Loading settings -/

/-- The key `sbx_policy_save` writes. -/
def PolicyKey.text : PolicyKey → List UInt8
  | .name => ascii "name"
  | .level => ascii "level"
  | .net => ascii "net"
  | .ipc => ascii "ipc"
  | .hw => ascii "hw"
  | .apparmor => ascii "apparmor"
  | .maxMemory => ascii "max_memory"
  | .maxPids => ascii "max_pids"
  | .maxFds => ascii "max_fds"
  | .path => ascii "path"

theorem PolicyKey.of_text (k : PolicyKey) : PolicyKey.of k.text = some k := by
  cases k <;> rfl

theorem PolicyKey.text_ok (k : PolicyKey) :
    k.text ≠ [] ∧ k.text.length ≤ 63 ∧ 61 ∉ k.text ∧ 0 ∉ k.text ∧ newline ∉ k.text ∧
      k.text.head? ≠ some 35 := by
  cases k <;> decide

/-- A text that `%s` reads as one word. -/
def Plain (val : List UInt8) : Prop := ∀ c ∈ val, isSpace c = false ∧ c ≠ 0

instance (val : List UInt8) : Decidable (Plain val) := List.decidableBAll _ val

/-- A key and the text of its value. -/
structure Setting where
  key : PolicyKey
  val : List UInt8

def Setting.line (kv : Setting) : List UInt8 := kv.key.text ++ 61 :: kv.val

/-- A setting that a line holds. -/
structure Setting.Ok (kv : Setting) : Prop where
  plain : Plain kv.val
  length_le : kv.val.length ≤ 255

/-- A setting whose line `fgets` reads as one, though it may hold more of a value than is read. -/
structure Setting.Written (kv : Setting) : Prop where
  plain : Plain kv.val
  length_le : kv.val.length ≤ 446

/-- The setting as `%255s` reads it. -/
def Setting.cut (kv : Setting) : Setting := ⟨kv.key, kv.val.take 255⟩

/-- What is left of a setting when its line is loaded: without a value it is skipped. -/
def Policy.set (policy : Policy) (kv : Setting) : Policy :=
  if kv.val = [] then policy else policy.assign kv.key kv.val

section

variable {kv : Setting} {policy : Policy}

theorem policyLine_line {l : List UInt8} (h0 : 0 ∉ l) (hn : newline ∉ l) :
    policyLine (l ++ [newline]) = l := by
  have h : 0 ∉ l ++ [newline] := by
    rw [List.mem_append, not_or]
    exact ⟨h0, by decide⟩
  rw [policyLine, cstring_of_not_mem h]
  exact takeWhile_ne_append hn []

theorem scanPair_line {key val : List UInt8} (hne : key ≠ []) (hlen : key.length ≤ 63)
    (heq : 61 ∉ key) (hval : Plain val) :
    scanPair (key ++ 61 :: val) = if val = [] then none else some (key, val.take 255) := by
  have hk : (key ++ 61 :: val).takeWhile (· ≠ 61) = key := takeWhile_ne_append heq val
  have hl : trimLeft val = val := by
    cases val with
    | nil => rfl
    | cons c val => simp [trimLeft, (hval c List.mem_cons_self).1]
  have hw : val.takeWhile (!isSpace ·) = val :=
    List.takeWhile_eq_self_iff.mpr fun c hc => by simp [(hval c hc).1]
  simp only [scanPair, hk, List.take_of_length_le hlen, List.drop_left, List.tail_cons, hl, hw,
    List.head?_cons]
  by_cases hv : val = [] <;> simp [hne, hv]

theorem Setting.Ok.written (h : kv.Ok) : kv.Written := ⟨h.plain, h.length_le.trans (by decide)⟩

theorem Setting.Ok.cut_eq (h : kv.Ok) : kv.cut = kv := by
  rw [Setting.cut, List.take_of_length_le h.length_le]

theorem Setting.Written.not_mem (h : kv.Written) : 0 ∉ kv.line ∧ newline ∉ kv.line := by
  obtain ⟨-, -, -, h0, hn, -⟩ := kv.key.text_ok
  simp only [Setting.line, List.mem_append, List.mem_cons, not_or]
  refine ⟨⟨h0, by decide, fun hc => (h.plain 0 hc).2 rfl⟩, hn, by decide, fun hc => ?_⟩
  exact absurd (h.plain newline hc).1 (by decide)

theorem Setting.Written.length_line (h : kv.Written) : kv.line.length ≤ 510 := by
  have h1 := kv.key.text_ok.2.1
  have h2 := h.length_le
  rw [Setting.line, List.length_append, List.length_cons]
  omega

theorem loadPiece_setting (h : kv.Written) :
    loadPiece policy (kv.line ++ [newline]) = policy.set kv.cut := by
  obtain ⟨hne, hlen, heq, -, -, hhead⟩ := kv.key.text_ok
  have hscan := scanPair_line hne hlen heq h.plain
  have hcut : kv.cut.val = [] ↔ kv.val = [] := by
    simp [Setting.cut]
  have hskip : ¬ (kv.line.head? = some 35 ∨ kv.line = []) := by
    rw [Setting.line, List.head?_append_of_ne_nil _ hne]
    simp [hhead]
  rw [loadPiece, policyLine_line h.not_mem.1 h.not_mem.2, parsePolicyLine, if_neg hskip, Policy.set]
  rw [← Setting.line] at hscan
  rw [hscan]
  by_cases hv : kv.val = []
  · rw [if_pos hv, if_pos (hcut.mpr hv)]
  · rw [if_neg hv, if_neg (mt hcut.mp hv)]
    simp only [PolicyKey.of_text, Option.map_some, Setting.cut]

/-- **Loading a file of settings.**  It is loaded setting by setting, whatever the comment above them,
each value as far as it is read. -/
theorem policyOfText_written {comment : List UInt8} (settings : List Setting)
    (hc : comment.head? = some 35 ∧ 0 ∉ comment ∧ newline ∉ comment ∧ comment.length ≤ 510)
    (h : ∀ kv ∈ settings, kv.Written) :
    policyOfText (unlines (comment :: settings.map Setting.line)) =
      (settings.map Setting.cut).foldl Policy.set .zero := by
  have hlines : ∀ l ∈ comment :: settings.map Setting.line, newline ∉ l ∧ l.length ≤ 510 := by
    intro l hl
    rcases List.mem_cons.mp hl with rfl | hl
    · exact ⟨hc.2.2.1, hc.2.2.2⟩
    · obtain ⟨kv, hkv, rfl⟩ := List.mem_map.mp hl
      exact ⟨(h kv hkv).not_mem.2, (h kv hkv).length_line⟩
  have hskip : loadPiece .zero (comment ++ [newline]) = .zero := by
    rw [loadPiece, policyLine_line hc.2.1 hc.2.2.1, parsePolicyLine, if_pos (.inl hc.1)]
  have hfold : ∀ (settings : List Setting) (policy : Policy), (∀ kv ∈ settings, kv.Written) →
      ((settings.map Setting.line).map (· ++ [newline])).foldl loadPiece policy =
        (settings.map Setting.cut).foldl Policy.set policy := by
    intro settings
    induction settings with
    | nil => intro _ _; rfl
    | cons kv settings ih =>
        intro policy hok
        simp only [List.map_cons, List.foldl_cons, loadPiece_setting (hok kv List.mem_cons_self)]
        exact ih _ fun kv' hkv' => hok kv' (List.mem_cons_of_mem kv hkv')
  have hpieces : pieces (policyLineSize - 1) (unlines (comment :: settings.map Setting.line)) = _ :=
    pieces_unlines _ hlines
  rw [policyOfText, hpieces, List.map_cons, List.foldl_cons, hskip, hfold settings .zero h]

/-- Values that are read whole. -/
theorem policyOfText_settings {comment : List UInt8} (settings : List Setting)
    (hc : comment.head? = some 35 ∧ 0 ∉ comment ∧ newline ∉ comment ∧ comment.length ≤ 510)
    (h : ∀ kv ∈ settings, kv.Ok) :
    policyOfText (unlines (comment :: settings.map Setting.line)) = settings.foldl Policy.set .zero := by
  have hcut : settings.map Setting.cut = settings :=
    (List.map_congr_left fun kv hkv => (h kv hkv).cut_eq).trans (List.map_id settings)
  rw [policyOfText_written settings hc fun kv hkv => (h kv hkv).written, hcut]

end

/-! ### The settings of a policy -/

/-- The value of a path rule's line. -/
def PathRule.val (r : PathRule) : List UInt8 := r.path.bytes ++ ascii ":" ++ printHex r.flags

/-- A rule that its line holds. -/
structure PathRule.Ok (r : PathRule) : Prop where
  plain : Plain r.path.bytes
  no_colon : 58 ∉ r.path.bytes
  length_le : r.val.length ≤ 255

/-- A rule whose line can be read up to the colon. -/
structure PathRule.Readable (r : PathRule) : Prop where
  plain : Plain r.path.bytes
  no_colon : 58 ∉ r.path.bytes
  length_le : r.path.bytes.length ≤ 254

/-- The rule that is read from a rule's line: `%255s` takes no more of the flags than fit behind the
path. -/
def PathRule.reread (r : PathRule) : PathRule :=
  { r with flags := (strtoul 0 ((printHex r.flags).take (254 - r.path.bytes.length))).toUInt32 }

/-- A policy that its file holds, as far as `sbx_policy_save` writes it. -/
structure Policy.Ok (policy : Policy) : Prop where
  name : Plain policy.name.bytes
  apparmor : Plain policy.apparmorProfile.bytes
  paths : ∀ r ∈ policy.pathRules, r.Ok

/-- A policy that its file holds, but for flags that are cut. -/
structure Policy.Readable (policy : Policy) : Prop where
  name : Plain policy.name.bytes
  apparmor : Plain policy.apparmorProfile.bytes
  paths : ∀ r ∈ policy.pathRules, r.Readable

/-- A policy without its path rules. -/
def Policy.withoutPaths (policy : Policy) : Policy :=
  { policy with pathRules := [], pathRules_le := Nat.zero_le _ }

/-- A setting that is written if its field is set. -/
def Setting.when (c : Prop) [Decidable c] (kv : Setting) : List Setting := if c then [kv] else []

def Policy.settings (policy : Policy) : List Setting :=
  [⟨.name, policy.name.bytes⟩, ⟨.level, printInt policy.level⟩, ⟨.net, printHex policy.netFlags⟩,
    ⟨.ipc, printHex policy.ipcFlags⟩, ⟨.hw, printHex policy.hwFlags⟩] ++
  Setting.when (policy.apparmorProfile.bytes ≠ []) ⟨.apparmor, policy.apparmorProfile.bytes⟩ ++
  Setting.when (policy.maxMemory ≠ 0) ⟨.maxMemory, printUnsigned policy.maxMemory.toNat⟩ ++
  Setting.when (policy.maxPids ≠ 0) ⟨.maxPids, printUnsigned policy.maxPids.toNat⟩ ++
  Setting.when (policy.maxFds ≠ 0) ⟨.maxFds, printUnsigned policy.maxFds.toNat⟩ ++
  policy.pathRules.map fun r => ⟨.path, r.val⟩

theorem Setting.map_when (c : Prop) [Decidable c] (kv : Setting) :
    (Setting.when c kv).map Setting.line = if c then [kv.line] else [] := by
  rw [Setting.when]
  split <;> rfl

theorem policyLines_eq (policy : Policy) : policyLines policy =
    ascii "# LumiOS sandbox policy" :: policy.settings.map Setting.line := by
  simp only [Policy.settings, List.map_append, Setting.map_when, List.map_map]
  rfl

theorem Plain.append {s t : List UInt8} (hs : Plain s) (ht : Plain t) : Plain (s ++ t) :=
  fun c hc => (List.mem_append.mp hc).elim (hs c) (ht c)

theorem plain_of_isDigit {b : Nat} {c : UInt8} (h : isDigit b c = true) :
    isSpace c = false ∧ c ≠ 0 := ⟨(isDigit_ne h).1, isDigit_ne_zero h⟩

theorem plain_printNat (n : Nat) : Plain (printNat 10 n) := fun _ hc =>
  plain_of_isDigit (isDigit_of_mem_printNat (by decide) (by decide) hc)

theorem plain_printInt (x : Int32) : Plain (printInt x) := by
  intro c hc
  rcases mem_printInt hc with rfl | h
  · decide
  · exact plain_of_isDigit h

theorem plain_printHex (x : UInt32) : Plain (printHex x) := by
  intro c hc
  rcases mem_printHex hc with rfl | h
  · decide
  · exact plain_of_isDigit h

theorem PathRule.length_val (r : PathRule) :
    r.val.length = r.path.bytes.length + 1 + (printHex r.flags).length := by
  rw [PathRule.val, List.length_append, List.length_append]
  rfl

theorem PathRule.Ok.readable {r : PathRule} (h : r.Ok) : r.Readable where
  plain := h.plain
  no_colon := h.no_colon
  length_le := by
    have hlen := h.length_le
    rw [r.length_val] at hlen
    omega

theorem PathRule.Readable.plain_val {r : PathRule} (h : r.Readable) : Plain r.val :=
  (h.plain.append (by decide)).append (plain_printHex r.flags)

theorem PathRule.Readable.written {r : PathRule} (h : r.Readable) : Setting.Written ⟨.path, r.val⟩ where
  plain := h.plain_val
  length_le := by
    have hlen := h.length_le
    have hhex := length_printHex_le r.flags
    show r.val.length ≤ 446
    rw [r.length_val]
    omega

theorem Policy.Ok.readable {policy : Policy} (h : policy.Ok) : policy.Readable :=
  ⟨h.name, h.apparmor, fun r hr => (h.paths r hr).readable⟩

theorem Policy.settings_eq (policy : Policy) : policy.settings =
    policy.withoutPaths.settings ++ policy.pathRules.map fun r => ⟨.path, r.val⟩ := by
  have hpaths : policy.withoutPaths.pathRules = [] := rfl
  rw [Policy.settings, Policy.settings, hpaths, List.map_nil, List.append_nil]
  rfl

/-- The settings above the path rules are read whole. -/
theorem Policy.Readable.settings {policy : Policy} (h : policy.Readable) :
    ∀ kv ∈ policy.withoutPaths.settings, kv.Ok := by
  have hhex : ∀ (k : PolicyKey) (x : UInt32), Setting.Ok ⟨k, printHex x⟩ := fun k x =>
    ⟨plain_printHex x, (length_printHex_le x).trans (by decide)⟩
  have hint : Setting.Ok ⟨.level, printInt policy.level⟩ :=
    ⟨plain_printInt _, (length_printInt_le _).trans (by decide)⟩
  have hnat : ∀ (k : PolicyKey) (n : Nat), n < 2 ^ 64 → Setting.Ok ⟨k, printUnsigned n⟩ :=
    fun k n hn => ⟨plain_printNat n,
      (length_printNat_le (k := 20) (by decide) (by decide) (hn.trans (by decide))).trans
        (by decide)⟩
  have hwhen : ∀ (c : Prop) [Decidable c] (kv : Setting), kv.Ok →
      ∀ kv' ∈ Setting.when c kv, kv'.Ok := by
    intro c _ kv hkv kv' hm
    rw [Setting.when] at hm
    split at hm
    · exact List.mem_singleton.mp hm ▸ hkv
    · cases hm
  intro kv hkv
  simp only [Policy.settings, Policy.withoutPaths, List.map_nil, List.append_nil, List.mem_append] at hkv
  rcases hkv with (((hkv | hkv) | hkv) | hkv) | hkv
  · simp only [List.mem_cons, List.not_mem_nil, or_false] at hkv
    rcases hkv with rfl | rfl | rfl | rfl | rfl
    · exact ⟨h.name, Nat.le_of_lt (policy.name.length_lt.trans (by decide))⟩
    · exact hint
    · exact hhex _ _
    · exact hhex _ _
    · exact hhex _ _
  · exact hwhen _ _ ⟨h.apparmor, Nat.le_of_lt (policy.apparmorProfile.length_lt.trans (by decide))⟩
      kv hkv
  · exact hwhen _ _ (hnat _ _ policy.maxMemory.toNat_lt) kv hkv
  · exact hwhen _ _ (hnat _ _ (policy.maxPids.toNat_lt.trans (by decide))) kv hkv
  · exact hwhen _ _ (hnat _ _ (policy.maxFds.toNat_lt.trans (by decide))) kv hkv

theorem Policy.Readable.written {policy : Policy} (h : policy.Readable) :
    ∀ kv ∈ policy.settings, kv.Written := by
  intro kv hkv
  rw [Policy.settings_eq] at hkv
  rcases List.mem_append.mp hkv with hkv | hkv
  · exact (h.settings kv hkv).written
  · obtain ⟨r, hr, rfl⟩ := List.mem_map.mp hkv
    exact (h.paths r hr).written

/-! ### Saving, then loading -/

/-- What the file keeps of a policy. -/
def Policy.stored (policy : Policy) : Policy :=
  { policy with toSyscallPolicy := .empty, maxCpuPct := 0 }

theorem Policy.foldl_when (c : Prop) [Decidable c] (policy : Policy) (kv : Setting) :
    (Setting.when c kv).foldl Policy.set policy = if c then policy.set kv else policy := by
  rw [Setting.when]
  split <;> rfl

theorem Policy.set_of_ne {k : PolicyKey} {val : List UInt8} (h : val ≠ []) (policy : Policy) :
    policy.set ⟨k, val⟩ = policy.assign k val := if_neg h

/-- The line of a rule, as far as it is read. -/
theorem PathRule.Readable.take_val {r : PathRule} (h : r.Readable) : r.val.take 255 =
    r.path.bytes ++ 58 :: (printHex r.flags).take (254 - r.path.bytes.length) := by
  have hlen := h.length_le
  have hsub : 255 - r.path.bytes.length = 254 - r.path.bytes.length + 1 := by omega
  have hval : r.val = r.path.bytes ++ 58 :: printHex r.flags := List.append_assoc _ _ _
  rw [hval, List.take_append, List.take_of_length_le (hlen.trans (by decide)), hsub,
    List.take_succ_cons]

theorem Policy.set_path {r : PathRule} (h : r.Readable) (policy : Policy)
    (hlen : policy.pathRules.length < maxPathRules) :
    policy.set ⟨.path, r.val.take 255⟩ =
      { policy with
        pathRules := policy.pathRules ++ [r.reread]
        pathRules_le := by simpa using hlen } := by
  have hbreak : breakAt 58 (r.val.take 255) =
      some (r.path.bytes, (printHex r.flags).take (254 - r.path.bytes.length)) := by
    rw [h.take_val]
    exact breakAt_append _ h.no_colon
  have hne : r.val.take 255 ≠ [] := by
    rw [h.take_val]
    exact List.append_ne_nil_of_right_ne_nil _ (List.cons_ne_nil _ _)
  rw [Policy.set_of_ne hne]
  simp only [Policy.assign, hbreak, landlockAddPath, dif_neg (Nat.not_le.mpr hlen), CStr.cut_bytes,
    PathRule.reread]

/-- The rules come back in order: a policy has no more of them than fit. -/
theorem Policy.foldl_paths : ∀ (rules : List PathRule) (policy : Policy)
    (h : (policy.pathRules ++ rules.map PathRule.reread).length ≤ maxPathRules),
    (∀ r ∈ rules, r.Readable) →
    rules.foldl (fun (policy : Policy) (r : PathRule) => policy.set ⟨.path, r.val.take 255⟩) policy =
      { policy with
        pathRules := policy.pathRules ++ rules.map PathRule.reread
        pathRules_le := h } := by
  intro rules
  induction rules with
  | nil =>
      intro policy h _
      simp only [List.foldl_nil, List.map_nil, List.append_nil]
  | cons r rules ih =>
      intro policy h hok
      have hlen : policy.pathRules.length < maxPathRules := by
        rw [List.length_append, List.map_cons, List.length_cons] at h
        omega
      rw [List.foldl_cons, Policy.set_path (hok r List.mem_cons_self) policy hlen,
        ih _ (by simpa using h) fun r' hr' => hok r' (List.mem_cons_of_mem r hr')]
      simp only [List.append_assoc, List.singleton_append, List.map_cons]

/-- The policy of these fields, without rules. -/
def Policy.ofFields (name : CStr 64) (level : Int32) (netFlags ipcFlags hwFlags : UInt32)
    (apparmorProfile : CStr 128) (maxMemory : UInt64) (maxPids maxFds : UInt32) : Policy :=
  { Policy.zero with
    name, level, netFlags, ipcFlags, hwFlags, apparmorProfile, maxMemory, maxPids, maxFds }

section

variable {name : CStr 64} {level : Int32} {net ipc hw : UInt32} {apparmor : CStr 128}
  {memory : UInt64} {pids fds : UInt32}

theorem Policy.set_name (s : CStr 64) :
    (Policy.ofFields (.cut (by decide) []) level net ipc hw apparmor memory pids fds).set
      ⟨.name, s.bytes⟩ = .ofFields s level net ipc hw apparmor memory pids fds := by
  by_cases hs : s.bytes = []
  · rw [CStr.eq_cut_nil (by decide) hs]
    rfl
  · rw [Policy.set_of_ne hs, Policy.assign, CStr.cut_bytes]
    rfl

theorem Policy.set_level (x : Int32) :
    (Policy.ofFields name 0 net ipc hw apparmor memory pids fds).set ⟨.level, printInt x⟩ =
      .ofFields name x net ipc hw apparmor memory pids fds := by
  rw [Policy.set_of_ne (printInt_ne_nil x), Policy.assign, atoi_printInt]
  rfl

theorem Policy.set_flags (x y z : UInt32) :
    (((Policy.ofFields name level 0 0 0 apparmor memory pids fds).set ⟨.net, printHex x⟩).set
      ⟨.ipc, printHex y⟩).set ⟨.hw, printHex z⟩ =
      .ofFields name level x y z apparmor memory pids fds := by
  simp only [Policy.set_of_ne (printHex_ne_nil _), Policy.assign, strtoul_printHex]
  rfl

theorem Policy.set_apparmor (s : CStr 128) :
    (Setting.when (s.bytes ≠ []) ⟨.apparmor, s.bytes⟩).foldl Policy.set
      (.ofFields name level net ipc hw (.cut (by decide) []) memory pids fds) =
      .ofFields name level net ipc hw s memory pids fds := by
  rw [Policy.foldl_when]
  split
  · rename_i hs
    rw [Policy.set_of_ne hs, Policy.assign, CStr.cut_bytes]
    rfl
  · rename_i hs
    rw [CStr.eq_cut_nil (by decide) (not_not.mp hs)]

theorem Policy.set_maxMemory (x : UInt64) :
    (Setting.when (x ≠ 0) ⟨.maxMemory, printUnsigned x.toNat⟩).foldl Policy.set
      (.ofFields name level net ipc hw apparmor 0 pids fds) =
      .ofFields name level net ipc hw apparmor x pids fds := by
  rw [Policy.foldl_when]
  split
  · rename_i hx
    rw [Policy.set_of_ne (printUnsigned_ne_nil _), Policy.assign, strtoul_printUnsigned hx]
    rfl
  · rename_i hx
    rw [not_not.mp hx]

theorem Policy.set_maxPids (x : UInt32) :
    (Setting.when (x ≠ 0) ⟨.maxPids, printUnsigned x.toNat⟩).foldl Policy.set
      (.ofFields name level net ipc hw apparmor memory 0 fds) =
      .ofFields name level net ipc hw apparmor memory x fds := by
  rw [Policy.foldl_when]
  split
  · rw [Policy.set_of_ne (printUnsigned_ne_nil _), Policy.assign, atoi_printUnsigned]
    rfl
  · rename_i hx
    rw [not_not.mp hx]

theorem Policy.set_maxFds (x : UInt32) :
    (Setting.when (x ≠ 0) ⟨.maxFds, printUnsigned x.toNat⟩).foldl Policy.set
      (.ofFields name level net ipc hw apparmor memory pids 0) =
      .ofFields name level net ipc hw apparmor memory pids x := by
  rw [Policy.foldl_when]
  split
  · rw [Policy.set_of_ne (printUnsigned_ne_nil _), Policy.assign, atoi_printUnsigned]
    rfl
  · rename_i hx
    rw [not_not.mp hx]

end

/-- The settings above the path rules bring all other fields back. -/
theorem Policy.foldl_fields (policy : Policy) :
    policy.withoutPaths.settings.foldl Policy.set .zero = policy.stored.withoutPaths := by
  have hzero : Policy.zero = .ofFields (.cut (by decide) []) 0 0 0 0 (.cut (by decide) []) 0 0 0 :=
    rfl
  have hpaths : policy.withoutPaths.pathRules = [] := rfl
  rw [Policy.settings, hzero, hpaths]
  simp only [List.map_nil, List.append_nil, List.foldl_append, List.foldl_cons,
    List.foldl_nil, Policy.set_name, Policy.set_level, Policy.set_flags, Policy.set_apparmor,
    Policy.set_maxMemory, Policy.set_maxPids, Policy.set_maxFds]
  rfl

/-- **A policy that was saved and loaded**: the flags of its rules are cut where their lines are. -/
theorem policyOfText_readable {policy : Policy} (h : policy.Readable) :
    policyOfText (unlines (policyLines policy)) =
      { policy.stored with
        pathRules := policy.pathRules.map PathRule.reread
        pathRules_le := by
          rw [List.length_map]
          exact policy.pathRules_le } := by
  have hcut : policy.withoutPaths.settings.map Setting.cut = policy.withoutPaths.settings :=
    (List.map_congr_left fun kv hkv => (h.settings kv hkv).cut_eq).trans (List.map_id _)
  rw [policyLines_eq, policyOfText_written _ (by decide) h.written, policy.settings_eq, List.map_append,
    hcut, List.foldl_append, Policy.foldl_fields, List.map_map, List.foldl_map]
  exact Policy.foldl_paths policy.pathRules _ _ h.paths

theorem PathRule.reread_of_length_le {r : PathRule} (h : r.val.length ≤ 255) : r.reread = r := by
  have hlen : (printHex r.flags).length ≤ 254 - r.path.bytes.length := by
    rw [r.length_val] at h
    omega
  rw [PathRule.reread, List.take_of_length_le hlen, strtoul_printHex]

/-- **What a file keeps.**  A policy that is saved and loaded comes back with every field but its
syscall rules and the share of the CPU, of which the file says nothing. -/
theorem policyOfText_policyLines {policy : Policy} (h : policy.Ok) :
    policyOfText (unlines (policyLines policy)) = policy.stored := by
  have hrules : policy.pathRules.map PathRule.reread = policy.pathRules :=
    (List.map_congr_left fun r hr => PathRule.reread_of_length_le (h.paths r hr).length_le).trans
      (List.map_id _)
  rw [policyOfText_readable h.readable]
  simp only [hrules]
  rfl

/-! ### The policies programs build -/

/-- A call that adds a rule to a policy. -/
inductive PolicyCall where
  | addPath (path : List UInt8) (flags : UInt32)
  | addRule (syscallNr : Int32) (action : SyscallAction)
deriving DecidableEq, Repr

def Policy.call (policy : Policy) : PolicyCall → Policy
  | .addPath path flags => (landlockAddPath policy path flags).2
  | .addRule syscallNr action => (policy.addRule syscallNr action).2

/-- `sbx_policy_default`, and calls after it. -/
def buildPolicy (sys : SyscallTable) (level : Int32) (calls : List PolicyCall) : Policy :=
  calls.foldl Policy.call (sbxPolicyDefault sys level)

/-- A path without blanks and colons. -/
def PathOk (path : List UInt8) : Prop := ∀ c ∈ path, isSpace c = false ∧ c ≠ 58

instance (path : List UInt8) : Decidable (PathOk path) := List.decidableBAll _ path

/-- A path that the file format has room for, with its flags. -/
def PolicyCall.Fits : PolicyCall → Prop
  | .addPath path flags => PathOk path ∧ path.length + 1 + (printHex flags).length ≤ 255
  | .addRule _ _ => True

/-- A policy of a level that its file holds. -/
structure Policy.OkAt (level : Int32) (policy : Policy) : Prop extends policy.Ok where
  level_eq : policy.level = level

section

variable {level : Int32} {policy : Policy}

theorem Policy.OkAt.addPath (h : policy.OkAt level) {path : List UInt8} {flags : UInt32}
    (hp : PathOk path) (hlen : path.length + 1 + (printHex flags).length ≤ 255) :
    (landlockAddPath policy path flags).2.OkAt level := by
  have hsub : ∀ c ∈ (CStr.cut (by decide) path : CStr 256).bytes, c ∈ path := fun c hc =>
    List.takeWhile_subset _ (List.mem_of_mem_take hc)
  have hle : (CStr.cut (by decide) path : CStr 256).bytes.length ≤ path.length :=
    ((List.take_sublist _ _).trans (List.takeWhile_sublist _)).length_le
  rw [landlockAddPath]
  split
  · exact h
  · refine ⟨⟨h.name, h.apparmor, fun r hr => ?_⟩, h.level_eq⟩
    rcases List.mem_append.mp hr with hr | hr
    · exact h.paths r hr
    · obtain rfl := List.mem_singleton.mp hr
      refine ⟨fun c hc => ⟨(hp c (hsub c hc)).1, ?_⟩, fun hc => (hp _ (hsub _ hc)).2 rfl, ?_⟩
      · exact ne_of_mem_of_not_mem hc (CStr.nul_free _)
      · simp only [PathRule.val, List.length_append]
        exact (Nat.add_le_add_right (Nat.add_le_add_right hle _) _).trans hlen

theorem Policy.OkAt.withPath (h : policy.OkAt level) (path : String) (flags : UInt32)
    (hp : PathOk (ascii path) ∧ (ascii path).length ≤ 244) : (policy.withPath path flags).OkAt level :=
  h.addPath hp.1 (Nat.add_le_add (Nat.succ_le_succ hp.2) (length_printHex_le flags))

theorem Policy.OkAt.addRule (h : policy.OkAt level) (nr : Int32) (action : SyscallAction) :
    (policy.addRule nr action).2.OkAt level := ⟨⟨h.name, h.apparmor, h.paths⟩, h.level_eq⟩

theorem Policy.OkAt.denyAll (h : policy.OkAt level) (nrs : List Int32) :
    (denyAll nrs policy).OkAt level := by
  induction nrs generalizing policy with
  | nil => exact h
  | cons nr nrs ih =>
      rw [Sandbox.denyAll]
      split
      · exact ih (h.addRule nr .deny)
      · exact h

theorem Policy.OkAt.presetNormal (h : policy.OkAt level) (sys : SyscallTable) :
    (seccompPresetNormal sys policy).OkAt level := by
  have h : Policy.OkAt level { policy with syscallWhitelist := false } :=
    ⟨⟨h.name, h.apparmor, h.paths⟩, h.level_eq⟩
  exact h.denyAll _

theorem Policy.OkAt.presetStrict (h : policy.OkAt level) (sys : SyscallTable) :
    (seccompPresetStrict sys policy).OkAt level := (h.presetNormal sys).denyAll _

theorem sbxPolicyDefault_okAt (sys : SyscallTable) (level : Int32) :
    (sbxPolicyDefault sys level).OkAt level := by
  have h : Policy.OkAt level { Policy.zero with level := level } :=
    ⟨⟨fun _ hc => absurd hc List.not_mem_nil, fun _ hc => absurd hc List.not_mem_nil,
      fun _ hr => absurd hr List.not_mem_nil⟩, rfl⟩
  rw [sbxPolicyDefault]
  split
  · exact ⟨⟨h.name, h.apparmor, h.paths⟩, rfl⟩
  · split
    · have h := ((h.withPath "/usr" (fsRead ||| fsExecute) (by decide)).withPath "/etc" fsRead
        (by decide)).withPath "/tmp" (fsRead ||| fsWrite ||| fsCreate) (by decide)
      exact ⟨⟨h.name, h.apparmor, h.paths⟩, h.level_eq⟩
    · split
      · have h := ((((h.withPath "/usr" (fsRead ||| fsExecute) (by decide)).withPath "/etc" fsRead
          (by decide)).withPath "/tmp" (fsRead ||| fsWrite ||| fsCreate) (by decide)).withPath
          "/dev/null" (fsRead ||| fsWrite) (by decide)).withPath "/dev/urandom" fsRead (by decide)
        have h := h.presetNormal sys
        exact ⟨⟨h.name, h.apparmor, h.paths⟩, h.level_eq⟩
      · split
        · have h := (((h.withPath "/usr" (fsRead ||| fsExecute) (by decide)).withPath "/etc" fsRead
            (by decide)).withPath "/dev/null" (fsRead ||| fsWrite) (by decide)).withPath
            "/dev/urandom" fsRead (by decide)
          have h := h.presetStrict sys
          exact ⟨⟨h.name, h.apparmor, h.paths⟩, h.level_eq⟩
        · split
          · have h := (h.withPath "/usr/lib" fsRead (by decide)).withPath "/dev/null"
              (fsRead ||| fsWrite) (by decide)
            have h := h.presetStrict sys
            exact ⟨⟨h.name, h.apparmor, h.paths⟩, h.level_eq⟩
          · exact h

theorem Policy.OkAt.call (h : policy.OkAt level) {call : PolicyCall} (hfits : call.Fits) :
    (policy.call call).OkAt level := by
  cases call with
  | addPath path flags => exact h.addPath hfits.1 hfits.2
  | addRule nr action => exact h.addRule nr action

theorem buildPolicy_okAt (sys : SyscallTable) (level : Int32) {calls : List PolicyCall}
    (hfits : ∀ call ∈ calls, call.Fits) : (buildPolicy sys level calls).OkAt level := by
  have hrun : ∀ (calls : List PolicyCall) (policy : Policy), (∀ call ∈ calls, call.Fits) →
      policy.OkAt level → (calls.foldl Policy.call policy).OkAt level := by
    intro calls
    induction calls with
    | nil => intro _ _ h; exact h
    | cons call calls ih =>
        intro policy hfits h
        exact ih _ (fun c hc => hfits c (List.mem_cons_of_mem call hc))
          (h.call (hfits call List.mem_cons_self))
  exact hrun calls _ hfits (sbxPolicyDefault_okAt sys level)

end

/-! ### Applying a policy that was loaded -/

/-- Whatever the outcomes, `sbx_apply` puts the same rulesets and filters in force. -/
def SameLayers (p q : Policy) : Prop :=
  ∀ target order env task,
    (sbxApply target order env p task).2.domains = (sbxApply target order env q task).2.domains ∧
      (sbxApply target order env p task).2.filters = (sbxApply target order env q task).2.filters

theorem sameLayers_stored_iff (policy : Policy) :
    SameLayers policy policy.stored ↔ policy.level = levelNone ∨ policy.syscallRules = [] := by
  by_cases hlevel : policy.level = levelNone
  · have hs : policy.stored.level = levelNone := hlevel
    refine ⟨fun _ => .inl hlevel, fun _ target order env task => ?_⟩
    simp only [sbxApply, if_pos hlevel, if_pos hs, and_self]
  · rw [or_iff_right hlevel]
    have hs : policy.stored.level ≠ levelNone := hlevel
    constructor
    · intro h
      -- where the filter is installed for the policy, none is for the one from the file
      obtain ⟨-, hf⟩ := h .x86_64 .placeFirst .plainKernel .free
      obtain ⟨-, hp, -⟩ := sbxApply_task .x86_64 .placeFirst .plainKernel .free hlevel
      obtain ⟨-, hq, -⟩ := sbxApply_task .x86_64 .placeFirst .plainKernel .free hs
      by_contra hne
      rw [if_pos ⟨hne, by decide⟩] at hp
      rw [if_neg fun h => h.1 rfl] at hq
      rw [hp, hq] at hf
      cases hf
    · intro hnil target order env task
      obtain ⟨hd, hf, -⟩ := sbxApply_task target order env task hlevel
      obtain ⟨hd', hf', -⟩ := sbxApply_task target order env task hs
      refine ⟨hd.trans hd'.symm, ?_⟩
      rw [hf, hf', if_neg fun h => h.1 hnil, if_neg fun h => h.1 rfl]

theorem sbxPolicySave_of_writable {disk : Disk} {path : List UInt8} (h : disk.writable path = true)
    (policy : Policy) :
    sbxPolicySave disk policy path = (0, disk.write path (unlines (policyLines policy))) := if_pos h

theorem sbxPolicyLoad_write {disk : Disk} {path : List UInt8} (h : disk.readable path = true)
    (policy : Policy) (text : List UInt8) :
    sbxPolicyLoad (disk.write path text) policy path = (0, policyOfText text) := by
  simp [sbxPolicyLoad, Disk.read, Disk.write, h]

theorem sbxPolicyLoad_zero {disk : Disk} {before policy : Policy} {path : List UInt8}
    (h : sbxPolicyLoad disk before path = (0, policy)) :
    ∃ text, disk.read path = some text ∧ policyOfText text = policy := by
  rw [sbxPolicyLoad] at h
  split at h
  · cases h
  · rename_i text htext
    exact ⟨text, htext, (Prod.mk.inj h).2⟩

/-- A policy of a program that was saved and loaded is the part of it the file keeps. -/
theorem load_of_save {sys : SyscallTable} {level : Int32} {calls : List PolicyCall}
    (hfits : ∀ call ∈ calls, call.Fits) {disk disk' : Disk} {path : List UInt8} {q q' : Policy}
    (hsave : sbxPolicySave disk (buildPolicy sys level calls) path = (0, disk'))
    (hload : sbxPolicyLoad disk' q path = (0, q')) :
    q' = (buildPolicy sys level calls).stored := by
  rw [← policyOfText_policyLines (buildPolicy_okAt sys level hfits).toOk]
  by_cases hw : disk.writable path = true
  · rw [sbxPolicySave_of_writable hw] at hsave
    obtain ⟨-, rfl⟩ := Prod.mk.inj hsave
    by_cases hr : disk.readable path = true
    · rw [sbxPolicyLoad_write hr] at hload
      exact (Prod.mk.inj hload).2.symm
    · have hread : (disk.write path (unlines (policyLines (buildPolicy sys level calls)))).read path =
        none := if_neg hr
      rw [sbxPolicyLoad, hread] at hload
      exact absurd (Prod.mk.inj hload).1 (by decide)
  · rw [sbxPolicySave, if_neg hw] at hsave
    exact absurd (Prod.mk.inj hsave).1 (by decide)

/-- **A policy through a file.**  When saving and loading a policy a program built succeeded,
`sbx_apply` puts the same rulesets and filters in force exactly when the policy is that of a system
service or has no syscall rule: the file has no line for them. -/
theorem policyFile_sameLayers_iff {sys : SyscallTable} {level : Int32} {calls : List PolicyCall}
    (hfits : ∀ call ∈ calls, call.Fits) {disk disk' : Disk} {path : List UInt8} {q q' : Policy}
    (hsave : sbxPolicySave disk (buildPolicy sys level calls) path = (0, disk'))
    (hload : sbxPolicyLoad disk' q path = (0, q')) :
    SameLayers (buildPolicy sys level calls) q' ↔
      level = levelNone ∨ (buildPolicy sys level calls).syscallRules = [] := by
  rw [load_of_save hfits hsave hload, sameLayers_stored_iff, (buildPolicy_okAt sys level hfits).level_eq]

/-- A disk on which every path can be written and read. -/
def Disk.blank : Disk where
  content := fun _ => none
  readable := fun _ => true
  writable := fun _ => true

def appPath : PolicyCall := .addPath (ascii "/opt/app") (fsRead ||| fsExecute)

theorem appPath_fits : ∀ call ∈ [appPath], call.Fits := by
  intro call hc
  obtain rfl := List.mem_singleton.mp hc
  exact ⟨by decide, Nat.add_le_add_left (length_printHex_le _) 9 |>.trans (by decide)⟩

/-- `"/etc/app.policy"`. -/
def policyPath : List UInt8 := ascii "/etc/app.policy"

/-- A text in the file at `policyPath`. -/
theorem blank_read (text : List UInt8) :
    (Disk.blank.write policyPath text).read policyPath = some text := by
  simp [Disk.read, Disk.write, Disk.blank]

/-- What is saved on a blank disk is loaded from it. -/
theorem blank_load_save (policy q : Policy) :
    ∃ disk q', sbxPolicySave .blank policy policyPath = (0, disk) ∧
      sbxPolicyLoad disk q policyPath = (0, q') :=
  ⟨_, _, sbxPolicySave_of_writable rfl policy, sbxPolicyLoad_write rfl q _⟩

theorem policyFile_sameLayers_trusted :
    ∃ disk q', sbxPolicySave .blank (buildPolicy .x86 levelTrusted [appPath]) policyPath = (0, disk) ∧
      sbxPolicyLoad disk .zero policyPath = (0, q') ∧
      SameLayers (buildPolicy .x86 levelTrusted [appPath]) q' := by
  obtain ⟨disk, q', hsave, hload⟩ := blank_load_save (buildPolicy .x86 levelTrusted [appPath]) .zero
  exact ⟨disk, q', hsave, hload, (policyFile_sameLayers_iff appPath_fits hsave hload).mpr (.inr rfl)⟩

/-- A `NORMAL` policy comes back from its file without its blacklist. -/
theorem policyFile_loses_filter :
    ¬ ∀ (sys : SyscallTable) (level : Int32) (calls : List PolicyCall), (∀ call ∈ calls, call.Fits) →
      ∀ (disk disk' : Disk) (path : List UInt8) (q q' : Policy),
        sbxPolicySave disk (buildPolicy sys level calls) path = (0, disk') →
        sbxPolicyLoad disk' q path = (0, q') → SameLayers (buildPolicy sys level calls) q' := by
  intro h
  obtain ⟨disk, q', hsave, hload⟩ := blank_load_save (buildPolicy .x86 levelNormal [appPath]) .zero
  have hsame := h .x86 levelNormal [appPath] appPath_fits .blank disk policyPath .zero q' hsave hload
  rw [load_of_save appPath_fits hsave hload, sameLayers_stored_iff] at hsame
  rcases hsame with hlevel | hrules
  · rw [(buildPolicy_okAt .x86 levelNormal appPath_fits).level_eq] at hlevel
    exact absurd hlevel (by decide)
  · exact absurd hrules (by decide +kernel)

end LumiOS.Sandbox
