import LumiOS.Lumid.Config
import LumiOS.Lumid.Delay
import LumiOS.Lumid.Loading

/-!
# Lumid — Cgroup

What `cgroup.c` asks of the kernel when a service is started, on a system where every call succeeds.

Each limit has its own test in `cgroup_apply_limits`, but `service_start` calls it for a memory or a CPU
maximum only: a service with another limit alone runs without a cgroup (`start_limited_iff`).  A weight
that is not positive is not written either.
-/

namespace LumiOS.Lumid

open Support

/-! ### util.c -/

inductive FileOp where
  | mkdir (path : List UInt8) (mode : Nat)
  | writeFile (path content : List UInt8)
deriving DecidableEq, Repr

/-- A path without a slash at its end. -/
def stripSlash (path : List UInt8) : List UInt8 :=
  if path.getLast? = some 47 then path.dropLast else path

/-- The loop of `util_mkdir_p`: the path up to each `/`. -/
def mkdirLoop (done : List UInt8) : List UInt8 → List (List UInt8)
  | [] => []
  | c :: path =>
    if c = 47 then done :: mkdirLoop (done ++ [c]) path else mkdirLoop (done ++ [c]) path

/-- `util_mkdir_p`, of a path that is not empty. -/
def utilMkdirP (path : List UInt8) (mode : Nat) : List FileOp :=
  let tmp := stripSlash (snprintf maxPathLen path)
  (mkdirLoop (tmp.take 1) (tmp.drop 1) ++ [tmp]).map (.mkdir · mode)

/-! ### cgroup.c -/

/-- The files of a cgroup lumid writes. -/
inductive ControlFile where
  | memoryMax
  | memoryHigh
  | cpuWeight
  | cpuMax
  | ioWeight
  | pidsMax
  | procs
deriving DecidableEq, Repr

def ControlFile.fileName : ControlFile → List UInt8
  | .memoryMax => ascii "memory.max"
  | .memoryHigh => ascii "memory.high"
  | .cpuWeight => ascii "cpu.weight"
  | .cpuMax => ascii "cpu.max"
  | .ioWeight => ascii "io.weight"
  | .pidsMax => ascii "pids.max"
  | .procs => ascii "cgroup.procs"

/-- `LUMID_CGROUP_ROOT`. -/
def cgroupRoot : List UInt8 := ascii "/sys/fs/cgroup/lumid"

/-- The cgroup of a service. -/
def cgroupDir (name : List UInt8) : List UInt8 := cgroupRoot ++ ascii "/" ++ name

def cgroupFile (name : List UInt8) (file : ControlFile) : List UInt8 :=
  cgroupDir name ++ ascii "/" ++ file.fileName

def cgroupCreate (name : List UInt8) : List FileOp :=
  utilMkdirP (snprintf maxPathLen (cgroupDir name)) 0o755

/-- One `if` of `cgroup_apply_limits`. -/
def applyLimit (name : List UInt8) (file : ControlFile) (set : Bool) (value : List UInt8) :
    List FileOp :=
  if set then [.writeFile (snprintf maxPathLen (cgroupFile name file)) (snprintf 64 value)] else []

def cgroupApplyLimits (name : List UInt8) (limits : CgroupLimits) : List FileOp :=
  applyLimit name .memoryMax (0 < limits.memoryMax) (printLong (.ofInt limits.memoryMax)) ++
  applyLimit name .memoryHigh (0 < limits.memoryHigh) (printLong (.ofInt limits.memoryHigh)) ++
  applyLimit name .cpuWeight (0 < limits.cpuWeight) (printInt (.ofInt limits.cpuWeight)) ++
  applyLimit name .cpuMax (0 < limits.cpuMax ∧ limits.cpuMax ≤ 100)
    (printInt (.ofInt limits.cpuMax * 1000) ++ ascii " 100000") ++
  applyLimit name .ioWeight (0 < limits.ioWeight)
    (ascii "default " ++ printInt (.ofInt limits.ioWeight)) ++
  applyLimit name .pidsMax (0 < limits.pidsMax) (printInt (.ofInt limits.pidsMax))

def cgroupAddPid (name : List UInt8) (pid : Int) : List FileOp :=
  [.writeFile (snprintf maxPathLen (cgroupFile name .procs)) (snprintf 32 (printInt (.ofInt pid)))]

/-- The calls behind an action of lumid, in their order. -/
def Action.fileOps : Action → List FileOp
  | .cgroupSetup n limits pid =>
    cgroupCreate n.bytes ++ cgroupApplyLimits n.bytes limits ++ cgroupAddPid n.bytes pid
  | _ => []

/-- The calls a `service_start` makes. -/
def startOps (env : Env) (s : Sys) (n : Name) : List FileOp :=
  (s.since (serviceStart env s n).2).reverse.flatMap Action.fileOps

/-! ### The limits of a service -/

/-- A limit the service file sets, or a weight other than the default, as its control file has it. -/
def ServiceFile.limit (file : ServiceFile) : ControlFile → Option (List UInt8)
  | .memoryMax => if 0 < file.memoryMax.toInt then some (printLong file.memoryMax) else none
  | .memoryHigh => if 0 < file.memoryHigh.toInt then some (printLong file.memoryHigh) else none
  | .cpuWeight => if file.cpuWeight ≠ 100 then some (printInt file.cpuWeight) else none
  | .cpuMax =>
    if 0 < file.cpuMax.toInt ∧ file.cpuMax.toInt ≤ 100 then
      some (printNat 10 (file.cpuMax.toInt.toNat * 1000) ++ ascii " 100000")
    else none
  | .ioWeight => if file.ioWeight ≠ 100 then some (ascii "default " ++ printInt file.ioWeight) else none
  | .pidsMax => if 0 < file.pidsMax.toInt then some (printInt file.pidsMax) else none
  | .procs => none

def ServiceFile.Limited (file : ServiceFile) : Prop := ∃ c v, file.limit c = some v

/-- The cgroup is there before anything is written into it; the limits are written, and the process. -/
structure CgroupApplied (file : ServiceFile) (name : List UInt8) (pid : Int) (ops : List FileOp) :
    Prop where
  created : ∃ pre post, ops = pre ++ .mkdir (stripSlash (cgroupDir name)) 0o755 :: post ∧
    ∀ path content, .writeFile path content ∉ pre
  written : ∀ c v, file.limit c = some v → .writeFile (cgroupFile name c) v ∈ ops
  joined : .writeFile (cgroupFile name .procs) (printInt (.ofInt pid)) ∈ ops

section

variable {file : ServiceFile} {s : Sys} {n : Name} {svc : Service} {env : Env} {pid : Int}
  {c c' : ControlFile} {v : List UInt8}

/-! ### Paths and values fit their buffers -/

theorem cgroupDir_fit (n : Name) : snprintf maxPathLen (cgroupDir n.bytes) = cgroupDir n.bytes := by
  refine snprintf_eq ?_
  rw [cgroupDir, List.length_append]
  exact (Nat.add_lt_add_left n.length_lt 21).trans (by decide)

theorem fileName_length (c : ControlFile) : c.fileName.length ≤ 12 := by
  cases c <;> decide

theorem fileName_inj (h : c.fileName = c'.fileName) : c = c' := by
  revert h
  cases c <;> cases c' <;> decide

theorem cgroupFile_inj {name : List UInt8} (h : cgroupFile name c = cgroupFile name c') : c = c' :=
  fileName_inj (List.append_cancel_left h)

theorem cgroupFile_fit (n : Name) (c : ControlFile) :
    snprintf maxPathLen (cgroupFile n.bytes c) = cgroupFile n.bytes c := by
  refine snprintf_eq ?_
  have hn : n.bytes.length < 64 := n.length_lt
  have hc := fileName_length c
  have hdir : (cgroupRoot ++ ascii "/").length = 21 := by decide
  have hslash : (ascii "/").length = 1 := by decide
  rw [cgroupFile, cgroupDir, List.length_append, List.length_append, List.length_append, hdir, hslash]
  show _ < 256
  omega

/-- What the code writes of a limit. -/
def ServiceFile.applied (file : ServiceFile) : ControlFile → Option (List UInt8)
  | .cpuWeight => if 0 < file.cpuWeight.toInt then some (printInt file.cpuWeight) else none
  | .ioWeight =>
    if 0 < file.ioWeight.toInt then some (ascii "default " ++ printInt file.ioWeight) else none
  | c => file.limit c

theorem applyLimit_eq (n : Name) {p : Prop} [Decidable p] (hv : v.length < 64) :
    applyLimit n.bytes c p v =
      ((if p then some v else none).map (FileOp.writeFile (cgroupFile n.bytes c))).toList := by
  rw [applyLimit, cgroupFile_fit, snprintf_eq hv]
  by_cases hp : p
  · simp [hp]
  · simp [hp]

/-- The quota of a percentage does not leave the range of `int`. -/
theorem quota_eq (h : 0 < file.cpuMax.toInt ∧ file.cpuMax.toInt ≤ 100) :
    printInt (file.cpuMax * 1000) = printNat 10 (file.cpuMax.toInt.toNat * 1000) := by
  have hmul : (file.cpuMax * 1000).toInt = file.cpuMax.toInt * 1000 := by
    rw [Int32.toInt_mul]
    exact Int.bmod_eq_of_le (by show _ ≤ file.cpuMax.toInt * 1000; omega)
      (by show file.cpuMax.toInt * 1000 < _; omega)
  rw [printInt_of_nonneg (by omega), hmul]
  congr 1
  omega

/-- The files a limit is written to. -/
def limitFiles : List ControlFile := [.memoryMax, .memoryHigh, .cpuWeight, .cpuMax, .ioWeight, .pidsMax]

theorem cgroupApplyLimits_eq (file : ServiceFile) (n : Name) :
    cgroupApplyLimits n.bytes file.config.cgroup =
      limitFiles.flatMap fun c =>
        ((file.applied c).map (FileOp.writeFile (cgroupFile n.bytes c))).toList := by
  have hlong (x : Int64) : (printLong x).length < 64 := (length_printLong_le x).trans_lt (by decide)
  have hint (x : Int32) : (printInt x).length < 64 := (length_printInt_le x).trans_lt (by decide)
  have hquota (x : Int32) : (printInt x ++ ascii " 100000").length < 64 := by
    rw [List.length_append]
    exact (Nat.add_le_add_right (length_printInt_le x) 7).trans_lt (by decide)
  have hdefault (x : Int32) : (ascii "default " ++ printInt x).length < 64 := by
    rw [List.length_append]
    exact (Nat.add_le_add_left (length_printInt_le x) 8).trans_lt (by decide)
  have hmax : (if 0 < file.cpuMax.toInt ∧ file.cpuMax.toInt ≤ 100 then
      some (printInt (file.cpuMax * 1000) ++ ascii " 100000") else none) = file.limit .cpuMax := by
    by_cases h : 0 < file.cpuMax.toInt ∧ file.cpuMax.toInt ≤ 100
    · simp only [ServiceFile.limit, if_pos h, quota_eq h]
    · simp only [ServiceFile.limit, if_neg h]
  show applyLimit _ .memoryMax (0 < file.memoryMax.toInt) (printLong (.ofInt file.memoryMax.toInt)) ++
    applyLimit _ .memoryHigh (0 < file.memoryHigh.toInt) (printLong (.ofInt file.memoryHigh.toInt)) ++
    applyLimit _ .cpuWeight (0 < file.cpuWeight.toInt) (printInt (.ofInt file.cpuWeight.toInt)) ++
    applyLimit _ .cpuMax (0 < file.cpuMax.toInt ∧ file.cpuMax.toInt ≤ 100)
      (printInt (.ofInt file.cpuMax.toInt * 1000) ++ ascii " 100000") ++
    applyLimit _ .ioWeight (0 < file.ioWeight.toInt)
      (ascii "default " ++ printInt (.ofInt file.ioWeight.toInt)) ++
    applyLimit _ .pidsMax (0 < file.pidsMax.toInt) (printInt (.ofInt file.pidsMax.toInt)) = _
  simp only [Int64.ofInt_toInt, Int32.ofInt_toInt]
  rw [applyLimit_eq n (hlong _), applyLimit_eq n (hlong _), applyLimit_eq n (hint _),
    applyLimit_eq n (hquota _), applyLimit_eq n (hdefault _), applyLimit_eq n (hint _), hmax]
  simp only [limitFiles, List.flatMap_cons, List.flatMap_nil, List.append_nil, List.append_assoc]
  rfl

theorem mem_cgroupApplyLimits : .writeFile (cgroupFile n.bytes c) v ∈
    cgroupApplyLimits n.bytes file.config.cgroup ↔ c ∈ limitFiles ∧ file.applied c = some v := by
  rw [cgroupApplyLimits_eq]
  simp only [List.mem_flatMap, Option.mem_toList, Option.map_eq_some_iff, FileOp.writeFile.injEq]
  constructor
  · rintro ⟨c', hc', v', hv', he, rfl⟩
    cases cgroupFile_inj he
    exact ⟨hc', hv'⟩
  · rintro ⟨hc, hv⟩
    exact ⟨c, hc, v, hv, rfl, rfl⟩

/-! ### What a start asks for -/

/-- The calls of a start that forks. -/
theorem startOps_eq (hn : s.services.find n = some svc) (hr : svc.state ≠ .running)
    (h0 : (serviceStart env s n).1 = 0) : ∃ pid, env.fork n = some pid ∧
      startOps env s n =
        if 0 < svc.cgroup.memoryMax ∨ 0 < svc.cgroup.cpuMax then
          cgroupCreate n.bytes ++ cgroupApplyLimits n.bytes svc.cgroup ++ cgroupAddPid n.bytes pid
        else [] := by
  have hname := Registry.name_of_find hn
  revert h0
  rw [startOps]
  refine serviceStart_cases (motive := fun r => r.1 = 0 → ∃ pid, env.fork n = some pid ∧
    (s.since r.2).reverse.flatMap Action.fileOps =
      if 0 < svc.cgroup.memoryMax ∨ 0 < svc.cgroup.cpuMax then
        cgroupCreate n.bytes ++ cgroupApplyLimits n.bytes svc.cgroup ++ cgroupAddPid n.bytes pid
      else []) hn ?_ ?_ ?_ ?_
  · exact fun h => absurd h hr
  · exact fun _ _ h => absurd (show (-1 : Int) = 0 from h) (by decide)
  · exact fun _ _ _ h => absurd (show (-1 : Int) = 0 from h) (by decide)
  · intro pid hf _ _ he _
    refine ⟨pid, he, ?_⟩
    simp only [Sys.limited]
    split
    · have hops : [Action.cgroupSetup svc.name svc.cgroup pid, .fork n pid].reverse.flatMap
          Action.fileOps =
            cgroupCreate n.bytes ++ cgroupApplyLimits n.bytes svc.cgroup ++ cgroupAddPid n.bytes pid := by
        simp only [List.reverse_cons, List.reverse_nil, List.nil_append, List.singleton_append,
          List.flatMap_cons, List.flatMap_nil, Action.fileOps, List.append_nil, hname]
      have hnew : ∀ s' : Sys,
          s'.trace = [.cgroupSetup svc.name svc.cgroup pid, .fork n pid] ++ s.trace →
          (s.since s').reverse.flatMap Action.fileOps =
            cgroupCreate n.bytes ++ cgroupApplyLimits n.bytes svc.cgroup ++ cgroupAddPid n.bytes pid :=
        fun s' ht => by rw [since_of_trace ht, hops]
      exact hnew _ rfl
    · have hnew : ∀ s' : Sys, s'.trace = [.fork n pid] ++ s.trace →
          (s.since s').reverse.flatMap Action.fileOps = [] := fun s' ht => by
        rw [since_of_trace ht]
        rfl
      exact hnew _ rfl

theorem cgroupCreate_eq (n : Name) : ∃ pre,
    cgroupCreate n.bytes = pre ++ [.mkdir (stripSlash (cgroupDir n.bytes)) 0o755] ∧
      ∀ path content, .writeFile path content ∉ pre := by
  have hfit : snprintf maxPathLen (snprintf maxPathLen (cgroupDir n.bytes)) = cgroupDir n.bytes := by
    rw [cgroupDir_fit, cgroupDir_fit]
  let tmp := stripSlash (cgroupDir n.bytes)
  refine ⟨(mkdirLoop (tmp.take 1) (tmp.drop 1)).map (.mkdir · 0o755), ?_, ?_⟩
  · rw [cgroupCreate, utilMkdirP, hfit]
    exact List.map_append
  · intro path content hm
    obtain ⟨_, -, he⟩ := List.mem_map.mp hm
    cases he

/-- The files a cgroup set up for a file's limits writes. -/
theorem written_iff : .writeFile (cgroupFile n.bytes c) v ∈ cgroupCreate n.bytes ++
      cgroupApplyLimits n.bytes file.config.cgroup ++ cgroupAddPid n.bytes pid ↔
    (c ∈ limitFiles ∧ file.applied c = some v) ∨ (c = .procs ∧ v = printInt (.ofInt pid)) := by
  have hcreate : .writeFile (cgroupFile n.bytes c) v ∉ cgroupCreate n.bytes := by
    obtain ⟨pre, he, hpre⟩ := cgroupCreate_eq n
    rw [he]
    intro hm
    rcases List.mem_append.mp hm with hm | hm
    · exact hpre _ _ hm
    · cases List.mem_singleton.mp hm
  have hpid : snprintf 32 (printInt (.ofInt pid)) = printInt (.ofInt pid) :=
    snprintf_eq ((length_printInt_le _).trans_lt (by decide))
  rw [List.mem_append, List.mem_append, mem_cgroupApplyLimits, cgroupAddPid, cgroupFile_fit, hpid,
    List.mem_singleton, FileOp.writeFile.injEq]
  constructor
  · rintro ((h | h) | ⟨hpath, hv⟩)
    · exact absurd h hcreate
    · exact .inl h
    · exact .inr ⟨cgroupFile_inj hpath, hv⟩
  · rintro (h | ⟨rfl, hv⟩)
    · exact .inl (.inr h)
    · exact .inr ⟨rfl, hv⟩

/-- What the code writes is the limit, as long as a weight is positive. -/
theorem applied_of_limit (hcpu : 0 < file.cpuWeight.toInt) (hio : 0 < file.ioWeight.toInt)
    (h : file.limit c = some v) : c ∈ limitFiles ∧ file.applied c = some v := by
  cases c with
  | cpuWeight =>
      refine ⟨by decide, ?_⟩
      simp only [ServiceFile.limit] at h
      split at h
      · exact (if_pos hcpu).trans h
      · cases h
  | ioWeight =>
      refine ⟨by decide, ?_⟩
      simp only [ServiceFile.limit] at h
      split at h
      · exact (if_pos hio).trans h
      · cases h
  | procs => cases h
  | memoryMax => exact ⟨by decide, h⟩
  | memoryHigh => exact ⟨by decide, h⟩
  | cpuMax => exact ⟨by decide, h⟩
  | pidsMax => exact ⟨by decide, h⟩

theorem ne_default {x : Int32} (h : ¬ 0 < x.toInt) : x ≠ 100 := by
  rintro rfl
  exact h (by decide)

/-- A weight that is set and written is positive. -/
theorem weights_pos (hw : ∀ c v, file.limit c = some v → c ∈ limitFiles ∧ file.applied c = some v) :
    0 < file.cpuWeight.toInt ∧ 0 < file.ioWeight.toInt := by
  constructor
  · by_contra h
    have happ := (hw .cpuWeight _ (if_pos (ne_default h))).2
    rw [ServiceFile.applied, if_neg h] at happ
    cases happ
  · by_contra h
    have happ := (hw .ioWeight _ (if_pos (ne_default h))).2
    rw [ServiceFile.applied, if_neg h] at happ
    cases happ

/-- The start sets up a cgroup with the file's limits, for the process it has forked. -/
def StartsLimited (env : Env) (s : Sys) (n : Name) (file : ServiceFile) : Prop :=
  ∃ pid, env.fork n = some pid ∧ CgroupApplied file n.bytes pid (startOps env s n)

/-- Some limit makes `service_start` look at the others, and the weights can be written. -/
def ServiceFile.Applicable (file : ServiceFile) : Prop :=
  (0 < file.memoryMax.toInt ∨ 0 < file.cpuMax.toInt) ∧ 0 < file.cpuWeight.toInt ∧
    0 < file.ioWeight.toInt

theorem applicable_of_starts (hn : s.services.find n = some svc)
    (hc : svc.toServiceConfig = file.config) (hr : svc.state ≠ .running)
    (h0 : (serviceStart env s n).1 = 0) (h : StartsLimited env s n file) : file.Applicable := by
  obtain ⟨pid, he, happ⟩ := h
  obtain ⟨pid', he', hops⟩ := startOps_eq hn hr h0
  cases Option.some.inj (he.symm.trans he')
  rw [hc] at hops
  by_cases hg : 0 < file.config.cgroup.memoryMax ∨ 0 < file.config.cgroup.cpuMax
  · rw [if_pos hg] at hops
    refine ⟨hg, weights_pos fun c v hl => ?_⟩
    rcases written_iff.mp (hops ▸ happ.written c v hl) with hw | ⟨rfl, -⟩
    · exact hw
    · cases hl
  · rw [if_neg hg] at hops
    cases hops ▸ happ.joined

theorem starts_of_applicable (hn : s.services.find n = some svc)
    (hc : svc.toServiceConfig = file.config) (hr : svc.state ≠ .running)
    (h0 : (serviceStart env s n).1 = 0) (h : file.Applicable) : StartsLimited env s n file := by
  obtain ⟨hg, hcpu, hio⟩ := h
  obtain ⟨pid, he, hops⟩ := startOps_eq hn hr h0
  have hg : 0 < file.config.cgroup.memoryMax ∨ 0 < file.config.cgroup.cpuMax := hg
  rw [hc, if_pos hg] at hops
  refine ⟨pid, he, ?_, fun c v hl => ?_, ?_⟩
  · obtain ⟨pre, hcreate, hpre⟩ := cgroupCreate_eq n
    exact ⟨pre, cgroupApplyLimits n.bytes file.config.cgroup ++ cgroupAddPid n.bytes pid,
      by rw [hops, hcreate]; simp, hpre⟩
  · rw [hops]
    exact written_iff.mpr (.inl (applied_of_limit hcpu hio hl))
  · rw [hops]
    exact written_iff.mpr (.inr ⟨rfl, rfl⟩)

/-- **Limits are applied exactly when one of them is a memory or a CPU maximum and both weights are
positive.** -/
theorem start_limited_iff (hn : s.services.find n = some svc)
    (hc : svc.toServiceConfig = file.config) (hr : svc.state ≠ .running)
    (h0 : (serviceStart env s n).1 = 0) :
    (file.Limited → StartsLimited env s n file) ↔ (file.Limited → file.Applicable) :=
  forall_congr' fun _ => ⟨applicable_of_starts hn hc hr h0, starts_of_applicable hn hc hr h0⟩

end

/-! ### devd with limits -/

/-- A service file of `devd` with this line in its `cgroup` section. -/
def limitLines (line : String) : List (List UInt8) :=
  [ascii "[service]", ascii "name = devd", ascii "exec = /bin/devd", ascii "[cgroup]", ascii line]

def limitedDevd (line : String) : ServiceFile := reference (assignments [] (limitLines line ++ [[]]))

/-- lumid when it has loaded it. -/
def loadedDevd (line : String) : Sys :=
  serviceRegister (Sys.init 0) (serviceCreate (limitedDevd line).config)

/-- The file lumid reads is parsed into this service. -/
theorem limitedDevd_parsed {line : String}
    (h : ∀ l ∈ limitLines line ++ [[]], 0 ∉ l ∧ newline ∉ l ∧ l.length ≤ 128)
    (hok : (limitedDevd line).name.string.bytes ≠ [] ∧ (limitedDevd line).execPath.string.bytes ≠ []) :
    configParseService (some (unlines (limitLines line) ++ [])) .created =
      some (0, limitedDevd line) := by
  rw [limitedDevd] at hok ⊢
  have hparse := configParseService_lines fun l hl => ServiceLine.of_short (h l hl)
  exact hparse.trans (by rw [configResult_eq, if_pos hok])

theorem loadedDevd_find {line : String} (h : (limitedDevd line).config.name = devd) :
    (loadedDevd line).services.find devd = some (serviceCreate (limitedDevd line).config) := by
  rcases serviceRegister_list (Sys.init 0) (serviceCreate (limitedDevd line).config) with
    ⟨old, hold, -⟩ | ⟨-, hlist⟩
  · cases hold
  · exact Registry.find_eq_some.mpr ⟨hlist ▸ List.mem_cons_self, h⟩

/-- A limit on its processes does not reach the kernel. -/
theorem start_limited_pids :
    configParseService (some (unlines (limitLines "pids_max = 16") ++ [])) .created =
        some (0, limitedDevd "pids_max = 16") ∧
      (serviceStart (Env.plain 10 0) (loadedDevd "pids_max = 16") devd).1 = 0 ∧
      (limitedDevd "pids_max = 16").Limited ∧
      ¬ StartsLimited (Env.plain 10 0) (loadedDevd "pids_max = 16") devd
        (limitedDevd "pids_max = 16") := by
  have h0 : (serviceStart (Env.plain 10 0) (loadedDevd "pids_max = 16") devd).1 = 0 := by decide
  refine ⟨limitedDevd_parsed (by decide) (by decide), h0, ⟨.pidsMax, ascii "16", by decide⟩,
    fun h => ?_⟩
  obtain ⟨hg, -⟩ := applicable_of_starts (loadedDevd_find (by decide)) rfl (by decide) h0 h
  exact absurd hg (by decide)

/-- A limit on its memory does. -/
theorem start_limited_memory :
    StartsLimited (Env.plain 10 0) (loadedDevd "memory_max = 64M") devd
      (limitedDevd "memory_max = 64M") :=
  (start_limited_iff (loadedDevd_find (by decide)) rfl (by decide) (by decide)).mpr
    (fun _ => ⟨.inl (by decide), by decide, by decide⟩) ⟨.memoryMax, ascii "67108864", by decide⟩

end LumiOS.Lumid
