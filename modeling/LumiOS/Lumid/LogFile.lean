import Mathlib.Logic.Function.Basic
import LumiOS.Support.Numerals
import LumiOS.Lumid.Config
import LumiOS.Lumid.RequestBytes
import LumiOS.Lumid.ShowLog

/-!
# Lumid — LogFile

`log.c`, and what is to be read of a log: `log_write` appends a line to the file `log_init` has opened,
and `lumictl log lumid` prints the end of that file with `show_log`.

A line fits the array it is made in, so what `write` is given is what `snprintf` has written
(`length_logLine_lt`).  The file then is a list of lines (`Follows.ops`), of which `show_log` finds the
last 49, and all where there are fewer than 50 (`showLog_unlines`), until it has become too large for
`util_read_file`.
-/

namespace LumiOS.Lumid

open Support

/-! ### log.c -/

def LogLevel.toNat : LogLevel → Nat
  | .debug => 0
  | .info => 1
  | .warn => 2
  | .error => 3
  | .fatal => 4

def levelStr : LogLevel → String
  | .debug => "DEBUG"
  | .info => "INFO "
  | .warn => "WARN "
  | .error => "ERROR"
  | .fatal => "FATAL"

/-- The `struct tm` of `localtime_r`, and the nanoseconds of the clock. -/
structure LogTime where
  year : Int32
  mon : Int32
  mday : Int32
  hour : Int32
  min : Int32
  sec : Int32
  nsec : Int64

/-- `printf` with a width and leading zeros. -/
def printPadded (width : Nat) (x : Int) : List UInt8 :=
  let sign : List UInt8 := if x < 0 then [45] else []
  let digits := printNat 10 x.natAbs
  sign ++ List.replicate (width - sign.length - digits.length) 48 ++ digits

/-- `timebuf`. -/
def timeText (t : LogTime) : List UInt8 :=
  snprintf 32 (printPadded 4 (t.year + 1900).toInt ++ [45] ++ printPadded 2 (t.mon + 1).toInt ++ [45] ++
    printPadded 2 t.mday.toInt ++ [32] ++ printPadded 2 t.hour.toInt ++ [58] ++
    printPadded 2 t.min.toInt ++ [58] ++ printPadded 2 t.sec.toInt ++ [46] ++
    printPadded 3 (t.nsec / 1000000).toInt)

/-- `msgbuf`, of the text `vsnprintf` is to write. -/
def msgText (msg : List UInt8) : List UInt8 := cstring (snprintf maxLineLen msg)

/-- The line, without the newline that ends it. -/
def logLine (level : LogLevel) (time : LogTime) (msg : List UInt8) : List UInt8 :=
  [91] ++ timeText time ++ ascii "] [" ++ ascii (levelStr level) ++ ascii "] " ++ msgText msg

structure Log where
  /-- `g_log_level`. -/
  level : LogLevel
  /-- The path `g_log_fd` was opened on. -/
  fd : Option (List UInt8)
  /-- The contents of the files, by their paths. -/
  files : List UInt8 → Option (List UInt8)

/-- The log of a process that starts. -/
def Log.start (files : List UInt8 → Option (List UInt8)) : Log := ⟨.info, none, files⟩

/-- The file `log_init` opens. -/
def logPath (logDir : List UInt8) : List UInt8 := snprintf maxPathLen (logDir ++ ascii "/lumid.log")

inductive LogOp where
  /-- `log_init`, and whether `open` returns a descriptor. -/
  | init (logDir : Option (List UInt8)) (opens : Bool)
  | setLevel (level : LogLevel)
  /-- `log_write`, and how many of the bytes `write` takes. -/
  | write (level : LogLevel) (time : LogTime) (msg : List UInt8) (taken : Nat)
  | close

namespace Log

def init (logDir : Option (List UInt8)) (opens : Bool) (s : Log) : Log :=
  match logDir with
  | none => s
  | some dir =>
    if opens then
      { s with
        fd := some (logPath dir)
        files := Function.update s.files (logPath dir) (some ((s.files (logPath dir)).getD [])) }
    else { s with fd := none }

/-- `log_write`; `linebuf` is an array of `LUMID_MAX_LINE_LEN + 64` bytes, and `write` is given the length
of the whole line. -/
def write (level : LogLevel) (time : LogTime) (msg : List UInt8) (taken : Nat) (s : Log) : Log :=
  if level.toNat < s.level.toNat then s
  else
    match s.fd with
    | none => s
    | some path =>
      let linebuf := snprintf (maxLineLen + 64) (logLine level time msg ++ [newline])
      { s with
        files := Function.update s.files path ((s.files path).map (· ++ linebuf.take taken)) }

end Log

def LogOp.run : LogOp → Log → Log
  | .init logDir opens, s => s.init logDir opens
  | .setLevel level, s => { s with level := level }
  | .write level time msg taken, s => s.write level time msg taken
  | .close, s => { s with fd := none }

/-- A message of one line, that is written as a whole. -/
def LogOp.Whole : LogOp → Prop
  | .write level time msg taken => newline ∉ msgText msg ∧ (logLine level time msg).length < taken
  | _ => True

/-! ### The log as a list of lines -/

/-- What the file at a path is for: the lines it has been given, and whether it is given more. -/
structure Journal where
  level : LogLevel
  isOpen : Bool
  lines : Option (List (List UInt8))

namespace Journal

variable (path : List UInt8)

def next (j : Journal) : LogOp → Journal
  | .init none _ => j
  | .init (some dir) opens =>
    if opens = true ∧ logPath dir = path then
      { j with isOpen := true, lines := some (j.lines.getD []) }
    else { j with isOpen := false }
  | .setLevel level => { j with level := level }
  | .write level time msg _ =>
    if j.isOpen = true ∧ j.level.toNat ≤ level.toNat then
      { j with lines := j.lines.map (· ++ [logLine level time msg]) }
    else j
  | .close => { j with isOpen := false }

/-- The last lines, of which 50 are one too many. -/
def lastShown (lines : List (List UInt8)) : List (List UInt8) :=
  if lines.length < 50 then lines else lines.drop (lines.length - 49)

/-- What `show_log` makes of the file. -/
def shown (j : Journal) : Int × List UInt8 :=
  match j.lines with
  | none => (-1, [])
  | some lines =>
    if 1024 * 1024 < (unlines lines).length then (-1, []) else (0, unlines (lastShown lines))

end Journal

/-- A line that ends where its newline is. -/
structure LogText (line : List UInt8) : Prop where
  ne_nil : line ≠ []
  no_newline : newline ∉ line
  no_nul : 0 ∉ line

/-! ### A line -/

theorem mem_printPadded {width : Nat} {x : Int} {c : UInt8} (hc : c ∈ printPadded width x) :
    c ≠ newline ∧ c ≠ 0 := by
  have hdigit : ∀ d ∈ printNat 10 x.natAbs, d ≠ newline ∧ d ≠ 0 := by
    intro d hd
    have h := isDigit_of_mem_printNat (by decide) (by decide) hd
    refine ⟨?_, isDigit_ne_zero h⟩
    rintro rfl
    exact absurd (isDigit_ne h).1 (by decide)
  simp only [printPadded, List.mem_append] at hc
  rcases hc with (hc | hc) | hc
  · split at hc
    · rw [List.mem_singleton.mp hc]
      decide
    · exact absurd hc List.not_mem_nil
  · rw [List.eq_of_mem_replicate hc]
    decide
  · exact hdigit c hc

theorem mem_timeText {t : LogTime} {c : UInt8} (hc : c ∈ timeText t) : c ≠ newline ∧ c ≠ 0 := by
  have hall := List.mem_of_mem_take hc
  simp only [List.mem_append, List.mem_singleton] at hall
  have hsep : ∀ d : UInt8, d = 45 ∨ d = 32 ∨ d = 58 ∨ d = 46 → d ≠ newline ∧ d ≠ 0 := by
    rintro d (rfl | rfl | rfl | rfl) <;> decide
  rcases hall with (((((((((((h | h) | h) | h) | h) | h) | h) | h) | h) | h) | h) | h) | h
  all_goals first
    | exact mem_printPadded h
    | exact hsep c (by simp [h])

theorem length_levelStr (level : LogLevel) : (ascii (levelStr level)).length = 5 := by
  cases level <;> rfl

/-- **A line fits.** -/
theorem length_logLine_lt (level : LogLevel) (time : LogTime) (msg : List UInt8) :
    (logLine level time msg ++ [newline]).length < maxLineLen + 64 := by
  have htime : (timeText time).length ≤ 31 := List.length_take_le _ _
  have hmsg : (msgText msg).length ≤ maxLineLen - 1 :=
    (cstring_begins _).length_le.trans (List.length_take_le _ _)
  have hpre : (ascii "] [").length = 3 := rfl
  have hpost : (ascii "] ").length = 2 := rfl
  simp only [logLine, List.length_append, List.length_singleton, length_levelStr, hpre, hpost]
  simp only [maxLineLen] at hmsg ⊢
  omega

theorem logText_logLine {level : LogLevel} {time : LogTime} {msg : List UInt8}
    (h : newline ∉ msgText msg) : LogText (logLine level time msg) := by
  have hall : ∀ c ∈ logLine level time msg, c ≠ newline ∧ c ≠ 0 := by
    intro c hc
    simp only [logLine, List.mem_append, List.mem_singleton] at hc
    have hlevel : ∀ d ∈ ascii (levelStr level), d ≠ newline ∧ d ≠ 0 := by
      cases level <;> decide +kernel
    rcases hc with ((((rfl | hc) | hc) | hc) | hc) | hc
    · decide
    · exact mem_timeText hc
    · exact (by decide +kernel : ∀ d ∈ ascii "] [", d ≠ newline ∧ d ≠ 0) c hc
    · exact hlevel c hc
    · exact (by decide +kernel : ∀ d ∈ ascii "] ", d ≠ newline ∧ d ≠ 0) c hc
    · refine ⟨fun e => h (e ▸ hc), ?_⟩
      rintro rfl
      exact nul_not_mem_cstring _ hc
  exact ⟨List.append_ne_nil_of_left_ne_nil (by simp) _, fun hc => (hall _ hc).1 rfl,
    fun hc => (hall _ hc).2 rfl⟩

/-! ### The end of a list of lines -/

theorem unlines_concat (lines : List (List UInt8)) (l : List UInt8) :
    unlines (lines ++ [l]) = unlines lines ++ (l ++ [newline]) := by
  rw [unlines, List.flatMap_append, List.flatMap_singleton]
  rfl

theorem textLines_unlines {lines : List (List UInt8)} (h : ∀ l ∈ lines, newline ∉ l) :
    textLines (unlines lines) = lines.map (· ++ [newline]) := by
  induction lines with
  | nil => rfl
  | cons l lines ih =>
      rw [unlines_cons, List.append_assoc, List.singleton_append, textLines_line (h l List.mem_cons_self),
        ih fun m hm => h m (List.mem_cons_of_mem l hm)]
      rfl

theorem lastLines_unlines {lines : List (List UInt8)} (h : ∀ l ∈ lines, newline ∉ l) (k : Nat) :
    lastLines k (unlines lines) = unlines (lines.drop (lines.length - k)) := by
  rw [lastLines, textLines_unlines h, List.length_map, ← List.map_drop, ← List.flatMap_def]
  rfl

/-- The newlines of such a text, but for its first byte. -/
theorem count_unlines {lines : List (List UInt8)} (h : ∀ l ∈ lines, LogText l) :
    ((unlines lines).drop 1).count newline = lines.length := by
  have hlen := textLines_length (unlines lines)
  rw [textLines_unlines fun l hl => (h l hl).no_newline, List.length_map,
    if_pos (LineStart.unlines lines), count_eq] at hlen
  have hhead : (unlines lines).head? ≠ some newline := by
    cases lines with
    | nil => exact fun e => nomatch e
    | cons l lines =>
        obtain ⟨c, l', rfl⟩ := List.exists_cons_of_ne_nil (h l List.mem_cons_self).ne_nil
        intro e
        refine (h _ List.mem_cons_self).no_newline ?_
        rw [← Option.some.inj e]
        exact List.mem_cons_self
  rw [if_neg hhead] at hlen
  omega

/-- **`show_log` on a list of lines.** -/
theorem showLog_unlines {lines : List (List UInt8)} (h : ∀ l ∈ lines, LogText l)
    (hsize : (unlines lines).length ≤ 1024 * 1024) :
    showLog (some (unlines lines)) = (0, unlines (Journal.lastShown lines)) := by
  have hnl : ∀ l ∈ lines, newline ∉ l := fun l hl => (h l hl).no_newline
  have hnul : 0 ∉ unlines lines := by
    intro hc
    obtain ⟨l, hl, hc⟩ := List.mem_flatMap.mp hc
    rcases List.mem_append.mp hc with hc | hc
    · exact (h l hl).no_nul hc
    · exact absurd (List.mem_singleton.mp hc) (by decide)
  have hread : utilReadFile (some (unlines lines)) = some (unlines lines) := by
    rw [utilReadFile, if_neg (Nat.not_lt.mpr hsize), cstring_of_not_mem hnul]
  have hlines : (textLines (unlines lines)).length = lines.length := by
    rw [textLines_unlines hnl, List.length_map]
  rw [showLog, hread]
  simp only [countLines_eq, Nat.le_min, Nat.le_refl, true_and, hlines]
  by_cases hN : 50 ≤ lines.length
  · have hlast : unlines (Journal.lastShown lines) = lastLines 49 (unlines lines) := by
      rw [lastLines_unlines hnl, Journal.lastShown, if_neg (Nat.not_lt.mpr hN)]
    have hcount₁ := count_unlines h
    have hpos : 0 < (unlines lines).length := by
      by_contra hzero
      have hnil : unlines lines = [] := List.length_eq_zero_iff.mp (by omega)
      rw [hnil] at hcount₁
      exact absurd hcount₁ (by simp; omega)
    rw [if_pos hN, hlast]
    cases hscan : scanBack (unlines lines) ((unlines lines).length - 1) 0 with
    | mk q found =>
        obtain ⟨hq, hcount, hstop⟩ := scanBack_spec (Nat.sub_lt hpos Nat.one_pos) (by decide) hscan
        rw [Nat.sub_add_cancel hpos, List.take_length, Nat.zero_add] at hcount
        rcases hstop with ⟨hfew, rfl⟩ | ⟨rfl, hnewline⟩
        · -- there are newlines enough behind the first byte
          rw [hcount, hcount₁] at hfew
          omega
        · have hbehind : ((unlines lines).drop (q + 2)).count newline = 49 := by
            obtain ⟨hlt, hget⟩ := List.getElem?_eq_some_iff.mp hnewline
            rw [← List.getElem_cons_drop hlt, hget, List.count_cons_self] at hcount
            exact (Nat.succ.inj hcount).symm
          have hend : LineStart ((unlines lines).drop (q + 2)) :=
            LineStart.suffix (s := (unlines lines).take (q + 2))
              ((List.take_append_drop _ _).symm ▸ LineStart.unlines lines)
          have hk : (textLines ((unlines lines).drop (q + 2))).length = 49 := by
            rw [textLines_length, hbehind, if_pos hend]
          have happ := lastLines_append (lineStart_take hnewline) hk
          rw [List.take_append_drop] at happ
          simp only [Nat.le_refl, if_true, happ]
  · have hfew := Nat.not_le.mp hN
    rw [if_neg hN, Journal.lastShown, if_pos hfew]

/-! ### Runs -/

/-- The file at a path is the lines of a journal. -/
structure Follows (path : List UInt8) (s : Log) (j : Journal) : Prop where
  level : s.level = j.level
  fd : s.fd = some path ↔ j.isOpen = true
  file : s.files path = j.lines.map unlines
  texts : ∀ lines, j.lines = some lines → ∀ l ∈ lines, LogText l

section

variable {path : List UInt8} {s : Log} {j : Journal}

theorem Follows.init (h : Follows path s j) (logDir : Option (List UInt8)) (opens : Bool) :
    Follows path (s.init logDir opens) (j.next path (.init logDir opens)) := by
  cases logDir with
  | none => exact h
  | some dir =>
      simp only [Log.init, Journal.next]
      cases opens with
      | false =>
          exact ⟨h.level, iff_of_false (fun e => nomatch e) (fun e => nomatch e), h.file, h.texts⟩
      | true =>
          by_cases hpath : logPath dir = path
          · subst hpath
            rw [if_pos rfl, if_pos ⟨rfl, rfl⟩]
            refine ⟨h.level, iff_of_true rfl rfl, ?_, ?_⟩
            · show Function.update _ _ _ _ = _
              rw [Function.update_self, h.file]
              cases j.lines <;> rfl
            · rintro lines ⟨⟩ l hl
              cases hj : j.lines with
              | none =>
                  rw [hj] at hl
                  exact absurd hl List.not_mem_nil
              | some lines =>
                  rw [hj] at hl
                  exact h.texts lines hj l hl
          · rw [if_pos rfl, if_neg fun e => hpath e.2]
            refine ⟨h.level, iff_of_false (fun e => hpath (Option.some.inj e)) (fun e => nomatch e), ?_,
              h.texts⟩
            show Function.update _ _ _ _ = _
            rw [Function.update_of_ne (Ne.symm hpath), h.file]

theorem Follows.write {level : LogLevel} {time : LogTime} {msg : List UInt8} {taken : Nat}
    (h : Follows path s j) (hmsg : newline ∉ msgText msg)
    (htaken : (logLine level time msg).length < taken) :
    Follows path (s.write level time msg taken) (j.next path (.write level time msg taken)) := by
  have hlevel : j.level.toNat ≤ level.toNat ↔ ¬ level.toNat < s.level.toNat := by
    rw [h.level]
    exact Nat.not_lt.symm
  have htext : (snprintf (maxLineLen + 64) (logLine level time msg ++ [newline])).take taken =
      logLine level time msg ++ [newline] := by
    rw [snprintf_eq (length_logLine_lt level time msg)]
    exact List.take_of_length_le (by rw [List.length_append]; exact htaken)
  simp only [Log.write, Journal.next, hlevel, htext]
  by_cases hlow : level.toNat < s.level.toNat
  · rw [if_pos hlow, if_neg fun e => e.2 hlow]
    exact h
  · rw [if_neg hlow]
    cases hfd : s.fd with
    | none =>
        have hclosed : j.isOpen ≠ true := fun e => nomatch hfd.symm.trans (h.fd.mpr e)
        rw [if_neg fun e => hclosed e.1]
        exact h
    | some other =>
        have hopen : some other = some path ↔ j.isOpen = true := hfd ▸ h.fd
        by_cases hpath : other = path
        · subst hpath
          rw [if_pos ⟨hopen.mp rfl, hlow⟩]
          refine ⟨h.level, hopen, ?_, ?_⟩
          · show Function.update _ _ _ _ = _
            rw [Function.update_self, h.file]
            cases j.lines with
            | none => rfl
            | some lines => exact congrArg some (unlines_concat lines _).symm
          · intro lines hlines l hl
            obtain ⟨before, hbefore, rfl⟩ := Option.map_eq_some_iff.mp hlines
            rcases List.mem_append.mp hl with hl | hl
            · exact h.texts before hbefore l hl
            · rw [List.mem_singleton.mp hl]
              exact logText_logLine hmsg
        · have hclosed : j.isOpen ≠ true := fun e => hpath (Option.some.inj (hopen.mpr e))
          rw [if_neg fun e => hclosed e.1]
          refine ⟨h.level, hopen, ?_, h.texts⟩
          show Function.update _ _ _ _ = _
          rw [Function.update_of_ne (Ne.symm hpath), h.file]

/-- **One operation.** -/
theorem Follows.op {op : LogOp} (h : Follows path s j) (hop : op.Whole) :
    Follows path (op.run s) (j.next path op) := by
  cases op with
  | init logDir opens => exact h.init logDir opens
  | setLevel level => exact ⟨rfl, h.fd, h.file, h.texts⟩
  | close => exact ⟨h.level, iff_of_false (fun e => nomatch e) (fun e => nomatch e), h.file, h.texts⟩
  | write level time msg taken => exact h.write hop.1 hop.2

/-- **A run.** -/
theorem Follows.ops {ops : List LogOp} (h : Follows path s j) (hops : ∀ op ∈ ops, op.Whole) :
    Follows path (ops.foldl (fun s op => op.run s) s) (ops.foldl (Journal.next path) j) := by
  induction ops generalizing s j with
  | nil => exact h
  | cons op ops ih =>
      refine ih (h.op (hops op List.mem_cons_self)) fun op' hop' => ?_
      exact hops op' (List.mem_cons_of_mem op hop')

theorem Journal.shown_eq {j : Journal} (h : ∀ lines, j.lines = some lines → ∀ l ∈ lines, LogText l) :
    showLog (j.lines.map unlines) = j.shown := by
  rw [Journal.shown]
  cases hj : j.lines with
  | none => rfl
  | some lines =>
      by_cases hsize : 1024 * 1024 < (unlines lines).length
      · simp only [if_pos hsize, Option.map_some, showLog, utilReadFile]
      · simp only [if_neg hsize, Option.map_some]
        exact showLog_unlines (h lines hj) (Nat.not_lt.mp hsize)

end

/-- **What is to be read of a log.**  After any run of the log of a process, over the lines `path` had
before (none of which is empty or has a NUL), `show_log` prints the last 49 of the lines the file has: those
from before, and those that were logged there, at the level of the moment and while the file was open.  It
prints all of them where they are fewer than 50, and nothing of a file of more than a mebibyte. -/
theorem log_shown (path : List UInt8) {files : List UInt8 → Option (List UInt8)}
    {before : Option (List (List UInt8))} (hbefore : files path = before.map unlines)
    (htexts : ∀ lines, before = some lines → ∀ l ∈ lines, LogText l) {ops : List LogOp}
    (hops : ∀ op ∈ ops, op.Whole) :
    showLog ((ops.foldl (fun s op => op.run s) (Log.start files)).files path) =
      (ops.foldl (Journal.next path) ⟨.info, false, before⟩).shown := by
  have hstart : Follows path (Log.start files) ⟨.info, false, before⟩ :=
    ⟨rfl, iff_of_false (fun e => nomatch e) (fun e => nomatch e), hbefore, htexts⟩
  have hend := hstart.ops hops
  rw [hend.file]
  exact Journal.shown_eq hend.texts

/-- The log of lumid, from the first message on. -/
def lumidLog : List LogOp :=
  [.init (some (ascii "/var/log/lumid")) true, .setLevel .info,
    .write .info ⟨125, 0, 1, 0, 0, 0, 0⟩ (ascii "starting services...") 100,
    .write .debug ⟨125, 0, 1, 0, 0, 0, 0⟩ (ascii "PID: 1") 100, .close]

theorem log_shown_lumid :
    showLog ((lumidLog.foldl (fun s op => op.run s) (Log.start fun _ => none)).files
        (ascii "/var/log/lumid/lumid.log")) =
      (0, ascii "[2025-01-01 00:00:00.000] [INFO ] starting services...\n") := by
  have hops : ∀ op ∈ lumidLog, op.Whole := by
    simp only [lumidLog, List.forall_mem_cons, LogOp.Whole]
    refine ⟨trivial, trivial, ?_, ?_, trivial, List.forall_mem_nil _⟩
    · decide +kernel
    · decide +kernel
  have htexts : ∀ lines : List (List UInt8), none = some lines → ∀ l ∈ lines, LogText l :=
    fun _ h => nomatch h
  refine (log_shown (ascii "/var/log/lumid/lumid.log") rfl htexts hops).trans ?_
  decide +kernel

end LumiOS.Lumid
