import LumiOS.Support.Text

/-!
# Lumid — Fstab

`mount_fstab` of `mount.c`: what it makes of the lines of an fstab.

A flag is set where its text occurs in the options, also within a longer one: `errors=remount-ro`
mounts read-only (`flags_sound_iff`).
-/

namespace LumiOS.Lumid

open Support

/-- `%s` of `sscanf`, with a width: the word, and what is left. -/
def scanString (width : Nat) (s : List UInt8) : Option (List UInt8 × List UInt8) :=
  let s := trimLeft s
  let word := (s.takeWhile (!isSpace ·)).take width
  if word = [] then none else some (word, s.drop word.length)

structure FstabEntry where
  source : List UInt8
  target : List UInt8
  fstype : List UInt8
  options : List UInt8
deriving DecidableEq, Repr

/-- `sscanf(l, "%255s %255s %63s %255s %d %d", ...)`, when it returns at least 4. -/
def scanEntry (l : List UInt8) : Option FstabEntry := do
  let (source, l) ← scanString 255 l
  let (target, l) ← scanString 255 l
  let (fstype, l) ← scanString 63 l
  let (options, _) ← scanString 255 l
  return ⟨source, target, fstype, options⟩

/-- The filesystems that are mounted before. -/
def virtualFilesystems : List (List UInt8) :=
  [ascii "proc", ascii "sysfs", ascii "devtmpfs", ascii "tmpfs", ascii "cgroup2"]

/-- The entry of a piece of the file, unless the loop goes on to the next. -/
def fstabEntry (line : List UInt8) : Option FstabEntry :=
  let l := (cstring line).dropWhile fun c => c = 32 ∨ c = 9
  if l.head? = some 35 ∨ l.head? = some newline ∨ l = [] then none
  else (scanEntry l).filter fun entry => !virtualFilesystems.contains entry.fstype

/-- The options that set a flag. -/
inductive FlagOption where
  | ro
  | noexec
  | nosuid
  | nodev
deriving DecidableEq, Repr

def FlagOption.text : FlagOption → List UInt8
  | .ro => ascii "ro"
  | .noexec => ascii "noexec"
  | .nosuid => ascii "nosuid"
  | .nodev => ascii "nodev"

/-- `MS_RDONLY` and the others. -/
def FlagOption.bit : FlagOption → UInt64
  | .ro => 1
  | .noexec => 8
  | .nosuid => 2
  | .nodev => 4

/-- The flags, an option after the other. -/
def mountFlags (options : List UInt8) : UInt64 :=
  [FlagOption.ro, .noexec, .nosuid, .nodev].foldl
    (fun flags opt => if (strstr opt.text options).isSome then flags ||| opt.bit else flags) 0

/-- The arguments of a `mount`. -/
structure MountCall where
  source : List UInt8
  target : List UInt8
  fstype : List UInt8
  flags : UInt64
  data : Option (List UInt8)
deriving DecidableEq, Repr

inductive FstabStep where
  | mkdirP (target : List UInt8) (mode : Nat)
  | mount (call : MountCall)
deriving DecidableEq, Repr

def FstabEntry.call (entry : FstabEntry) : MountCall where
  source := entry.source
  target := entry.target
  fstype := entry.fstype
  flags := mountFlags entry.options
  data := if entry.options ≠ ascii "defaults" then some entry.options else none

/-- What the loop does with a piece of the file. -/
def fstabPiece (line : List UInt8) : List FstabStep :=
  match fstabEntry line with
  | none => []
  | some entry => [.mkdirP entry.target 0o755, .mount entry.call]

/-- `char line[LUMID_MAX_LINE_LEN]`. -/
def fstabPieces (content : List UInt8) : List (List UInt8) := pieces 1023 content

/-- `mount_fstab` on the content of the file.  The results of the mounts are only logged. -/
def mountFstab (fstab : Option (List UInt8)) : Int × List FstabStep :=
  match fstab with
  | none => (-1, [])
  | some content => (0, (fstabPieces content).flatMap fstabPiece)

/-! ### Lines -/

/-- White space within a line. -/
def LineBlank (s : List UInt8) : Prop := ∀ c ∈ s, isSpace c = true ∧ c ≠ newline

/-- A field of a line. -/
structure Field where
  bytes : List UInt8
  ne_nil : bytes ≠ []
  no_space : ∀ c ∈ bytes, isSpace c = false ∧ c ≠ 0

/-- A line of an fstab up to its newline: four fields, and what may follow them. -/
structure FstabLine where
  lead : List UInt8
  source : Field
  gap₁ : List UInt8
  target : Field
  gap₂ : List UInt8
  fstype : Field
  gap₃ : List UInt8
  options : Field
  rest : List UInt8
  lead_blank : LineBlank lead
  no_comment : source.bytes.head? ≠ some 35
  gap₁_blank : gap₁ ≠ [] ∧ LineBlank gap₁
  gap₂_blank : gap₂ ≠ [] ∧ LineBlank gap₂
  gap₃_blank : gap₃ ≠ [] ∧ LineBlank gap₃
  options_length : options.bytes.length ≤ 255
  rest_blank : ∀ c ∈ rest.head?, isSpace c = true
  no_newline : newline ∉ rest

namespace FstabLine

def bytes (line : FstabLine) : List UInt8 :=
  line.lead ++ line.source.bytes ++ line.gap₁ ++ line.target.bytes ++ line.gap₂ ++ line.fstype.bytes ++
    line.gap₃ ++ line.options.bytes ++ line.rest

/-- The options, separated by commas. -/
def optionList (line : FstabLine) : List (List UInt8) := line.options.bytes.splitOn 44

/-- The line and its fields are not too long for the buffers. -/
def Fits (line : FstabLine) : Prop :=
  line.bytes.length ≤ 1022 ∧ line.source.bytes.length ≤ 255 ∧ line.target.bytes.length ≤ 255 ∧
    line.fstype.bytes.length ≤ 63

instance (line : FstabLine) : Decidable line.Fits := inferInstanceAs (Decidable (_ ∧ _ ∧ _ ∧ _))

def entry (line : FstabLine) : FstabEntry :=
  ⟨line.source.bytes, line.target.bytes, line.fstype.bytes, line.options.bytes⟩

/-- What ends a line: a newline where more of the file follows. -/
def ending (behind : Option (List UInt8)) : List UInt8 := if behind.isSome then [newline] else []

/-- What is read as an entry of a line. -/
def entries (line : FstabLine) (behind : Option (List UInt8)) : List FstabEntry :=
  (fstabPieces (line.bytes ++ ending behind)).filterMap fstabEntry

/-- Every mount for a line of a file has the flags its options ask for. -/
def FlagsSound (line : FstabLine) (pre : List UInt8) (behind : Option (List UInt8)) : Prop :=
  ∃ steps, (mountFstab (some (pre ++ (line.bytes ++ ending behind) ++ behind.getD []))).2 =
      (mountFstab (some pre)).2 ++ steps ++ (mountFstab behind).2 ∧
    ∀ call, .mount call ∈ steps →
      ∀ opt : FlagOption, call.flags &&& opt.bit ≠ 0 ↔ opt.text ∈ line.optionList

end FstabLine

section

variable {line : FstabLine} {s t content : List UInt8} {width : Nat}

/-! ### The flags -/

/-- The four bits do not get in each other's way. -/
theorem foldl_bit (sets : FlagOption → Bool) (opt : FlagOption) :
    [FlagOption.ro, .noexec, .nosuid, .nodev].foldl
      (fun flags o => if sets o then flags ||| o.bit else flags) 0 &&& opt.bit ≠ 0 ↔ sets opt = true := by
  simp only [List.foldl_cons, List.foldl_nil]
  cases opt <;>
    generalize sets .ro = a <;> generalize sets .noexec = b <;> generalize sets .nosuid = c <;>
      generalize sets .nodev = d <;> revert a b c d <;> decide

theorem mountFlags_bit (options : List UInt8) (opt : FlagOption) :
    mountFlags options &&& opt.bit ≠ 0 ↔ opt.text <:+: options :=
  (foldl_bit (fun o => (strstr o.text options).isSome) opt).trans strstr_isSome

theorem mem_intersperse {α : Type} {x sep : α} {l : List α} (h : x ∈ l) : x ∈ l.intersperse sep := by
  induction l with
  | nil => cases h
  | cons a l ih =>
      cases l with
      | nil => exact h
      | cons b l =>
          rw [List.intersperse_cons_cons]
          rcases List.mem_cons.mp h with rfl | h
          · exact List.mem_cons_self
          · exact List.mem_cons_of_mem _ (List.mem_cons_of_mem _ (ih h))

/-- An option stands in the text of the options. -/
theorem infix_of_mem_splitOn {sep : UInt8} (h : t ∈ s.splitOn sep) : t <:+: s := by
  have hin : t <:+: ((s.splitOn sep).intersperse [sep]).flatten :=
    List.infix_of_mem_flatten (mem_intersperse h)
  rwa [← List.intercalate, List.intercalate_splitOn] at hin

theorem lineStart_ending (line : FstabLine) {behind : Option (List UInt8)} (h : behind.isSome) :
    LineStart (line.bytes ++ FstabLine.ending behind) := by
  rw [FstabLine.ending, if_pos h]
  exact LineStart.line _

/-- What the loop does for a line of a file stands between what it does for the others. -/
theorem mountFstab_line (line : FstabLine) {pre : List UInt8} (hpre : LineStart pre)
    (behind : Option (List UInt8)) :
    (mountFstab (some (pre ++ (line.bytes ++ FstabLine.ending behind) ++ behind.getD []))).2 =
      (mountFstab (some pre)).2 ++ (mountFstab (some (line.bytes ++ FstabLine.ending behind))).2 ++
        (mountFstab behind).2 := by
  cases behind with
  | none =>
      simp only [Option.getD_none, List.append_nil, mountFstab, fstabPieces]
      rw [pieces_append hpre, List.flatMap_append]
  | some post =>
      simp only [Option.getD_some, mountFstab, fstabPieces]
      rw [pieces_insert hpre (lineStart_ending line rfl), List.flatMap_append, List.flatMap_append]

theorem mem_steps_iff {call : MountCall} : .mount call ∈ (mountFstab (some content)).2 ↔
    ∃ entry ∈ (fstabPieces content).filterMap fstabEntry, entry.call = call := by
  simp only [mountFstab, List.mem_flatMap, List.mem_filterMap, fstabPiece]
  constructor
  · rintro ⟨piece, hpiece, hstep⟩
    cases hentry : fstabEntry piece with
    | none =>
        rw [hentry] at hstep
        cases hstep
    | some entry =>
        rw [hentry] at hstep
        have hcall : call = entry.call := by simpa using hstep
        exact ⟨entry, ⟨piece, hpiece, hentry⟩, hcall.symm⟩
  · rintro ⟨entry, ⟨piece, hpiece, hentry⟩, rfl⟩
    refine ⟨piece, hpiece, ?_⟩
    rw [hentry]
    exact List.mem_cons_of_mem _ List.mem_cons_self

/-- The flags are right for the entries read of a line exactly when a text that occurs in their options
is an option of the line. -/
theorem flagsSound_entries (line : FstabLine) {pre : List UInt8} (hpre : LineStart pre)
    (behind : Option (List UInt8)) :
    line.FlagsSound pre behind ↔
      ∀ entry ∈ line.entries behind, ∀ opt : FlagOption,
        opt.text <:+: entry.options ↔ opt.text ∈ line.optionList := by
  have hsteps : line.FlagsSound pre behind ↔
      ∀ call, .mount call ∈ (mountFstab (some (line.bytes ++ FstabLine.ending behind))).2 →
        ∀ opt : FlagOption, call.flags &&& opt.bit ≠ 0 ↔ opt.text ∈ line.optionList := by
    constructor
    · rintro ⟨steps, heq, hsound⟩
      rw [mountFstab_line line hpre, List.append_left_inj, List.append_right_inj] at heq
      rwa [heq]
    · exact fun h => ⟨_, mountFstab_line line hpre behind, h⟩
  simp only [hsteps, mem_steps_iff, FstabLine.entries, forall_exists_index, and_imp,
    forall_apply_eq_imp_iff₂, FstabEntry.call, mountFlags_bit]

/-! ### Scanning -/

theorem scanString_field {blank rest : List UInt8} (hblank : ∀ c ∈ blank, isSpace c = true)
    (field : Field) (hlen : field.bytes.length ≤ width) (hrest : ∀ c ∈ rest.head?, isSpace c = true) :
    scanString width (blank ++ field.bytes ++ rest) = some (field.bytes, rest) := by
  obtain ⟨c, word, hfield⟩ := List.exists_cons_of_ne_nil field.ne_nil
  have hc : isSpace c = false := (field.no_space c (hfield ▸ List.mem_cons_self)).1
  have hleft : trimLeft (blank ++ field.bytes ++ rest) = field.bytes ++ rest := by
    rw [List.append_assoc, trimLeft_append hblank, hfield, List.cons_append, trimLeft_cons hc]
  have hword : (field.bytes ++ rest).takeWhile (!isSpace ·) = field.bytes := by
    rw [List.takeWhile_append_of_pos fun d hd => by simp [(field.no_space d hd).1]]
    cases rest with
    | nil => exact List.append_nil _
    | cons d rest =>
        have hd : isSpace d = true := hrest d rfl
        rw [List.takeWhile_cons_of_neg (by simp [hd]), List.append_nil]
  simp only [scanString, hleft, hword, List.take_of_length_le hlen, if_neg field.ne_nil,
    List.drop_left]

theorem head_blank {gap : List UInt8} (hgap : gap ≠ [] ∧ LineBlank gap) :
    ∀ c ∈ (gap ++ t).head?, isSpace c = true := by
  obtain ⟨c, gap', rfl⟩ := List.exists_cons_of_ne_nil hgap.1
  intro d hd
  cases hd
  exact (hgap.2 _ List.mem_cons_self).1

/-- A line with fields that are not too long is scanned as it stands. -/
theorem scanEntry_line (line : FstabLine) (hfits : line.Fits) {lead rest : List UInt8}
    (hlead : ∀ c ∈ lead, isSpace c = true) (hrest : ∀ c ∈ rest.head?, isSpace c = true) :
    scanEntry (lead ++ line.source.bytes ++ (line.gap₁ ++ line.target.bytes ++ (line.gap₂ ++
      line.fstype.bytes ++ (line.gap₃ ++ line.options.bytes ++ rest)))) = some line.entry := by
  obtain ⟨-, hsource, htarget, hfstype⟩ := hfits
  have h₁ := head_blank (t := line.target.bytes ++ (line.gap₂ ++ line.fstype.bytes ++
    (line.gap₃ ++ line.options.bytes ++ rest))) line.gap₁_blank
  have h₂ := head_blank (t := line.fstype.bytes ++ (line.gap₃ ++ line.options.bytes ++ rest))
    line.gap₂_blank
  have h₃ := head_blank (t := line.options.bytes ++ rest) line.gap₃_blank
  rw [← List.append_assoc] at h₁ h₂ h₃
  simp only [scanEntry, Option.bind_eq_bind, Option.bind_some, scanString_field hlead line.source hsource h₁,
    scanString_field (fun c hc => (line.gap₁_blank.2 c hc).1) line.target htarget h₂,
    scanString_field (fun c hc => (line.gap₂_blank.2 c hc).1) line.fstype hfstype h₃,
    scanString_field (fun c hc => (line.gap₃_blank.2 c hc).1) line.options line.options_length hrest]
  rfl

/-- What stands before the rest of a line. -/
def FstabLine.upToOptions (line : FstabLine) : List UInt8 :=
  line.source.bytes ++ (line.gap₁ ++ line.target.bytes ++ (line.gap₂ ++ line.fstype.bytes ++
    (line.gap₃ ++ line.options.bytes)))

theorem bytes_eq (line : FstabLine) : line.bytes = line.lead ++ line.upToOptions ++ line.rest := by
  simp only [FstabLine.bytes, FstabLine.upToOptions, List.append_assoc]

theorem nul_not_mem (line : FstabLine) : 0 ∉ line.lead ++ line.upToOptions := by
  have hblank {gap : List UInt8} (h : LineBlank gap) : 0 ∉ gap := fun h0 => absurd (h 0 h0).1 (by decide)
  have hfield (field : Field) : 0 ∉ field.bytes := fun h0 => (field.no_space 0 h0).2 rfl
  simp only [FstabLine.upToOptions, List.mem_append, not_or]
  exact ⟨hblank line.lead_blank, hfield _, ⟨hblank line.gap₁_blank.2, hfield _⟩,
    ⟨hblank line.gap₂_blank.2, hfield _⟩, hblank line.gap₃_blank.2, hfield _⟩

theorem newline_not_mem (line : FstabLine) : newline ∉ line.bytes := by
  have hblank {gap : List UInt8} (h : LineBlank gap) : newline ∉ gap := fun hn => (h _ hn).2 rfl
  have hfield (field : Field) : newline ∉ field.bytes := fun hn =>
    absurd (field.no_space _ hn).1 (by decide)
  simp only [bytes_eq, FstabLine.upToOptions, List.mem_append, not_or]
  exact ⟨⟨hblank line.lead_blank, hfield _, ⟨hblank line.gap₁_blank.2, hfield _⟩,
    ⟨hblank line.gap₂_blank.2, hfield _⟩, hblank line.gap₃_blank.2, hfield _⟩, line.no_newline⟩

/-- The string in the buffer ends with the options or goes on with white space. -/
theorem cstring_line (line : FstabLine) (behind : Option (List UInt8)) :
    ∃ rest, cstring (line.bytes ++ FstabLine.ending behind) = line.lead ++ line.upToOptions ++ rest ∧
      ∀ c ∈ rest.head?, isSpace c = true := by
  refine ⟨cstring (line.rest ++ FstabLine.ending behind), ?_, fun c hc => ?_⟩
  · rw [bytes_eq, List.append_assoc, cstring_append (nul_not_mem line)]
  · have hhead : (line.rest ++ FstabLine.ending behind).head? = some c := by
      obtain ⟨t, ht⟩ := cstring_begins (line.rest ++ FstabLine.ending behind)
      rw [← ht, List.head?_append, Option.mem_def.mp hc]
      rfl
    cases hrest : line.rest with
    | nil =>
        rw [hrest] at hhead
        cases behind <;> cases hhead
        rfl
    | cons d rest =>
        rw [hrest] at hhead
        cases hhead
        exact line.rest_blank _ (by rw [hrest]; rfl)

/-- The loop skips spaces and tabs, and comes to a line it does not leave out. -/
theorem skipped_line (line : FstabLine) (rest : List UInt8) : ∃ lead, (∀ c ∈ lead, isSpace c = true) ∧
    (line.lead ++ line.upToOptions ++ rest).dropWhile (fun c => c = 32 ∨ c = 9) =
      lead ++ line.upToOptions ++ rest ∧
    ∀ c ∈ (lead ++ line.upToOptions ++ rest).head?, c ≠ 35 ∧ c ≠ newline := by
  obtain ⟨c, word, hsource⟩ := List.exists_cons_of_ne_nil line.source.ne_nil
  have hc : isSpace c = false := (line.source.no_space c (hsource ▸ List.mem_cons_self)).1
  have hup : ∃ up, line.upToOptions = c :: up := ⟨_, by rw [FstabLine.upToOptions, hsource]; rfl⟩
  obtain ⟨up, hup⟩ := hup
  have hsub : line.lead.dropWhile (fun c => c = 32 ∨ c = 9) <:+ line.lead := List.dropWhile_suffix _
  refine ⟨line.lead.dropWhile fun c => c = 32 ∨ c = 9,
    fun d hd => (line.lead_blank d (hsub.subset hd)).1, ?_, ?_⟩
  · have hkeep : (c :: (up ++ rest)).dropWhile (fun c => c = 32 ∨ c = 9) = c :: (up ++ rest) := by
      refine List.dropWhile_cons_of_neg fun h => ?_
      rcases of_decide_eq_true h with rfl | rfl <;> cases hc
    rw [List.append_assoc, hup, List.cons_append, List.dropWhile_append, hkeep]
    split
    · rename_i hnil
      rw [List.isEmpty_iff.mp hnil]
      rfl
    · rw [List.append_assoc, List.cons_append]
  · intro d hd
    cases hlead : line.lead.dropWhile (fun c => c = 32 ∨ c = 9) with
    | nil =>
        rw [hlead, hup] at hd
        cases hd
        refine ⟨fun h => line.no_comment (by rw [hsource, h]; rfl), fun h => ?_⟩
        rw [h] at hc
        cases hc
    | cons e lead =>
        rw [hlead] at hd
        cases hd
        have hblank := line.lead_blank _ (hsub.subset (hlead ▸ List.mem_cons_self))
        refine ⟨fun h => ?_, hblank.2⟩
        rw [h] at hblank
        exact absurd hblank.1 (by decide)

/-- **A line that fits** is read as the entry it shows. -/
theorem fstabEntry_line (line : FstabLine) (hfits : line.Fits) (behind : Option (List UInt8)) :
    fstabEntry (line.bytes ++ FstabLine.ending behind) =
      if line.fstype.bytes ∈ virtualFilesystems then none else some line.entry := by
  obtain ⟨rest, hstring, hrest⟩ := cstring_line line behind
  obtain ⟨lead, hlead, hskip, hhead⟩ := skipped_line line rest
  have hscan := scanEntry_line line hfits hlead hrest
  have htext : lead ++ line.upToOptions ++ rest = lead ++ line.source.bytes ++ (line.gap₁ ++
      line.target.bytes ++ (line.gap₂ ++ line.fstype.bytes ++ (line.gap₃ ++ line.options.bytes ++
        rest))) := by
    simp only [FstabLine.upToOptions, List.append_assoc]
  have hne : lead ++ line.upToOptions ++ rest ≠ [] := fun h => by
    rw [htext] at h
    simp [line.source.ne_nil] at h
  have hgo : ¬ ((lead ++ line.upToOptions ++ rest).head? = some 35 ∨
      (lead ++ line.upToOptions ++ rest).head? = some newline ∨ lead ++ line.upToOptions ++ rest = []) := by
    rintro (h | h | h)
    · exact (hhead _ h).1 rfl
    · exact (hhead _ h).2 rfl
    · exact hne h
  rw [← htext] at hscan
  simp only [fstabEntry, hstring, hskip, if_neg hgo, hscan, Option.filter_some]
  by_cases h : line.fstype.bytes ∈ virtualFilesystems
  · simp [FstabLine.entry, h]
  · simp [FstabLine.entry, h]

/-- It comes in one piece. -/
theorem entries_fits (line : FstabLine) (hfits : line.Fits) (behind : Option (List UInt8)) :
    line.entries behind =
      if line.fstype.bytes ∈ virtualFilesystems then [] else [line.entry] := by
  have hpiece : fstabPieces (line.bytes ++ FstabLine.ending behind) =
      [line.bytes ++ FstabLine.ending behind] := by
    cases behind with
    | none =>
        have hne : line.bytes ≠ [] := fun h => by
          have hsource := line.source.ne_nil
          simp only [FstabLine.bytes, List.append_eq_nil_iff] at h
          exact hsource h.1.1.1.1.1.1.1.2
        have hend : FstabLine.ending none = [] := rfl
        rw [hend, List.append_nil, fstabPieces,
          pieces_last (newline_not_mem line) (Nat.le_succ_of_le hfits.1), if_neg hne]
    | some post => exact pieces_line (newline_not_mem line) hfits.1
  have hentry := fstabEntry_line line hfits behind
  by_cases h : line.fstype.bytes ∈ virtualFilesystems
  · rw [if_pos h] at hentry
    rw [if_pos h, FstabLine.entries, hpiece, List.filterMap_cons_none hentry, List.filterMap_nil]
  · rw [if_neg h] at hentry
    rw [if_neg h, FstabLine.entries, hpiece, List.filterMap_cons_some hentry, List.filterMap_nil]

/-- **The flags of a mount are those the options ask for** exactly when each of the four texts that occurs
in the options is one of them.  Of a line that is too long for the buffers this is asked of what is read
of it. -/
theorem flags_sound_iff (line : FstabLine) (pre : List UInt8) (hpre : LineStart pre)
    (behind : Option (List UInt8)) :
    line.FlagsSound pre behind ↔
      if line.Fits then line.fstype.bytes ∉ virtualFilesystems →
        ∀ opt : FlagOption, opt.text <:+: line.options.bytes → opt.text ∈ line.optionList
      else ∀ entry ∈ line.entries behind, ∀ opt : FlagOption,
        opt.text <:+: entry.options ↔ opt.text ∈ line.optionList := by
  rw [flagsSound_entries line hpre]
  split
  · rename_i hfits
    rw [entries_fits line hfits]
    split
    · rename_i h
      exact iff_of_true (fun entry he => by cases he) fun hvirtual => absurd h hvirtual
    · rename_i h
      simp only [List.mem_singleton, forall_eq, h, not_false_eq_true, true_imp_iff]
      exact ⟨fun hiff opt => (hiff opt).mp, fun himp opt => ⟨himp opt, infix_of_mem_splitOn⟩⟩
  · rfl

end

/-- The root filesystem, with options of its own. -/
def rootLine (options : Field) (h : options.bytes.length ≤ 255) : FstabLine where
  lead := []
  source := ⟨ascii "/dev/vda2", by decide +kernel, by decide +kernel⟩
  gap₁ := ascii " "
  target := ⟨ascii "/", by decide +kernel, by decide +kernel⟩
  gap₂ := ascii " "
  fstype := ⟨ascii "erofs", by decide +kernel, by decide +kernel⟩
  gap₃ := ascii " "
  options := options
  rest := ascii " 0 1"
  lead_blank := fun c hc => by cases hc
  no_comment := by decide +kernel
  gap₁_blank := by simp only [LineBlank]; decide +kernel
  gap₂_blank := by simp only [LineBlank]; decide +kernel
  gap₃_blank := by simp only [LineBlank]; decide +kernel
  options_length := h
  rest_blank := by decide +kernel
  no_newline := by decide +kernel

def roLine : FstabLine := rootLine ⟨ascii "ro", by decide +kernel, by decide +kernel⟩ (by decide +kernel)

/-- Mounted read-only. -/
theorem flags_sound_ro : roLine.FlagsSound [] none :=
  (flags_sound_iff roLine [] LineStart.nil none).mpr (by
    rw [if_pos (by decide +kernel)]
    intro _ opt
    cases opt <;> decide +kernel)

/-- A filesystem that becomes read-only after an error is mounted so. -/
def remountLine : FstabLine :=
  rootLine ⟨ascii "rw,errors=remount-ro", by decide +kernel, by decide +kernel⟩ (by decide +kernel)

theorem remount_ro_is_ro :
    ¬ ∀ (line : FstabLine) (pre : List UInt8) (behind : Option (List UInt8)), LineStart pre →
      line.FlagsSound pre behind := by
  intro h
  obtain ⟨steps, hsteps, hsound⟩ := h remountLine [] none LineStart.nil
  change (mountFstab (some remountLine.bytes)).2 = [] ++ steps ++ [] at hsteps
  rw [List.append_nil, List.nil_append] at hsteps
  have hmount : .mount remountLine.entry.call ∈ steps := by
    rw [← hsteps]
    decide +kernel
  exact absurd ((hsound _ hmount .ro).mp (by decide +kernel)) (by decide +kernel)

end LumiOS.Lumid
