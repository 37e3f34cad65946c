import Mathlib.Data.Fin.VecNotation
import LumiOS.Support.Floats
import LumiOS.Support.Runs
import LumiOS.Lumid.Fstab

/-!
# Audio — Volume

The levels of `audiod`, `volume.c`: six numbers, set by commands and loaded from a file.

`volume_set` keeps its level between 0 and 1, `volume_init` takes any number the file has.  What
`volume_save` writes of levels in range is in range when it is loaded again, also where the write broke
off (`volumeSave_sound`).  So the levels are in range, whatever follows, exactly when those of the first
file are (`volume_range_iff`).
-/

namespace LumiOS.Audio

open Support
open Lumid (scanString)

/-! ### The state -/

inductive AudioOutput where
  | speaker | headphone | bluetooth | hdmi | usb
deriving DecidableEq, Repr

def streamNames : List (List UInt8) :=
  [ascii "media", ascii "ringtone", ascii "alarm", ascii "notification", ascii "call",
    ascii "system"]

def streamName (i : Fin 6) : List UInt8 := streamNames.get i

structure VolumeState where
  level : Fin 6 → CFloat
  muted : Fin 6 → Bool
  activeOutput : AudioOutput

/-- `g_vol`, and the text of `VOLUME_FILE`, if there is one to open. -/
structure Audiod where
  vol : VolumeState
  file : Option (List UInt8)

/-- The stream with this number. -/
def stream (n : Int) : Option (Fin 6) :=
  if h : n < 0 ∨ n > 5 then none else some ⟨n.toNat, by omega⟩

/-! ### volume_init -/

def defaultLevel : Fin 6 → CFloat :=
  ![.num (6 / 10), .num (8 / 10), .num (9 / 10), .num (7 / 10), .num (8 / 10), .num (5 / 10)]

/-- `sscanf(line, "%31s = %f", key, &val)`, when it returns 2. -/
def scanLevel (line : List UInt8) : Option (List UInt8 × CFloat) :=
  match scanString 31 line with
  | none => none
  | some (key, s) =>
    match trimLeft s with
    | 61 :: s => (scanFloat s).map fun val => (key, val)
    | _ => none

/-- The stream with this name. -/
def findStream (key : List UInt8) : Option (Fin 6) :=
  (List.finRange 6).find? fun i => key = streamName i

/-- The loop of `volume_init`, for one call of `fgets`. -/
def loadPiece (level : Fin 6 → CFloat) (piece : List UInt8) : Fin 6 → CFloat :=
  match scanLevel (cstring piece) with
  | none => level
  | some (key, val) =>
    match findStream key with
    | none => level
    | some i => Function.update level i val

def volumeInit (s : Audiod) : Audiod :=
  { s with vol :=
    { level := match s.file with
        | none => defaultLevel
        | some text => (pieces 127 text).foldl loadPiece defaultLevel
      muted := fun _ => false
      activeOutput := .speaker } }

/-! ### The other commands -/

def volumeGet (vol : VolumeState) (n : Int) : CFloat :=
  match stream n with
  | none => .num 0
  | some i => if vol.muted i then .num 0 else vol.level i

def volumeSet (s : Audiod) (n : Int) (level : CFloat) : Int × Audiod :=
  match stream n with
  | none => (-1, s)
  | some i =>
    let level := if level.lt (.num 0) then .num 0 else level
    let level := if CFloat.lt (.num 1) level then .num 1 else level
    (0, { s with vol := { s.vol with level := Function.update s.vol.level i level } })

def volumeSetMute (s : Audiod) (n : Int) (mute : Bool) : Int × Audiod :=
  match stream n with
  | none => (-1, s)
  | some i => (0, { s with vol := { s.vol with muted := Function.update s.vol.muted i mute } })

/-- The lines `volume_save` writes. -/
def volumeLines (level : Fin 6 → CFloat) : List (List UInt8) :=
  ascii "# LumiOS audiod volume configuration" ::
    (List.finRange 6).map fun i => streamName i ++ ascii " = " ++ printFixed2 (level i)

/-- `volume_save`, by how many bytes get into the file; nothing if `fopen` fails. -/
def volumeSave (s : Audiod) (written : Option Nat) : Audiod :=
  match written with
  | none => s
  | some n => { s with file := some ((unlines (volumeLines s.vol.level)).take n) }

inductive VolumeOp where
  | init
  | set (n : Int) (level : CFloat)
  | setMute (n : Int) (mute : Bool)
  | save (written : Option Nat)

def VolumeOp.run (s : Audiod) : VolumeOp → Audiod
  | .init => volumeInit s
  | .set n level => (volumeSet s n level).2
  | .setMute n mute => (volumeSetMute s n mute).2
  | .save written => volumeSave s written

def Step (s : Audiod) (op : VolumeOp) (s' : Audiod) : Prop := op.run s = s'

/-! ### What a file says -/

/-- The level a line gives a stream. -/
def lineLevel (i : Fin 6) (line : List UInt8) : Option CFloat :=
  (scanLevel line).bind fun p => if p.1 = streamName i then some p.2 else none

/-- The levels a file gives a stream, in order. -/
def levels (text : List UInt8) (i : Fin 6) : List CFloat :=
  (pieces 127 text).filterMap fun piece => lineLevel i (cstring piece)

/-- The last level that the file gives each stream, if it gives one, is in range. -/
def Sound (file : Option (List UInt8)) : Prop :=
  ∀ text ∈ file, ∀ i, ∀ x ∈ (levels text i).getLast?, x.Within 0 1

/-- Every level is in range. -/
def InRange (level : Fin 6 → CFloat) : Prop := ∀ i, (level i).Within 0 1

section

variable {s s' : Audiod} {level : Fin 6 → CFloat} {op : VolumeOp} {i : Fin 6}

theorem streamName_inj {i j : Fin 6} : streamName i = streamName j ↔ i = j := by
  revert i j
  decide

theorem defaultLevel_inRange : InRange defaultLevel := by
  intro i
  revert i
  decide +kernel

theorem findStream_eq_some {key : List UInt8} : findStream key = some i ↔ key = streamName i := by
  constructor
  · intro h
    simpa using List.find?_some h
  · rintro rfl
    cases h : findStream (streamName i) with
    | none => simpa using List.find?_eq_none.mp h i (List.mem_finRange i)
    | some j =>
        have hj : streamName i = streamName j := by simpa using List.find?_some h
        rw [streamName_inj.mp hj]

/-- One line. -/
theorem loadPiece_eq (level : Fin 6 → CFloat) (piece : List UInt8) (i : Fin 6) :
    loadPiece level piece i = (lineLevel i (cstring piece)).getD (level i) := by
  rw [loadPiece, lineLevel]
  cases scanLevel (cstring piece) with
  | none => rfl
  | some p =>
      simp only [Option.bind_some, ← findStream_eq_some]
      cases findStream p.1 with
      | none => rfl
      | some j =>
          by_cases hij : i = j
          · rw [hij, if_pos rfl]
            exact Function.update_self j p.2 level
          · rw [if_neg fun h => hij (Option.some.inj h).symm]
            exact Function.update_of_ne hij p.2 level

/-- **What is loaded** is the last level the file gives, or the default. -/
theorem foldl_loadPiece (ps : List (List UInt8)) (level : Fin 6 → CFloat) (i : Fin 6) :
    ps.foldl loadPiece level i =
      ((ps.filterMap fun piece => lineLevel i (cstring piece)).getLast?).getD (level i) := by
  induction ps generalizing level with
  | nil => rfl
  | cons piece ps ih =>
      rw [List.foldl_cons, ih, loadPiece_eq, List.filterMap_cons]
      cases lineLevel i (cstring piece) with
      | none => rfl
      | some x => rw [List.getLast?_cons, Option.getD_some, Option.getD_some]

/-- Loading a file leaves the levels in range exactly when those it gives are. -/
theorem volumeInit_inRange_iff (s : Audiod) : InRange (volumeInit s).vol.level ↔ Sound s.file := by
  cases hfile : s.file with
  | none =>
      simp only [volumeInit, hfile]
      exact iff_of_true defaultLevel_inRange fun text h => nomatch h
  | some text =>
      have hlevel : ∀ i, (volumeInit s).vol.level i =
          ((levels text i).getLast?).getD (defaultLevel i) := fun i => by
        simp only [volumeInit, hfile]
        exact foldl_loadPiece _ _ i
      constructor
      · rintro h _ ⟨⟩ i x hx
        have hi := h i
        rwa [hlevel, Option.mem_def.mp hx] at hi
      · intro h i
        rw [hlevel]
        cases hlast : (levels text i).getLast? with
        | none => exact defaultLevel_inRange i
        | some x => exact h text rfl i x hlast

/-! ### What a save leaves -/

/-- The number of a line stands behind a `=`. -/
theorem scanLevel_eq_some {line key : List UInt8} {val : CFloat}
    (h : scanLevel line = some (key, val)) :
    ∃ pre s, line = pre ++ 61 :: s ∧ scanFloat s = some val := by
  rw [scanLevel] at h
  cases hkey : scanString 31 line with
  | none =>
      rw [hkey] at h
      cases h
  | some p =>
      obtain ⟨word, rest⟩ := p
      rw [hkey] at h
      have hrest : rest <:+ line := by
        simp only [scanString] at hkey
        split at hkey
        · cases hkey
        · cases hkey
          exact (List.drop_suffix _ _).trans (List.dropWhile_suffix _)
      dsimp only at h
      split at h
      · rename_i s hs
        obtain ⟨val', hval, he⟩ := Option.map_eq_some_iff.mp h
        cases he
        have hsuffix : 61 :: s <:+ line := hs ▸ (List.dropWhile_suffix _).trans hrest
        obtain ⟨pre, hpre⟩ := hsuffix
        exact ⟨pre, s, hpre.symm, hval⟩
      · cases h

theorem eol_chars : ∀ eol ∈ [[], [newline]], ∀ c ∈ eol, c ∉ [0, 61] := by decide +kernel

/-- The beginning of a line that was saved. -/
theorem scanLevel_take {name text key : List UInt8} {x val : CFloat} (hx : x.Within 0 1)
    (hname : 0 ∉ name ∧ 61 ∉ name) (htext : text = printFixed2 x) (j : Nat) {eol : List UInt8}
    (heol : eol ∈ [[], [newline]])
    (h : scanLevel (cstring ((name ++ ascii " = " ++ text).take j ++ eol)) = some (key, val)) :
    val.Within 0 1 := by
  let front := name ++ [32]
  have hchars : ∀ c ∈ text, c ∉ [0, newline, 61] := fun c hc => mem_printFixed2 hx (htext ▸ hc)
  have hline : name ++ ascii " = " ++ text = front ++ 61 :: 32 :: text := by
    simp only [front, List.append_assoc]
    rfl
  have heolChars : ∀ c ∈ eol, c ∉ [0, 61] := eol_chars eol heol
  have hfront : 61 ∉ front := fun hm => (List.mem_append.mp hm).elim hname.2 (by decide)
  have hnul : 0 ∉ (front ++ 61 :: 32 :: text).take j ++ eol := by
    intro hm
    rcases List.mem_append.mp hm with hm | hm
    · rcases List.mem_append.mp (List.mem_of_mem_take hm) with hm | hm
      · exact (List.mem_append.mp hm).elim hname.1 (by decide)
      · rcases List.mem_cons.mp hm with hm | hm
        · cases hm
        · rcases List.mem_cons.mp hm with hm | hm
          · cases hm
          · exact hchars 0 hm (by decide)
    · exact heolChars 0 hm (by decide)
  rw [hline, cstring_of_not_mem hnul] at h
  obtain ⟨pre, s, hsplit, hval⟩ := scanLevel_eq_some h
  rcases Nat.lt_or_ge front.length j with hj | hj
  · -- the line keeps its `=`, and has no other
    obtain ⟨m, rfl⟩ := Nat.exists_eq_add_of_lt hj
    have htake : (front ++ 61 :: 32 :: text).take (front.length + m + 1) =
        front ++ 61 :: (32 :: text).take m := by
      rw [List.take_append, List.take_of_length_le (by omega)]
      congr 1
      rw [Nat.add_assoc, Nat.add_sub_cancel_left, List.take_succ_cons]
    have hbehind : 61 ∉ (32 :: text).take m ++ eol := by
      intro hm
      rcases List.mem_append.mp hm with hm | hm
      · rcases List.mem_cons.mp (List.mem_of_mem_take hm) with hm | hm
        · cases hm
        · exact hchars 61 hm (by decide)
      · exact heolChars 61 hm (by decide)
    rw [htake, List.append_assoc, List.cons_append] at hsplit
    obtain ⟨-, -, rfl⟩ := (List.append_cons_inj_of_notMem hfront hbehind).mp hsplit
    cases m with
    | zero => exact within_of_scanFloat hx 0 heol hval
    | succ m =>
        refine within_of_scanFloat hx m heol ?_
        rw [← htext]
        exact hval
  · have hnot : 61 ∉ (front ++ 61 :: 32 :: text).take j ++ eol := by
      rw [List.take_append_of_le_length hj]
      exact fun hm => (List.mem_append.mp hm).elim (fun hm => hfront (List.mem_of_mem_take hm))
        fun hm => heolChars 61 hm (by decide)
    exact absurd (hsplit ▸ List.mem_append_right _ List.mem_cons_self) hnot

theorem streamName_chars (i : Fin 6) :
    0 ∉ streamName i ∧ 61 ∉ streamName i ∧ newline ∉ streamName i ∧ (streamName i).length ≤ 12 := by
  revert i
  decide

/-- The lines that are saved fit the buffer they are loaded with. -/
theorem volumeLines_fit (h : InRange level) :
    ∀ l ∈ volumeLines level, newline ∉ l ∧ l.length ≤ 126 := by
  intro l hl
  rcases List.mem_cons.mp hl with rfl | hl
  · decide
  · obtain ⟨i, -, rfl⟩ := List.mem_map.mp hl
    obtain ⟨-, -, hnl, hlen⟩ := streamName_chars i
    have htext := length_printFixed2 (h i)
    refine ⟨fun hm => ?_, ?_⟩
    · rcases List.mem_append.mp hm with hm | hm
      · exact (List.mem_append.mp hm).elim hnl (by decide)
      · exact mem_printFixed2 (h i) hm (by decide)
    · have heq : (ascii " = ").length = 3 := rfl
      rw [List.length_append, List.length_append, heq]
      omega

/-- **What is saved of levels in range** is in range, wherever the write breaks off. -/
theorem volumeSave_sound (h : InRange level) (n : Nat) :
    Sound (some ((unlines (volumeLines level)).take n)) := by
  rintro _ ⟨⟩ i x hx
  obtain ⟨piece, hpiece, hlevel⟩ := List.mem_filterMap.mp (List.mem_of_getLast? hx)
  obtain ⟨⟨key, val⟩, hscan, hkey⟩ := Option.bind_eq_some_iff.mp hlevel
  have hval : val = x := by
    split at hkey
    · exact Option.some.inj hkey
    · cases hkey
  subst hval
  obtain ⟨l, hl, j, eol, heol, rfl⟩ := pieces_take_unlines (volumeLines_fit h) n hpiece
  rcases List.mem_cons.mp hl with rfl | hl
  · -- the comment has no `=`
    obtain ⟨pre, s, hsplit, -⟩ := scanLevel_eq_some hscan
    have hm : 61 ∈ (ascii "# LumiOS audiod volume configuration").take j ++ eol :=
      (cstring_begins _).subset (hsplit ▸ List.mem_append_right _ List.mem_cons_self)
    rcases List.mem_append.mp hm with hm | hm
    · exact absurd (List.mem_of_mem_take hm) (by decide)
    · exact absurd (by decide) (eol_chars eol heol 61 hm)
  · obtain ⟨i, -, rfl⟩ := List.mem_map.mp hl
    obtain ⟨hnul, heq, -, -⟩ := streamName_chars i
    exact scanLevel_take (h i) ⟨hnul, heq⟩ rfl j heol hscan

/-! ### Runs -/

theorem volumeGet_within (h : InRange s.vol.level) (n : Int) : (volumeGet s.vol n).Within 0 1 := by
  have hzero : (CFloat.num 0).Within 0 1 := ⟨le_rfl, zero_le_one⟩
  rw [volumeGet]
  cases stream n with
  | none => exact hzero
  | some i =>
      dsimp only
      split
      · exact hzero
      · exact h i

/-- `volume_set` takes every level into the range. -/
theorem volumeSet_level (s : Audiod) (n : Int) (x : CFloat) :
    (volumeSet s n x).2 = s ∨ ∃ i y, y.Within 0 1 ∧
      (volumeSet s n x).2 = { s with vol := { s.vol with level := Function.update s.vol.level i y } } := by
  have hzero : (CFloat.num 0).Within 0 1 := ⟨le_rfl, zero_le_one⟩
  have hone : (CFloat.num 1).Within 0 1 := ⟨zero_le_one, le_rfl⟩
  rw [volumeSet]
  cases stream n with
  | none => exact .inl rfl
  | some i =>
      refine .inr ⟨i, _, ?_, rfl⟩
      cases x with
      | num q =>
          by_cases hlow : q < 0
          · have hlt : CFloat.lt (.num q) (.num 0) = true := decide_eq_true hlow
            rw [if_pos hlt, if_neg (by decide)]
            exact hzero
          · have hlt : ¬ CFloat.lt (.num q) (.num 0) = true := fun h => hlow (of_decide_eq_true h)
            rw [if_neg hlt]
            by_cases hhigh : 1 < q
            · have hgt : CFloat.lt (.num 1) (.num q) = true := decide_eq_true hhigh
              rw [if_pos hgt]
              exact hone
            · have hgt : ¬ CFloat.lt (.num 1) (.num q) = true := fun h => hhigh (of_decide_eq_true h)
              rw [if_neg hgt]
              exact ⟨not_lt.mp hlow, not_lt.mp hhigh⟩
      | inf neg =>
          cases neg with
          | true => exact hzero
          | false => exact hone
      | nan neg => exact trivial

/-- **Every command keeps the levels in range**, and the file. -/
theorem Step.kept (hs : Step s op s') (hlevel : InRange s.vol.level) (hfile : Sound s.file) :
    InRange s'.vol.level ∧ Sound s'.file := by
  obtain rfl := hs
  cases op with
  | init => exact ⟨(volumeInit_inRange_iff s).mpr hfile, hfile⟩
  | set n x =>
      rw [VolumeOp.run]
      rcases volumeSet_level s n x with heq | ⟨i, y, hy, heq⟩
      · rw [heq]
        exact ⟨hlevel, hfile⟩
      · rw [heq]
        refine ⟨fun j => ?_, hfile⟩
        show (Function.update s.vol.level i y j).Within 0 1
        by_cases hj : j = i
        · rw [hj, Function.update_self]
          exact hy
        · rw [Function.update_of_ne hj]
          exact hlevel j
  | setMute n mute =>
      rw [VolumeOp.run, volumeSetMute]
      cases stream n with
      | none => exact ⟨hlevel, hfile⟩
      | some i => exact ⟨hlevel, hfile⟩
  | save written =>
      cases written with
      | none => exact ⟨hlevel, hfile⟩
      | some n => exact ⟨hlevel, volumeSave_sound hlevel n⟩

end

/-- **The range of the levels.**  After a `volume_init` and any commands, every level and every value of
`volume_get` is in range exactly when the last level that the first file gives each stream is. -/
theorem volume_range_iff (s₀ : Audiod) (ops : List VolumeOp) :
    (∀ s, Passes Step (volumeInit s₀) ops s →
      (∀ i, (s.vol.level i).Within 0 1) ∧ ∀ n, (volumeGet s.vol n).Within 0 1) ↔ Sound s₀.file := by
  constructor
  · intro h
    exact (volumeInit_inRange_iff s₀).mp (h _ ⟨[], ops, rfl, .nil _⟩).1
  · intro hsound s hpass
    have hkept : InRange s.vol.level ∧ Sound s.file :=
      hpass.induction (P := fun s => InRange s.vol.level ∧ Sound s.file)
        ⟨(volumeInit_inRange_iff s₀).mpr hsound, hsound⟩
        fun s₁ op s₂ htake h => htake.rel.kept h.1 h.2
    exact ⟨hkept.1, volumeGet_within hkept.1⟩

/-- A file that sets one stream to 5. -/
def loud : Audiod where
  vol := ⟨fun _ => .num 0, fun _ => false, .speaker⟩
  file := some (ascii "media = 5")

/-- The level is taken as it is. -/
theorem volume_range_loud : ¬ ∀ (s₀ : Audiod) (ops : List VolumeOp) (s : Audiod),
    Passes Step (volumeInit s₀) ops s →
      (∀ i, (s.vol.level i).Within 0 1) ∧ ∀ n, (volumeGet s.vol n).Within 0 1 := by
  intro h
  have hlevel := (h loud [] _ ⟨[], [], rfl, .nil _⟩).1 0
  have hfive : (volumeInit loud).vol.level 0 = .num 5 := by decide +kernel
  rw [hfive] at hlevel
  exact absurd hlevel (by decide)

end LumiOS.Audio
