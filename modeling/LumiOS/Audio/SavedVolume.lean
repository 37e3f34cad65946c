import Mathlib.Tactic.FinCases
import LumiOS.Audio.Volume
import LumiOS.Support.FloatRound

/-!
# Audio — SavedVolume

The levels after they were saved.  `volume_save` writes two digits behind the point, and `volume_init`
reads them back, so that each level becomes the `float` nearest to its hundredths, and then stays as it
is, however often it is saved and loaded again (`levels_saved`).

In `volume.c` a level is a `float`, where Volume takes it for the number that was written.  So
`volume_init` is followed here by what `sscanf` does to that number, and the compiler to the defaults:
they are rounded to a `float`.  A zero has no sign.
-/

namespace LumiOS.Audio

open Support
open Lumid (Field scanString scanString_field)

/-! ### Levels that are floats -/

/-- `volume_init`, with each number that is read, and each default, as the nearest `float`. -/
def volumeInitFloat (s : Audiod) : Audiod :=
  { volumeInit s with
    vol := { (volumeInit s).vol with level := fun i => ((volumeInit s).vol.level i).toFloat } }

/-- The commands; of the others none makes a number. -/
def VolumeOp.runFloat (s : Audiod) : VolumeOp → Audiod
  | .init => volumeInitFloat s
  | op => op.run s

def FloatStep (s : Audiod) (op : VolumeOp) (s' : Audiod) : Prop := op.runFloat s = s'

/-- The level that is there after `volume_save` and `volume_init`. -/
def reloaded (x : CFloat) : CFloat := x.hundredths.toFloat

/-- The whole file was written. -/
def Complete (s : Audiod) (written : Nat) : Prop := (unlines (volumeLines s.vol.level)).length ≤ written

instance (s : Audiod) (written : Nat) : Decidable (Complete s written) :=
  inferInstanceAs (Decidable (_ ≤ _))

section

variable {s s' : Audiod} {level : Fin 6 → CFloat} {n : Nat} {op : VolumeOp}

/-! ### Loading what was saved -/

def streamField (i : Fin 6) : Field where
  bytes := streamName i
  ne_nil := by revert i; decide
  no_space := by revert i; decide +kernel

/-- A line that was saved. -/
theorem scanLevel_saved (i : Fin 6) (x : CFloat) :
    scanLevel (cstring (streamName i ++ ascii " = " ++ printFixed2 x ++ [newline])) =
      some (streamName i, x.hundredths) := by
  have hnul : 0 ∉ streamName i ++ ascii " = " ++ printFixed2 x ++ [newline] := by
    simp only [List.mem_append, not_or]
    exact ⟨⟨⟨(streamName_chars i).1, by decide⟩,
      fun hm => printFixed2_chars x hm List.mem_cons_self⟩, by decide⟩
  have hlen : (streamName i).length ≤ 31 := (streamName_chars i).2.2.2.trans (by decide)
  have hscan : scanString 31 (streamName i ++ ascii " = " ++ printFixed2 x ++ [newline]) =
      some (streamName i, ascii " = " ++ printFixed2 x ++ [newline]) := by
    have hnext : ∀ c ∈ (ascii " = " ++ printFixed2 x ++ [newline]).head?, isSpace c = true := by
      rintro c ⟨⟩
      decide
    have hsplit : streamName i ++ ascii " = " ++ printFixed2 x ++ [newline] =
        [] ++ streamName i ++ (ascii " = " ++ printFixed2 x ++ [newline]) := by
      simp only [List.append_assoc, List.nil_append]
    rw [hsplit]
    exact scanString_field (fun _ hc => absurd hc List.not_mem_nil) (streamField i) hlen hnext
  rw [cstring_of_not_mem hnul, scanLevel, hscan]
  show (scanFloat (32 :: (printFixed2 x ++ [newline]))).map _ = _
  rw [scanFloat_printFixed2]
  rfl

/-- The comment gives no level. -/
theorem lineLevel_comment (i : Fin 6) :
    lineLevel i (cstring (ascii "# LumiOS audiod volume configuration" ++ [newline])) = none := by
  have hscan : scanLevel (cstring (ascii "# LumiOS audiod volume configuration" ++ [newline])) = none := by
    decide
  rw [lineLevel, hscan]
  rfl

/-- Each stream finds its line. -/
theorem levels_volumeLines (h : ∀ i, (level i).InRange32) (i : Fin 6) :
    levels (unlines (volumeLines level)) i = [(level i).hundredths] := by
  have hfit : ∀ l ∈ volumeLines level, newline ∉ l ∧ l.length ≤ 126 := by
    intro l hl
    rcases List.mem_cons.mp hl with rfl | hl
    · decide
    · obtain ⟨j, -, rfl⟩ := List.mem_map.mp hl
      obtain ⟨-, -, hnl, hlen⟩ := streamName_chars j
      have htext := length_printFixed2_le (h j)
      have heq : (ascii " = ").length = 3 := rfl
      refine ⟨?_, ?_⟩
      · simp only [List.mem_append, not_or]
        exact ⟨⟨hnl, by decide⟩, fun hm => printFixed2_chars (level j) hm (by decide)⟩
      · rw [List.length_append, List.length_append, heq]
        omega
  have hline : ∀ j, lineLevel i (cstring (streamName j ++ ascii " = " ++ printFixed2 (level j) ++
      [newline])) = if j = i then some (level j).hundredths else none := by
    intro j
    rw [lineLevel, scanLevel_saved, Option.bind_some]
    exact if_congr streamName_inj rfl rfl
  rw [levels, pieces_unlines _ hfit, volumeLines, List.map_cons, List.map_map,
    List.filterMap_cons, lineLevel_comment, List.filterMap_map]
  simp only [Function.comp_def, hline]
  fin_cases i <;> rfl

/-- What a state that was saved is loaded as. -/
theorem volumeInitFloat_saved (h : ∀ i, (level i).InRange32)
    (hfile : s.file = some (unlines (volumeLines level))) (i : Fin 6) :
    (volumeInitFloat s).vol.level i = reloaded (level i) := by
  have hlevel : (volumeInit s).vol.level i =
      ((levels (unlines (volumeLines level)) i).getLast?).getD (defaultLevel i) := by
    simp only [volumeInit, hfile]
    exact foldl_loadPiece _ _ i
  rw [levels_volumeLines h, List.getLast?_singleton, Option.getD_some] at hlevel
  exact congrArg CFloat.toFloat hlevel

theorem volumeSave_complete (hn : Complete s n) :
    (volumeSave s (some n)).file = some (unlines (volumeLines s.vol.level)) :=
  congrArg some (List.take_of_length_le hn)

/-! ### Runs -/

/-- The levels are those that were saved, as they were loaded, and so are the ones the file gives. -/
structure Keeps (level : Fin 6 → CFloat) (s : Audiod) : Prop where
  loaded : ∀ i, s.vol.level i = reloaded (level i)
  file : ∃ saved : Fin 6 → CFloat, s.file = some (unlines (volumeLines saved)) ∧
    ∀ i, (saved i).InRange32 ∧ reloaded (saved i) = reloaded (level i)

/-- **Loading and saving again** keeps the levels, and so does muting. -/
theorem FloatStep.keeps (hs : FloatStep s op s') (h : ∀ i, (level i).IsFloat) (hk : Keeps level s)
    (hset : ∀ n x, op ≠ .set n x) (hsave : ∀ n, op = .save (some n) → Complete s n) :
    Keeps level s' := by
  obtain rfl := hs
  obtain ⟨saved, hfile, hsaved⟩ := hk.file
  cases op with
  | init =>
      exact ⟨fun i => (volumeInitFloat_saved (fun i => (hsaved i).1) hfile i).trans (hsaved i).2,
        saved, hfile, hsaved⟩
  | set n x => exact absurd rfl (hset n x)
  | setMute n mute =>
      show Keeps level (volumeSetMute s n mute).2
      rw [volumeSetMute]
      cases stream n with
      | none => exact hk
      | some i => exact ⟨hk.loaded, hk.file⟩
  | save written =>
      cases written with
      | none => exact hk
      | some n =>
          refine ⟨hk.loaded, s.vol.level, volumeSave_complete (hsave n rfl), fun i => ?_⟩
          rw [hk.loaded]
          exact ⟨(level i).hundredths.inRange32_toFloat, CFloat.toFloat_hundredths_twice (h i)⟩

end

/-- **The levels survive.**  After a `volume_save` that wrote the whole file, and a `volume_init`, each
level is the `float` nearest to the hundredths of the one that was saved, and stays so for as long as no
level is set and no save breaks off; a level from -1 to 1 is then half a hundredth and 2⁻²⁵ from what it
was, at most. -/
theorem levels_saved {s : Audiod} (h : ∀ i, (s.vol.level i).IsFloat) {n : Nat} (hn : Complete s n)
    {ops : List VolumeOp} (hset : ∀ m x, .set m x ∉ ops)
    (hsave : ∀ s₁ m s₂,
      Takes FloatStep (volumeInitFloat (volumeSave s (some n))) ops s₁ (.save (some m)) s₂ →
        Complete s₁ m)
    {s' : Audiod} (hpass : Passes FloatStep (volumeInitFloat (volumeSave s (some n))) ops s')
    (i : Fin 6) :
    s'.vol.level i = (s.vol.level i).hundredths.toFloat ∧
      ∀ q, s.vol.level i = .num q → |q| ≤ 1 →
        ∃ r, s'.vol.level i = .num r ∧ |r - q| ≤ 1 / 200 + 1 / 2 ^ 25 := by
  have hrange (i : Fin 6) : (s.vol.level i).InRange32 := (h i).inRange32
  have hfirst : Keeps s.vol.level (volumeInitFloat (volumeSave s (some n))) :=
    ⟨volumeInitFloat_saved hrange (volumeSave_complete hn), s.vol.level, volumeSave_complete hn,
      fun i => ⟨hrange i, rfl⟩⟩
  have hkept : Keeps s.vol.level s' :=
    hpass.induction hfirst fun s₁ op s₂ htake hk => by
      have hmem : op ∈ ops := by
        obtain ⟨es₁, es₂, rfl, -, -⟩ := htake
        exact List.mem_append_right _ List.mem_cons_self
      refine htake.rel.keeps h hk (fun m x he => hset m x (he ▸ hmem)) fun m he => ?_
      exact hsave s₁ m s₂ (he ▸ htake)
  refine ⟨hkept.loaded i, fun q hq hle => ?_⟩
  obtain ⟨r, hr, hnear⟩ := CFloat.toFloat_hundredths_near hle
  refine ⟨r, ?_, hnear⟩
  rw [hkept.loaded i, hq]
  exact hr

/-- A state with six levels, of which one is no number. -/
def uneven : Audiod where
  vol :=
    ⟨![.num (1 / 8), .num 1, .num 0, .num (5 / 8), .nan false, .num (3 / 4)], fun _ => false, .speaker⟩
  file := none

theorem uneven_isFloat (i : Fin 6) : (uneven.vol.level i).IsFloat := by
  have hfloat (q : ℚ) (m e : Int) (hm : |m| < 2 ^ 24) (he : -149 ≤ e) (hq : q = m * 2 ^ e)
      (hmax : |q| ≤ 1) : (CFloat.num q).IsFloat :=
    ⟨⟨m, e, hm, he, hq⟩, hmax.trans (by rw [floatMax]; norm_num)⟩
  fin_cases i
  · exact hfloat (1 / 8) 1 (-3) (by decide) (by decide) (by norm_num) (by norm_num)
  · exact hfloat 1 1 0 (by decide) (by decide) (by norm_num) (by norm_num)
  · exact hfloat 0 0 0 (by decide) (by decide) (by norm_num) (by norm_num)
  · exact hfloat (5 / 8) 5 (-3) (by decide) (by decide) (by norm_num) (by norm_num)
  · trivial
  · exact hfloat (3 / 4) 3 (-2) (by decide) (by decide) (by norm_num) (by norm_num)

/-- Loaded, saved and loaded again, an eighth is the `float` nearest to twelve hundredths. -/
theorem levels_saved_uneven :
    (volumeInitFloat (volumeSave (volumeInitFloat (volumeSave uneven (some 400)))
      (some 400))).vol.level 0 = .num (16106127 / 134217728) := by
  have hops : Run FloatStep (volumeInitFloat (volumeSave uneven (some 400))) [.save (some 400), .init]
      (volumeInitFloat (volumeSave (volumeInitFloat (volumeSave uneven (some 400))) (some 400))) :=
    .cons rfl (.one rfl)
  have hset : ∀ m x, VolumeOp.set m x ∉ [.save (some 400), .init] := by simp
  have hlevel : (uneven.vol.level 0).hundredths.toFloat = .num (16106127 / 134217728) := by
    decide +kernel
  refine ((levels_saved uneven_isFloat (by decide +kernel) hset ?_
    ⟨_, [], (List.append_nil _).symm, hops⟩ 0).1).trans hlevel
  rintro s₁ m s₂ ⟨es₁, es₂, he, hrun, -⟩
  rcases es₁ with _ | ⟨e, es₁⟩
  · obtain ⟨hm, -⟩ := List.cons.inj he
    cases hrun
    cases hm
    decide +kernel
  · have hmem : .save (some m) ∈ [VolumeOp.init] :=
      (List.cons.inj he).2 ▸ List.mem_append_right es₁ List.mem_cons_self
    simp at hmem

end LumiOS.Audio
