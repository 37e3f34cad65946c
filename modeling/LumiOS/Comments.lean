import LumiOS.Lumid.Config
import LumiOS.Sandbox.PolicyFile
import LumiOS.Container.Properties

/-!
# Comments

The parsers of service files, of policy files and of property files read with `fgets` into a buffer
and skip what starts with `#`.  A comment that does not fit the buffer comes in several pieces, of which
only the first starts with it; each parser reads the others as lines (`long_comment_read`).

`comment_removable_iff` says which comments do nothing: those whose further pieces the parser would skip
wherever it met them.  That it is necessary takes, for each parser, a file in which a piece that is not
skipped shows: a section to leave or to enter, a field with another value, a property with another one.
-/

namespace LumiOS

open Support

/-- A comment: a line from its `#` to its newline. -/
def comment (body : List UInt8) : List UInt8 := 35 :: body ++ [newline]

/-- The pieces of a comment behind the first, in a buffer of `n + 1` bytes. -/
def furtherPieces (n : Nat) (body : List UInt8) : List (List UInt8) := (pieces n (comment body)).tail

theorem lineStart_comment (body : List UInt8) : LineStart (comment body) := LineStart.line (35 :: body)

/-- The first piece starts with the `#`. -/
theorem pieces_comment (n : Nat) (body : List UInt8) :
    ∃ s, pieces (n + 1) (comment body) = (35 :: s) :: furtherPieces (n + 1) body := by
  have hne : (35 : UInt8) ≠ newline := by decide
  refine ⟨(fgets n (body ++ [newline])).1, ?_⟩
  rw [furtherPieces, comment, List.cons_append, pieces_cons]
  simp only [fgets, if_neg hne, List.tail_cons]

section

variable {σ : Type} {step : σ → List UInt8 → σ} {n : Nat} {body pre : List UInt8}

/-- A loop that skips lines with a `#` is left with the further pieces. -/
theorem foldl_comment (hstep : ∀ st s, step st (35 :: s) = st) (n : Nat) (body : List UInt8) (st : σ) :
    (pieces (n + 1) (comment body)).foldl step st = (furtherPieces (n + 1) body).foldl step st := by
  obtain ⟨s, hs⟩ := pieces_comment n body
  rw [hs, List.foldl_cons, hstep]

/-- A comment in its place. -/
theorem foldl_insert_comment (hstep : ∀ st s, step st (35 :: s) = st) (hpre : LineStart pre)
    (post : List UInt8) (st : σ) :
    (pieces (n + 1) (pre ++ comment body ++ post)).foldl step st =
      (pieces (n + 1) post).foldl step
        ((furtherPieces (n + 1) body).foldl step ((pieces (n + 1) pre).foldl step st)) := by
  rw [pieces_insert hpre (lineStart_comment body), List.foldl_append, List.foldl_append,
    foldl_comment hstep]

/-- It can be taken out when its further pieces do nothing. -/
theorem foldl_remove_comment (hstep : ∀ st s, step st (35 :: s) = st)
    (h : ∀ p ∈ furtherPieces (n + 1) body, ∀ st, step st p = st) (hpre : LineStart pre)
    (post : List UInt8) (st : σ) :
    (pieces (n + 1) (pre ++ comment body ++ post)).foldl step st =
      (pieces (n + 1) (pre ++ post)).foldl step st := by
  have hself : ∀ (ps : List (List UInt8)) (st : σ), (∀ p ∈ ps, ∀ st, step st p = st) →
      ps.foldl step st = st := by
    intro ps
    induction ps with
    | nil => intro _ _; rfl
    | cons p ps ih =>
        intro st hps
        rw [List.foldl_cons, hps p List.mem_cons_self]
        exact ih st fun q hq => hps q (List.mem_cons_of_mem p hq)
  rw [foldl_insert_comment hstep hpre, hself _ _ h, pieces_append hpre, List.foldl_append]

/-- If it can be taken out, its further pieces do nothing behind a text. -/
theorem foldl_furtherPieces (hstep : ∀ st s, step st (35 :: s) = st) (hpre : LineStart pre) {st : σ}
    (h : (pieces (n + 1) (pre ++ comment body ++ [])).foldl step st =
      (pieces (n + 1) (pre ++ [])).foldl step st) :
    (furtherPieces (n + 1) body).foldl step ((pieces (n + 1) pre).foldl step st) =
      (pieces (n + 1) pre).foldl step st := by
  rw [foldl_insert_comment hstep hpre, List.append_nil] at h
  exact h

end

/-! ### Service files -/

namespace Lumid

/-- How a piece reads. -/
def pieceKind (piece : List UInt8) : LineKind := LineKind.of (trim (cstring piece))

/-- The loop of `config_parse_service` on what it has made of the lines before. -/
def configStep (st : Option ConfigState) (piece : List UInt8) : Option ConfigState :=
  st.bind fun st => configPiece st piece

/-- The state with which the loop starts. -/
def startState (svc : ServiceFile) : ConfigState := ⟨.zero CStr.pos_64, svc⟩

section

variable {st st' : ConfigState} {piece : List UInt8} {ps : List (List UInt8)} {svc : ServiceFile}

theorem configLoop_eq (text : List UInt8) (svc : ServiceFile) : configLoop text svc =
    (pieces (maxLineLen - 1) text).foldl configStep (some (startState svc)) := by
  have hfold : ∀ (ps : List (List UInt8)) (st : Option ConfigState),
      (st.bind fun st => ps.foldlM configPiece st) = ps.foldl configStep st := by
    intro ps
    induction ps with
    | nil => intro st; cases st <;> rfl
    | cons piece ps ih =>
        intro st
        rw [List.foldl_cons, ← ih]
        cases st <;> rfl
  exact hfold _ (some (startState svc))

theorem configStep_of_skipped (h : pieceKind piece = .skipped) (st : Option ConfigState) :
    configStep st piece = st := by
  cases st with
  | none => rfl
  | some st =>
      rcases configLine_eq_or (trim (cstring piece)) with hrun | ⟨-, hk, -⟩
      · exact (hrun st).trans (by rw [show LineKind.of (trim (cstring piece)) = .skipped from h]; rfl)
      · exact absurd h hk

/-- What a piece makes of a state that has room for its key. -/
def readPiece (st : ConfigState) (piece : List UInt8) : ConfigState := st.read (pieceKind piece)

/-- Pieces that write outside no array in one state do so in none. -/
theorem foldl_configStep (h : ps.foldl configStep (some st) = some st') (u : ConfigState) :
    ps.foldl configStep (some u) = some (ps.foldl readPiece u) := by
  have hnone : ∀ ps : List (List UInt8), ps.foldl configStep none = none := by
    intro ps
    induction ps with
    | nil => rfl
    | cons piece ps ih => exact ih
  induction ps generalizing st u with
  | nil => rfl
  | cons piece ps ih =>
      rw [List.foldl_cons] at h ⊢
      rcases configLine_eq_or (trim (cstring piece)) with hrun | ⟨hrun, -⟩
      · have hstep : ∀ v, configStep (some v) piece = some (readPiece v piece) := hrun
        rw [hstep] at h ⊢
        exact ih h _
      · have hstep : configStep (some st) piece = none := hrun st
        rw [hstep, hnone] at h
        cases h

/-! What further pieces leave behind: a header sets the section, and a pair of `[environment]` stays. -/

theorem sect_readPiece (h : st.sect = st'.sect) (piece : List UInt8) :
    (readPiece st piece).sect = (readPiece st' piece).sect := by
  rw [readPiece, readPiece]
  cases pieceKind piece with
  | skipped => exact h
  | header sect => rfl
  | pair key value => exact h

theorem sect_foldl {sect : List UInt8} (hmem : piece ∈ ps) (hk : pieceKind piece = .header sect)
    (st st' : ConfigState) : (ps.foldl readPiece st).sect = (ps.foldl readPiece st').sect := by
  have hsame : ∀ (ps : List (List UInt8)) (st st' : ConfigState), st.sect = st'.sect →
      (ps.foldl readPiece st).sect = (ps.foldl readPiece st').sect := by
    intro ps
    induction ps with
    | nil => intro _ _ h; exact h
    | cons piece ps ih => intro st st' h; exact ih _ _ (sect_readPiece h piece)
  induction ps generalizing st st' with
  | nil => cases hmem
  | cons piece' ps ih =>
      rcases List.mem_cons.mp hmem with rfl | hmem
      · exact hsame ps _ _ (by simp only [readPiece, hk, ConfigState.read])
      · exact ih hmem _ _

theorem env_assign (svc : ServiceFile) (k : ConfigKey) (value : List UInt8) :
    (svc.assign k value).env = svc.env := by
  cases k <;> rfl

theorem env_setPair_ne_nil (h : svc.env ≠ []) (sect key value : List UInt8) :
    (svc.setPair sect key value).env ≠ [] := by
  rw [ServiceFile.setPair]
  split
  · split
    · exact List.concat_ne_nil _ _
    · exact h
  · split
    · rw [env_assign]
      exact h
    · exact h

theorem env_setPair_environment (svc : ServiceFile) (key value : List UInt8) :
    (svc.setPair (ascii "environment") key value).env ≠ [] := by
  rw [ServiceFile.setPair, if_pos rfl]
  split
  · exact List.concat_ne_nil _ _
  · rename_i hfull
    exact List.ne_nil_of_length_pos ((by decide : 0 < maxEnv).trans_le (Nat.not_lt.mp hfull))

theorem env_foldl_ne_nil {key value : List UInt8} (hmem : piece ∈ ps)
    (hk : pieceKind piece = .pair key value)
    (hheader : ∀ p ∈ ps, ∀ sect, pieceKind p ≠ .header sect)
    (hsect : st.sect.string.bytes = ascii "environment") :
    (ps.foldl readPiece st).svc.env ≠ [] := by
  have hkeep : ∀ (ps : List (List UInt8)) (st : ConfigState), st.svc.env ≠ [] →
      (ps.foldl readPiece st).svc.env ≠ [] := by
    intro ps
    induction ps with
    | nil => intro _ h; exact h
    | cons piece ps ih =>
        intro st h
        refine ih _ ?_
        rw [readPiece]
        cases pieceKind piece with
        | skipped => exact h
        | header sect => exact h
        | pair key value => exact env_setPair_ne_nil h _ key value
  induction ps generalizing st with
  | nil => cases hmem
  | cons piece' ps ih =>
      rw [List.foldl_cons]
      rcases List.mem_cons.mp hmem with rfl | hmem
      · refine hkeep ps _ ?_
        rw [readPiece, hk, ConfigState.read, hsect]
        exact env_setPair_environment _ key value
      · refine ih hmem (fun p hp => hheader p (List.mem_cons_of_mem _ hp)) ?_
        rw [readPiece]
        cases hk' : pieceKind piece' with
        | skipped => exact hsect
        | header sect => exact absurd hk' (hheader piece' List.mem_cons_self sect)
        | pair key value => exact hsect

theorem configStep_hash (st : Option ConfigState) (s : List UInt8) :
    configStep st (35 :: s) = st := by
  have hhead : (trim (cstring (35 :: s))).head? = some 35 := head?_trim (by decide) _
  exact configStep_of_skipped (if_pos (.inr (.inl hhead))) st

/-- A short line, read in a state. -/
theorem foldl_line {l : List UInt8} (hl : 0 ∉ l ∧ newline ∉ l ∧ l.length ≤ 128) (st : ConfigState) :
    (pieces (maxLineLen - 1) (l ++ [newline])).foldl configStep (some st) =
      some (st.read (LineKind.of (trim l))) := by
  have hline := ServiceLine.of_short hl
  have hp : pieces (maxLineLen - 1) (l ++ [newline]) = [l ++ [newline]] :=
    pieces_line hline.no_newline (Nat.le_of_lt_succ hline.length_lt)
  rw [hp, List.foldl_cons, List.foldl_nil]
  exact (configPiece_line hline st).trans (configLine_eq st hline.key_lt)

/-- The loop stands in `[environment]`, and has read nothing else. -/
def environmentState : ConfigState :=
  (startState .created).read (LineKind.of (trim (ascii "[environment]")))

theorem sect_environmentState : environmentState.sect.string.bytes = ascii "environment" :=
  congrArg CStr.bytes (Buf.string_holding _)

/-- A line with a key that only `[environment]` takes. -/
def aLine : List UInt8 := ascii "a=b"

theorem foldl_aLine (st : ConfigState) :
    ((pieces (maxLineLen - 1) (aLine ++ [newline])).foldl configStep (some st)).map (·.svc) =
      some (st.svc.setPair st.sect.string.bytes (ascii "a") (ascii "b")) := by
  have hk : LineKind.of (trim aLine) = .pair (ascii "a") (ascii "b") := by decide
  rw [foldl_line (by decide), hk]
  rfl

/-- Outside `[environment]`, `a` is no key. -/
theorem setPair_a {sect : List UInt8} (h : sect ≠ ascii "environment") (svc : ServiceFile)
    (value : List UInt8) : svc.setPair sect (ascii "a") value = svc := by
  rw [ServiceFile.setPair, if_neg h]
  cases hk : ConfigKey.of sect (ascii "a") with
  | none => rfl
  | some k =>
      have hkey : ascii "a" = k.names.2 := congrArg Prod.snd (ConfigKey.of_eq_some hk)
      cases k <;> exact absurd hkey (by decide)

/-- If a comment can be taken out, no context tells a state from the one its further pieces make of
it. -/
theorem same_svc_of_removable {body pre : List UInt8}
    (h : ∀ svc pre post, LineStart pre →
      configParseService (some (pre ++ comment body ++ post)) svc =
        configParseService (some (pre ++ post)) svc)
    (hpre : LineStart pre) {st : ConfigState}
    (hst : (pieces (maxLineLen - 1) pre).foldl configStep (some (startState svc)) = some st)
    (post : List UInt8) :
    ((pieces (maxLineLen - 1) post).foldl configStep
        ((furtherPieces (maxLineLen - 1) body).foldl configStep (some st))).map (·.svc) =
      ((pieces (maxLineLen - 1) post).foldl configStep (some st)).map (·.svc) := by
  have hn : maxLineLen - 1 = 1022 + 1 := rfl
  have he := congrArg (Option.map Prod.snd) (h svc pre post hpre)
  simp only [configParseService, Option.map_map, configLoop_eq] at he
  rw [hn] at hst he ⊢
  rw [foldl_insert_comment configStep_hash hpre, pieces_append hpre, List.foldl_append, hst] at he
  exact he

/-- **Comments in service files.**  A comment can be taken out of every file exactly when the parser
skips each of its further pieces. -/
theorem config_comment_iff (body : List UInt8) :
    (∀ svc pre post, LineStart pre →
      configParseService (some (pre ++ comment body ++ post)) svc =
        configParseService (some (pre ++ post)) svc) ↔
      ∀ piece ∈ furtherPieces (maxLineLen - 1) body, pieceKind piece = .skipped := by
  constructor
  · intro h
    have h₀ : (pieces (maxLineLen - 1) []).foldl configStep (some (startState .created)) =
        some (startState .created) := rfl
    have h₁ : (pieces (maxLineLen - 1) (ascii "[environment]" ++ [newline])).foldl configStep
        (some (startState .created)) = some environmentState := foldl_line (by decide) _
    have hstart := same_svc_of_removable h .nil h₀
    have henv := same_svc_of_removable h (LineStart.line _) h₁
    generalize furtherPieces (maxLineLen - 1) body = ps at hstart henv
    -- no piece writes outside an array
    obtain ⟨st, hst⟩ : ∃ st, ps.foldl configStep (some (startState .created)) = some st := by
      have h0 := hstart []
      rw [pieces_nil, List.foldl_nil] at h0
      cases hp : ps.foldl configStep (some (startState .created)) with
      | none => rw [hp] at h0; cases h0
      | some st => exact ⟨st, rfl⟩
    have hrun := foldl_configStep hst
    simp only [hrun] at hstart henv
    generalize hs : ps.foldl readPiece (startState .created) = s₀ at hstart
    generalize he : ps.foldl readPiece environmentState = s₁ at henv
    have hs₀ : s₀.svc = .created := Option.some.inj (hstart [])
    have hs₁ : s₁.svc = .created := Option.some.inj (henv [])
    -- behind the pieces stands the section that stood before them
    have hsect₀ : s₀.sect.string.bytes ≠ ascii "environment" := by
      intro hsect
      have ha := hstart (aLine ++ [newline])
      have hout : (startState .created).sect.string.bytes ≠ ascii "environment" := by decide
      rw [foldl_aLine, foldl_aLine, hsect, setPair_a hout] at ha
      exact env_setPair_environment _ _ _ (congrArg ServiceFile.env (Option.some.inj ha))
    have hsect₁ : s₁.sect.string.bytes = ascii "environment" := by
      by_contra hsect
      have ha := henv (aLine ++ [newline])
      rw [foldl_aLine, foldl_aLine, sect_environmentState, setPair_a hsect, hs₁] at ha
      exact env_setPair_environment _ _ _ (congrArg ServiceFile.env (Option.some.inj ha)).symm
    have hheader : ∀ p ∈ ps, ∀ sect, pieceKind p ≠ .header sect := by
      intro p hp sect hk
      have hsame := sect_foldl hp hk (startState .created) environmentState
      rw [hs, he] at hsame
      exact hsect₀ (hsame ▸ hsect₁)
    intro piece hmem
    cases hk : pieceKind piece with
    | skipped => rfl
    | header sect => exact absurd hk (hheader piece hmem sect)
    | pair key value =>
        have hne := env_foldl_ne_nil hmem hk hheader sect_environmentState
        rw [he, hs₁] at hne
        exact absurd rfl hne
  · intro h svc pre post hpre
    have hloop : configLoop (pre ++ comment body ++ post) svc = configLoop (pre ++ post) svc := by
      rw [configLoop_eq, configLoop_eq]
      exact foldl_remove_comment configStep_hash (fun p hp => configStep_of_skipped (h p hp)) hpre post _
    simp only [configParseService, hloop]

end

end Lumid

/-! ### Policies -/

namespace Sandbox

/-- A piece that changes no policy: `sbx_policy_load` skips it, does not know its key, or finds no flags
behind its path. -/
def policySkips (piece : List UInt8) : Bool :=
  (parsePolicyLine (policyLine piece)).all fun kv => kv.1 = .path ∧ 58 ∉ kv.2

section

variable {k : PolicyKey} {p q : Policy} {piece : List UInt8} {ps : List (List UInt8)}

theorem loadPiece_of_skips (h : policySkips piece = true) (policy : Policy) :
    loadPiece policy piece = policy := by
  rw [policySkips] at h
  rw [loadPiece]
  split
  · rfl
  · rename_i key val hparse
    rw [hparse, Option.all_some, decide_eq_true_iff] at h
    obtain ⟨rfl, hval⟩ := h
    simp only [Policy.assign, breakAt_eq_none.mpr hval]

theorem loadPiece_hash (policy : Policy) (s : List UInt8) : loadPiece policy (35 :: s) = policy := by
  have hline : (policyLine (35 :: s)).head? = some 35 := by simp [policyLine, cstring, newline]
  rw [loadPiece, parsePolicyLine, if_pos (.inl hline)]

/-- Policies with the same value of a field. -/
def SameField (k : PolicyKey) (p q : Policy) : Prop :=
  match k with
  | .name => p.name = q.name
  | .level => p.level = q.level
  | .net => p.netFlags = q.netFlags
  | .ipc => p.ipcFlags = q.ipcFlags
  | .hw => p.hwFlags = q.hwFlags
  | .apparmor => p.apparmorProfile = q.apparmorProfile
  | .maxMemory => p.maxMemory = q.maxMemory
  | .maxPids => p.maxPids = q.maxPids
  | .maxFds => p.maxFds = q.maxFds
  | .path => True

/-- A field that is set has the same value in all policies. -/
theorem sameField_assign (k : PolicyKey) (p q : Policy) (val : List UInt8) :
    SameField k (p.assign k val) (q.assign k val) := by
  cases k <;> first | rfl | trivial

theorem assign_path_eq (p : Policy) (val : List UInt8) :
    ∃ rules h, p.assign .path val = { p with pathRules := rules, pathRules_le := h } := by
  simp only [Policy.assign]
  split
  · rw [landlockAddPath]
    split
    · exact ⟨p.pathRules, p.pathRules_le, rfl⟩
    · rename_i path flags _ hroom
      refine ⟨p.pathRules ++ [⟨.cut (by decide) path, (strtoul 0 flags).toUInt32⟩], ?_, rfl⟩
      rw [List.length_append]
      exact Nat.not_le.mp hroom
  · exact ⟨p.pathRules, p.pathRules_le, rfl⟩

theorem SameField.assign (h : SameField k p q) (key : PolicyKey) (val : List UInt8) :
    SameField k (p.assign key val) (q.assign key val) := by
  cases key with
  | path =>
      obtain ⟨_, _, hp⟩ := assign_path_eq p val
      obtain ⟨_, _, hq⟩ := assign_path_eq q val
      rw [hp, hq]
      cases k <;> exact h
  | name | level | net | ipc | hw | apparmor | maxMemory | maxPids | maxFds =>
      cases k <;> first | exact h | rfl

theorem SameField.loadPiece (h : SameField k p q) (piece : List UInt8) :
    SameField k (loadPiece p piece) (loadPiece q piece) := by
  simp only [Sandbox.loadPiece]
  split
  · exact h
  · exact h.assign _ _

theorem SameField.foldl (h : SameField k p q) (ps : List (List UInt8)) :
    SameField k (ps.foldl Sandbox.loadPiece p) (ps.foldl Sandbox.loadPiece q) := by
  induction ps generalizing p q with
  | nil => exact h
  | cons piece ps ih => exact ih (h.loadPiece piece)

/-- Pieces of which one sets a field. -/
theorem sameField_foldl {val : List UInt8} (hmem : piece ∈ ps)
    (hparse : parsePolicyLine (policyLine piece) = some (k, val)) (p q : Policy) :
    SameField k (ps.foldl loadPiece p) (ps.foldl loadPiece q) := by
  induction ps generalizing p q with
  | nil => cases hmem
  | cons piece' ps ih =>
      rcases List.mem_cons.mp hmem with rfl | hmem
      · have h : SameField k (loadPiece p piece) (loadPiece q piece) := by
          simp only [loadPiece, hparse]
          exact sameField_assign k p q val
        exact h.foldl ps
      · exact ih hmem _ _

theorem pathRules_addPath_ne_nil (p : Policy) (path : List UInt8) (flags : UInt32) :
    (landlockAddPath p path flags).2.pathRules ≠ [] := by
  rw [landlockAddPath]
  split
  · rename_i hfull
    exact List.ne_nil_of_length_pos ((by decide : 0 < maxPathRules).trans_le hfull)
  · exact List.concat_ne_nil _ _

/-- Rules are added, never taken away. -/
theorem pathRules_loadPiece_ne_nil (h : p.pathRules ≠ []) (piece : List UInt8) :
    (loadPiece p piece).pathRules ≠ [] := by
  rw [loadPiece]
  split
  · exact h
  · rename_i key val _
    cases key with
    | path =>
        simp only [Policy.assign]
        split
        · exact pathRules_addPath_ne_nil p _ _
        · exact h
    | name | level | net | ipc | hw | apparmor | maxMemory | maxPids | maxFds => exact h

theorem pathRules_foldl_ne_nil {val : List UInt8} (hmem : piece ∈ ps)
    (hparse : parsePolicyLine (policyLine piece) = some (.path, val)) (hval : 58 ∈ val) (p : Policy) :
    (ps.foldl loadPiece p).pathRules ≠ [] := by
  have hkeep : ∀ (ps : List (List UInt8)) (p : Policy), p.pathRules ≠ [] →
      (ps.foldl loadPiece p).pathRules ≠ [] := by
    intro ps
    induction ps with
    | nil => intro p h; exact h
    | cons piece ps ih => intro p h; exact ih _ (pathRules_loadPiece_ne_nil h piece)
  induction ps generalizing p with
  | nil => cases hmem
  | cons piece' ps ih =>
      rcases List.mem_cons.mp hmem with rfl | hmem
      · refine hkeep ps _ ?_
        obtain ⟨before, after, rfl, hbefore⟩ := List.eq_append_cons_of_mem hval
        simp only [loadPiece, hparse, Policy.assign, breakAt_append after hbefore]
        exact pathRules_addPath_ne_nil p _ _
      · exact ih hmem _

/-- The line `key=1` sets a field to what it is not after `memset`. -/
theorem not_sameField_one (hk : k ≠ .path) :
    ¬ SameField k .zero (Policy.zero.assign k (ascii "1")) := by
  cases k with
  | path => exact absurd rfl hk
  | name | level | net | ipc | hw | apparmor | maxMemory | maxPids | maxFds =>
      simp only [SameField]
      decide

/-- The line that gives a field the value 1. -/
def oneLine (k : PolicyKey) : List UInt8 := Setting.line ⟨k, ascii "1"⟩ ++ [newline]

theorem one_ok (k : PolicyKey) : Setting.Ok ⟨k, ascii "1"⟩ where
  plain := (by decide : Plain (ascii "1"))
  length_le := (by decide : (ascii "1").length ≤ 255)

theorem policyOfText_oneLine (k : PolicyKey) : policyOfText (oneLine k) =
    Policy.zero.assign k (ascii "1") := by
  have hp : pieces (policyLineSize - 1) (oneLine k) = [oneLine k] :=
    pieces_line (one_ok k).written.not_mem.2 (one_ok k).written.length_line
  have hne : ascii "1" ≠ [] := by decide
  rw [policyOfText, hp, List.foldl_cons, List.foldl_nil, oneLine, loadPiece_setting (one_ok k).written, (one_ok k).cut_eq,
    Policy.set_of_ne hne]

/-- **Comments in policy files.**  A comment can be taken out of every file exactly when each of its
further pieces changes no policy. -/
theorem policy_comment_iff (body : List UInt8) :
    (∀ pre post, LineStart pre →
      policyOfText (pre ++ comment body ++ post) = policyOfText (pre ++ post)) ↔
      ∀ piece ∈ furtherPieces (policyLineSize - 1) body, policySkips piece = true := by
  constructor
  · intro h piece hmem
    have hrun : ∀ pre, LineStart pre → (furtherPieces (policyLineSize - 1) body).foldl loadPiece
        (policyOfText pre) = policyOfText pre :=
      fun pre hpre => foldl_furtherPieces loadPiece_hash hpre (h pre [] hpre)
    rw [policySkips, Option.all_eq_true]
    rintro ⟨k, val⟩ hparse
    have hzero : (furtherPieces (policyLineSize - 1) body).foldl loadPiece .zero = .zero :=
      hrun [] .nil
    by_cases hk : k = .path
    · subst hk
      refine decide_eq_true ⟨rfl, fun hval => ?_⟩
      exact pathRules_foldl_ne_nil hmem hparse hval .zero (by rw [hzero]; rfl)
    · -- the piece gives the field one value, whatever the lines before set it to
      have hone := hrun (oneLine k) (LineStart.line _)
      rw [policyOfText_oneLine] at hone
      have hsame := sameField_foldl hmem hparse .zero (Policy.zero.assign k (ascii "1"))
      rw [hzero, hone] at hsame
      exact absurd hsame (not_sameField_one hk)
  · intro h pre post hpre
    exact foldl_remove_comment loadPiece_hash (fun p hp => loadPiece_of_skips (h p hp)) hpre post .zero

end

end Sandbox

/-! ### Property files -/

namespace Container

section

variable {ps : List (List UInt8)}

theorem propsPiece_of_skips {piece : List UInt8}
    (h : (parsePropsLine (cstring piece)).isNone = true) (t : Props) : propsPiece t piece = t := by
  rw [propsPiece, Option.isNone_iff_eq_none.mp h]

theorem propsPiece_hash (t : Props) (s : List UInt8) : propsPiece t (35 :: s) = t := by
  have hline : (cstring (35 :: s)).head? = some 35 := by simp [cstring]
  rw [propsPiece, parsePropsLine, if_pos (.inl hline)]

/-- What the pieces set. -/
def pairsOf (ps : List (List UInt8)) : List (List UInt8 × List UInt8) :=
  ps.filterMap fun piece => parsePropsLine (cstring piece)

theorem foldl_propsPiece (ps : List (List UInt8)) (t : Props) :
    ps.foldl propsPiece t = (pairsOf ps).foldl Props.set t := by
  induction ps generalizing t with
  | nil => rfl
  | cons piece ps ih =>
      simp only [List.foldl_cons, ih, pairsOf, List.filterMap_cons, propsPiece]
      cases parsePropsLine (cstring piece) <;> rfl

/-- The table when the file is opened. -/
def defaultProps : Props := defaults.foldl Props.set propsInit

/-- The line that makes a property `x`. -/
def xLine (key : List UInt8) : List UInt8 := key ++ ascii "=x" ++ [newline]

/-- A default fits the table, is not `x`, and can be made `x` by a line. -/
theorem defaults_ok : ∀ kv ∈ defaults,
    (CStr.cut (by decide) kv.1 : CStr 128).bytes = kv.1 ∧
      (CStr.cut (by decide) kv.2 : CStr 256) ≠ .cut (by decide) (ascii "x") ∧
      parsePropsLine (cstring (xLine kv.1)) = some (kv.1, ascii "x") ∧
      newline ∉ kv.1 ++ ascii "=x" ∧ (kv.1 ++ ascii "=x").length ≤ 510 := by
  decide +kernel

theorem nodup_defaults : (defaults.map (·.1)).Nodup := by decide +kernel

theorem entries_defaultProps : defaultProps.entries =
    defaults.map fun kv => ⟨.cut (by decide) kv.1, .cut (by decide) kv.2⟩ :=
  entries_foldl_set defaults propsInit (fun kv hkv => ⟨List.not_mem_nil, (defaults_ok kv hkv).1⟩)
    nodup_defaults (by decide)

theorem keys_defaultProps : defaultProps.keys = defaults.map (·.1) := by
  rw [Props.keys, entries_defaultProps, List.map_map]
  exact List.map_congr_left fun kv hkv => (defaults_ok kv hkv).1

/-- No property is `x`. -/
theorem propsGet_defaultProps_ne (key : List UInt8) :
    propsGet defaultProps key ≠ some (.cut (by decide) (ascii "x")) := by
  intro h
  obtain ⟨e, he, hval⟩ := Option.map_eq_some_iff.mp h
  have hmem := List.mem_of_find?_eq_some he
  rw [entries_defaultProps] at hmem
  obtain ⟨kv, hkv, rfl⟩ := List.mem_map.mp hmem
  exact (defaults_ok kv hkv).2.1 hval

theorem foldl_xLine {key : List UInt8} (h : key ∈ defaultProps.keys) :
    (pieces (propsLineSize - 1) (xLine key)).foldl propsPiece defaultProps =
      defaultProps.set (key, ascii "x") := by
  rw [keys_defaultProps] at h
  obtain ⟨kv, hkv, rfl⟩ := List.mem_map.mp h
  obtain ⟨-, -, hparse, hnl, hlen⟩ := defaults_ok kv hkv
  have hp : pieces (propsLineSize - 1) (xLine kv.1) = [xLine kv.1] := pieces_line hnl hlen
  rw [hp, List.foldl_cons, List.foldl_nil, propsPiece, hparse]

/-- **Comments in property files.**  A comment can be taken out of every file exactly when the loop
skips each of its further pieces. -/
theorem props_comment_iff (body : List UInt8) :
    (∀ t pre post, LineStart pre →
      propsLoadDefaults (some (pre ++ comment body ++ post)) t =
        propsLoadDefaults (some (pre ++ post)) t) ↔
      ∀ piece ∈ furtherPieces (propsLineSize - 1) body,
        (parsePropsLine (cstring piece)).isNone = true := by
  constructor
  · intro h piece hmem
    have hrun : ∀ pre, LineStart pre → (pairsOf (furtherPieces (propsLineSize - 1) body)).foldl
        Props.set ((pieces (propsLineSize - 1) pre).foldl propsPiece defaultProps) =
          (pieces (propsLineSize - 1) pre).foldl propsPiece defaultProps := by
      intro pre hpre
      rw [← foldl_propsPiece]
      exact foldl_furtherPieces propsPiece_hash hpre (congrArg Prod.snd (h propsInit pre [] hpre))
    cases hparse : parsePropsLine (cstring piece) with
    | none => rfl
    | some kv =>
        have hkv : kv ∈ pairsOf (furtherPieces (propsLineSize - 1) body) :=
          List.mem_filterMap.mpr ⟨piece, hmem, hparse⟩
        -- the table has room, and does not grow: so the key is one of the defaults
        generalize hkvs : pairsOf (furtherPieces (propsLineSize - 1) body) = kvs at hrun hkv
        have hself := hrun [] .nil
        rw [pieces_nil, List.foldl_nil] at hself
        have hroom : defaultProps.keys.length < maxProps := by
          rw [keys_defaultProps]
          decide
        have hlen : (kvs.foldl Props.set defaultProps).keys.length = defaultProps.keys.length := by
          rw [hself]
        have hkey := mem_keys_of_length kvs defaultProps hroom hlen kv hkv
        -- the piece gives it one value, whatever the lines before set it to
        have hx := hrun (xLine kv.1) (LineStart.line _)
        rw [foldl_xLine hkey] at hx
        have hkeys : defaultProps.keys = (defaultProps.set (kv.1, ascii "x")).keys := by
          rw [keys_set, if_pos (.inl hkey)]
        have hagree := (agree_foldl_set hkeys hkv).get
        rw [hself, hx, propsGet_set, if_pos hkey, if_pos rfl] at hagree
        exact absurd hagree (propsGet_defaultProps_ne kv.1)
  · intro h t pre post hpre
    exact congrArg (Prod.mk 0) (foldl_remove_comment propsPiece_hash
      (fun p hp => propsPiece_of_skips (h p hp)) hpre post _)

end

end Container

/-! ### All three -/

/-- A comment that fits the buffer has no further pieces. -/
theorem furtherPieces_of_short {n : Nat} {body : List UInt8} (hnl : newline ∉ body)
    (hlen : body.length < n) : furtherPieces (n + 1) body = [] := by
  have hnl' : newline ∉ 35 :: body := by
    rw [List.mem_cons, not_or]
    exact ⟨by decide, hnl⟩
  have hp : pieces (n + 1) (comment body) = _ := pieces_line hnl' hlen
  rw [furtherPieces, hp]
  rfl

/-- One that does not goes on behind what fits. -/
theorem furtherPieces_of_long {n : Nat} {fill : List UInt8} (hnl : newline ∉ fill)
    (hlen : fill.length = n) (rest : List UInt8) :
    furtherPieces (n + 1) (fill ++ rest) = pieces (n + 1) (rest ++ [newline]) := by
  have hnl' : newline ∉ 35 :: fill := by
    rw [List.mem_cons, not_or]
    exact ⟨by decide, hnl⟩
  have hp := pieces_long hnl' (rest ++ [newline])
  rw [List.length_cons, hlen] at hp
  rw [furtherPieces, comment, List.cons_append, List.append_assoc, ← List.cons_append, hp,
    List.tail_cons]

/-- Comments of up to 510 bytes can be taken out of the files of all three parsers. -/
theorem short_comment_removable {body : List UInt8} (hnl : newline ∉ body) (hlen : body.length < 510) :
    (∀ svc pre post, LineStart pre →
      Lumid.configParseService (some (pre ++ comment body ++ post)) svc =
        Lumid.configParseService (some (pre ++ post)) svc) ∧
    (∀ pre post, LineStart pre →
      Sandbox.policyOfText (pre ++ comment body ++ post) = Sandbox.policyOfText (pre ++ post)) ∧
    (∀ t pre post, LineStart pre →
      Container.propsLoadDefaults (some (pre ++ comment body ++ post)) t =
        Container.propsLoadDefaults (some (pre ++ post)) t) := by
  have h512 : furtherPieces 511 body = [] := furtherPieces_of_short hnl hlen
  have h1024 : furtherPieces 1023 body = [] := furtherPieces_of_short hnl (hlen.trans (by decide))
  refine ⟨(Lumid.config_comment_iff body).mpr ?_, (Sandbox.policy_comment_iff body).mpr ?_,
    (Container.props_comment_iff body).mpr ?_⟩
  · exact fun piece hp => absurd (h1024 ▸ hp) List.not_mem_nil
  · exact fun piece hp => absurd (h512 ▸ hp) List.not_mem_nil
  · exact fun piece hp => absurd (h512 ▸ hp) List.not_mem_nil

/-- **Comments.**  For each of the parsers, a comment can be taken out of every file exactly when the
parser skips each piece in which `fgets` reads what does not fit the buffer. -/
theorem comment_removable_iff (body : List UInt8) :
    ((∀ svc pre post, LineStart pre →
      Lumid.configParseService (some (pre ++ comment body ++ post)) svc =
        Lumid.configParseService (some (pre ++ post)) svc) ↔
      ∀ piece ∈ furtherPieces (Lumid.maxLineLen - 1) body, Lumid.pieceKind piece = .skipped) ∧
    ((∀ pre post, LineStart pre →
      Sandbox.policyOfText (pre ++ comment body ++ post) = Sandbox.policyOfText (pre ++ post)) ↔
      ∀ piece ∈ furtherPieces (Sandbox.policyLineSize - 1) body, Sandbox.policySkips piece = true) ∧
    ((∀ t pre post, LineStart pre →
      Container.propsLoadDefaults (some (pre ++ comment body ++ post)) t =
        Container.propsLoadDefaults (some (pre ++ post)) t) ↔
      ∀ piece ∈ furtherPieces (Container.propsLineSize - 1) body,
        (Container.parsePropsLine (cstring piece)).isNone = true) :=
  ⟨Lumid.config_comment_iff body, Sandbox.policy_comment_iff body, Container.props_comment_iff body⟩

/-- A comment whose end does not fit a buffer of `n + 2` bytes. -/
def longComment (n : Nat) (rest : String) : List UInt8 := List.replicate n 120 ++ ascii rest

theorem newline_not_mem_longComment {n : Nat} {rest : String} (h : newline ∉ ascii rest) :
    newline ∉ longComment n rest := by
  rw [longComment, List.mem_append, not_or]
  exact ⟨fun hm => absurd (List.eq_of_mem_replicate hm) (by decide), h⟩

theorem furtherPieces_longComment {n : Nat} {rest : String}
    (h : newline ∉ ascii rest ∧ (ascii rest).length ≤ n) :
    furtherPieces (n + 1) (longComment n rest) = [ascii rest ++ [newline]] := by
  have hfill : newline ∉ List.replicate n (120 : UInt8) := fun hm =>
    absurd (List.eq_of_mem_replicate hm) (by decide)
  rw [longComment, furtherPieces_of_long hfill List.length_replicate, pieces_line h.1 h.2]

/-- No parser can do without every comment: the end of one that is too long is read as a line. -/
theorem long_comment_read :
    (¬ ∀ body, newline ∉ body → ∀ svc pre post, LineStart pre →
      Lumid.configParseService (some (pre ++ comment body ++ post)) svc =
        Lumid.configParseService (some (pre ++ post)) svc) ∧
    (¬ ∀ body, newline ∉ body → ∀ pre post, LineStart pre →
      Sandbox.policyOfText (pre ++ comment body ++ post) = Sandbox.policyOfText (pre ++ post)) ∧
    (¬ ∀ body, newline ∉ body → ∀ t pre post, LineStart pre →
      Container.propsLoadDefaults (some (pre ++ comment body ++ post)) t =
        Container.propsLoadDefaults (some (pre ++ post)) t) := by
  refine ⟨fun h => ?_, fun h => ?_, fun h => ?_⟩
  · have hp : furtherPieces 1023 (longComment 1022 "user = root") = _ :=
      furtherPieces_longComment (by decide)
    have hk := (Lumid.config_comment_iff _).mp (h _ (newline_not_mem_longComment (by decide))) _
      (hp ▸ List.mem_singleton_self _)
    exact absurd hk (by decide)
  · have hp : furtherPieces 511 (longComment 510 "level=0") = _ :=
      furtherPieces_longComment (by decide)
    have hk := (Sandbox.policy_comment_iff _).mp (h _ (newline_not_mem_longComment (by decide))) _
      (hp ▸ List.mem_singleton_self _)
    exact absurd hk (by decide)
  · have hp : furtherPieces 511 (longComment 510 "ro.secure=1") = _ :=
      furtherPieces_longComment (by decide)
    have hk := (Container.props_comment_iff _).mp (h _ (newline_not_mem_longComment (by decide))) _
      (hp ▸ List.mem_singleton_self _)
    exact absurd hk (by decide)

end LumiOS
