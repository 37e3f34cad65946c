import LumiOS.Sandbox.PolicyFile

/-!
# Sandbox — PolicyImage

A policy that comes from a file, saved and loaded once more.

All of it comes back but the flags of a path rule whose path leaves them too little room: they may have
been written in decimal, and are saved in hexadecimal behind `0x`.  `%255s` then cuts them
(`image_stable_iff`).
-/

namespace LumiOS.Sandbox

open Support

/-! ### What a file says of the path rules -/

/-- The rule that the loop of `sbx_policy_load` takes from a line. -/
def pathSetting (piece : List UInt8) : Option PathRule :=
  match parsePolicyLine (policyLine piece) with
  | some (.path, val) =>
    (breakAt 58 val).map fun (path, flags) => ⟨.cut CStr.pos_256 path, (strtoul 0 flags).toUInt32⟩
  | _ => none

/-- The path rules of a text: the first for which there is room. -/
def fileRules (text : List UInt8) : List PathRule :=
  ((pieces (policyLineSize - 1) text).filterMap pathSetting).take maxPathRules

/-- Saving the policy and loading the result gives it again. -/
def Policy.Stable (policy : Policy) : Prop :=
  ∀ disk disk' path before q, sbxPolicySave disk policy path = (0, disk') →
    sbxPolicyLoad disk' before path = (0, q) → q = policy

/-- A rule whose path leaves room for its flags in hexadecimal, if they matter. -/
def PathRule.HasRoom (r : PathRule) : Prop :=
  r.flags = 0 ∨ r.path.bytes.length + 1 + (printHex r.flags).length ≤ 255

instance (r : PathRule) : Decidable r.HasRoom := inferInstanceAs (Decidable (_ ∨ _))

/-- A policy as files are loaded. -/
structure Policy.Image (policy : Policy) : Prop extends policy.Readable where
  syscalls : policy.toSyscallPolicy = .empty
  cpuPct : policy.maxCpuPct = 0

section

variable {policy : Policy} {piece text val : List UInt8} {key : PolicyKey} {r : PathRule}

/-! ### Values -/

/-- A value that is set is one word of at most 255 bytes. -/
theorem parsePolicyLine_plain (h : parsePolicyLine (policyLine piece) = some (key, val)) :
    Plain val ∧ val.length ≤ 255 := by
  simp only [parsePolicyLine] at h
  split at h
  · cases h
  · split at h
    · cases h
    · rename_i hscan
      obtain ⟨_, -, he⟩ := Option.map_eq_some_iff.mp h
      obtain ⟨-, rfl⟩ := Prod.mk.inj he
      simp only [scanPair] at hscan
      split at hscan
      · cases hscan
        refine ⟨fun c hc => ?_, List.length_take_le _ _⟩
        have hword := List.mem_of_mem_take hc
        have hline : c ∈ policyLine piece :=
          List.mem_of_mem_drop (List.mem_of_mem_tail
            ((List.dropWhile_suffix _).subset ((List.takeWhile_sublist _).subset hword)))
        have hcstr : c ∈ cstring piece := (List.takeWhile_sublist _).subset hline
        exact ⟨by simpa using List.mem_takeWhile_imp hword, by simpa using List.mem_takeWhile_imp hcstr⟩
      · cases hscan

theorem cut_plain {cap : Nat} (hpos : 0 < cap) (h : Plain val) :
    Plain (CStr.cut hpos val).bytes := fun c hc =>
  h c ((List.takeWhile_sublist _).subset (List.mem_of_mem_take hc))

/-- A path that is set is read whole. -/
theorem pathRule_readable (hval : Plain val) (hlen : val.length ≤ 255) {path flags : List UInt8}
    (hb : breakAt 58 val = some (path, flags)) (x : UInt32) :
    PathRule.Readable ⟨.cut CStr.pos_256 path, x⟩ := by
  obtain ⟨rfl, hcolon⟩ := eq_of_breakAt hb
  have hpath : Plain path := fun c hc => hval c (List.mem_append_left _ hc)
  have hsub : ∀ c ∈ (CStr.cut CStr.pos_256 path).bytes, c ∈ path := fun c hc =>
    (List.takeWhile_sublist _).subset (List.mem_of_mem_take hc)
  have hle : (CStr.cut CStr.pos_256 path).bytes.length ≤ path.length :=
    ((List.take_sublist _ _).trans (List.takeWhile_sublist _)).length_le
  rw [List.length_append, List.length_cons] at hlen
  exact ⟨cut_plain CStr.pos_256 hpath, fun hc => hcolon (hsub _ hc), hle.trans (by omega)⟩

theorem Policy.Image.assign (h : policy.Image) (key : PolicyKey) (hval : Plain val)
    (hlen : val.length ≤ 255) : (policy.assign key val).Image := by
  cases key with
  | name => exact ⟨⟨cut_plain CStr.pos_64 hval, h.apparmor, h.paths⟩, h.syscalls, h.cpuPct⟩
  | apparmor => exact ⟨⟨h.name, cut_plain CStr.pos_128 hval, h.paths⟩, h.syscalls, h.cpuPct⟩
  | path =>
      simp only [Policy.assign]
      split
      · rename_i path flags hb
        rw [landlockAddPath]
        split
        · exact h
        · refine ⟨⟨h.name, h.apparmor, fun r hr => ?_⟩, h.syscalls, h.cpuPct⟩
          rcases List.mem_append.mp hr with hr | hr
          · exact h.paths r hr
          · rw [List.mem_singleton.mp hr]
            exact pathRule_readable hval hlen hb _
      · exact h
  | level | net | ipc | hw | maxMemory | maxPids | maxFds =>
      exact ⟨⟨h.name, h.apparmor, h.paths⟩, h.syscalls, h.cpuPct⟩

theorem Policy.Image.loadPiece (h : policy.Image) (piece : List UInt8) :
    (loadPiece policy piece).Image := by
  simp only [Sandbox.loadPiece]
  split
  · exact h
  · rename_i key val hparse
    exact h.assign key (parsePolicyLine_plain hparse).1 (parsePolicyLine_plain hparse).2

theorem Policy.Image.foldl (h : policy.Image) (ps : List (List UInt8)) :
    (ps.foldl Sandbox.loadPiece policy).Image := by
  induction ps generalizing policy with
  | nil => exact h
  | cons piece ps ih => exact ih (h.loadPiece piece)

theorem policyOfText_image (text : List UInt8) : (policyOfText text).Image := by
  have hzero : Policy.zero.Image :=
    ⟨⟨fun _ hc => absurd hc List.not_mem_nil, fun _ hc => absurd hc List.not_mem_nil,
      fun _ hr => absurd hr List.not_mem_nil⟩, rfl, rfl⟩
  exact hzero.foldl _

/-! ### Rules -/

theorem pathRules_loadPiece (policy : Policy) (piece : List UInt8) :
    (loadPiece policy piece).pathRules =
      (policy.pathRules ++ (pathSetting piece).toList).take maxPathRules := by
  have hsame : policy.pathRules = (policy.pathRules ++ []).take maxPathRules := by
    rw [List.append_nil, List.take_of_length_le policy.pathRules_le]
  rw [loadPiece, pathSetting]
  cases parsePolicyLine (policyLine piece) with
  | none => exact hsame
  | some kv =>
      obtain ⟨key, val⟩ := kv
      cases key with
      | path =>
          simp only [Policy.assign]
          cases breakAt 58 val with
          | none => exact hsame
          | some kv =>
              simp only [landlockAddPath, Option.map_some, Option.toList_some]
              split
              · rename_i hfull
                rw [List.take_append_of_le_length hfull, List.take_of_length_le policy.pathRules_le]
              · rename_i hroom
                rw [List.take_of_length_le]
                rw [List.length_append]
                exact Nat.not_le.mp hroom
      | name | level | net | ipc | hw | apparmor | maxMemory | maxPids | maxFds => exact hsame

theorem pathRules_foldl (ps : List (List UInt8)) (policy : Policy) :
    (ps.foldl loadPiece policy).pathRules =
      (policy.pathRules ++ ps.filterMap pathSetting).take maxPathRules := by
  induction ps generalizing policy with
  | nil =>
      rw [List.foldl_nil, List.filterMap_nil, List.append_nil,
        List.take_of_length_le policy.pathRules_le]
  | cons piece ps ih =>
      rw [List.foldl_cons, ih, pathRules_loadPiece, take_take_append, List.append_assoc,
        List.filterMap_cons]
      cases pathSetting piece <;> rfl

/-- **The path rules of a loaded policy.** -/
theorem pathRules_policyOfText (text : List UInt8) : (policyOfText text).pathRules = fileRules text :=
  pathRules_foldl _ _

/-! ### Once more through a file -/

theorem PathRule.reread_eq_iff (r : PathRule) : r.reread = r ↔ r.HasRoom := by
  have hflags : r.reread = r ↔ r.reread.flags = r.flags :=
    ⟨congrArg PathRule.flags, congrArg (PathRule.mk r.path)⟩
  rw [hflags]
  by_cases h0 : r.flags = 0
  · exact iff_of_true (by rw [PathRule.reread, h0, strtoul_take_printHex_zero]) (.inl h0)
  · rw [PathRule.HasRoom, or_iff_right h0, ← r.length_val]
    constructor
    · intro e
      by_contra hlong
      refine strtoul_take_printHex_ne h0 ?_ e
      have hpos := List.length_pos_iff.mpr (printHex_ne_nil r.flags)
      rw [r.length_val] at hlong
      omega
    · intro hlen
      rw [PathRule.reread_of_length_le hlen]

/-- Through a file, the rules are reread, and nothing else changes. -/
theorem Policy.Image.through_file (h : policy.Image) :
    policyOfText (unlines (policyLines policy)) = policy ↔ ∀ r ∈ policy.pathRules, r.HasRoom := by
  have hstored : policy.stored = policy := by
    have hsys := h.syscalls
    have hcpu := h.cpuPct
    cases policy
    simp only at hsys hcpu
    simp only [Policy.stored, hsys, hcpu]
  have hmap : policy.pathRules.map PathRule.reread = policy.pathRules ↔
      ∀ r ∈ policy.pathRules, r.HasRoom := by
    conv_lhs => rhs; rw [← List.map_id policy.pathRules]
    rw [List.map_inj_left]
    exact forall₂_congr fun r _ => r.reread_eq_iff
  rw [policyOfText_readable h.toReadable, ← hmap]
  constructor
  · exact congrArg Policy.pathRules
  · intro e
    simp only [e]
    exact hstored

theorem Policy.stable_iff (policy : Policy) :
    policy.Stable ↔ policyOfText (unlines (policyLines policy)) = policy := by
  constructor
  · intro h
    exact h .blank _ policyPath .zero _ (sbxPolicySave_of_writable rfl policy)
      (sbxPolicyLoad_write rfl .zero _)
  · intro he disk disk' path before q hsave hload
    by_cases hw : disk.writable path = true
    · rw [sbxPolicySave_of_writable hw] at hsave
      obtain ⟨-, rfl⟩ := Prod.mk.inj hsave
      obtain ⟨text, htext, rfl⟩ := sbxPolicyLoad_zero hload
      obtain rfl : unlines (policyLines policy) = text := by
        simpa [Disk.read, Disk.write] using (Option.ite_none_right_eq_some.mp htext).2
      exact he
    · rw [sbxPolicySave, if_neg hw] at hsave
      exact absurd (Prod.mk.inj hsave).1 (by decide)

/-- **Policies from files.**  A policy that was loaded comes back from saving and loading it exactly when
the path rules of its file leave room for their flags. -/
theorem image_stable_iff {disk : Disk} {path : List UInt8} {before : Policy}
    (htext : disk.read path = some text) (hload : sbxPolicyLoad disk before path = (0, policy)) :
    policy.Stable ↔ ∀ r ∈ fileRules text, r.HasRoom := by
  obtain ⟨text', htext', rfl⟩ := sbxPolicyLoad_zero hload
  obtain rfl := Option.some.inj (htext.symm.trans htext')
  rw [Policy.stable_iff, (policyOfText_image text).through_file, pathRules_policyOfText]

end

theorem image_stable_usr : (policyOfText (ascii "name=app\npath=/usr:5\n")).Stable :=
  (image_stable_iff (blank_read _) (sbxPolicyLoad_write rfl .zero _)).mpr (by decide +kernel)

/-- A path of 253 bytes, with decimal flags behind it: a value of 255 bytes. -/
def tightRule : List UInt8 := ascii "path=" ++ (List.replicate 253 97 ++ ascii ":5\n")

/-- Saved as `:0x5`, the flags come back as `0`. -/
theorem image_loses_flags :
    ¬ ∀ (disk : Disk) (path : List UInt8) (before policy : Policy),
      sbxPolicyLoad disk before path = (0, policy) → policy.Stable := by
  intro h
  have hstable := h (Disk.blank.write policyPath tightRule) policyPath .zero _ (sbxPolicyLoad_write rfl .zero _)
  rw [Policy.stable_iff, (policyOfText_image tightRule).through_file, pathRules_policyOfText] at hstable
  exact absurd hstable (by decide +kernel)

end LumiOS.Sandbox
