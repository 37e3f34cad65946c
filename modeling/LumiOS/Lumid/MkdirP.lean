import LumiOS.Lumid.Cgroup
import LumiOS.Support.FileTree

/-!
# Lumid — MkdirP

`util_mkdir_p` on a filesystem, where a `mkdir` can fail.

Every `EEXIST` is passed over.  So the function makes the way a path goes, and also returns 0 in front of
what stands at its end and is no directory: a file, or a link that leads to none or is one too many for a
lookup; and of the path `/` it takes the slash away and makes nothing of it (`utilMkdirP_sound_iff`).
-/

namespace LumiOS.Lumid

open Support

/-- The paths `util_mkdir_p` gives to `mkdir`, unless one fails. -/
def mkdirPaths (path : List UInt8) : List (List UInt8) :=
  let tmp := stripSlash (snprintf maxPathLen path)
  mkdirLoop (tmp.take 1) (tmp.drop 1) ++ [tmp]

theorem utilMkdirP_eq (path : List UInt8) (mode : Nat) :
    utilMkdirP path mode = (mkdirPaths path).map (.mkdir · mode) := rfl

/-- A `mkdir` of each path, up to an error that is not `EEXIST`. -/
def mkdirEach (fs : FileSystem) : List (List UInt8) → Int × FileSystem
  | [] => (0, fs)
  | path :: paths =>
    match fs.mkdir path with
    | .made fs => mkdirEach fs paths
    | .eexist => mkdirEach fs paths
    | .failed => (-1, fs)

/-- `util_mkdir_p`, with what it returns and what it leaves. -/
def utilMkdirPOn (fs : FileSystem) (path : List UInt8) : Int × FileSystem :=
  mkdirEach fs (mkdirPaths path)

/-- It returns 0 exactly when the path is the name of a directory then, and every object it made is the
directory that a beginning of the path names. -/
def MkdirPSound (fs : FileSystem) (path : List UInt8) : Prop :=
  ((utilMkdirPOn fs path).1 = 0 ↔ (utilMkdirPOn fs path).2.NamesDir path) ∧
    ∀ place, (utilMkdirPOn fs path).2.node place ≠ fs.node place →
      (utilMkdirPOn fs path).2.node place = some .dir ∧
        ∃ pre, pre <+: path ∧ (utilMkdirPOn fs path).2.walk [] (components pre) = some place

section

variable {fs : FileSystem} {path pre cur done rest : List UInt8} {names : List (List UInt8)}

/-! ### The names in a path -/

theorem components_append_slash (s t : List UInt8) :
    components (s ++ 47 :: t) = components s ++ components t :=
  words_append_cons (p := fun c => decide (c = 47)) rfl s t

theorem components_slash (s : List UInt8) : components (s ++ [47]) = components s := by
  rw [components_append_slash]
  exact List.append_nil _

/-- A beginning of a path up to a slash, and what is read of a name behind it. -/
structure Reading (done pre cur : List UInt8) : Prop where
  eq : done = pre ++ cur
  no_slash : 47 ∉ cur
  ends : pre = [] ∨ pre.getLast? = some 47

theorem exists_reading (done : List UInt8) : ∃ pre cur, Reading done pre cur := by
  refine ⟨done.rdropWhile (· ≠ 47), done.rtakeWhile (· ≠ 47), ?_, fun h => ?_, ?_⟩
  · exact (List.rdropWhile_append_rtakeWhile).symm
  · simpa using List.mem_rtakeWhile_imp h
  · by_cases h : done.rdropWhile (· ≠ 47) = []
    · exact .inl h
    · have hlast := List.rdropWhile_last_not _ _ h
      rw [List.getLast?_eq_some_getLast h]
      exact .inr (congrArg some (by simpa using hlast))

/-- Any other character is a part of the name. -/
theorem Reading.concat (h : Reading done pre cur) {c : UInt8} (hc : c ≠ 47) :
    Reading (done ++ [c]) pre (cur ++ [c]) := by
  refine ⟨by rw [h.eq, List.append_assoc], fun hm => ?_, h.ends⟩
  rcases List.mem_append.mp hm with hm | hm
  · exact h.no_slash hm
  · exact hc (List.mem_singleton.mp hm).symm

/-- A slash ends it. -/
theorem reading_slash (done : List UInt8) : Reading (done ++ [47]) (done ++ [47]) [] :=
  ⟨(List.append_nil _).symm, List.not_mem_nil, .inr List.getLast?_concat⟩

theorem Reading.components_eq (h : Reading done pre cur) :
    components done = components pre ++ if cur = [] then [] else [cur] := by
  have hcur : components cur = if cur = [] then [] else [cur] := by
    split
    · rename_i hnil
      rw [hnil]
      rfl
    · rename_i hne
      exact words_word ⟨hne, fun c hc => decide_eq_false (ne_of_mem_of_not_mem hc h.no_slash)⟩
  rw [h.eq, ← hcur]
  rcases h.ends with rfl | hslash
  · rfl
  · obtain ⟨s, rfl⟩ := List.getLast?_eq_some_iff.mp hslash
    rw [components_slash, List.append_assoc]
    exact components_append_slash s cur

/-- The slash that is taken away ends no name. -/
theorem components_stripSlash (path : List UInt8) : components (stripSlash path) = components path := by
  rw [stripSlash]
  split
  · rename_i h
    obtain ⟨s, rfl⟩ := List.getLast?_eq_some_iff.mp h
    rw [List.dropLast_concat, components_slash]
  · rfl

/-- The first names of a path are the names of a beginning of it. -/
theorem exists_components_eq (h : names <+: components path) :
    ∃ pre, pre <+: path ∧ components pre = names := by
  induction path using List.reverseRecOn with
  | nil => exact ⟨[], List.prefix_refl _, (List.prefix_nil.mp h).symm⟩
  | append_singleton s c ih =>
      have hs (h : names <+: components s) : ∃ pre, pre <+: s ++ [c] ∧ components pre = names := by
        obtain ⟨pre, hpre, heq⟩ := ih h
        exact ⟨pre, hpre.trans (List.prefix_append _ _), heq⟩
      by_cases hc : c = 47
      · rw [hc, components_slash] at h
        exact hs h
      · obtain ⟨pre, cur, hread⟩ := exists_reading s
        have hwhole : components (s ++ [c]) = components pre ++ [cur ++ [c]] := by
          rw [(hread.concat hc).components_eq, if_neg (by simp)]
        rw [hwhole] at h
        rcases List.prefix_concat_iff.mp h with heq | hpre
        · exact ⟨s ++ [c], List.prefix_refl _, hwhole.trans heq.symm⟩
        · exact hs (hpre.trans (by rw [hread.components_eq]; exact List.prefix_append _ _))

/-! ### The run -/

/-- A `mkdir` on the way makes the next step, or is refused where the way is lost. -/
theorem mkdir_done (hread : Reading done pre cur) (hne : done ≠ [])
    (hway : (fs.makeWay (components pre)).isLost = false) :
    if (fs.makeWay (components done)).isLost then
      (fs.makeWay (components pre)).fs.mkdir done = .failed ∧
        (fs.makeWay (components done)).fs = (fs.makeWay (components pre)).fs
    else
      (fs.makeWay (components pre)).fs.mkdir done = .made (fs.makeWay (components done)).fs ∨
        (fs.makeWay (components pre)).fs.mkdir done = .eexist ∧
          (fs.makeWay (components done)).fs = (fs.makeWay (components pre)).fs := by
  have hsound := (fs.makeWay_sound (components pre)).1
  rw [FileSystem.mkdir, if_neg hne, hread.components_eq]
  split
  · rw [List.append_nil, if_neg (by simp [hway])]
    exact .inr ⟨FileSystem.mkdirAt_same hsound hway, rfl⟩
  · rw [FileSystem.makeWay_concat]
    exact FileSystem.mkdirAt_next hsound hway cur

/-- What a run returns and leaves. -/
def wayResult (P : Progress) : Int × FileSystem := (if P.isLost then -1 else 0, P.fs)

theorem mkdirEach_done (hread : Reading done pre cur) (hne : done ≠ [])
    (hway : (fs.makeWay (components pre)).isLost = false) (paths : List (List UInt8)) :
    mkdirEach (fs.makeWay (components pre)).fs (done :: paths) =
      if (fs.makeWay (components done)).isLost then wayResult (fs.makeWay (components done))
      else mkdirEach (fs.makeWay (components done)).fs paths := by
  have hstep := mkdir_done hread hne hway
  rw [mkdirEach]
  split at hstep
  · rename_i hlost
    rw [hstep.1, if_pos hlost, wayResult, if_pos hlost, hstep.2]
  · rename_i hlost
    rw [if_neg hlost]
    rcases hstep with hmade | ⟨hexists, hfs⟩
    · rw [hmade]
    · rw [hexists, hfs]

/-- **The loop makes the way.** -/
theorem mkdirEach_loop (hread : Reading done pre cur) (hne : done ≠ [])
    (hway : (fs.makeWay (components pre)).isLost = false) :
    mkdirEach (fs.makeWay (components pre)).fs (mkdirLoop done rest ++ [done ++ rest]) =
      wayResult (fs.makeWay (components (done ++ rest))) := by
  induction rest generalizing done pre cur with
  | nil =>
      rw [mkdirLoop, List.nil_append, List.append_nil, mkdirEach_done hread hne hway, mkdirEach]
      split
      · rfl
      · rename_i hlost
        rw [wayResult, if_neg hlost]
  | cons c rest ih =>
      rw [mkdirLoop]
      by_cases hc : c = 47
      · subst hc
        rw [if_pos rfl, List.cons_append, mkdirEach_done hread hne hway]
        split
        · rename_i hlost
          rw [components_append_slash, FileSystem.makeWay_lost hlost]
        · rename_i hlost
          have hrest := ih (reading_slash done) (by simp)
            (by rw [components_slash]; exact Bool.eq_false_iff.mpr hlost)
          rwa [components_slash, List.append_assoc] at hrest
      · have hrest := ih (hread.concat hc) (by simp) hway
        rw [if_neg hc]
        rwa [List.append_assoc] at hrest

/-- The function makes the way its path goes, unless the path is `/`. -/
theorem utilMkdirPOn_eq (fs : FileSystem) (habs : path.head? = some 47) (hlen : path.length < maxPathLen)
    (hroot : path ≠ [47]) : utilMkdirPOn fs path = wayResult (fs.makeWay (components path)) := by
  have htmp : ∃ rest, stripSlash path = [47] ++ rest := by
    cases path with
    | nil => cases habs
    | cons c rest =>
        cases habs
        rw [stripSlash]
        split
        · cases rest with
          | nil => exact absurd rfl hroot
          | cons d rest => exact ⟨(d :: rest).dropLast, rfl⟩
        · exact ⟨rest, rfl⟩
  obtain ⟨rest, hrest⟩ := htmp
  rw [← components_stripSlash, hrest]
  rw [utilMkdirPOn, mkdirPaths, snprintf_eq hlen, hrest]
  exact mkdirEach_loop (reading_slash []) (List.cons_ne_nil _ _) rfl

/-- **`util_mkdir_p` returns 0 for a directory, and for nothing else,** exactly when the path is not `/` and
does not come to something that is no directory. -/
theorem utilMkdirP_sound_iff (fs : FileSystem) (path : List UInt8) (habs : path.head? = some 47)
    (hlen : path.length < maxPathLen) :
    MkdirPSound fs path ↔
      path ≠ [47] ∧ (fs.makeWay (components path)).isObstructed = false := by
  by_cases hroot : path = [47]
  · refine iff_of_false (fun h => ?_) fun h => h.1 hroot
    rw [hroot] at h
    have hhere : (utilMkdirPOn fs [47]).2.walk [] (components [47]) = some [] :=
      FileSystem.walk_eq_some.mpr ⟨_, FileSystem.lookup_nil⟩
    have hret := h.1.mpr ⟨[], hhere, (utilMkdirPOn fs [47]).2.root_dir⟩
    cases hret
  obtain ⟨hsound, hgrown⟩ := fs.makeWay_sound (components path)
  rw [MkdirPSound, utilMkdirPOn_eq fs habs hlen hroot, wayResult]
  have hnew (place : Place) (hne : (fs.makeWay (components path)).fs.node place ≠ fs.node place) :
      (fs.makeWay (components path)).fs.node place = some .dir ∧ ∃ pre, pre <+: path ∧
        (fs.makeWay (components path)).fs.walk [] (components pre) = some place := by
    obtain ⟨hdir, names, hnames, hw⟩ := hgrown.new place hne
    obtain ⟨pre, hpre, rfl⟩ := exists_components_eq hnames
    exact ⟨hdir, pre, hpre, hw⟩
  rw [and_iff_left hnew, and_iff_right hroot]
  cases hway : fs.makeWay (components path) with
  | arrived fs' place links =>
      rw [hway] at hsound
      have hthere : fs'.NamesDir path :=
        ⟨place, FileSystem.walk_eq_some.mpr ⟨links, hsound.1⟩, hsound.2⟩
      exact iff_of_true (iff_of_true rfl hthere) rfl
  | obstructed fs' =>
      rw [hway] at hsound
      refine iff_of_false (fun h => ?_) Bool.true_eq_false.mp
      obtain ⟨place, hw, hdir⟩ := h.mp rfl
      obtain ⟨links, hlook⟩ := FileSystem.walk_eq_some.mp hw
      exact hsound.no_dir hlook hdir
  | lost fs' =>
      rw [hway] at hsound
      refine iff_of_true (iff_of_false (show ¬ (-1 : Int) = 0 by decide) ?_) rfl
      rintro ⟨place, hw, -⟩
      obtain ⟨links, hlook⟩ := FileSystem.walk_eq_some.mp hw
      cases hlook.symm.trans (show fs'.lookup fs'.links [] (components path) = none from hsound)

end

/-- A root directory with one entry, `tmp`. -/
def rootWith (tmp : Option Node) : FileSystem where
  node place := if place = [] then some .dir else if place = [ascii "tmp"] then tmp else none
  root_dir := rfl
  parent_dir := by
    intro name place hne
    rw [if_neg (List.cons_ne_nil name place)] at hne
    split at hne
    · rename_i h
      rw [(List.cons.inj h).2, if_pos rfl]
    · exact absurd rfl hne
  links := 40
  allows _ := true

/-- A link to its own directory can be followed 40 times on one way, and not once more. -/
example :
    (rootWith (some (.link dot))).walk [] (List.replicate 40 (ascii "tmp")) = some [] ∧
      (rootWith (some (.link dot))).walk [] (List.replicate 41 (ascii "tmp")) = none := by
  decide +kernel

/-- Directories that are missing are made. -/
theorem utilMkdirP_sound_missing : MkdirPSound (rootWith none) (ascii "/tmp//lumid/") :=
  (utilMkdirP_sound_iff (rootWith none) (ascii "/tmp//lumid/") (by decide) (by decide)).mpr
    ⟨by decide, by decide +kernel⟩

/-- A file is no directory. -/
theorem utilMkdirP_takes_file : ¬ ∀ (fs : FileSystem) (path : List UInt8), path.head? = some 47 →
    path.length < maxPathLen → MkdirPSound fs path := by
  intro h
  have hret : (utilMkdirPOn (rootWith (some .file)) (ascii "/tmp")).1 = 0 := by decide +kernel
  have hfile : (utilMkdirPOn (rootWith (some .file)) (ascii "/tmp")).2.node [ascii "tmp"] ≠ some .dir := by
    decide +kernel
  have hwalk : (utilMkdirPOn (rootWith (some .file)) (ascii "/tmp")).2.walk []
      (components (ascii "/tmp")) = some [ascii "tmp"] := by
    decide +kernel
  obtain ⟨place, hw, hdir⟩ :=
    (h (rootWith (some .file)) (ascii "/tmp") (by decide) (by decide)).1.mp hret
  rw [hwalk] at hw
  cases hw
  exact hfile hdir

end LumiOS.Lumid
