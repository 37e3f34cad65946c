import LumiOS.Support.Words

/-!
# Support — FileTree

A tree of directories, with files and symbolic links, the way paths lead through it, and `mkdir`.

One lookup follows a bounded number of links, wherever on the way they stand; so what is left of that
number is handed on from name to name (`lookup_append`).  A way that leads somewhere leads there still
when directories are added (`walk_mono`).  Making the directories that are missing on a way is the walk
`makeWay`; it ends at a directory, in front of something else, or nowhere (`makeWay_sound`), and a
`mkdir` for each step of it does the same (`mkdirAt_same`, `mkdirAt_next`).
-/

namespace Support

/-- A place, by the names on the way from the root, the last in front. -/
abbrev Place := List (List UInt8)

inductive Node where
  | dir
  /-- Anything else, but a link. -/
  | file
  | link (text : List UInt8)
deriving DecidableEq, Repr

structure FileSystem where
  node : Place → Option Node
  root_dir : node [] = some .dir
  parent_dir : ∀ name place, node (name :: place) ≠ none → node place = some .dir
  /-- How many links one lookup follows, all names of its path together. -/
  links : Nat
  /-- Where a directory can be made; elsewhere there are no permissions, or no space. -/
  allows : Place → Bool

/-- The names in a path. -/
def components (path : List UInt8) : List (List UInt8) := words (fun c => decide (c = 47)) path

def dot : List UInt8 := [46]

def dotDot : List UInt8 := [46, 46]

namespace FileSystem

/-- The names of a way up to the first link; `follow` goes on behind it. -/
def walkWith (fs : FileSystem) (links : Nat)
    (follow : Place → List (List UInt8) → Option (Place × Nat)) :
    Place → List (List UInt8) → Option (Place × Nat)
  | place, [] => some (place, links)
  | place, name :: names =>
    if fs.node place ≠ some .dir then none
    else if name = dot then fs.walkWith links follow place names
    else if name = dotDot then fs.walkWith links follow place.tail names
    else
      match fs.node (name :: place) with
      | none => none
      | some (.link text) =>
        follow (if text.head? = some 47 then [] else place) (components text ++ names)
      | some _ => fs.walkWith links follow (name :: place) names

/-- Where a way leads, and how many links may still be followed there. -/
def lookup (fs : FileSystem) : Nat → Place → List (List UInt8) → Option (Place × Nat)
  | 0 => fs.walkWith 0 fun _ _ => none
  | links + 1 => fs.walkWith (links + 1) (fs.lookup links)

/-- Where a way leads. -/
def walk (fs : FileSystem) (place : Place) (names : List (List UInt8)) : Option Place :=
  (fs.lookup fs.links place names).map Prod.fst

/-- A path that starts with a slash is the name of a directory. -/
def NamesDir (fs : FileSystem) (path : List UInt8) : Prop :=
  ∃ place, fs.walk [] (components path) = some place ∧ fs.node place = some .dir

/-- A new directory. -/
def addDir (fs : FileSystem) (name : List UInt8) (place : Place) (h : fs.node place = some .dir) :
    FileSystem where
  node p := if p = name :: place then some .dir else fs.node p
  root_dir := by rw [if_neg (List.cons_ne_nil _ _).symm, fs.root_dir]
  parent_dir := by
    intro name' place' hne
    split
    · rfl
    · split at hne
      · rename_i heq
        rw [(List.cons.inj heq).2, h]
      · exact fs.parent_dir name' place' hne
  links := fs.links
  allows := fs.allows

end FileSystem

/-- What `mkdir` does; `failed` stands for every error but `EEXIST`. -/
inductive MkdirResult where
  | made (fs : FileSystem)
  | eexist
  | failed

namespace FileSystem

/-- `mkdir` of the end of a way from the root. -/
def mkdirAt (fs : FileSystem) (names : List (List UInt8)) : MkdirResult :=
  match names.getLast? with
  | none => .eexist
  | some name =>
    match fs.walk [] names.dropLast with
    | none => .failed
    | some place =>
      if h : fs.node place = some .dir then
        if name = dot ∨ name = dotDot ∨ fs.node (name :: place) ≠ none then .eexist
        else if fs.allows (name :: place) then .made (fs.addDir name place h)
        else .failed
      else .failed

/-- `mkdir`, for a path that is empty or starts with a slash. -/
def mkdir (fs : FileSystem) (path : List UInt8) : MkdirResult :=
  if path = [] then .failed else fs.mkdirAt (components path)

end FileSystem

/-! ### Making the way -/

/-- How far a way is made. -/
inductive Progress where
  /-- With so many links left. -/
  | arrived (fs : FileSystem) (place : Place) (links : Nat)
  /-- In front of something that is no directory. -/
  | obstructed (fs : FileSystem)
  | lost (fs : FileSystem)

namespace Progress

def fs : Progress → FileSystem
  | arrived fs _ _ => fs
  | obstructed fs => fs
  | lost fs => fs

def isLost : Progress → Bool
  | lost _ => true
  | _ => false

def isObstructed : Progress → Bool
  | obstructed _ => true
  | _ => false

/-- To the directory with a name, which is made if there is nothing. -/
def advance : Progress → List UInt8 → Progress
  | arrived fs place links, name =>
    match fs.lookup links place [name] with
    | some (place', links') =>
      if fs.node place' = some .dir then .arrived fs place' links' else .obstructed fs
    | none =>
      if h : fs.node place = some .dir then
        if fs.node (name :: place) ≠ none then .obstructed fs
        else if fs.allows (name :: place) then
          .arrived (fs.addDir name place h) (name :: place) links
        else .lost fs
      else .lost fs
  | obstructed fs, _ => .lost fs
  | lost fs, _ => .lost fs

end Progress

/-- A way from the root, with the directories made that are missing and can be made. -/
def FileSystem.makeWay (fs : FileSystem) (names : List (List UInt8)) : Progress :=
  names.foldl Progress.advance (.arrived fs [] fs.links)

section

variable {fs fs' fs'' : FileSystem} {links links' : Nat} {place place' : Place} {name : List UInt8}
  {names : List (List UInt8)} {follow follow' : Place → List (List UInt8) → Option (Place × Nat)}
  {dest : Place × Nat}

namespace FileSystem

/-! ### Names, one after the other -/

theorem walkWith_no_dir (h : fs.node place ≠ some .dir) :
    fs.walkWith links follow place (name :: names) = none := by
  rw [walkWith, if_pos h]

theorem walkWith_dot (h : fs.node place = some .dir) :
    fs.walkWith links follow place (dot :: names) = fs.walkWith links follow place names := by
  rw [walkWith, if_neg (not_not.mpr h), if_pos rfl]

theorem walkWith_dotDot (h : fs.node place = some .dir) :
    fs.walkWith links follow place (dotDot :: names) = fs.walkWith links follow place.tail names := by
  rw [walkWith, if_neg (not_not.mpr h), if_neg (by decide), if_pos rfl]

/-- Another name is looked up in the directory. -/
theorem walkWith_name (h : fs.node place = some .dir) (hdots : ¬ (name = dot ∨ name = dotDot)) :
    fs.walkWith links follow place (name :: names) =
      match fs.node (name :: place) with
      | none => none
      | some (.link text) =>
        follow (if text.head? = some 47 then [] else place) (components text ++ names)
      | some _ => fs.walkWith links follow (name :: place) names := by
  rw [not_or] at hdots
  rw [walkWith, if_neg (not_not.mpr h), if_neg hdots.1, if_neg hdots.2]

theorem lookup_eq (fs : FileSystem) (links : Nat) :
    ∃ follow, fs.lookup links = fs.walkWith links follow := by
  cases links with
  | zero => exact ⟨_, rfl⟩
  | succ links => exact ⟨_, rfl⟩

@[simp] theorem lookup_nil : fs.lookup links place [] = some (place, links) := by
  obtain ⟨follow, hfollow⟩ := lookup_eq fs links
  rw [hfollow, walkWith]

theorem dir_of_lookup (h : fs.lookup links place (name :: names) = some dest) :
    fs.node place = some .dir := by
  obtain ⟨follow, hfollow⟩ := lookup_eq fs links
  by_contra hdir
  rw [hfollow, walkWith_no_dir hdir] at h
  cases h

/-- A way does not lead on from where there is no directory. -/
theorem lookup_no_dir (h : fs.node place ≠ some .dir) :
    fs.lookup links place (name :: names) = none :=
  Option.eq_none_iff_forall_ne_some.mpr fun _ hdest => h (dir_of_lookup hdest)

theorem dir_tail (h : fs.node place = some .dir) : fs.node place.tail = some .dir := by
  cases place with
  | nil => exact h
  | cons name place => exact fs.parent_dir name place (by rw [h]; exact Option.some_ne_none _)

/-- `.` and `..` are names of directories. -/
theorem lookup_dots (links : Nat) (h : fs.node place = some .dir) (hdots : name = dot ∨ name = dotDot) :
    ∃ place', fs.lookup links place [name] = some (place', links) ∧ fs.node place' = some .dir := by
  obtain ⟨follow, hfollow⟩ := lookup_eq fs links
  rw [hfollow]
  rcases hdots with rfl | rfl
  · exact ⟨place, walkWith_dot h, h⟩
  · exact ⟨place.tail, walkWith_dotDot h, dir_tail h⟩

theorem lookup_missing (hdots : ¬ (name = dot ∨ name = dotDot)) (h : fs.node (name :: place) = none) :
    fs.lookup links place [name] = none := by
  obtain ⟨follow, hfollow⟩ := lookup_eq fs links
  by_cases hdir : fs.node place = some .dir
  · rw [hfollow, walkWith_name hdir hdots, h]
  · exact lookup_no_dir hdir

theorem lookup_dir (hdots : ¬ (name = dot ∨ name = dotDot)) (h : fs.node (name :: place) = some .dir) :
    fs.lookup links place [name] = some (name :: place, links) := by
  obtain ⟨follow, hfollow⟩ := lookup_eq fs links
  have hdir : fs.node place = some .dir := fs.parent_dir name place (by simp [h])
  rw [hfollow, walkWith_name hdir hdots, h]
  rfl

/-! ### The links left -/

/-- If `follow` can be cut in two behind any name, so can the names up to a link. -/
theorem walkWith_append {rest : List (List UInt8)} {cont : Place × Nat → Option (Place × Nat)}
    (hcont : ∀ place, cont (place, links) = fs.walkWith links follow place rest)
    (hfollow : ∀ place names, follow place (names ++ rest) = (follow place names).bind cont) :
    fs.walkWith links follow place (names ++ rest) =
      (fs.walkWith links follow place names).bind cont := by
  induction names generalizing place with
  | nil => exact (hcont place).symm
  | cons name names ih =>
      rw [List.cons_append]
      by_cases hdir : fs.node place = some .dir
      · by_cases hdots : name = dot ∨ name = dotDot
        · rcases hdots with rfl | rfl
          · rw [walkWith_dot hdir, walkWith_dot hdir, ih]
          · rw [walkWith_dotDot hdir, walkWith_dotDot hdir, ih]
        · rw [walkWith_name hdir hdots, walkWith_name hdir hdots]
          cases fs.node (name :: place) with
          | none => rfl
          | some node =>
              cases node with
              | dir => exact ih
              | file => exact ih
              | link text =>
                  change follow _ (components text ++ (names ++ rest)) = _
                  rw [← List.append_assoc]
                  exact hfollow _ _
      · rw [walkWith_no_dir hdir, walkWith_no_dir hdir]
        rfl

/-- **The rest of a way has the links that its beginning has left.** -/
theorem lookup_append (fs : FileSystem) (links : Nat) (place : Place) (names rest : List (List UInt8)) :
    fs.lookup links place (names ++ rest) =
      (fs.lookup links place names).bind fun dest => fs.lookup dest.2 dest.1 rest := by
  induction links generalizing place names with
  | zero => exact walkWith_append (fun _ => rfl) fun _ _ => rfl
  | succ links ih => exact walkWith_append (fun _ => rfl) ih

theorem lookup_concat (h : fs.lookup links place names = some (place', links')) :
    fs.lookup links place (names ++ [name]) = fs.lookup links' place' [name] := by
  rw [lookup_append, h]
  rfl

theorem walk_eq_some : fs.walk place names = some place' ↔
    ∃ links, fs.lookup fs.links place names = some (place', links) := by
  simp [walk]

/-! ### More directories -/

/-- The second has what the first has. -/
structure Extends (fs fs' : FileSystem) : Prop where
  node : ∀ {place node}, fs.node place = some node → fs'.node place = some node
  links : fs'.links = fs.links

theorem Extends.refl (fs : FileSystem) : fs.Extends fs := ⟨id, rfl⟩

theorem Extends.trans (h : fs.Extends fs') (h' : fs'.Extends fs'') : fs.Extends fs'' :=
  ⟨fun hn => h'.node (h.node hn), h'.links.trans h.links⟩

theorem extends_addDir (h : fs.node place = some .dir) (hfree : fs.node (name :: place) = none) :
    fs.Extends (fs.addDir name place h) := by
  refine ⟨fun {p n} hn => ?_, rfl⟩
  have hp : p ≠ name :: place := fun heq => by
    rw [heq, hfree] at hn
    cases hn
  exact (if_neg hp).trans hn

theorem walkWith_mono (h : fs.Extends fs')
    (hf : ∀ place names dest, follow place names = some dest → follow' place names = some dest)
    (hw : fs.walkWith links follow place names = some dest) :
    fs'.walkWith links follow' place names = some dest := by
  induction names generalizing place with
  | nil => exact hw
  | cons name names ih =>
      have hdir : fs.node place = some .dir := by
        by_contra hdir
        rw [walkWith_no_dir hdir] at hw
        cases hw
      by_cases hdots : name = dot ∨ name = dotDot
      · rcases hdots with rfl | rfl
        · rw [walkWith_dot hdir] at hw
          rw [walkWith_dot (h.node hdir)]
          exact ih hw
        · rw [walkWith_dotDot hdir] at hw
          rw [walkWith_dotDot (h.node hdir)]
          exact ih hw
      · rw [walkWith_name hdir hdots] at hw
        rw [walkWith_name (h.node hdir) hdots]
        cases hnode : fs.node (name :: place) with
        | none =>
            rw [hnode] at hw
            cases hw
        | some node =>
            rw [hnode] at hw
            rw [h.node hnode]
            cases node with
            | dir => exact ih hw
            | file => exact ih hw
            | link text => exact hf _ _ _ hw

theorem lookup_mono (h : fs.Extends fs') (hw : fs.lookup links place names = some dest) :
    fs'.lookup links place names = some dest := by
  induction links generalizing place names dest with
  | zero => exact walkWith_mono h (fun _ _ _ hn => hn) hw
  | succ links ih => exact walkWith_mono h (fun _ _ _ => ih) hw

/-- **A way that leads somewhere** leads there still when there are more directories. -/
theorem walk_mono (h : fs.Extends fs') (hw : fs.walk place names = some place') :
    fs'.walk place names = some place' := by
  obtain ⟨links, hlook⟩ := walk_eq_some.mp hw
  refine walk_eq_some.mpr ⟨links, ?_⟩
  rw [h.links]
  exact lookup_mono h hlook

end FileSystem

/-! ### The progress on a way -/

namespace Progress

/-- What the progress on a way says of where it leads. -/
def Sound (names : List (List UInt8)) : Progress → Prop
  | arrived fs place links =>
    fs.lookup fs.links [] names = some (place, links) ∧ fs.node place = some .dir
  | obstructed fs => ∃ pre name place links, names = pre ++ [name] ∧
      fs.lookup fs.links [] pre = some (place, links) ∧ fs.node place = some .dir ∧
      ¬ (name = dot ∨ name = dotDot) ∧ fs.node (name :: place) ≠ none ∧
      ∀ dest, fs.lookup links place [name] = some dest → fs.node dest.1 ≠ some .dir
  | lost fs => fs.lookup fs.links [] names = none

variable {P : Progress}

/-- It ends at no directory. -/
theorem Sound.no_dir (h : (obstructed fs).Sound names) (hw : fs.lookup fs.links [] names = some dest) :
    fs.node dest.1 ≠ some .dir := by
  obtain ⟨pre, name, mid, links, rfl, hpre, -, -, -, hno⟩ := h
  rw [FileSystem.lookup_concat hpre] at hw
  exact hno dest hw

theorem Sound.obstructed_next (h : (obstructed fs).Sound names) :
    fs.lookup fs.links [] (names ++ [name]) = none := by
  cases hw : fs.lookup fs.links [] names with
  | none =>
      rw [FileSystem.lookup_append, hw]
      rfl
  | some dest =>
      rw [FileSystem.lookup_concat hw]
      exact FileSystem.lookup_no_dir (h.no_dir hw)

/-- The four things a step from a directory can come to. -/
theorem advance_cases (hdir : fs.node place = some .dir) (links : Nat) (name : List UInt8) :
    (∃ place' links', fs.lookup links place [name] = some (place', links') ∧
      fs.node place' = some .dir ∧
      (arrived fs place links).advance name = .arrived fs place' links') ∨
    ¬ (name = dot ∨ name = dotDot) ∧
      (fs.node (name :: place) ≠ none ∧
        (∀ dest, fs.lookup links place [name] = some dest → fs.node dest.1 ≠ some .dir) ∧
        (arrived fs place links).advance name = .obstructed fs ∨
      fs.node (name :: place) = none ∧ fs.lookup links place [name] = none ∧
        (fs.allows (name :: place) = true ∧ (arrived fs place links).advance name =
            .arrived (fs.addDir name place hdir) (name :: place) links ∨
        fs.allows (name :: place) = false ∧
          (arrived fs place links).advance name = .lost fs)) := by
  by_cases hgo : ∃ dest, fs.lookup links place [name] = some dest ∧ fs.node dest.1 = some .dir
  · obtain ⟨⟨place', links'⟩, hstep, hdir'⟩ := hgo
    exact .inl ⟨place', links', hstep, hdir', by rw [advance, hstep]; exact if_pos hdir'⟩
  have hno (dest : Place × Nat) (hstep : fs.lookup links place [name] = some dest) :
      fs.node dest.1 ≠ some .dir := fun hdir' => hgo ⟨dest, hstep, hdir'⟩
  have hdots : ¬ (name = dot ∨ name = dotDot) := fun h => by
    obtain ⟨place', hstep, hdir'⟩ := FileSystem.lookup_dots links hdir h
    exact hgo ⟨_, hstep, hdir'⟩
  refine .inr ⟨hdots, ?_⟩
  by_cases hnode : fs.node (name :: place) = none
  · have hstep : fs.lookup links place [name] = none := FileSystem.lookup_missing hdots hnode
    refine .inr ⟨hnode, hstep, ?_⟩
    simp only [advance, hstep, dif_pos hdir, if_neg (not_not.mpr hnode)]
    cases fs.allows (name :: place) with
    | true => exact .inl ⟨rfl, rfl⟩
    | false => exact .inr ⟨rfl, rfl⟩
  · refine .inl ⟨hnode, hno, ?_⟩
    cases hstep : fs.lookup links place [name] with
    | none => simp only [advance, hstep, dif_pos hdir, if_pos hnode]
    | some dest => simp only [advance, hstep, if_neg (hno dest hstep)]

theorem advance_sound (h : P.Sound names) (name : List UInt8) :
    (P.advance name).Sound (names ++ [name]) := by
  cases P with
  | lost fs =>
      change fs.lookup fs.links [] (names ++ [name]) = none
      rw [FileSystem.lookup_append, show fs.lookup fs.links [] names = none from h]
      rfl
  | obstructed fs => exact h.obstructed_next
  | arrived fs place links =>
      obtain ⟨hw, hdir⟩ := h
      rcases advance_cases hdir links name with ⟨place', links', hstep, hdir', heq⟩ |
          ⟨hdots, ⟨hnode, hno, heq⟩ | ⟨hnode, hstep, ⟨-, heq⟩ | ⟨-, heq⟩⟩⟩
      · rw [heq]
        exact ⟨(FileSystem.lookup_concat hw).trans hstep, hdir'⟩
      · rw [heq]
        exact ⟨names, name, place, links, rfl, hw, hdir, hdots, hnode, hno⟩
      · have hnew : (fs.addDir name place hdir).node (name :: place) = some .dir := if_pos rfl
        have hthere := FileSystem.lookup_mono (FileSystem.extends_addDir hdir hnode) hw
        rw [heq]
        exact ⟨(FileSystem.lookup_concat hthere).trans (FileSystem.lookup_dir hdots hnew), hnew⟩
      · rw [heq]
        exact (FileSystem.lookup_concat hw).trans hstep

/-- A step adds a directory at its end, at most. -/
theorem advance_grown (h : P.Sound names) (name : List UInt8) :
    P.fs.Extends (P.advance name).fs ∧ ∀ place, (P.advance name).fs.node place ≠ P.fs.node place →
      (P.advance name).fs.node place = some .dir ∧
        (P.advance name).fs.walk [] (names ++ [name]) = some place := by
  have hsame {fs' : FileSystem} (heq : fs' = P.fs) : P.fs.Extends fs' ∧ ∀ place,
      fs'.node place ≠ P.fs.node place → fs'.node place = some .dir ∧
        fs'.walk [] (names ++ [name]) = some place :=
    heq ▸ ⟨.refl _, fun _ hne => absurd rfl hne⟩
  cases P with
  | lost fs => exact hsame rfl
  | obstructed fs => exact hsame rfl
  | arrived fs place links =>
      have hsound := advance_sound h name
      rcases advance_cases h.2 links name with ⟨place', links', -, -, heq⟩ |
          ⟨-, ⟨-, -, heq⟩ | ⟨hnode, -, ⟨-, heq⟩ | ⟨-, heq⟩⟩⟩
      · exact hsame (by rw [heq]; rfl)
      · exact hsame (by rw [heq]; rfl)
      · rw [heq] at hsound ⊢
        refine ⟨FileSystem.extends_addDir h.2 hnode, fun p hne => ?_⟩
        have hp : p = name :: place := by
          by_contra hother
          exact hne (if_neg hother)
        rw [hp]
        exact ⟨hsound.2, FileSystem.walk_eq_some.mpr ⟨links, hsound.1⟩⟩
      · exact hsame (by rw [heq]; rfl)

end Progress

namespace FileSystem

/-- `fs'` has what `fs` has, and more directories where a beginning of the way leads. -/
structure Grown (fs : FileSystem) (names : List (List UInt8)) (fs' : FileSystem) : Prop where
  ext : fs.Extends fs'
  new : ∀ place, fs'.node place ≠ fs.node place → fs'.node place = some .dir ∧
    ∃ pre, pre <+: names ∧ fs'.walk [] pre = some place

theorem makeWay_concat : fs.makeWay (names ++ [name]) = (fs.makeWay names).advance name := by
  rw [makeWay, List.foldl_append]
  rfl

/-- One that is lost is lost for good. -/
theorem makeWay_lost (h : (fs.makeWay names).isLost = true) (rest : List (List UInt8)) :
    fs.makeWay (names ++ rest) = fs.makeWay names := by
  cases hway : fs.makeWay names with
  | arrived fs place links =>
      rw [hway] at h
      cases h
  | obstructed fs =>
      rw [hway] at h
      cases h
  | lost fs' =>
      induction rest using List.reverseRecOn with
      | nil => rw [List.append_nil, hway]
      | append_singleton rest name ih =>
          rw [← List.append_assoc, makeWay_concat, ih]
          rfl

/-- **Making a way** comes to where the way leads then, and makes nothing else. -/
theorem makeWay_sound (fs : FileSystem) (names : List (List UInt8)) :
    (fs.makeWay names).Sound names ∧ fs.Grown names (fs.makeWay names).fs := by
  induction names using List.reverseRecOn with
  | nil => exact ⟨⟨lookup_nil, fs.root_dir⟩, .refl fs, fun _ hne => absurd rfl hne⟩
  | append_singleton names name ih =>
      obtain ⟨hsound, hgrown⟩ := ih
      obtain ⟨hext, hnew⟩ := Progress.advance_grown hsound name
      rw [makeWay_concat]
      refine ⟨Progress.advance_sound hsound name, hgrown.ext.trans hext, fun place hne => ?_⟩
      by_cases hold : (fs.makeWay names).fs.node place = fs.node place
      · obtain ⟨hdir, hw⟩ := hnew place (hold ▸ hne)
        exact ⟨hdir, _, List.prefix_refl _, hw⟩
      · obtain ⟨hdir, pre, hpre, hw⟩ := hgrown.new place hold
        exact ⟨hext.node hdir, pre, hpre.trans (List.prefix_append _ _), walk_mono hext hw⟩

/-! ### mkdir on the way -/

theorem mkdirAt_dir (hw : fs.lookup fs.links [] names = some dest) (hdir : fs.node dest.1 = some .dir)
    (name : List UInt8) : fs.mkdirAt (names ++ [name]) =
      if name = dot ∨ name = dotDot ∨ fs.node (name :: dest.1) ≠ none then .eexist
      else if fs.allows (name :: dest.1) then .made (fs.addDir name dest.1 hdir)
      else .failed := by
  simp only [mkdirAt, List.getLast?_concat, List.dropLast_concat, walk, hw, Option.map_some, dif_pos hdir]

/-- Where a way comes to no directory, nothing is made behind it. -/
theorem mkdirAt_no_dir
    (h : ∀ dest, fs.lookup fs.links [] names = some dest → fs.node dest.1 ≠ some .dir)
    (name : List UInt8) : fs.mkdirAt (names ++ [name]) = .failed := by
  simp only [mkdirAt, List.getLast?_concat, List.dropLast_concat, walk]
  cases hw : fs.lookup fs.links [] names with
  | none => rfl
  | some dest => exact dif_neg (h dest hw)

/-- What has been come to exists. -/
theorem mkdirAt_same {P : Progress} (h : P.Sound names) (hlost : P.isLost = false) :
    P.fs.mkdirAt names = .eexist := by
  cases P with
  | lost fs => cases hlost
  | obstructed fs =>
      obtain ⟨pre, name, place, links, rfl, hw, hdir, -, hnode, -⟩ := h
      exact (mkdirAt_dir hw hdir name).trans (if_pos (.inr (.inr hnode)))
  | arrived fs place links =>
      obtain ⟨hw, -⟩ := h
      rcases List.eq_nil_or_concat' names with rfl | ⟨pre, name, rfl⟩
      · rfl
      · rw [lookup_append] at hw
        obtain ⟨mid, hpre, hstep⟩ := Option.bind_eq_some_iff.mp hw
        refine (mkdirAt_dir hpre (dir_of_lookup hstep) name).trans (if_pos ?_)
        by_contra hnew
        rw [not_or, not_or, not_not] at hnew
        rw [lookup_missing (not_or.mpr ⟨hnew.1, hnew.2.1⟩) hnew.2.2] at hstep
        cases hstep

/-- A `mkdir` does what the next step of the way does. -/
theorem mkdirAt_next {P : Progress} (h : P.Sound names) (hlost : P.isLost = false)
    (name : List UInt8) :
    if (P.advance name).isLost then
      P.fs.mkdirAt (names ++ [name]) = .failed ∧ (P.advance name).fs = P.fs
    else
      P.fs.mkdirAt (names ++ [name]) = .made (P.advance name).fs ∨
        P.fs.mkdirAt (names ++ [name]) = .eexist ∧ (P.advance name).fs = P.fs := by
  cases P with
  | lost fs => cases hlost
  | obstructed fs => exact ⟨mkdirAt_no_dir (fun _ => h.no_dir) name, rfl⟩
  | arrived fs place links =>
      have hat := mkdirAt_dir h.1 h.2 name
      have hsound := Progress.advance_sound h name
      rcases Progress.advance_cases h.2 links name with ⟨place', links', -, -, heq⟩ |
          ⟨hdots, ⟨hnode, -, heq⟩ | ⟨hnode, -, ⟨hallows, heq⟩ | ⟨hallows, heq⟩⟩⟩
      · rw [heq] at hsound ⊢
        have hexists : fs.mkdirAt (names ++ [name]) = .eexist := mkdirAt_same hsound rfl
        exact .inr ⟨hexists, rfl⟩
      · rw [heq]
        exact .inr ⟨hat.trans (if_pos (.inr (.inr hnode))), rfl⟩
      · rw [not_or] at hdots
        rw [heq]
        refine .inl (hat.trans ?_)
        rw [if_neg (by simp [hdots, hnode]), if_pos hallows]
        rfl
      · rw [not_or] at hdots
        rw [heq]
        refine ⟨hat.trans ?_, rfl⟩
        rw [if_neg (by simp [hdots, hnode]), if_neg (by simp [hallows])]

end FileSystem

end

end Support
