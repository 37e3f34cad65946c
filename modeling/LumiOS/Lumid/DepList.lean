import LumiOS.Lumid.Config

/-!
# Lumid — DepList

The lists of a `[dependencies]` section, from the line of the file to `requires`, `after` and `before`.

The line fits its buffer of 1024 bytes, and `parse_dep_list` has one of that size for the list, but in
between `config_parse_value` keeps 255 bytes of the value: a list is parsed as it is written exactly
when nothing but separators stands behind these (`dep_list_parsed_iff`).  The key has to fit as well.
-/

namespace LumiOS.Lumid

open Support

/-! ### The lists of a service -/

inductive DepKey where
  | requires
  | after
  | before
deriving DecidableEq, Repr

def DepKey.key : DepKey → ConfigKey
  | .requires => .requires
  | .after => .after
  | .before => .before

/-- The key in the file. -/
def DepKey.name (k : DepKey) : List UInt8 := k.key.names.2

def ServiceFile.deps (svc : ServiceFile) : DepKey → List Name
  | .requires => svc.requires
  | .after => svc.after
  | .before => svc.before

/-! ### The lines that are written -/

/-- White space within a line. -/
def Blank (s : List UInt8) : Prop := ∀ c ∈ s, isSpace c = true ∧ c ≠ newline

/-- A name of at most 63 characters. -/
structure DepName (name : List UInt8) : Prop where
  nul_free : 0 ∉ name
  no_space : ∀ c ∈ name, isSpace c = false
  length_le : name.length ≤ 63

/-- A line that sets a list to these names; `pad` stands before its `=`, `value` behind it. -/
structure DepsLine (k : DepKey) (names : List (List UInt8)) (line pad value : List UInt8) :
    Prop where
  line_eq : ∃ indent eol, line = indent ++ (k.name ++ pad ++ 61 :: value) ++ eol ∧ Blank indent ∧
    (eol = [] ∨ eol = [newline])
  fits : line.length < maxLineLen
  blank_pad : Blank pad
  value_eq : ∃ before list after, value = before ++ list ++ after ∧ Blank before ∧ Blank after ∧
    SepList isSep names list
  length_le : names.length ≤ maxDeps
  name : ∀ name ∈ names, DepName name

/-- What may stand between two names, or around them. -/
def isGap (c : UInt8) : Bool := isSpace c || isSep c

section

variable {k : DepKey} {names : List (List UInt8)} {line pad value : List UInt8} {c : UInt8}
  {st : ConfigState} {svc : ServiceFile}

theorem isSep_cases (h : isSep c = true) : c = 32 ∨ c = 9 ∨ c = 44 := by
  have hmem : c ∈ ([32, 9, 44] : List UInt8) := List.contains_iff_mem.mp h
  simpa using hmem

theorem isGap_of_sep (h : isSep c = true) : isGap c = true := by
  rw [isGap, h, Bool.or_true]

theorem isGap_of_space (h : isSpace c = true) : isGap c = true := by
  rw [isGap, h, Bool.true_or]

/-- White space that separates no names ends a line, or starts a value. -/
theorem isGap_iff (h : isSpace c = true → c = 32 ∨ c = 9) : isSep c = isGap c := by
  rw [isGap]
  cases hs : isSpace c with
  | false => rw [Bool.false_or]
  | true =>
      rcases h hs with rfl | rfl
      · rfl
      · rfl

/-! ### The characters of a line -/

theorem Blank.space {s : List UInt8} (h : Blank s) : ∀ c ∈ s, isSpace c = true :=
  fun c hc => (h c hc).1

theorem Blank.newline_free {s : List UInt8} (h : Blank s) : newline ∉ s :=
  fun hm => (h newline hm).2 rfl

theorem isSpace_nul_free {s : List UInt8} (h : ∀ c ∈ s, isSpace c = true) : 0 ∉ s := fun hm => by
  have := h 0 hm
  cases this

theorem DepKey.name_eq (k : DepKey) : ∃ c s, k.name = c :: s ∧ isSpace c = false ∧ c ≠ 35 ∧ c ≠ 59 ∧
    c ≠ 91 ∧ 61 ∉ k.name ∧ 0 ∉ k.name ∧ newline ∉ k.name ∧ trim k.name = k.name := by
  cases k with
  | requires => exact ⟨114, ascii "equires", by decide⟩
  | after => exact ⟨97, ascii "fter", by decide⟩
  | before => exact ⟨98, ascii "efore", by decide⟩

/-- The names of the list, for a reader that takes all white space for a separator. -/
theorem DepsLine.gaps (h : DepsLine k names line pad value) : words isGap value = names := by
  obtain ⟨before, list, after, rfl, hb, ha, hlist⟩ := h.value_eq
  have hword : ∀ word ∈ names, ∀ c ∈ word, isGap c = false := fun word hw c hc => by
    rw [isGap, (h.name word hw).no_space c hc, (hlist.isWord word hw).not_sep c hc]
    rfl
  rw [words_append_right _ fun c hc => isGap_of_space (ha.space c hc),
    words_append_left fun c hc => isGap_of_space (hb.space c hc)]
  exact (hlist.mono (fun c => isGap_of_sep) hword).words_eq

/-- In the value without the white space around it, all white space separates. -/
theorem DepsLine.space_sep (h : DepsLine k names line pad value) :
    ∀ c ∈ trimLeft (trimRight value), isSep c = isGap c := by
  obtain ⟨before, list, after, rfl, hb, ha, hlist⟩ := h.value_eq
  intro c hc
  refine isGap_iff fun hs => ?_
  -- a character that is left is one of the list
  have hmem : c ∈ list := by
    rw [trimRight_append _ ha.space] at hc
    obtain ⟨t, ht, -⟩ := trimLeft_eq_append (before ++ list)
    have hin : c ∈ trimLeft (before ++ list) := ht ▸ List.mem_append_left t hc
    rw [trimLeft_append hb.space] at hin
    exact List.dropWhile_subset _ hin
  rcases hlist.mem hmem with hsep | ⟨name, hname, hcn⟩
  · rcases isSep_cases hsep with rfl | rfl | rfl
    · exact .inl rfl
    · exact .inr rfl
    · cases hs
  · rw [(h.name name hname).no_space c hcn] at hs
    cases hs

theorem DepsLine.nul_free (h : DepsLine k names line pad value) : 0 ∉ line := by
  obtain ⟨indent, eol, rfl, hi, he⟩ := h.line_eq
  obtain ⟨before, list, after, rfl, hb, ha, hlist⟩ := h.value_eq
  obtain ⟨-, -, -, -, -, -, -, -, h0, -⟩ := k.name_eq
  have hl : 0 ∉ list := fun hm => by
    rcases hlist.mem hm with hs | ⟨name, hname, hc⟩
    · cases hs
    · exact (h.name name hname).nul_free hc
  have hn : 0 ∉ eol := by
    rcases he with rfl | rfl
    · exact List.not_mem_nil
    · decide
  simp [isSpace_nul_free hi.space, isSpace_nul_free h.blank_pad.space, isSpace_nul_free hb.space,
    isSpace_nul_free ha.space, h0, hl, hn]

/-- The value does not go past the line. -/
theorem DepsLine.newline_free (h : DepsLine k names line pad value) : newline ∉ value := by
  obtain ⟨before, list, after, rfl, hb, ha, hlist⟩ := h.value_eq
  have hl : newline ∉ list := fun hm => by
    rcases hlist.mem hm with hs | ⟨name, hname, hc⟩
    · cases hs
    · cases (h.name name hname).no_space _ hc
  simp [hb.newline_free, ha.newline_free, hl]

/-- The line as `trim` leaves it. -/
theorem DepsLine.trim_eq (h : DepsLine k names line pad value) :
    trim line = k.name ++ pad ++ 61 :: trimRight value := by
  obtain ⟨indent, eol, rfl, hi, he⟩ := h.line_eq
  obtain ⟨c, s, hk, hc, -⟩ := k.name_eq
  have heol : ∀ c ∈ eol, isSpace c = true := by
    rcases he with rfl | rfl
    · exact fun c hc => by cases hc
    · exact fun c hc => List.mem_singleton.mp hc ▸ rfl
  have hleft : trimLeft (indent ++ (k.name ++ pad ++ 61 :: value) ++ eol) =
      k.name ++ pad ++ 61 :: (value ++ eol) := by
    rw [List.append_assoc, trimLeft_append hi.space, hk]
    simp only [List.cons_append, List.append_assoc]
    exact trimLeft_cons hc _
  rw [trim, hleft, trimRight_append_cons rfl, trimRight_append value heol]

/-- The value that is handed to `parse_dep_list`. -/
def depValue (value : List UInt8) : List UInt8 :=
  trimRight ((trimLeft (trimRight value)).take (maxPathLen - 1))

theorem DepKey.of_eq (k : DepKey) : ConfigKey.of (ascii "dependencies") k.name = some k.key := by
  cases k <;> rfl

/-- The key is trimmed to its name. -/
theorem DepsLine.trim_key (h : DepsLine k names line pad value) : trim (k.name ++ pad) = k.name := by
  obtain ⟨c, s, hk, hc, -, -, -, -, -, -, htrim⟩ := k.name_eq
  have hleft (t : List UInt8) : trimLeft (k.name ++ t) = k.name ++ t := by
    rw [hk]
    exact trimLeft_cons hc _
  have hname : trimLeft k.name = k.name := by simpa using hleft []
  rw [trim, hleft, trimRight_append _ h.blank_pad.space]
  rw [trim, hname] at htrim
  exact htrim

/-- **What the line does**: it sets its list, if its `=` is in reach. -/
theorem DepsLine.configLine_eq (h : DepsLine k names line pad value)
    (hsect : st.sect.string.bytes = ascii "dependencies") :
    configLine st (trim line) =
      if (k.name ++ pad).length < 128 then
        some { st with svc := st.svc.assign k.key (depValue value) }
      else none := by
  obtain ⟨c, s, hk, hc, h35, h59, h91, h61, -⟩ := k.name_eq
  have hhead : (k.name ++ pad ++ 61 :: trimRight value).head? = some c := by
    rw [hk]
    rfl
  have hskip : ¬ (k.name ++ pad ++ 61 :: trimRight value = [] ∨
      (k.name ++ pad ++ 61 :: trimRight value).head? = some 35 ∨
      (k.name ++ pad ++ 61 :: trimRight value).head? = some 59) := by
    rw [hhead]
    rintro (hnil | h | h)
    · rw [hnil] at hhead
      cases hhead
    · exact h35 (Option.some.inj h)
    · exact h59 (Option.some.inj h)
  have hsection : ¬ (k.name ++ pad ++ 61 :: trimRight value).head? = some 91 := by
    rw [hhead]
    exact fun h => h91 (Option.some.inj h)
  have hpad : 61 ∉ k.name ++ pad := fun hm => by
    rcases List.mem_append.mp hm with hm | hm
    · exact h61 hm
    · cases h.blank_pad.space 61 hm
  rw [h.trim_eq, configLine, if_neg hskip, if_neg hsection, configParseValue, breakAt_append _ hpad]
  by_cases hlen : (k.name ++ pad).length < 128
  · have hmax : ¬ maxPathLen ≤ (k.name ++ pad).length := Nat.not_le.mpr (hlen.trans (by decide))
    have hset : st.svc.setPair st.sect.string.bytes k.name (depValue value) =
        st.svc.assign k.key (depValue value) := by
      rw [ServiceFile.setPair, hsect, if_neg (by decide), k.of_eq]
    simp only [if_neg hmax, if_pos hlen, List.take_length, h.trim_key]
    exact congrArg (fun svc => some { st with svc := svc }) hset
  · have hcut : ¬ (if maxPathLen ≤ (k.name ++ pad).length then maxPathLen - 1
        else (k.name ++ pad).length) < 128 := by
      split
      · decide
      · exact hlen
    simp only [if_neg hcut, if_neg hlen]

/-! ### The line in its file -/

/-- The loop goes on at the start of a line. -/
theorem configLoop_append {pre : List UInt8} (hpre : LineStart pre) (rest : List UInt8)
    (svc : ServiceFile) : configLoop (pre ++ rest) svc =
      (configLoop pre svc).bind fun st => (pieces (maxLineLen - 1) rest).foldlM configPiece st := by
  have hn : maxLineLen - 1 = 1022 + 1 := rfl
  rw [configLoop, configLoop, hn, pieces_append hpre, List.foldlM_append]
  rfl

/-- The line is read by one `fgets`. -/
theorem DepsLine.pieces_eq (h : DepsLine k names line pad value) :
    pieces (maxLineLen - 1) line = [line] := by
  have hn : maxLineLen - 1 = 1022 + 1 := rfl
  have hfits := h.fits
  have hvalue := h.newline_free
  obtain ⟨-, -, -, -, -, -, -, -, -, hname, -⟩ := k.name_eq
  obtain ⟨indent, eol, rfl, hi, he⟩ := h.line_eq
  have hno : newline ∉ indent ++ (k.name ++ pad ++ 61 :: value) := by
    have heq : newline ≠ 61 := by decide
    simp [hi.newline_free, hname, h.blank_pad.newline_free, hvalue, heq]
  rcases he with rfl | rfl
  · -- the last line of the file
    rw [List.append_nil] at hfits ⊢
    rw [hn, pieces_last hno (Nat.le_of_lt_succ hfits), if_neg]
    simp
  · rw [List.length_append, List.length_singleton] at hfits
    rw [hn, pieces_line hno (Nat.le_of_lt_succ (Nat.lt_of_succ_lt_succ hfits))]

/-- The loop up to the line and past it. -/
theorem DepsLine.configLoop_eq {pre : List UInt8} (h : DepsLine k names line pad value)
    (hpre : LineStart pre) (hst : configLoop pre svc = some st)
    (hsect : st.sect.string.bytes = ascii "dependencies") :
    configLoop (pre ++ line) svc =
      if (k.name ++ pad).length < 128 then
        some { st with svc := st.svc.assign k.key (depValue value) }
      else none := by
  rw [configLoop_append hpre, hst, Option.bind_some, h.pieces_eq, List.foldlM_cons, configPiece,
    cstring_of_not_mem h.nul_free, h.configLine_eq hsect]
  split
  · rfl
  · rfl

/-! ### The list that is parsed -/

/-- All that is left of the list stands in the first 255 bytes. -/
theorem DepsLine.words_depValue (h : DepsLine k names line pad value) :
    words isSep (depValue value) =
      words isGap ((trimLeft (trimRight value)).take (maxPathLen - 1)) := by
  obtain ⟨t, ht, hspace⟩ := exists_trimRight ((trimLeft (trimRight value)).take (maxPathLen - 1))
  have hsub : ∀ c ∈ depValue value, c ∈ trimLeft (trimRight value) := fun c hc =>
    List.mem_of_mem_take ((List.rdropWhile_prefix _ _).subset hc)
  rw [words_congr fun c hc => h.space_sep c (hsub c hc), depValue]
  conv_rhs => rw [ht, words_append_right _ fun c hc => isGap_of_space (hspace c hc)]

/-- The white space around the value does not matter. -/
theorem DepsLine.words_trimmed (h : DepsLine k names line pad value) :
    words isGap (trimLeft (trimRight value)) = names := by
  obtain ⟨t, ht, htspace⟩ := exists_trimRight value
  obtain ⟨u, hu, huspace⟩ := exists_trimLeft (trimRight value)
  have hright : words isGap (trimRight value) = names := by
    rw [← h.gaps]
    conv_rhs => rw [ht, words_append_right _ fun c hc => isGap_of_space (htspace c hc)]
  rw [← hright]
  conv_rhs => rw [hu, words_append_left fun c hc => isGap_of_space (huspace c hc)]

/-- No more than a gap is left behind the first bytes, with the white space at the end or without. -/
theorem drop_gaps (n : Nat) (value : List UInt8) : (∀ c ∈ (trimLeft value).drop n, isGap c = true) ↔
    ∀ c ∈ (trimLeft (trimRight value)).drop n, isGap c = true := by
  obtain ⟨t, ht, hspace⟩ := trimLeft_eq_append value
  rw [ht, List.drop_append]
  constructor
  · exact fun h c hc => h c (List.mem_append_left _ hc)
  · intro h c hc
    rcases List.mem_append.mp hc with hc | hc
    · exact h c hc
    · exact isGap_of_space (hspace c (List.mem_of_mem_drop hc))

theorem DepsLine.parseDepList_eq (h : DepsLine k names line pad value) :
    parseDepList (depValue value) maxDeps =
      ((words isGap ((trimLeft (trimRight value)).take (maxPathLen - 1))).take maxDeps).map
        (CStr.cut (by decide)) := by
  have hlen : (depValue value).length < maxLineLen :=
    ((List.rdropWhile_prefix _ _).length_le.trans (List.length_take_le _ _)).trans_lt (by decide)
  rw [LumiOS.Lumid.parseDepList_eq hlen, listNames, h.words_depValue]

/-- A name is copied whole. -/
theorem DepName.cut_bytes {name : List UInt8} (h : DepName name) :
    (CStr.cut (by decide) name : Name).bytes = name := by
  have hcut : (CStr.cut (by decide) name : Name).bytes = (cstring name).take 63 := rfl
  rw [hcut, cstring_of_not_mem h.nul_free, List.take_of_length_le h.length_le]

theorem cut_length_le (names : List (List UInt8)) :
    ((names.map fun name => (CStr.cut (by decide) name : Name).bytes).flatten).length ≤
      names.flatten.length := by
  induction names with
  | nil => exact Nat.le_refl 0
  | cons name names ih =>
      have hcut : (CStr.cut (by decide) name : Name).bytes.length ≤ name.length :=
        (List.length_take_le' _ _).trans (List.takeWhile_prefix _).length_le
      rw [List.map_cons, List.flatten_cons, List.flatten_cons, List.length_append,
        List.length_append]
      exact Nat.add_le_add hcut ih

/-- **The list is the names exactly when there is only a gap behind the first 255 bytes.** -/
theorem DepsLine.parsed_iff (h : DepsLine k names line pad value) :
    (parseDepList (depValue value) maxDeps).map (·.bytes) = names ↔
      ∀ c ∈ (trimLeft value).drop (maxPathLen - 1), isGap c = true := by
  rw [drop_gaps, h.parseDepList_eq, List.map_map]
  let s := trimLeft (trimRight value)
  have hs : words isGap s = names := h.words_trimmed
  constructor
  · -- the characters of the names are all in the part that is read
    intro hp c hc
    have hlen : names.flatten.length ≤ (words isGap (s.take (maxPathLen - 1))).flatten.length := by
      conv_lhs => rw [← hp]
      exact (cut_length_le _).trans (List.take_sublist _ _).flatten.length_le
    rw [← hs, flatten_words, flatten_words] at hlen
    have hsplit : (s.filter (!isGap ·)).length = ((s.take (maxPathLen - 1)).filter (!isGap ·)).length +
        ((s.drop (maxPathLen - 1)).filter (!isGap ·)).length := by
      rw [← List.length_append, ← List.filter_append, List.take_append_drop]
    have hnil : (s.drop (maxPathLen - 1)).filter (!isGap ·) = [] :=
      List.eq_nil_of_length_eq_zero (by omega)
    simpa using List.filter_eq_nil_iff.mp hnil c hc
  · intro hgap
    have htake : words isGap (s.take (maxPathLen - 1)) = names := by
      rw [← words_append_right _ hgap, List.take_append_drop, hs]
    rw [htake, List.take_of_length_le h.length_le]
    conv_rhs => rw [← List.map_id names]
    exact List.map_congr_left fun name hn => (h.name name hn).cut_bytes

theorem ServiceFile.deps_assign (svc : ServiceFile) (k : DepKey) (value : List UInt8) :
    (svc.assign k.key value).deps k = parseDepList value maxDeps := by
  cases k <;> rfl

/-- When the file has been read up to the end of the line, its list holds these names. -/
def Listed (k : DepKey) (names : List (List UInt8)) (text : List UInt8) (svc : ServiceFile) : Prop :=
  ∃ st, configLoop text svc = some st ∧ (st.svc.deps k).map (·.bytes) = names

theorem listed_iff {pre : List UInt8} (h : DepsLine k names line pad value) (hpre : LineStart pre)
    (hst : configLoop pre svc = some st) (hsect : st.sect.string.bytes = ascii "dependencies") :
    Listed k names (pre ++ line) svc ↔ (k.name ++ pad).length < 128 ∧
      ∀ c ∈ (trimLeft value).drop (maxPathLen - 1), isGap c = true := by
  rw [Listed, h.configLoop_eq hpre hst hsect]
  split
  · rename_i hlen
    rw [and_iff_right hlen, ← h.parsed_iff, ← st.svc.deps_assign k]
    constructor
    · rintro ⟨st', hst', hd⟩
      cases hst'
      exact hd
    · exact fun hd => ⟨_, rfl, hd⟩
  · rename_i hlen
    constructor
    · rintro ⟨st', hst', -⟩
      cases hst'
    · exact fun hd => absurd hd.1 hlen

/-- **A list is parsed as it is written exactly when its key fits in 128 bytes and its names end within
the first 255 bytes of the value.** -/
theorem dep_list_parsed_iff {pre : List UInt8} (h : DepsLine k names line pad value)
    (hpre : LineStart pre) (hst : configLoop pre svc = some st)
    (hsect : st.sect.string.bytes = ascii "dependencies") :
    Listed k names (pre ++ line) svc ↔ (k.name ++ pad).length < 128 ∧
      ∀ c ∈ (trimLeft value).drop (maxPathLen - 1), isSpace c = true ∨ isSep c = true := by
  rw [listed_iff h hpre hst hsect]
  simp only [isGap, Bool.or_eq_true]

end

/-! ### Two lists -/

/-- A file whose last section is `[dependencies]`. -/
def depsHeader : List UInt8 := ascii "[dependencies]" ++ [newline]

theorem depsHeader_read : ∃ st, configLoop depsHeader .created = some st ∧
    st.sect.string.bytes = ascii "dependencies" :=
  ⟨⟨(Buf.zero CStr.pos_64).strncpy (ascii "dependencies"), .created⟩, rfl, by decide⟩

/-- A line with a space behind each name. -/
def spacedLine (names : List (List UInt8)) : List UInt8 :=
  ascii "requires=" ++ names.flatMap (· ++ [32])

theorem DepsLine.spaced {names : List (List UInt8)} (hlen : names.length ≤ maxDeps)
    (hword : ∀ name ∈ names, IsWord isSep name) (hname : ∀ name ∈ names, DepName name)
    (hfits : (spacedLine names).length < maxLineLen) :
    DepsLine .requires names (spacedLine names) [] (names.flatMap (· ++ [32])) where
  line_eq := ⟨[], [], by simp [spacedLine, DepKey.name, DepKey.key, ConfigKey.names, ascii],
    by simp [Blank], .inl rfl⟩
  fits := hfits
  blank_pad := by simp [Blank]
  value_eq := ⟨[], names.flatMap (· ++ [32]), [], by simp, by simp [Blank], by simp [Blank],
    SepList.flatMap (c := 32) rfl names hword⟩
  length_le := hlen
  name := hname

/-- A name of 63 characters. -/
def longName : List UInt8 := List.replicate 63 97

theorem longName_word : IsWord isSep longName where
  ne_nil := List.cons_ne_nil _ _
  not_sep := fun _ hc => (List.eq_of_mem_replicate hc) ▸ rfl

theorem longName_name : DepName longName where
  nul_free := fun hm => by cases List.eq_of_mem_replicate hm
  no_space := fun _ hc => (List.eq_of_mem_replicate hc) ▸ rfl
  length_le := Nat.le_refl 63

theorem longNames_line (n : Nat) (hn : n ≤ 15) :
    DepsLine .requires (List.replicate n longName) (spacedLine (List.replicate n longName)) []
      ((List.replicate n longName).flatMap (· ++ [32])) := by
  refine .spaced ?_ (fun name hm => (List.eq_of_mem_replicate hm) ▸ longName_word)
    (fun name hm => (List.eq_of_mem_replicate hm) ▸ longName_name) ?_
  · rw [List.length_replicate]
    exact hn.trans (by decide)
  · have hlong : (longName ++ [(32 : UInt8)]).length = 64 := rfl
    have hkey : (ascii "requires=").length = 9 := rfl
    rw [spacedLine, List.length_append, List.length_flatMap, List.map_replicate, hlong,
      List.sum_replicate, hkey]
    show 9 + n * 64 < 1024
    omega

/-- Of five such names the last is dropped. -/
theorem dep_list_drops :
    DepsLine .requires (List.replicate 5 longName) (spacedLine (List.replicate 5 longName)) []
        ((List.replicate 5 longName).flatMap (· ++ [32])) ∧
      ¬ Listed .requires (List.replicate 5 longName)
        (depsHeader ++ spacedLine (List.replicate 5 longName)) .created := by
  obtain ⟨st, hst, hsect⟩ := depsHeader_read
  have hline := longNames_line 5 (by decide)
  refine ⟨hline, fun h => ?_⟩
  have hgap := ((listed_iff hline (LineStart.line _) hst hsect).mp h).2
  have hmem : 97 ∈ (trimLeft ((List.replicate 5 longName).flatMap (· ++ [32]))).drop
      (maxPathLen - 1) := by decide +kernel
  cases hgap 97 hmem

/-- Four are read to the last character. -/
theorem dep_list_whole :
    Listed .requires (List.replicate 4 longName)
      (depsHeader ++ spacedLine (List.replicate 4 longName)) .created := by
  obtain ⟨st, hst, hsect⟩ := depsHeader_read
  exact (dep_list_parsed_iff (longNames_line 4 (by decide)) (LineStart.line _) hst hsect).mpr
    ⟨by decide, by decide +kernel⟩

end LumiOS.Lumid
