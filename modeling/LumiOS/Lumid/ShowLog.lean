import LumiOS.Support.Text

/-!
# Lumid — ShowLog

`show_log` of `lumictl.c`, which prints the end of a service's log file.

The scan from the end counts newlines, the one that ends the last line with the others, and does not
come to the first byte.  So a log that ends with a newline loses a line (`showLog_iff`).
-/

namespace LumiOS.Lumid

open Support

/-- `util_read_file` on a file's content: the string in the buffer. -/
def utilReadFile (file : Option (List UInt8)) : Option (List UInt8) :=
  match file with
  | none => none
  | some bytes => if 1024 * 1024 < bytes.length then none else some (cstring bytes)

/-- The loop that fills `lines`, with room for some more: how many it counts. -/
def countLines : Nat → List UInt8 → Nat
  | 0, _ => 0
  | _ + 1, [] => 0
  | room + 1, c :: p =>
    match breakAt newline (c :: p) with
    | none => 1
    | some (_, p) => countLines room p + 1

/-- The scan from the end, `p` bytes behind the start of `content`: where it stops, and how many newlines
it has found. -/
def scanBack (content : List UInt8) : Nat → Nat → Nat × Nat
  | 0, found => (0, found)
  | p + 1, found =>
    if found < 50 then scanBack content p (if content[p + 1]? = some newline then found + 1 else found)
    else (p + 1, found)

/-- `show_log` on the content of the log file, and what it prints. -/
def showLog (file : Option (List UInt8)) : Int × List UInt8 :=
  match utilReadFile file with
  | none => (-1, [])
  | some content =>
    if 50 ≤ countLines 50 content then
      let (p, found) := scanBack content (content.length - 1) 0
      let p := if 50 ≤ found then p + 2 else p
      (0, content.drop p)
    else (0, content)

/-- The last `k` lines of a text. -/
def lastLines (k : Nat) (content : List UInt8) : List UInt8 :=
  ((textLines content).drop ((textLines content).length - k)).flatten

section

variable {content s t : List UInt8} {p found k : Nat}

/-! ### The scans -/

theorem countLines_eq (room : Nat) (s : List UInt8) :
    countLines room s = min room (textLines s).length := by
  induction room generalizing s with
  | zero => exact (Nat.zero_min _).symm
  | succ room ih =>
      cases s with
      | nil => rfl
      | cons c s =>
          rw [countLines]
          cases hb : breakAt newline (c :: s) with
          | none =>
              rw [textLines_last (breakAt_eq_none.mp hb)]
              exact (Nat.min_eq_right (Nat.le_add_left 1 room)).symm
          | some halves =>
              obtain ⟨heq, hline⟩ := eq_of_breakAt hb
              rw [heq, textLines_line hline, List.length_cons, Nat.succ_min_succ]
              exact congrArg (· + 1) (ih halves.2)

theorem scanBack_done (h : 50 ≤ found) : scanBack content p found = (p, found) := by
  cases p with
  | zero => rfl
  | succ p => rw [scanBack, if_neg (Nat.not_lt.mpr h)]

/-- The newlines among the bytes that end at one that is looked at. -/
theorem count_window (hp : p + 1 < content.length) {q : Nat} (hq : q ≤ p) :
    ((content.take (p + 2)).drop (q + 1)).count newline =
      ((content.take (p + 1)).drop (q + 1)).count newline +
        if content[p + 1]? = some newline then 1 else 0 := by
  have hlen : q + 1 ≤ (content.take (p + 1)).length := by
    rw [List.length_take]
    omega
  rw [List.take_succ_eq_append_getElem hp, List.drop_append_of_le_length hlen, List.count_append,
    List.count_singleton, List.getElem?_eq_getElem hp]
  simp only [beq_iff_eq, Option.some.injEq]

/-- What the scan has passed, and what it stopped for. -/
theorem scanBack_spec (hp : p < content.length) (hfound : found < 50) {q found' : Nat}
    (h : scanBack content p found = (q, found')) :
    q ≤ p ∧ found' = found + ((content.take (p + 1)).drop (q + 1)).count newline ∧
      (found' < 50 ∧ q = 0 ∨ found' = 50 ∧ content[q + 1]? = some newline) := by
  induction p generalizing found with
  | zero =>
      cases h
      refine ⟨Nat.le_refl _, ?_, .inl ⟨hfound, rfl⟩⟩
      rw [List.drop_of_length_le (List.length_take_le 1 content)]
      rfl
  | succ p ih =>
      rw [scanBack, if_pos hfound] at h
      by_cases hnl : content[p + 1]? = some newline
      · rw [if_pos hnl] at h
        rcases Nat.lt_or_ge (found + 1) 50 with hlt | hge
        · obtain ⟨hq, hcount, hstop⟩ := ih (Nat.lt_of_succ_lt hp) hlt h
          refine ⟨Nat.le_succ_of_le hq, ?_, hstop⟩
          rw [count_window hp hq, if_pos hnl, hcount]
          omega
        · -- the fiftieth
          rw [scanBack_done hge] at h
          cases h
          refine ⟨Nat.le_succ _, ?_, .inr ⟨by omega, hnl⟩⟩
          rw [count_window hp (Nat.le_refl _), if_pos hnl,
            List.drop_of_length_le (List.length_take_le _ content)]
          rfl
      · rw [if_neg hnl] at h
        obtain ⟨hq, hcount, hstop⟩ := ih (Nat.lt_of_succ_lt hp) hfound h
        refine ⟨Nat.le_succ_of_le hq, ?_, hstop⟩
        rw [count_window hp hq, if_neg hnl, hcount]
        rfl

/-! ### The last lines -/

theorem lastLines_all (h : (textLines s).length ≤ k) : lastLines k s = s := by
  rw [lastLines, Nat.sub_eq_zero_of_le h, List.drop_zero, textLines_flatten]

/-- The last lines of two texts are those of the second if it has so many. -/
theorem lastLines_append (hs : LineStart s) (hk : (textLines t).length = k) :
    lastLines k (s ++ t) = t := by
  rw [lastLines, textLines_append hs, List.length_append, hk, Nat.add_sub_cancel,
    List.drop_left, textLines_flatten]

/-- Every line counts: more lines are a longer text. -/
theorem lastLines_length_lt {k' : Nat} (hk : k < k') (h : k < (textLines s).length) :
    (lastLines k s).length < (lastLines k' s).length := by
  simp only [lastLines]
  generalize hl : textLines s = lines at h
  obtain ⟨i, hi⟩ : ∃ i, lines.length - k = i + 1 := ⟨lines.length - k - 1, by omega⟩
  have hlt : i < lines.length := by omega
  have hmem : lines[i] ∈ textLines s := hl ▸ List.getElem_mem hlt
  have hpos : 0 < lines[i].length := List.length_pos_iff.mpr (ne_nil_of_mem_textLines hmem)
  have hdrop : lines.drop (lines.length - k') =
      (lines.drop (lines.length - k')).take (i - (lines.length - k')) ++
        lines[i] :: lines.drop (i + 1) := by
    have hrest : (lines.drop (lines.length - k')).drop (i - (lines.length - k')) =
        lines[i] :: lines.drop (i + 1) := by
      rw [List.drop_drop, List.getElem_cons_drop]
      congr 1
      omega
    rw [← hrest, List.take_append_drop]
  rw [hi, hdrop, List.flatten_append, List.flatten_cons, List.length_append, List.length_append]
  omega

/-! ### What is printed -/

/-- A byte that ends a line ends a beginning of the text. -/
theorem lineStart_take (h : content[p]? = some newline) : LineStart (content.take (p + 1)) := by
  rw [List.take_add_one, h]
  exact LineStart.line _

/-- Newlines of a text, by its first byte. -/
theorem count_eq (content : List UInt8) : content.count newline =
    (content.drop 1).count newline + if content.head? = some newline then 1 else 0 := by
  cases content with
  | nil => rfl
  | cons c s => simp [List.count_cons]

theorem lineStart_append (h : t ≠ []) : LineStart (s ++ t) ↔ LineStart t := by
  refine ⟨LineStart.suffix, fun ht c hc => ht c ?_⟩
  rwa [List.getLast?_append_of_ne_nil _ h] at hc

/-- The exact cases in which the end of a log is found. -/
def Found (content : List UInt8) : Prop :=
  if LineStart content then
    (textLines content).length < 50 ∨ (textLines content).length = 50 ∧ content.head? = some newline
  else ¬ ((textLines content).length = 51 ∧ content.head? = some newline)

/-- The scan has come to the start: everything is printed. -/
theorem found_of_start (hN : 50 ≤ (textLines content).length)
    (hcount : (content.drop 1).count newline < 50) : lastLines 50 content = content ↔ Found content := by
  have hlines := textLines_length content
  have hall : lastLines 50 content = content ↔ (textLines content).length ≤ 50 := by
    refine ⟨fun h => ?_, lastLines_all⟩
    by_contra hmore
    have hlt := lastLines_length_lt (Nat.not_le.mp hmore) (Nat.not_le.mp hmore)
    rw [h, lastLines_all (Nat.le_refl _)] at hlt
    exact lt_irrefl _ hlt
  rw [count_eq] at hlines
  rw [hall, Found]
  by_cases hend : LineStart content <;> by_cases hhead : content.head? = some newline
  all_goals
    simp only [hend, hhead, if_true, if_false, and_true, and_false, or_false, not_false_eq_true,
      iff_true] at hlines ⊢
    omega

/-- The scan has stopped in front of the fiftieth newline: what is behind it is printed. -/
theorem found_of_newline {q : Nat} (hN : 50 ≤ (textLines content).length)
    (hq : content[q + 1]? = some newline) (hcount : (content.drop (q + 1)).count newline = 50) :
    lastLines 50 content = content.drop (q + 2) ↔ Found content := by
  obtain ⟨hlt, hget⟩ := List.getElem?_eq_some_iff.mp hq
  have hsplit : content.take (q + 2) ++ content.drop (q + 2) = content := List.take_append_drop _ _
  have hbehind : (content.drop (q + 2)).count newline = 49 := by
    rw [← List.getElem_cons_drop hlt, hget, List.count_cons_self] at hcount
    exact Nat.succ.inj hcount
  have hne : content.drop (q + 2) ≠ [] := fun h => by
    rw [h] at hbehind
    cases hbehind
  have hend : LineStart content ↔ LineStart (content.drop (q + 2)) := by
    conv_lhs => rw [← hsplit]
    exact lineStart_append hne
  have hmore : 50 ≤ (content.drop 1).count newline := by
    have hsub : content.drop (q + 1) = (content.drop 1).drop q := by
      rw [List.drop_drop, Nat.add_comm 1 q]
    rw [← hcount, hsub]
    exact (List.drop_sublist q _).count_le newline
  have hlines := textLines_length content
  have hlast := textLines_length (content.drop (q + 2))
  have happ {k : Nat} := lastLines_append (k := k) (t := content.drop (q + 2)) (lineStart_take hq)
  rw [hsplit] at happ
  rw [count_eq] at hlines
  rw [hbehind] at hlast
  by_cases h : LineStart content
  · rw [if_pos (hend.mp h)] at hlast
    rw [if_pos h] at hlines
    refine iff_of_false (fun heq => ?_) fun hfound => ?_
    · have hshort := lastLines_length_lt (show 49 < 50 by decide) hN
      rw [heq, happ hlast] at hshort
      exact lt_irrefl _ hshort
    · rw [Found, if_pos h] at hfound
      rcases hfound with hfew | ⟨hN', hhead⟩
      · omega
      · rw [if_pos hhead] at hlines
        omega
  · rw [if_neg fun h' => h (hend.mpr h')] at hlast
    rw [if_neg h] at hlines
    refine iff_of_true (happ hlast) ?_
    rw [Found, if_neg h]
    rintro ⟨hN', hhead⟩
    rw [if_pos hhead] at hlines
    omega

/-- **The end of a log is printed** exactly when it has fewer than 50 lines, or the last of them has no
newline, with an exception for each where the first line is empty. -/
theorem showLog_iff (content : List UInt8) (hsize : content.length ≤ 1024 * 1024) (hnul : 0 ∉ content) :
    showLog (some content) = (0, lastLines (min 50 (textLines content).length) content) ↔
      Found content := by
  have hread : utilReadFile (some content) = some content := by
    rw [utilReadFile, if_neg (Nat.not_lt.mpr hsize), cstring_of_not_mem hnul]
  rw [showLog, hread]
  simp only [countLines_eq, Nat.le_min, Nat.le_refl, true_and]
  by_cases hN : 50 ≤ (textLines content).length
  · have hne : content ≠ [] := fun h => by
      rw [h] at hN
      cases hN
    have hpos := List.length_pos_iff.mpr hne
    rw [if_pos hN, Nat.min_eq_left hN]
    cases hscan : scanBack content (content.length - 1) 0 with
    | mk q found =>
        obtain ⟨hq, hcount, hstop⟩ := scanBack_spec (Nat.sub_lt hpos Nat.one_pos) (by decide) hscan
        rw [Nat.sub_add_cancel hpos, List.take_length, Nat.zero_add] at hcount
        simp only [Prod.mk.injEq, true_and]
        rcases hstop with ⟨hfew, rfl⟩ | ⟨rfl, hnl⟩
        · rw [if_neg (Nat.not_le.mpr hfew), List.drop_zero, eq_comm]
          exact found_of_start hN (hcount ▸ hfew)
        · rw [if_pos (Nat.le_refl 50), eq_comm]
          exact found_of_newline hN hnl hcount.symm
  · have hfew := Nat.not_le.mp hN
    rw [if_neg hN, Nat.min_eq_right hfew.le, lastLines_all (Nat.le_refl _)]
    refine iff_of_true rfl ?_
    rw [Found]
    split
    · exact .inl hfew
    · omega

end

/-- A log of sixty lines that was cut off in the last of them. -/
def cutLog : List UInt8 := unlines (List.replicate 59 (ascii "a")) ++ ascii "b"

theorem showLog_iff_cutLog :
    showLog (some cutLog) = (0, lastLines (min 50 (textLines cutLog).length) cutLog) ∧
      min 50 (textLines cutLog).length = 50 :=
  ⟨(showLog_iff cutLog (by decide +kernel) (by decide +kernel)).mpr (by rw [Found]; decide +kernel),
    by decide +kernel⟩

/-- Of fifty lines forty-nine are printed. -/
theorem showLog_drops_line :
    ¬ ∀ content : List UInt8, content.length ≤ 1024 * 1024 → 0 ∉ content →
      showLog (some content) = (0, lastLines (min 50 (textLines content).length) content) := by
  intro h
  have hlog := h (unlines (List.replicate 50 (ascii "a"))) (by decide +kernel) (by decide +kernel)
  exact absurd hlog (by decide +kernel)

end LumiOS.Lumid
