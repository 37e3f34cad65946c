import Mathlib.Data.List.DropRight
import LumiOS.Support.CStr

/-!
# Support — Text

What a program in C does to a text it reads line by line: `fgets` into a buffer, `strchr`, `strtok`,
trimming, and `strncpy` into an array.  A text is a list of bytes.

A line longer than the buffer comes in several pieces (`pieces`).  A text that ends at a line's end is
read as if what follows it were a text of its own (`pieces_append`), so a line that fits is one piece
(`pieces_lines`).
-/

namespace Support

def newline : UInt8 := 10

/-- `isspace`. -/
def isSpace (c : UInt8) : Bool := c = 32 ∨ 9 ≤ c ∧ c ≤ 13

/-- The string at the start of an array. -/
def cstring (s : List UInt8) : List UInt8 := s.takeWhile (· ≠ 0)

def trimLeft (s : List UInt8) : List UInt8 := s.dropWhile isSpace

def trimRight (s : List UInt8) : List UInt8 := s.rdropWhile isSpace

def trim (s : List UInt8) : List UInt8 := trimRight (trimLeft s)

theorem cstring_cstring (s : List UInt8) : cstring (cstring s) = cstring s := by
  rw [cstring, cstring, List.takeWhile_takeWhile]
  congr 1
  funext c
  simp

theorem cstring_of_not_mem {s : List UInt8} (h : 0 ∉ s) : cstring s = s :=
  List.takeWhile_eq_self_iff.mpr fun c hc => by
    simpa using ne_of_mem_of_not_mem hc h

/-- What stands in front of a character. -/
theorem takeWhile_ne_append {c : UInt8} {pre : List UInt8} (h : c ∉ pre) (post : List UInt8) :
    (pre ++ c :: post).takeWhile (· ≠ c) = pre := by
  rw [List.takeWhile_append_of_pos fun d hd => by simpa using ne_of_mem_of_not_mem hd h,
    List.takeWhile_cons_of_neg (by simp), List.append_nil]

/-- A string goes on where an array without NUL ends. -/
theorem cstring_append {s : List UInt8} (h : 0 ∉ s) (t : List UInt8) :
    cstring (s ++ t) = s ++ cstring t :=
  List.takeWhile_append_of_pos fun c hc => by simpa using ne_of_mem_of_not_mem hc h

theorem cstring_append_nul {s : List UInt8} (h : 0 ∉ s) (t : List UInt8) :
    cstring (s ++ 0 :: t) = s := takeWhile_ne_append h t

/-- What stands behind a NUL does not matter. -/
theorem cstring_append_of_mem {s : List UInt8} (h : 0 ∈ s) (t : List UInt8) :
    cstring (s ++ t) = cstring s := by
  obtain ⟨pre, post, rfl, hpre⟩ := List.eq_append_cons_of_mem h
  rw [List.append_assoc, List.cons_append, cstring_append_nul hpre, cstring_append_nul hpre]

theorem cstring_length_lt_iff {s : List UInt8} : (cstring s).length < s.length ↔ 0 ∈ s := by
  by_cases h : 0 ∈ s
  · obtain ⟨pre, post, rfl, hpre⟩ := List.eq_append_cons_of_mem h
    rw [cstring_append_nul hpre, List.length_append, List.length_cons]
    exact iff_of_true (Nat.lt_add_of_pos_right (Nat.succ_pos _)) h
  · rw [cstring_of_not_mem h]
    exact iff_of_false (lt_irrefl _) h

theorem cstring_begins (s : List UInt8) : cstring s <+: s := List.takeWhile_prefix _

theorem nul_not_mem_cstring (s : List UInt8) : 0 ∉ cstring s := fun h => by
  simpa using List.mem_takeWhile_imp h

theorem trimRight_concat {c : UInt8} (s : List UInt8) (h : isSpace c = true) :
    trimRight (s ++ [c]) = trimRight s := List.rdropWhile_concat_pos _ _ c h

theorem trim_concat {c : UInt8} (s : List UInt8) (h : isSpace c = true) :
    trim (s ++ [c]) = trim s := by
  simp only [trim, trimLeft, List.dropWhile_append]
  split
  · rename_i he
    rw [List.isEmpty_iff] at he
    simp [he, h]
  · exact trimRight_concat _ h

/-- A text keeps its first byte if that is no blank. -/
theorem head?_trim {c : UInt8} (h : isSpace c = false) (s : List UInt8) :
    (trim (c :: s)).head? = some c := by
  have hl : trimLeft (c :: s) = c :: s := List.dropWhile_cons_of_neg (by simp [h])
  obtain ⟨t, ht⟩ : trimRight (c :: s) <+: c :: s := List.rdropWhile_prefix _ _
  rw [trim, hl]
  cases hr : trimRight (c :: s) with
  | nil =>
      have hall := List.rdropWhile_eq_nil_iff.mp hr c List.mem_cons_self
      rw [h] at hall
      cases hall
  | cons d r =>
      rw [hr, List.cons_append] at ht
      rw [(List.cons.inj ht).1]
      rfl

/-- White space at the end does not matter. -/
theorem trimRight_append (s : List UInt8) {t : List UInt8} (h : ∀ c ∈ t, isSpace c = true) :
    trimRight (s ++ t) = trimRight s := by
  rw [trimRight, trimRight, List.rdropWhile, List.rdropWhile, List.reverse_append,
    List.dropWhile_append_of_pos fun c hc => h c (List.mem_reverse.mp hc)]

/-- Nothing is cut before a character that is not white space. -/
theorem trimRight_append_cons {c : UInt8} (hc : isSpace c = false) (s t : List UInt8) :
    trimRight (s ++ c :: t) = s ++ c :: trimRight t := by
  rw [trimRight, trimRight, List.rdropWhile, List.rdropWhile, List.reverse_append,
    List.reverse_cons, List.append_assoc, List.dropWhile_append]
  split
  · rename_i he
    rw [List.isEmpty_iff.mp he]
    simp [hc]
  · simp

theorem exists_trimRight (s : List UInt8) :
    ∃ t, s = trimRight s ++ t ∧ ∀ c ∈ t, isSpace c = true :=
  ⟨s.rtakeWhile isSpace, List.rdropWhile_append_rtakeWhile.symm,
    fun _ hc => List.mem_rtakeWhile_imp hc⟩

theorem exists_trimLeft (s : List UInt8) :
    ∃ t, s = t ++ trimLeft s ∧ ∀ c ∈ t, isSpace c = true :=
  ⟨s.takeWhile isSpace, List.takeWhile_append_dropWhile.symm, fun _ hc => List.mem_takeWhile_imp hc⟩

theorem trimLeft_append {s : List UInt8} (h : ∀ c ∈ s, isSpace c = true) (t : List UInt8) :
    trimLeft (s ++ t) = trimLeft t := List.dropWhile_append_of_pos h

theorem trimLeft_cons {c : UInt8} (hc : isSpace c = false) (s : List UInt8) :
    trimLeft (c :: s) = c :: s := List.dropWhile_cons_of_neg (by simp [hc])

/-- What is cut at the right end is cut before or after the left end. -/
theorem trimLeft_eq_append (s : List UInt8) :
    ∃ t, trimLeft s = trimLeft (trimRight s) ++ t ∧ ∀ c ∈ t, isSpace c = true := by
  obtain ⟨t, hs, ht⟩ := exists_trimRight s
  have h : trimLeft s = if (trimLeft (trimRight s)).isEmpty then trimLeft t
      else trimLeft (trimRight s) ++ t := by
    conv_lhs => rw [hs]
    exact List.dropWhile_append
  split at h
  · rename_i he
    refine ⟨[], ?_, fun c hc => by cases hc⟩
    rw [h, List.isEmpty_iff.mp he]
    exact List.dropWhile_eq_nil_iff.mpr ht
  · exact ⟨t, h, ht⟩

/-- White space only. -/
def AllSpace (s : List UInt8) : Prop := ∀ c ∈ s, isSpace c = true

instance (s : List UInt8) : Decidable (AllSpace s) := inferInstanceAs (Decidable (∀ c ∈ s, _))

/-- No white space at either end. -/
def Trimmed (s : List UInt8) : Prop :=
  (∀ c ∈ s.head?, isSpace c = false) ∧ ∀ c ∈ s.getLast?, isSpace c = false

instance (s : List UInt8) : Decidable (Trimmed s) := inferInstanceAs (Decidable (_ ∧ _))

theorem Trimmed.trimRight_eq {s : List UInt8} (h : Trimmed s) : trimRight s = s := by
  rcases List.eq_nil_or_concat s with rfl | ⟨t, c, rfl⟩
  · rfl
  · rw [List.concat_eq_append] at h ⊢
    exact List.rdropWhile_concat_neg _ _ _ (by simp [h.2 c List.getLast?_concat])

/-- White space in front of a text is cut; of the white space behind it there is at most some left. -/
theorem Trimmed.trimLeft_padded {a s b : List UInt8} (h : Trimmed s) (ha : AllSpace a) (hb : AllSpace b) :
    ∃ b', trimLeft (a ++ s ++ b) = s ++ b' ∧ AllSpace b' := by
  rw [List.append_assoc, trimLeft_append ha]
  cases s with
  | nil => exact ⟨[], List.dropWhile_eq_nil_iff.mpr hb, fun c hc => by cases hc⟩
  | cons c s => exact ⟨b, trimLeft_cons (h.1 c rfl) _, hb⟩

/-- White space around a text is cut. -/
theorem Trimmed.trim_padded {a s b : List UInt8} (h : Trimmed s) (ha : AllSpace a) (hb : AllSpace b) :
    trim (a ++ s ++ b) = s := by
  obtain ⟨b', hleft, hb'⟩ := h.trimLeft_padded ha hb
  rw [trim, hleft, trimRight_append s hb', h.trimRight_eq]

/-! ### Splitting -/

/-- `strchr`: what stands before the first `c` and what stands after it. -/
def breakAt (c : UInt8) (s : List UInt8) : Option (List UInt8 × List UInt8) :=
  if c ∈ s then some (s.takeWhile (· ≠ c), (s.dropWhile (· ≠ c)).tail) else none

theorem breakAt_eq_none {c : UInt8} {s : List UInt8} : breakAt c s = none ↔ c ∉ s := by
  simp [breakAt]

theorem breakAt_append {c : UInt8} {pre : List UInt8} (post : List UInt8) (h : c ∉ pre) :
    breakAt c (pre ++ c :: post) = some (pre, post) := by
  have hp : ∀ d ∈ pre, decide (d ≠ c) = true := fun d hd => by
    simpa using ne_of_mem_of_not_mem hd h
  rw [breakAt, if_pos (by simp), takeWhile_ne_append h, List.dropWhile_append_of_pos hp]
  simp

theorem eq_of_breakAt {c : UInt8} {s pre post : List UInt8} (h : breakAt c s = some (pre, post)) :
    s = pre ++ c :: post ∧ c ∉ pre := by
  by_cases hc : c ∈ s
  · obtain ⟨pre', post', rfl, hpre⟩ := List.eq_append_cons_of_mem hc
    rw [breakAt_append post' hpre] at h
    cases h
    exact ⟨rfl, hpre⟩
  · rw [breakAt_eq_none.mpr hc] at h
    cases h

/-- `strtok` with these delimiters, called until it finds no more. -/
def tokens (delims s : List UInt8) : List (List UInt8) :=
  (s.splitOnP (delims.contains ·)).filter (· ≠ [])

/-! ### Reading lines -/

/-- `fgets` into a buffer of `n + 1` bytes: what it reads, and what is left of the stream. -/
def fgets : Nat → List UInt8 → List UInt8 × List UInt8
  | 0, s => ([], s)
  | _ + 1, [] => ([], [])
  | n + 1, c :: s =>
    if c = newline then ([c], s)
    else
      let (piece, rest) := fgets n s
      (c :: piece, rest)

/-- `fgets` into a buffer of `n + 1` bytes until the stream is at its end, at most `fuel` times. -/
def fgetsLoop (n : Nat) : Nat → List UInt8 → List (List UInt8)
  | 0, _ => []
  | _ + 1, [] => []
  | fuel + 1, c :: s => (fgets n (c :: s)).1 :: fgetsLoop n fuel (fgets n (c :: s)).2

/-- The pieces in which a text comes through a buffer of `n + 1` bytes. -/
def pieces (n : Nat) (s : List UInt8) : List (List UInt8) := fgetsLoop n s.length s

section

variable {n : Nat} {c : UInt8} {s t l : List UInt8}

theorem fgets_append (n : Nat) (s : List UInt8) : (fgets n s).1 ++ (fgets n s).2 = s := by
  induction n generalizing s with
  | zero => rfl
  | succ n ih =>
      cases s with
      | nil => rfl
      | cons c s =>
          simp only [fgets]
          split
          · rfl
          · exact congrArg (c :: ·) (ih s)

theorem fgets_length_le (n : Nat) (s : List UInt8) : (fgets n s).2.length ≤ s.length := by
  conv_rhs => rw [← fgets_append n s, List.length_append]
  exact Nat.le_add_left _ _

/-- What is left is shorter, so that as many calls as the stream has bytes are enough. -/
theorem fgets_cons_length_le (n : Nat) (c : UInt8) (s : List UInt8) :
    (fgets (n + 1) (c :: s)).2.length ≤ s.length := by
  simp only [fgets]
  split
  · exact Nat.le_refl _
  · exact fgets_length_le n s

theorem fgetsLoop_eq (n : Nat) : ∀ (fuel : Nat) (s : List UInt8), s.length ≤ fuel →
    fgetsLoop (n + 1) fuel s = pieces (n + 1) s := by
  intro fuel
  induction fuel using Nat.strong_induction_on with
  | _ fuel ih =>
      intro s hs
      cases s with
      | nil => cases fuel <;> rfl
      | cons c s =>
          cases fuel with
          | zero => cases hs
          | succ fuel =>
              have hlen := fgets_cons_length_le n c s
              have hs : s.length ≤ fuel := Nat.le_of_succ_le_succ hs
              simp only [pieces, List.length_cons, fgetsLoop]
              rw [ih fuel (Nat.lt_succ_self _) _ (hlen.trans hs)]
              rcases Nat.lt_or_ge s.length (fuel + 1) with hlt | hge
              · rw [ih s.length hlt _ hlen]
              · exact absurd hs (Nat.not_le.mpr hge)

theorem pieces_nil (n : Nat) : pieces n [] = [] := rfl

theorem pieces_cons (n : Nat) (c : UInt8) (s : List UInt8) : pieces (n + 1) (c :: s) =
    (fgets (n + 1) (c :: s)).1 :: pieces (n + 1) (fgets (n + 1) (c :: s)).2 := by
  rw [pieces, List.length_cons, fgetsLoop, fgetsLoop_eq n _ _ (fgets_cons_length_le n c s)]

/-- A line that fits is read whole. -/
theorem fgets_line (hl : newline ∉ l) (hlen : l.length < n) (s : List UInt8) :
    fgets n (l ++ newline :: s) = (l ++ [newline], s) := by
  induction l generalizing n with
  | nil =>
      cases n with
      | zero => cases hlen
      | succ n => simp [fgets]
  | cons c l ih =>
      cases n with
      | zero => cases hlen
      | succ n =>
          rw [List.mem_cons, not_or] at hl
          simp only [List.cons_append, fgets, if_neg (Ne.symm hl.1),
            ih hl.2 (Nat.lt_of_succ_lt_succ hlen)]

/-- The last line may end with the text. -/
theorem fgets_last (hl : newline ∉ l) (hlen : l.length ≤ n) : fgets n l = (l, []) := by
  induction l generalizing n with
  | nil => cases n <;> rfl
  | cons c l ih =>
      cases n with
      | zero => cases hlen
      | succ n =>
          rw [List.mem_cons, not_or] at hl
          simp only [fgets, if_neg (Ne.symm hl.1), ih hl.2 (Nat.le_of_succ_le_succ hlen)]

/-- A line that does not fit is cut. -/
theorem fgets_long (hl : newline ∉ l) (s : List UInt8) : fgets l.length (l ++ s) = (l, s) := by
  induction l with
  | nil => rfl
  | cons c l ih =>
      rw [List.mem_cons, not_or] at hl
      simp only [List.length_cons, List.cons_append, fgets, if_neg (Ne.symm hl.1), ih hl.2]

/-- A call does not read past a newline. -/
theorem fgets_append_of_mem (hs : newline ∈ s) (t : List UInt8) :
    fgets n (s ++ t) = ((fgets n s).1, (fgets n s).2 ++ t) := by
  induction s generalizing n with
  | nil => cases hs
  | cons c s ih =>
      cases n with
      | zero => rfl
      | succ n =>
          simp only [List.cons_append, fgets]
          split
          · rfl
          · rename_i hc
            rw [ih ((List.mem_cons.mp hs).resolve_left (Ne.symm hc))]

end

/-! ### Texts that end at the end of a line -/

/-- A text after which a line starts. -/
def LineStart (s : List UInt8) : Prop := ∀ c ∈ s.getLast?, c = newline

instance (s : List UInt8) : Decidable (LineStart s) :=
  inferInstanceAs (Decidable (∀ c ∈ s.getLast?, c = newline))

theorem LineStart.nil : LineStart [] := by
  intro c hc
  cases hc

theorem LineStart.line (l : List UInt8) : LineStart (l ++ [newline]) := by
  intro c hc
  simpa using hc.symm

theorem LineStart.suffix {s t : List UInt8} (h : LineStart (s ++ t)) : LineStart t := by
  intro c hc
  refine h c ?_
  rw [List.getLast?_append, Option.mem_def.mp hc]
  rfl

theorem LineStart.mem {c : UInt8} {s : List UInt8} (h : LineStart (c :: s)) :
    newline ∈ c :: s := by
  have hl := List.getLast?_eq_some_getLast (List.cons_ne_nil c s)
  rw [← h _ hl]
  exact List.getLast_mem _

theorem LineStart.cons_iff {c : UInt8} {s : List UInt8} :
    LineStart (c :: s) ↔ if s = [] then c = newline else LineStart s := by
  cases s with
  | nil => simp [LineStart]
  | cons d s => simp [LineStart]

/-! ### The lines of a text -/

/-- The lines of a text, each with the newline that ends it; the last may have none. -/
def textLines : List UInt8 → List (List UInt8)
  | [] => []
  | c :: s =>
    if c = newline then [c] :: textLines s
    else
      match textLines s with
      | [] => [[c]]
      | l :: lines => (c :: l) :: lines

theorem textLines_flatten (s : List UInt8) : (textLines s).flatten = s := by
  induction s with
  | nil => rfl
  | cons c s ih =>
      rw [textLines]
      split
      · rw [List.flatten_cons, ih]
        rfl
      · split
        · rename_i h
          rw [h] at ih
          rw [← ih]
          rfl
        · rename_i l lines h
          rw [h, List.flatten_cons] at ih
          rw [List.flatten_cons, List.cons_append, ih]

theorem textLines_eq_nil {s : List UInt8} : textLines s = [] ↔ s = [] := by
  refine ⟨fun h => ?_, fun h => h ▸ rfl⟩
  rw [← textLines_flatten s, h]
  rfl

/-- Every line has a character. -/
theorem ne_nil_of_mem_textLines {s l : List UInt8} (h : l ∈ textLines s) : l ≠ [] := by
  induction s generalizing l with
  | nil => cases h
  | cons c s ih =>
      rw [textLines] at h
      split at h
      · rcases List.mem_cons.mp h with rfl | h
        · exact List.cons_ne_nil _ _
        · exact ih h
      · split at h
        · rw [List.mem_singleton.mp h]
          exact List.cons_ne_nil _ _
        · rename_i l' lines hl
          rw [hl] at ih
          rcases List.mem_cons.mp h with rfl | h
          · exact List.cons_ne_nil _ _
          · exact ih (List.mem_cons_of_mem _ h)

/-- Each line has one newline, but a last one without it. -/
theorem textLines_length (s : List UInt8) :
    (textLines s).length = s.count newline + if LineStart s then 0 else 1 := by
  induction s with
  | nil => simp [textLines, LineStart.nil]
  | cons c s ih =>
      rw [textLines]
      by_cases hc : c = newline
      · have hstart : LineStart (c :: s) ↔ LineStart s := by
          rw [LineStart.cons_iff]
          split
          · rename_i hs
            rw [hs]
            exact iff_of_true hc LineStart.nil
          · rfl
        rw [if_pos hc, List.length_cons, ih, hc, List.count_cons_self]
        subst hc
        simp only [hstart]
        omega
      · rw [if_neg hc, List.count_cons_of_ne hc]
        cases hl : textLines s with
        | nil =>
            obtain rfl := textLines_eq_nil.mp hl
            rw [if_neg fun h => hc (by simpa using LineStart.cons_iff.mp h)]
            rfl
        | cons l lines =>
            have hs : s ≠ [] := fun h => by
              rw [h] at hl
              cases hl
            have hstart : LineStart (c :: s) ↔ LineStart s := by rw [LineStart.cons_iff, if_neg hs]
            rw [hl] at ih
            simp only [hstart]
            exact ih

/-- The lines of a text at a line's start are lines of their own. -/
theorem textLines_append {s : List UInt8} (h : LineStart s) (t : List UInt8) :
    textLines (s ++ t) = textLines s ++ textLines t := by
  induction s with
  | nil => rfl
  | cons c s ih =>
      rw [LineStart.cons_iff] at h
      rw [List.cons_append, textLines, textLines]
      split at h
      · rename_i hs
        rw [if_pos h, if_pos h, hs]
        rfl
      · rename_i hs
        rw [ih h]
        split
        · rfl
        · cases hl : textLines s with
          | nil => exact absurd (textLines_eq_nil.mp hl) hs
          | cons l lines => rfl

theorem textLines_line {l : List UInt8} (h : newline ∉ l) (t : List UInt8) :
    textLines (l ++ newline :: t) = (l ++ [newline]) :: textLines t := by
  induction l with
  | nil => rw [List.nil_append, textLines, if_pos rfl, List.nil_append]
  | cons c l ih =>
      rw [List.mem_cons, not_or] at h
      rw [List.cons_append, textLines, if_neg (Ne.symm h.1), ih h.2]
      rfl

theorem textLines_last {c : UInt8} {l : List UInt8} (h : newline ∉ c :: l) :
    textLines (c :: l) = [c :: l] := by
  induction l generalizing c with
  | nil => rw [textLines, if_neg fun hc => h (by simp [hc])]; rfl
  | cons d l ih =>
      rw [List.mem_cons, not_or] at h
      rw [textLines, if_neg (Ne.symm h.1), ih h.2]

/-- **Reading on at a line's start.**  What follows is read as a text of its own. -/
theorem pieces_append {n : Nat} {s : List UInt8} (h : LineStart s) (t : List UInt8) :
    pieces (n + 1) (s ++ t) = pieces (n + 1) s ++ pieces (n + 1) t := by
  induction hlen : s.length using Nat.strong_induction_on generalizing s with
  | _ k ih =>
      cases s with
      | nil => rfl
      | cons c s =>
          have hrest : LineStart (fgets (n + 1) (c :: s)).2 :=
            LineStart.suffix (s := (fgets (n + 1) (c :: s)).1) (by rwa [fgets_append])
          have hlt : (fgets (n + 1) (c :: s)).2.length < k :=
            hlen ▸ Nat.lt_succ_of_le (fgets_cons_length_le n c s)
          rw [List.cons_append, pieces_cons, ← List.cons_append, fgets_append_of_mem h.mem,
            pieces_cons]
          exact congrArg (_ :: ·) (ih _ hlt hrest rfl)

/-- A line that does not fit goes on in the next piece. -/
theorem pieces_long {c : UInt8} {l : List UInt8} (hl : newline ∉ c :: l) (s : List UInt8) :
    pieces (c :: l).length (c :: l ++ s) = (c :: l) :: pieces (c :: l).length s := by
  have hf := fgets_long hl s
  rw [List.length_cons] at hf ⊢
  rw [List.cons_append] at hf ⊢
  rw [pieces_cons, hf]

/-- A line taken out of a text. -/
theorem pieces_insert {n : Nat} {pre line : List UInt8} (hpre : LineStart pre)
    (hline : LineStart line) (post : List UInt8) :
    pieces (n + 1) (pre ++ line ++ post) =
      pieces (n + 1) pre ++ pieces (n + 1) line ++ pieces (n + 1) post := by
  rw [List.append_assoc, pieces_append hpre, pieces_append hline, List.append_assoc]

theorem pieces_line {n : Nat} {l : List UInt8} (hl : newline ∉ l) (hlen : l.length ≤ n) :
    pieces (n + 1) (l ++ [newline]) = [l ++ [newline]] := by
  have hf := fgets_line hl (Nat.lt_succ_of_le hlen) []
  cases l with
  | nil => rfl
  | cons c l =>
      rw [List.cons_append] at hf ⊢
      rw [pieces_cons, hf]
      rfl

/-- The text of these lines. -/
def unlines (lines : List (List UInt8)) : List UInt8 := lines.flatMap (· ++ [newline])

theorem unlines_cons (l : List UInt8) (lines : List (List UInt8)) :
    unlines (l :: lines) = l ++ [newline] ++ unlines lines := List.flatMap_cons

theorem LineStart.unlines : ∀ lines : List (List UInt8), LineStart (unlines lines)
  | [] => LineStart.nil
  | l :: lines => by
      intro c hc
      rw [unlines_cons, List.getLast?_append] at hc
      cases h : (Support.unlines lines).getLast? with
      | none => exact LineStart.line l c (by simpa [h] using hc)
      | some d => exact LineStart.unlines lines c (by simpa [h] using hc)

/-- **Lines that fit are read line by line.** -/
theorem pieces_unlines {n : Nat} (lines : List (List UInt8))
    (h : ∀ l ∈ lines, newline ∉ l ∧ l.length ≤ n) :
    pieces (n + 1) (unlines lines) = lines.map (· ++ [newline]) := by
  induction lines with
  | nil => rfl
  | cons l lines ih =>
      have hl := h l List.mem_cons_self
      rw [unlines_cons, pieces_append (LineStart.line l), pieces_line hl.1 hl.2,
        ih fun m hm => h m (List.mem_cons_of_mem l hm)]
      rfl

/-- What stands after the last newline. -/
theorem pieces_last {n : Nat} {l : List UInt8} (hl : newline ∉ l) (hlen : l.length ≤ n + 1) :
    pieces (n + 1) l = if l = [] then [] else [l] := by
  cases l with
  | nil => rfl
  | cons c l => rw [pieces_cons, fgets_last hl hlen, if_neg (List.cons_ne_nil c l)]; rfl

/-- **A text of lines, cut at its end.**  Each piece is the beginning of a line, or a whole line and its
newline. -/
theorem pieces_take_unlines {n : Nat} {lines : List (List UInt8)}
    (h : ∀ l ∈ lines, newline ∉ l ∧ l.length ≤ n) (k : Nat) {piece : List UInt8}
    (hp : piece ∈ pieces (n + 1) ((unlines lines).take k)) :
    ∃ l ∈ lines, ∃ j, ∃ eol ∈ [[], [newline]], piece = l.take j ++ eol := by
  induction lines generalizing k with
  | nil =>
      rw [unlines, List.flatMap_nil, List.take_nil] at hp
      cases hp
  | cons l lines ih =>
      obtain ⟨hl, hlen⟩ := h l List.mem_cons_self
      rw [unlines_cons] at hp
      rcases Nat.lt_or_ge k (l ++ [newline]).length with hk | hk
      · -- the cut is in the first line, and takes its newline
        have hk' : k ≤ l.length := by
          rw [List.length_append, List.length_singleton] at hk
          exact Nat.le_of_lt_succ hk
        have htake : (l ++ [newline] ++ unlines lines).take k = l.take k := by
          rw [List.take_append_of_le_length hk.le, List.take_append_of_le_length hk']
        have hnot : newline ∉ l.take k := fun hm => hl (List.mem_of_mem_take hm)
        have hle : (l.take k).length ≤ n + 1 :=
          (List.length_take_le' _ _).trans (hlen.trans (Nat.le_succ n))
        rw [htake, pieces_last hnot hle] at hp
        split at hp
        · cases hp
        · rw [List.mem_singleton.mp hp]
          exact ⟨l, List.mem_cons_self, k, [], List.mem_cons_self, (List.append_nil _).symm⟩
      · rw [List.take_append, List.take_of_length_le hk, pieces_append (LineStart.line l),
          pieces_line hl hlen] at hp
        rcases List.mem_cons.mp hp with rfl | hp
        · refine ⟨l, List.mem_cons_self, l.length, [newline], by simp, ?_⟩
          rw [List.take_length]
        · obtain ⟨m, hm, hrest⟩ := ih (fun m hm => h m (.tail _ hm)) _ hp
          exact ⟨m, .tail _ hm, hrest⟩

/-! ### Searching and formatting -/

/-- `strstr`: the text from the first occurrence of `needle` on. -/
def strstr (needle : List UInt8) : List UInt8 → Option (List UInt8)
  | [] => if needle = [] then some [] else none
  | c :: s => if needle.isPrefixOf (c :: s) then some (c :: s) else strstr needle s

theorem strstr_isSome {needle : List UInt8} : ∀ {s : List UInt8}, (strstr needle s).isSome ↔ needle <:+: s
  | [] => by
      rw [strstr, List.infix_nil]
      split
      · rename_i h
        simp [h]
      · rename_i h
        simp [h]
  | c :: s => by
      rw [strstr, List.infix_cons_iff, ← List.isPrefixOf_iff_prefix]
      split
      · rename_i h
        simp [h]
      · rename_i h
        rw [strstr_isSome, or_iff_right h]

theorem strstr_eq_none {needle s : List UInt8} : strstr needle s = none ↔ ¬ needle <:+: s := by
  rw [← strstr_isSome, Option.not_isSome_iff_eq_none]

theorem strstr_of_prefix {needle s : List UInt8} (h : needle <+: s) : strstr needle s = some s := by
  cases s with
  | nil =>
      rw [List.prefix_nil] at h
      rw [strstr, if_pos h]
  | cons c s => rw [strstr, if_pos (List.isPrefixOf_iff_prefix.mpr h)]

theorem suffix_of_strstr {needle s t : List UInt8} (h : strstr needle s = some t) : t <:+ s := by
  induction s with
  | nil =>
      rw [strstr] at h
      split at h
      · cases h
        exact List.suffix_refl _
      · cases h
  | cons c s ih =>
      rw [strstr] at h
      split at h
      · cases h
        exact List.suffix_refl _
      · exact (ih h).trans (List.suffix_cons _ _)

/-- What has no `c` occurs before a `c` or after it. -/
theorem infix_append_cons_iff {c : UInt8} {needle : List UInt8} (hc : c ∉ needle) {s t : List UInt8} :
    needle <:+: s ++ c :: t ↔ needle <:+: s ∨ needle <:+: t := by
  have hbegins : ∀ {l : List UInt8}, l <:+: needle → l <+: c :: t → l = [] := by
    intro l hl hpre
    cases l with
    | nil => rfl
    | cons d l =>
        obtain rfl := (List.cons_prefix_cons.mp hpre).1
        exact absurd (hl.subset List.mem_cons_self) hc
  rw [List.infix_append_iff, List.infix_cons_iff]
  constructor
  · rintro (h | (h | h) | ⟨l₁, l₂, rfl, hs, ht⟩)
    · exact .inl h
    · rw [hbegins (List.infix_refl _) h]
      exact .inl (List.nil_infix)
    · exact .inr h
    · rw [hbegins (List.suffix_append _ _).isInfix ht, List.append_nil]
      exact .inl hs.isInfix
  · exact Or.imp id fun h => .inl (.inr h)

theorem infix_take_append_cons_iff {c : UInt8} {needle : List UInt8} (hne : needle ≠ [])
    (hc : c ∉ needle) (s t : List UInt8) (n : Nat) :
    needle <:+: (s ++ c :: t).take n ↔
      needle <:+: s.take n ∨ needle <:+: t.take (n - s.length - 1) := by
  rw [List.take_append]
  cases hn : n - s.length with
  | zero => simp [hne]
  | succ k => rw [List.take_succ_cons, infix_append_cons_iff hc, Nat.add_sub_cancel]

/-- What `snprintf` leaves in a `char[size]` of the text it is to write. -/
def snprintf (size : Nat) (text : List UInt8) : List UInt8 := text.take (size - 1)

theorem snprintf_eq {size : Nat} {text : List UInt8} (h : text.length < size) :
    snprintf size text = text := List.take_of_length_le (Nat.le_sub_one_of_lt h)

/-! ### Arrays -/

/-- A `char[cap]` whose last byte is never written, so that it holds a string. -/
structure Buf (cap : Nat) where
  bytes : List UInt8
  length_eq : bytes.length = cap
  getLast : bytes.getLast? = some 0
deriving DecidableEq, Repr

namespace Buf

variable {cap : Nat}

theorem pos (b : Buf cap) : 0 < cap := by
  rw [← b.length_eq, List.length_pos_iff]
  intro h
  cases h ▸ b.getLast

/-- The array that holds a string and zeroes behind it. -/
def holding (s : CStr cap) : Buf cap where
  bytes := s.bytes ++ List.replicate (cap - s.bytes.length) 0
  length_eq := by
    have := s.length_lt
    simp
    omega
  getLast := by
    have := s.length_lt
    rw [List.getLast?_append, List.getLast?_replicate, if_neg (by omega)]
    rfl

/-- An array of zeroes. -/
def zero (h : 0 < cap) : Buf cap := holding (.cut h [])

/-- The string an array holds. -/
def string (b : Buf cap) : CStr cap where
  bytes := cstring b.bytes
  nul_free := by
    intro hm
    simpa using List.mem_takeWhile_imp hm
  length_lt := by
    obtain ⟨s, hs⟩ := List.getLast?_eq_some_iff.mp b.getLast
    have hle : (cstring b.bytes).length ≤ s.length := by
      rw [hs, cstring, List.takeWhile_append]
      split
      · simp
      · exact (List.takeWhile_sublist _).length_le
    have hlen := b.length_eq
    rw [hs, List.length_append, List.length_singleton] at hlen
    omega

theorem string_holding (s : CStr cap) : (holding s).string = s := by
  have h : cstring (holding s).bytes = s.bytes := by
    rw [holding, cstring_append s.nul_free]
    simp [cstring]
  cases s
  simp only [string, h]

/-- The bytes `strncpy(dst, src, sizeof(dst) - 1)` writes: all but the last, zeroes behind the
string. -/
def written (cap : Nat) (src : List UInt8) : List UInt8 :=
  let s := (cstring src).take (cap - 1)
  s ++ List.replicate (cap - 1 - s.length) 0

theorem length_written (cap : Nat) (src : List UInt8) : (written cap src).length = cap - 1 := by
  have h := List.length_take_le (cap - 1) (cstring src)
  rw [written, List.length_append, List.length_replicate]
  omega

/-- The byte `strncpy` leaves alone. -/
theorem drop_eq (b : Buf cap) : b.bytes.drop (cap - 1) = [0] := by
  obtain ⟨s, hs⟩ := List.getLast?_eq_some_iff.mp b.getLast
  have hlen := b.length_eq
  rw [hs, List.length_append, List.length_singleton] at hlen
  rw [hs, List.drop_append_of_le_length (by omega), List.drop_eq_nil_of_le (by omega)]
  rfl

/-- `strncpy(dst, src, sizeof(dst) - 1)`. -/
def strncpy (b : Buf cap) (src : List UInt8) : Buf cap where
  bytes := written cap src ++ b.bytes.drop (cap - 1)
  length_eq := by
    have := b.pos
    rw [List.length_append, length_written, drop_eq, List.length_singleton]
    omega
  getLast := by
    rw [drop_eq]
    simp

/-- **Nothing is left over.**  What the array held before does not matter. -/
theorem strncpy_eq (b : Buf cap) (src : List UInt8) :
    b.strncpy src = holding (CStr.cut b.pos src) := by
  have h : written cap src ++ b.bytes.drop (cap - 1) =
      (CStr.cut b.pos src).bytes ++ List.replicate (cap - (CStr.cut b.pos src).bytes.length) 0 := by
    have := b.pos
    have hlen := (CStr.cut b.pos src).length_lt
    rw [drop_eq, written, List.append_assoc, ← List.replicate_succ']
    show (CStr.cut b.pos src).bytes ++ _ = _
    congr 2
    show cap - 1 - (CStr.cut b.pos src).bytes.length + 1 = _
    omega
  simp only [strncpy, holding, h]

end Buf

end Support
