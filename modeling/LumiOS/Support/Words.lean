import LumiOS.Support.Text

/-!
# Support — Words

The words of a text, between separators.  A text that is written as a list of words is read as these
words (`SepList.words_eq`), whatever more may count as a separator, and the characters of its words are
all but the separators (`flatten_words`).
-/

namespace Support

section

variable {α : Type} {p q : α → Bool} {s t word : List α} {c : α}
  {ws : List (List α)}

/-- The words of `s`, which `p` separates. -/
def words (p : α → Bool) (s : List α) : List (List α) := (s.splitOnP p).filter (· ≠ [])

/-- What a word consists of. -/
structure IsWord (p : α → Bool) (word : List α) : Prop where
  ne_nil : word ≠ []
  not_sep : ∀ c ∈ word, p c = false

/-- The text is a list of these words, with separators between, before and behind them. -/
inductive SepList (p : α → Bool) : List (List α) → List α → Prop
  | nil : SepList p [] []
  | sep {c : α} {ws : List (List α)} {s : List α} (hc : p c = true) (h : SepList p ws s) :
      SepList p ws (c :: s)
  | last {word : List α} (hw : IsWord p word) : SepList p [word] word
  | word {word : List α} {c : α} {ws : List (List α)} {s : List α} (hw : IsWord p word)
      (hc : p c = true) (h : SepList p ws s) : SepList p (word :: ws) (word ++ c :: s)

theorem words_append_cons (hc : p c = true) (s t : List α) :
    words p (s ++ c :: t) = words p s ++ words p t := by
  rw [words, List.splitOnP_append_cons s t hc, List.filter_append]
  rfl

theorem words_cons (hc : p c = true) (s : List α) : words p (c :: s) = words p s :=
  words_append_cons hc [] s

theorem words_word (hw : IsWord p word) : words p word = [word] := by
  rw [words, List.splitOnP_eq_singleton hw.not_sep]
  exact List.filter_cons_of_pos (decide_eq_true hw.ne_nil)

/-- Separators in front of a text do not matter. -/
theorem words_append_left (hs : ∀ c ∈ s, p c = true) (t : List α) :
    words p (s ++ t) = words p t := by
  induction s with
  | nil => rfl
  | cons c s ih =>
      rw [List.cons_append, words_cons (hs c List.mem_cons_self)]
      exact ih fun d hd => hs d (List.mem_cons_of_mem c hd)

/-- Nor do separators behind it. -/
theorem words_append_right (s : List α) (ht : ∀ c ∈ t, p c = true) :
    words p (s ++ t) = words p s := by
  cases t with
  | nil => rw [List.append_nil]
  | cons c t =>
      have hnil : words p t = [] := by
        rw [← List.append_nil t, words_append_left fun d hd => ht d (List.mem_cons_of_mem c hd)]
        rfl
      rw [words_append_cons (ht c List.mem_cons_self), hnil, List.append_nil]

/-- Only the characters of the text matter. -/
theorem words_congr (h : ∀ c ∈ s, p c = q c) : words p s = words q s := by
  have hsplit : s.splitOnP p = s.splitOnP q := by
    induction s with
    | nil => rfl
    | cons c s ih =>
        rw [List.splitOnP_cons_eq_if_modifyHead, List.splitOnP_cons_eq_if_modifyHead,
          h c List.mem_cons_self, ih fun d hd => h d (List.mem_cons_of_mem c hd)]
  rw [words, words, hsplit]

/-- **The characters of the words** are those that separate none. -/
theorem flatten_words (p : α → Bool) (s : List α) : (words p s).flatten = s.filter (!p ·) := by
  have hne (l : List (List α)) : (l.filter (· ≠ [])).flatten = l.flatten := by
    induction l with
    | nil => rfl
    | cons w l ih =>
        rw [List.filter_cons]
        by_cases hw : w = []
        · simp only [hw, ne_eq, not_true, decide_false, Bool.false_eq_true, if_false, List.flatten_cons,
            List.nil_append]
          exact ih
        · rw [if_pos (decide_eq_true hw), List.flatten_cons, List.flatten_cons, ih]
  rw [words, hne]
  induction s with
  | nil => rfl
  | cons c s ih =>
      rw [List.splitOnP_cons_eq_if_modifyHead]
      cases hc : p c with
      | true => simp [hc, ih]
      | false =>
          obtain ⟨w, l, hwl⟩ := List.exists_cons_of_ne_nil (List.splitOnP_ne_nil p s)
          rw [hwl] at ih ⊢
          simp [hc, ← ih]

/-! ### Lists of words -/

/-- **A list of words is read as these words.** -/
theorem SepList.words_eq (h : SepList p ws s) : words p s = ws := by
  induction h with
  | nil => rfl
  | sep hc _ ih => rw [words_cons hc, ih]
  | last hw => exact words_word hw
  | word hw hc _ ih => rw [words_append_cons hc, words_word hw, ih]; rfl

theorem SepList.isWord (h : SepList p ws s) : ∀ word ∈ ws, IsWord p word := by
  induction h with
  | nil => exact fun word hw => by cases hw
  | sep _ _ ih => exact ih
  | last hword => exact fun word hw => List.mem_singleton.mp hw ▸ hword
  | word hword _ _ ih =>
      intro word hw
      rcases List.mem_cons.mp hw with rfl | hw
      · exact hword
      · exact ih word hw

/-- More separators that the words are free of. -/
theorem SepList.mono (h : SepList p ws s) (hpq : ∀ c, p c = true → q c = true)
    (hw : ∀ word ∈ ws, ∀ c ∈ word, q c = false) : SepList q ws s := by
  induction h with
  | nil => exact .nil
  | sep hc _ ih => exact .sep (hpq _ hc) (ih hw)
  | last hword => exact .last ⟨hword.ne_nil, hw _ List.mem_cons_self⟩
  | word hword hc _ ih =>
      exact .word ⟨hword.ne_nil, hw _ List.mem_cons_self⟩ (hpq _ hc)
        (ih fun w hmem => hw w (List.mem_cons_of_mem _ hmem))

/-- A character of the list separates, or is one of a word. -/
theorem SepList.mem (h : SepList p ws s) (hc : c ∈ s) : p c = true ∨ ∃ word ∈ ws, c ∈ word := by
  induction h with
  | nil => cases hc
  | sep hsep _ ih =>
      rcases List.mem_cons.mp hc with rfl | hc
      · exact .inl hsep
      · exact ih hc
  | last _ => exact .inr ⟨_, List.mem_cons_self, hc⟩
  | word _ hsep _ ih =>
      rcases List.mem_append.mp hc with hc | hc
      · exact .inr ⟨_, List.mem_cons_self, hc⟩
      rcases List.mem_cons.mp hc with rfl | hc
      · exact .inl hsep
      · exact (ih hc).imp id fun ⟨w, hw, hcw⟩ => ⟨w, List.mem_cons_of_mem _ hw, hcw⟩

/-- Words with a separator behind each. -/
theorem SepList.flatMap (hc : p c = true) : ∀ ws : List (List α), (∀ word ∈ ws, IsWord p word) →
    SepList p ws (ws.flatMap (· ++ [c]))
  | [], _ => .nil
  | w :: ws, h => by
      rw [List.flatMap_cons, List.append_assoc]
      exact .word (h w List.mem_cons_self) hc
        (SepList.flatMap hc ws fun v hv => h v (List.mem_cons_of_mem w hv))

end

/-- `strtok` finds the words between its delimiters. -/
theorem tokens_eq_words (delims s : List UInt8) : tokens delims s = words (delims.contains ·) s := rfl

end Support
