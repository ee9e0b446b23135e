import Mathlib
import NodeTelemetry.Text.Blank

/-!
# Lines and words by splitting

The lines of a text are its pieces between line feeds (`lines_eq_splitOn`), and its words are its
pieces between blanks that are not empty (`words_eq_tokens`).  So the words of a text can be read
off its parts: blanks at its start do not matter (`tokens_gap`), and a run without blanks up to a
blank or the end is a word (`tokens_word`).
-/

namespace NodeTelemetry.Text

/-- The pieces of a text between blanks that are not empty. -/
def tokens (text : List Char) : List (List Char) :=
  (text.splitOnP isBlank).filter fun piece => !piece.isEmpty

/-- A line without a carriage return at its end. -/
def dropReturn (line : List Char) : List Char :=
  if line.getLast? = some '\r' then line.dropLast else line

/-- Every character is blank. -/
def IsGap (text : List Char) : Prop := ∀ c ∈ text, isBlank c = true

/-- The lines of a text are its pieces between line feeds. -/
lemma lines_eq_splitOn (text : List Char) : lines text = text.splitOn '\n' := by
  induction text with
  | nil => rfl
  | cons c rest ih =>
    rw [lines, List.splitOn_cons_eq_if_modifyHead, ih]
    by_cases hc : c = '\n'
    · simp [hc]
    · obtain ⟨line, more, hrest⟩ := List.exists_cons_of_ne_nil (List.splitOn_ne_nil '\n' rest)
      simp [hc, hrest]

/-- A run without blanks in front of a text is the start of its first piece. -/
lemma wordsFrom_eq (run text : List Char) :
    wordsFrom run text =
      ((text.splitOnP isBlank).modifyHead (run.reverse ++ ·)).filter fun piece =>
        !piece.isEmpty := by
  induction text generalizing run with
  | nil =>
    rw [wordsFrom, List.splitOnP_nil]
    cases run <;> simp
  | cons c rest ih =>
    rw [wordsFrom, List.splitOnP_cons_eq_if_modifyHead]
    obtain ⟨piece, more, hrest⟩ := List.exists_cons_of_ne_nil (List.splitOnP_ne_nil isBlank rest)
    by_cases hc : isBlank c = true
    · rw [if_pos hc, if_pos hc, ih []]
      cases run <;> simp [hrest]
    · rw [if_neg hc, if_neg hc, ih (c :: run), hrest]
      simp

/-- The words of a text are its pieces between blanks that are not empty. -/
lemma words_eq_tokens (text : List Char) : words text = tokens text := by
  obtain ⟨piece, more, hpieces⟩ := List.exists_cons_of_ne_nil (List.splitOnP_ne_nil isBlank text)
  rw [words, wordsFrom_eq, tokens, hpieces]
  rfl

/-! ## Words of parts -/

variable {c : Char} {gap word text : List Char}

@[simp] lemma tokens_nil : tokens [] = [] := rfl

/-- A blank separates words. -/
lemma tokens_append_cons (hc : isBlank c = true) (front rest : List Char) :
    tokens (front ++ c :: rest) = tokens front ++ tokens rest := by
  unfold tokens
  rw [List.splitOnP_append_cons front rest hc, List.filter_append]

/-- Blanks at the start belong to no word. -/
lemma tokens_gap (hgap : IsGap gap) (text : List Char) : tokens (gap ++ text) = tokens text := by
  induction gap with
  | nil => rfl
  | cons c gap ih =>
    obtain ⟨hc, hrest⟩ := List.forall_mem_cons.mp hgap
    exact (tokens_append_cons hc [] (gap ++ text)).trans (ih hrest)

lemma tokens_of_no_blank (hne : word ≠ []) (hword : ∀ c ∈ word, isBlank c = false) :
    tokens word = [word] := by
  unfold tokens
  rw [List.splitOnP_eq_singleton hword]
  simp [hne]

/-- A run without blanks up to a blank or the end is a word. -/
lemma tokens_word (hne : word ≠ []) (hword : ∀ c ∈ word, isBlank c = false)
    (htext : ∀ c ∈ text.head?, isBlank c = true) : tokens (word ++ text) = word :: tokens text := by
  cases text with
  | nil => rw [List.append_nil, tokens_of_no_blank hne hword, tokens_nil]
  | cons c rest =>
    have hc : isBlank c = true := htext c rfl
    rw [tokens_append_cons hc, tokens_of_no_blank hne hword]
    exact congrArg (word :: ·) (tokens_append_cons hc [] rest).symm

/-- A carriage return at the end of a line belongs to no word. -/
lemma tokens_dropReturn (line : List Char) : tokens (dropReturn line) = tokens line := by
  unfold dropReturn
  split
  · next hlast =>
    obtain ⟨front, rfl⟩ := List.getLast?_eq_some_iff.mp hlast
    rw [List.dropLast_concat, tokens_append_cons (by decide), tokens_nil, List.append_nil]
  · rfl

end NodeTelemetry.Text
