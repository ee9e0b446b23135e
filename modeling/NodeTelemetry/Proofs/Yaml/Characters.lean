import Mathlib
import NodeTelemetry.Yaml.Character

/-!
# Words, names and places

What the readers of scalars share: texts at which a gap ends, texts cut after their first word,
names, and the arithmetic of places.
-/

namespace NodeTelemetry.Yaml

/-! ## Places -/

namespace Mark

@[simp] lemma right_zero (m : Mark) : m.right 0 = m := rfl

@[simp] lemma right_right (m : Mark) (n k : ℕ) : (m.right n).right k = m.right (n + k) := by
  simp [right, Nat.add_assoc]

@[simp] lemma column_right (m : Mark) (n : ℕ) : (m.right n).column = m.column + n := rfl

@[simp] lemma column_down (m : Mark) (n : ℕ) : (m.down n).column = 0 := rfl

end Mark

/-- No document marker stands to the right of the first column. -/
lemma Cursor.atDocumentMarker_of_column {c : Cursor} (h : c.mark.column ≠ 0) :
    c.atDocumentMarker = false := by
  simp [atDocumentMarker, h]

/-- Indentation may stand in a document. -/
lemma isAllowed_of_mem_replicate {n : ℕ} {c : Char} (h : c ∈ List.replicate n ' ') :
    isAllowed c = true := by
  rw [List.eq_of_mem_replicate h]
  rfl

/-! ## Words -/

lemma isGap_iff {c : Char} : isGap c = true ↔
    c = ' ' ∨ c = '\t' ∨ c = '\n' ∨ c = '\r' ∨ c = '\u0085' ∨ c = '\u2028' ∨ c = '\u2029' := by
  simp only [isGap, isBlank, isBreak, Bool.or_eq_true, beq_iff_eq]
  tauto

lemma isGap_eq_false_iff {c : Char} : isGap c = false ↔ isBlank c = false ∧ isBreak c = false := by
  rw [isGap, Bool.or_eq_false_iff]

/-- The character separates lines or paragraphs. -/
def isSeparator (c : Char) : Bool := c == '\u2028' || c == '\u2029'

/-- The text is at its end or at a character that is no gap. -/
def AtWord (text : List Char) : Prop := ∀ c ∈ text.head?, isGap c = false

lemma atWord_cons {c : Char} {rest : List Char} : AtWord (c :: rest) ↔ isGap c = false := by
  simp [AtWord]

/-- A gap ends where the characters that belong to it do. -/
lemma exists_eq_append_of_class (p : Char → Bool) (text : List Char) :
    ∃ first rest, text = first ++ rest ∧ (∀ c ∈ first, p c = true) ∧
      ∀ c ∈ rest.head?, p c = false := by
  refine ⟨text.takeWhile p, text.dropWhile p, (List.takeWhile_append_dropWhile).symm,
    fun c hc => List.mem_takeWhile_imp hc, fun c hc => ?_⟩
  have hnot := List.head?_dropWhile_not p text
  rw [Option.mem_def.mp hc] at hnot
  simpa using hnot

/-- A text without line ends and tabs starts with a word, and goes on with spaces and then another
word, if it goes on. -/
lemma exists_word {text : List Char} (hne : text ≠ []) (hhead : AtWord text)
    (hspaces : ∀ c ∈ text, isGap c = true → c = ' ') :
    ∃ (word : List Char) (n : ℕ) (rest : List Char), word ≠ [] ∧
      text = word ++ (List.replicate n ' ' ++ rest) ∧ (∀ c ∈ word, isGap c = false) ∧
      AtWord rest ∧ (n = 0 → rest = []) := by
  obtain ⟨word, more, rfl, hword, hmore⟩ := exists_eq_append_of_class (fun c => !isGap c) text
  obtain ⟨spaces, rest, rfl, hgap, hrest⟩ := exists_eq_append_of_class isGap more
  have hreplicate : spaces = List.replicate spaces.length ' ' :=
    List.eq_replicate_of_mem fun c hc => hspaces c (by simp [hc]) (hgap c hc)
  refine ⟨word, spaces.length, rest, ?_, by rw [← hreplicate], by simpa using hword, hrest, ?_⟩
  · rintro rfl
    obtain ⟨c, tail, heq⟩ := List.exists_cons_of_ne_nil hne
    rw [List.nil_append] at heq
    rw [List.nil_append, heq, atWord_cons] at hhead
    simp [heq, hhead] at hmore
  · intro hzero
    obtain rfl := List.length_eq_zero_iff.mp hzero
    by_contra hcon
    obtain ⟨c, tail, rfl⟩ := List.exists_cons_of_ne_nil hcon
    simp [atWord_cons.mp hrest] at hmore

/-! ## Names -/

/-- The character may stand in a name behind its first character. -/
def isIdentifierChar (c : Char) : Bool := c.isAlphanum || c == '_'

/-- A name is a letter or an underscore, and then letters, digits and underscores. -/
def IsIdentifier : List Char → Prop
  | [] => False
  | c :: rest => (c.isAlpha || c == '_') = true ∧ rest.all isIdentifierChar = true

instance : (name : List Char) → Decidable (IsIdentifier name)
  | [] => inferInstanceAs (Decidable False)
  | c :: rest =>
    inferInstanceAs (Decidable (
      (c.isAlpha || c == '_') = true ∧ rest.all isIdentifierChar = true))

/-- A character of a name is none that the predicate excludes. -/
lemma ne_of_isIdentifierChar {c d : Char} (hc : isIdentifierChar c = true)
    (hd : isIdentifierChar d = false) : c ≠ d := by
  rintro rfl
  simp [hc] at hd

/-- A character of a name is not among characters of which none may stand in a name. -/
lemma contains_of_isIdentifierChar {c : Char} (hc : isIdentifierChar c = true) {signs : List Char}
    (hsigns : (signs.all fun d => !isIdentifierChar d) = true) : signs.contains c = false := by
  rw [← Bool.not_eq_true, List.contains_iff_mem]
  intro hmem
  simpa [hc] using List.all_eq_true.mp hsigns c hmem

lemma isGap_of_isIdentifierChar {c : Char} (h : isIdentifierChar c = true) : isGap c = false := by
  rw [← Bool.not_eq_true, isGap_iff]
  rintro (rfl | rfl | rfl | rfl | rfl | rfl | rfl) <;> revert h <;> decide

/-- The characters of names lie among the printable ones of ASCII. -/
lemma toNat_of_isIdentifierChar {c : Char} (h : isIdentifierChar c = true) :
    0x30 ≤ c.toNat ∧ c.toNat ≤ 0x7a := by
  simp only [isIdentifierChar, Char.isAlphanum, Char.isAlpha, Char.isUpper, Char.isLower,
    Char.isDigit, Bool.or_eq_true, Bool.and_eq_true, decide_eq_true_eq, beq_iff_eq] at h
  rcases h with h | rfl
  · simp only [ge_iff_le, UInt32.le_iff_toNat_le, Char.toNat_val, Char.reduceToNat] at h
    omega
  · decide

lemma isPrintable_of_isIdentifierChar {c : Char} (h : isIdentifierChar c = true) :
    isPrintable c = true := by
  obtain ⟨hlow, hhigh⟩ := toNat_of_isIdentifierChar h
  simp only [isPrintable, Bool.or_eq_true, Bool.and_eq_true, decide_eq_true_eq]
  omega

namespace IsIdentifier

variable {name : List Char}

lemma exists_cons (h : IsIdentifier name) :
    ∃ c rest, name = c :: rest ∧ (c.isAlpha || c == '_') = true ∧
      ∀ d ∈ name, isIdentifierChar d = true := by
  cases name with
  | nil => exact h.elim
  | cons c rest =>
    refine ⟨c, rest, rfl, h.1, List.forall_mem_cons.mpr ⟨?_, List.all_eq_true.mp h.2⟩⟩
    have hfirst := h.1
    simp only [isIdentifierChar, Char.isAlphanum, Bool.or_eq_true] at hfirst ⊢
    tauto

lemma ne_nil (h : IsIdentifier name) : name ≠ [] := by
  rintro rfl
  exact h

lemma isIdentifierChar (h : IsIdentifier name) : ∀ d ∈ name, isIdentifierChar d = true := by
  obtain ⟨-, -, -, -, hall⟩ := h.exists_cons
  exact hall

/-- A name is no document marker. -/
lemma atDocumentMarker (h : IsIdentifier name) (mark : Mark) (rest : List Char) :
    Cursor.atDocumentMarker ⟨mark, name ++ rest⟩ = false := by
  obtain ⟨c, tail, rfl, -, hall⟩ := h.exists_cons
  have hc := hall c List.mem_cons_self
  have hdash : c ≠ '-' := ne_of_isIdentifierChar hc (by decide)
  have hdot : c ≠ '.' := ne_of_isIdentifierChar hc (by decide)
  simp [Cursor.atDocumentMarker, hdash, hdot]

end IsIdentifier

end NodeTelemetry.Yaml
