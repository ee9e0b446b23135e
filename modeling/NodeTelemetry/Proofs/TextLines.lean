import Mathlib

/-!
# Texts of lines

A text of lines has a terminator after each line.  If no line holds the terminator, the lines are
the pieces between terminators (`linesOf_terminated`), and a terminator anywhere in the text is the
one after some line (`exists_line_of_terminated_eq`).

Letters may be characters, bytes, or lines themselves: a sequence of groups of lines, each ended by
an empty line, is a text of lines too.
-/

namespace NodeTelemetry

variable {α : Type} {stop : α}

/-- Lines one after another, each with the terminator after it. -/
def terminated (stop : α) (lines : List (List α)) : List α := lines.flatMap (· ++ [stop])

@[simp] lemma terminated_nil (stop : α) : terminated stop [] = [] := rfl

@[simp] lemma terminated_cons (stop : α) (line : List α) (lines : List (List α)) :
    terminated stop (line :: lines) = line ++ stop :: terminated stop lines := by
  simp [terminated]

@[simp] lemma terminated_append (stop : α) (lines lines' : List (List α)) :
    terminated stop (lines ++ lines') = terminated stop lines ++ terminated stop lines' := by
  simp [terminated]

lemma terminated_flatMap {β : Type} (stop : α) (f : β → List (List α)) (l : List β) :
    terminated stop (l.flatMap f) = l.flatMap fun x => terminated stop (f x) := by
  simp [terminated, List.flatMap_assoc]

/-- The lines of a text: the pieces that end before a terminator, and what is left after the last
one. -/
def linesOf [DecidableEq α] (stop : α) : List α → List (List α)
  | [] => []
  | x :: text =>
    if x = stop then [] :: linesOf stop text
    else
      match linesOf stop text with
      | [] => [[x]]
      | line :: lines => (x :: line) :: lines

lemma linesOf_append_cons [DecidableEq α] {line : List α} (h : stop ∉ line) (text : List α) :
    linesOf stop (line ++ stop :: text) = line :: linesOf stop text := by
  induction line with
  | nil => simp [linesOf]
  | cons x line ih =>
    have hx : x ≠ stop := fun hx => h (hx ▸ List.mem_cons_self)
    rw [List.cons_append, linesOf, if_neg hx, ih fun hmem => h (List.mem_cons_of_mem _ hmem)]

/-- The lines of a text of lines are these lines. -/
lemma linesOf_terminated [DecidableEq α] {lines : List (List α)} (h : ∀ line ∈ lines, stop ∉ line) :
    linesOf stop (terminated stop lines) = lines := by
  induction lines with
  | nil => rfl
  | cons line lines ih =>
    obtain ⟨hline, hlines⟩ := List.forall_mem_cons.mp h
    rw [terminated_cons, linesOf_append_cons hline, ih hlines]

/-- A terminator in a text of lines ends one of the lines. -/
lemma exists_line_of_terminated_eq {lines : List (List α)} (h : ∀ line ∈ lines, stop ∉ line)
    {front rest : List α} (heq : terminated stop lines = front ++ stop :: rest) :
    ∃ before line after, lines = before ++ line :: after ∧
      front = terminated stop before ++ line ∧ rest = terminated stop after := by
  induction lines generalizing front with
  | nil => simp at heq
  | cons line lines ih =>
    obtain ⟨hline, hlines⟩ := List.forall_mem_cons.mp h
    rw [terminated_cons, List.append_eq_append_iff] at heq
    rcases heq with ⟨front', rfl, hrest⟩ | ⟨tail, rfl, htail⟩
    · cases front' with
      | nil =>
        obtain rfl := (List.cons.inj hrest).2
        exact ⟨[], line, lines, rfl, by simp, rfl⟩
      | cons x front' =>
        rw [List.cons_append] at hrest
        obtain ⟨rfl, htext⟩ := List.cons.inj hrest
        obtain ⟨before, line', after, rfl, rfl, rfl⟩ := ih hlines htext
        exact ⟨line :: before, line', after, rfl, by simp, rfl⟩
    · cases tail with
      | nil =>
        obtain rfl := (List.cons.inj htail).2
        exact ⟨[], front, lines, by simp, by simp, rfl⟩
      | cons x tail =>
        obtain rfl := (List.cons.inj htail).1
        exact absurd (List.mem_append_right _ List.mem_cons_self) hline

end NodeTelemetry
