import Mathlib
import NodeTelemetry.Yaml.BlockScalar
import NodeTelemetry.Proofs.Yaml.Characters

/-!
# Block scalars are read back

A text behind a bar is a block of lines: line ends that come first, and then lines, each with the
line ends after it.  The block is closed (`BlockScalar.closed`): a line feed stands behind its last
line if the text does not end a line itself.  Reading takes the lines one after another
(`BlockScalar.linesFrom_text`) and ends at the first line to the left of the block; the chomping
sign then says how much of the line ends behind the last line belongs to the text.
-/

namespace NodeTelemetry.Yaml.BlockScalar

/-! ## Line ends -/

/-- The character is a line end that is read as it is written. -/
def IsLineEnd (c : Char) : Prop := c = '\n' ∨ isSeparator c = true

lemma IsLineEnd.isBreak {c : Char} (h : IsLineEnd c) : isBreak c = true := by
  simp only [IsLineEnd, isSeparator, Bool.or_eq_true, beq_iff_eq] at h
  rcases h with rfl | rfl | rfl <;> rfl

/-- A line end is no blank, and it is read as it is written. -/
lemma IsLineEnd.read_eq {c : Char} (h : IsLineEnd c) :
    c ≠ ' ' ∧ c ≠ '\t' ∧ c ≠ '\r' ∧ (if c = '\u2028' ∨ c = '\u2029' then c else '\n') = c := by
  simp only [IsLineEnd, isSeparator, Bool.or_eq_true, beq_iff_eq] at h
  rcases h with rfl | rfl | rfl <;> decide

/-- The text with a line feed behind its last line, if it has none. -/
def closed (text : List Char) : List Char :=
  if text.getLast?.any isBreak then text else text ++ ['\n']

/-! ## Indentation and empty lines -/

lemma emptyLines_space {given : Option ℕ} {mark : Mark} (hgiven : ∀ n ∈ given, mark.column < n)
    (rest breaks : List Char) (widest : ℕ) :
    emptyLines given mark (' ' :: rest) breaks widest =
      emptyLines given (mark.right 1) rest breaks widest := by
  have hinside : (given.all fun n => decide (mark.column < n)) = true := by
    cases given with
    | none => rfl
    | some n => simpa using hgiven n rfl
  rw [emptyLines]
  · simp [hinside]
  · simp

/-- The indentation of a line is skipped. -/
lemma emptyLines_spaces (n : ℕ) {given : Option ℕ} {mark : Mark}
    (hgiven : ∀ k ∈ given, mark.column + n ≤ k) (rest breaks : List Char) (widest : ℕ) :
    emptyLines given mark (List.replicate n ' ' ++ rest) breaks widest =
      emptyLines given (mark.right n) rest breaks widest := by
  induction n generalizing mark with
  | zero => rfl
  | succ n ih =>
    rw [List.replicate_succ, List.cons_append,
      emptyLines_space fun k hk => by have := hgiven k hk; omega,
      ih fun k hk => by have := hgiven k hk; simp only [Mark.column_right]; omega,
      Mark.right_right, Nat.add_comm 1]

/-- Line ends are collected. -/
lemma emptyLines_lineEnds (given : Option ℕ) {lineEnds : List Char}
    (hall : ∀ c ∈ lineEnds, IsLineEnd c) {mark : Mark} (hcolumn : mark.column = 0)
    (rest breaks : List Char) (widest : ℕ) :
    ∃ mark' widest', mark'.column = 0 ∧ (lineEnds = [] → widest' = widest) ∧
      emptyLines given mark (lineEnds ++ rest) breaks widest =
        emptyLines given mark' rest (breaks ++ lineEnds) widest' := by
  induction lineEnds generalizing mark breaks widest with
  | nil => exact ⟨mark, widest, hcolumn, fun _ => rfl, by simp⟩
  | cons c lineEnds ih =>
    obtain ⟨hc, hmore⟩ := List.forall_mem_cons.mp hall
    obtain ⟨mark', widest', hmark', -, heq⟩ :=
      ih hmore (Mark.column_down mark 1) (breaks ++ [c]) (max widest mark.column)
    refine ⟨mark', widest', hmark', by simp, ?_⟩
    rw [List.append_assoc, List.singleton_append] at heq
    obtain ⟨hspace, htab, hreturn, hread⟩ := hc.read_eq
    rw [← heq, List.cons_append, emptyLines]
    · simp [hspace, htab, hc.isBreak, hread]
    · exact fun _ hcon => absurd hcon hreturn

/-- Skipping ends at a line that has text. -/
lemma emptyLines_of_text {given : Option ℕ} {mark : Mark} {text : List Char}
    (hbreak : ∀ c ∈ text.head?, isBreak c = false)
    (hblank : ∀ c ∈ text.head?, isBlank c = true → ∃ n ∈ given, n ≤ mark.column)
    (breaks : List Char) (widest : ℕ) :
    emptyLines given mark text breaks widest =
      some (breaks, max widest mark.column, ⟨mark, text⟩) := by
  unfold emptyLines
  split
  · rfl
  · exact absurd (hbreak _ rfl) (by decide)
  · rename_i c rest _
    have hc : isBreak c = false := hbreak c rfl
    have hinside : isBlank c = true → (given.all fun n => decide (mark.column < n)) = false := by
      intro hc
      obtain ⟨n, rfl, hn⟩ := hblank c rfl hc
      simpa using hn
    have hspace : ((given.all fun n => decide (mark.column < n)) && c == ' ') = false := by
      rw [Bool.and_eq_false_iff, or_iff_not_imp_right, Bool.not_eq_false, beq_iff_eq]
      rintro rfl
      exact hinside rfl
    have htab : ((given.all fun n => decide (mark.column < n)) && c == '\t') = false := by
      rw [Bool.and_eq_false_iff, or_iff_not_imp_right, Bool.not_eq_false, beq_iff_eq]
      rintro rfl
      exact hinside rfl
    simp only [hspace, htab, hc, Bool.false_eq_true, if_false]

/-! ## Lines -/

section Lines

variable {indent : ℕ}

/-- A line is written as it stands. -/
lemma writeLines_line {line : List Char} (hline : ∀ c ∈ line, isBreak c = false)
    (rest : List Char) :
    writeLines indent false (line ++ rest) = line ++ writeLines indent false rest := by
  induction line with
  | nil => rfl
  | cons c line ih =>
    obtain ⟨hc, hmore⟩ := List.forall_mem_cons.mp hline
    simp [writeLines, hc, ih hmore]

/-- Line ends are written as they stand. -/
lemma writeLines_lineEnds {lineEnds : List Char} (hall : ∀ c ∈ lineEnds, IsLineEnd c)
    (rest : List Char) (broken : Bool) (hbroken : lineEnds = [] → broken = true) :
    writeLines indent broken (lineEnds ++ rest) = lineEnds ++ writeLines indent true rest := by
  induction lineEnds generalizing broken with
  | nil =>
    obtain rfl := hbroken rfl
    rfl
  | cons c lineEnds ih =>
    obtain ⟨hc, hmore⟩ := List.forall_mem_cons.mp hall
    simp [writeLines, hc.isBreak, ih hmore true fun _ => rfl]

/-- A line after a line end is indented. -/
lemma writeLines_true {text : List Char} (hne : text ≠ [])
    (hhead : ∀ c ∈ text.head?, isBreak c = false) :
    writeLines indent true text = List.replicate indent ' ' ++ writeLines indent false text := by
  obtain ⟨c, rest, rfl⟩ := List.exists_cons_of_ne_nil hne
  have hc : isBreak c = false := hhead c rfl
  simp [writeLines, hc]

end Lines

/-- Skipping to the first line that has text: the line ends before it are collected. -/
lemma emptyLines_writeLines {indent : ℕ} {given : Option ℕ} (hgiven : ∀ n ∈ given, n = indent)
    {lineEnds text : List Char} (hall : ∀ c ∈ lineEnds, IsLineEnd c)
    (hbreak : ∀ c ∈ text.head?, isBreak c = false)
    (hblank : ∀ c ∈ text.head?, isBlank c = true → given.isSome) {next : List Char}
    (hnext : AtWord next) {mark : Mark} (hcolumn : mark.column = 0) :
    ∃ mark' widest, mark'.column = (if text = [] then 0 else indent) ∧
      (lineEnds = [] → text ≠ [] → widest = indent) ∧
      emptyLines given mark (lineEnds ++ writeLines indent true text ++ next) [] 0 =
        some (lineEnds, widest, ⟨mark', writeLines indent false text ++ next⟩) := by
  obtain ⟨start, widest, hstart, hwidest, heq⟩ := emptyLines_lineEnds given hall hcolumn
    (writeLines indent true text ++ next) [] 0
  rw [List.append_assoc, heq, List.nil_append]
  rcases eq_or_ne text [] with rfl | hne
  · have hnextBreak : ∀ c ∈ next.head?, isBreak c = false ∧ isBlank c = false := fun c hc => by
      exact (isGap_eq_false_iff.mp (hnext c hc)).symm
    refine ⟨start, max widest start.column, by simpa using hstart, by simp, ?_⟩
    exact emptyLines_of_text (fun c hc => (hnextBreak c hc).1)
      (fun c hc hcon => absurd hcon (by simp [(hnextBreak c hc).2])) _ _
  · have hhead : (writeLines indent false text ++ next).head? = text.head? := by
      obtain ⟨c, rest, rfl⟩ := List.exists_cons_of_ne_nil hne
      have hc : isBreak c = false := hbreak c rfl
      simp [writeLines, hc]
    refine ⟨start.right indent, max widest (start.right indent).column, by simp [hne, hstart],
      fun hnil _ => by simp [hwidest hnil, hstart], ?_⟩
    rw [writeLines_true hne hbreak, List.append_assoc,
      emptyLines_spaces indent fun n hn => by rw [hgiven n hn, hstart, Nat.zero_add]]
    refine emptyLines_of_text (by rwa [hhead]) (fun c hc hblankChar => ?_) _ _
    rw [hhead] at hc
    obtain ⟨n, hn⟩ := Option.isSome_iff_exists.mp (hblank c hc hblankChar)
    exact ⟨n, hn, by rw [hgiven n hn, Mark.column_right, hstart, Nat.zero_add]⟩

/-! ## Reading the lines -/

/-- A line is cut off at the line end behind it. -/
lemma span_line {line : List Char} (hline : ∀ c ∈ line, isBreak c = false) {c : Char}
    (hc : isBreak c = true) (rest : List Char) (mark : Mark) :
    Cursor.span ⟨mark, line ++ c :: rest⟩ (fun d => !isBreak d) =
      (line, ⟨mark.right line.length, c :: rest⟩) := by
  have htake : (line ++ c :: rest).takeWhile (fun d => !isBreak d) = line := by
    rw [List.takeWhile_append_of_pos (by simpa using hline)]
    simp [hc]
  have hdrop : (line ++ c :: rest).dropWhile (fun d => !isBreak d) = c :: rest := by
    rw [List.dropWhile_append_of_pos (by simpa using hline)]
    simp [hc]
  rw [Cursor.span, htake, hdrop]

lemma takeBreak_lineEnd {c : Char} (hc : IsLineEnd c) (rest : List Char) (mark : Mark) :
    Cursor.takeBreak ⟨mark, c :: rest⟩ = ([c], ⟨mark.down 1, rest⟩) := by
  obtain ⟨-, -, hreturn, hread⟩ := hc.read_eq
  unfold Cursor.takeBreak
  split
  · rename_i heq
    exact absurd (List.cons.inj heq).1 hreturn
  · rename_i heq
    obtain ⟨rfl, rfl⟩ := List.cons.inj heq
    simp only [hc.isBreak, if_true, Bool.or_eq_true, decide_eq_true_eq, hread]
  · rename_i heq
    cases heq

/-- A line with the line ends behind it is read, and then what follows them. -/
lemma linesFrom_line {indent : ℕ} {line more text next : List Char} {c : Char} (hne : line ≠ [])
    (hline : ∀ d ∈ line, isBreak d = false) (hc : IsLineEnd c) (hmore : ∀ d ∈ more, IsLineEnd d)
    (hbreak : ∀ d ∈ text.head?, isBreak d = false) (hnext : AtWord next) {mark : Mark}
    (hcolumn : mark.column = indent) (fuel : ℕ) (ending empty : List Char) (indented : Bool) :
    ∃ mark', mark'.column = (if text = [] then 0 else indent) ∧
      linesFrom false indent (fuel + 1)
          ⟨mark, writeLines indent false (line ++ (c :: more ++ text)) ++ next⟩ ending empty
          indented =
        (linesFrom false indent fuel ⟨mark', writeLines indent false text ++ next⟩ [c] more
          (atBlank line)).map
          fun (after, last, others, cursor) =>
            (ending ++ empty ++ line ++ after, last, others, cursor) := by
  have hwritten : writeLines indent false (line ++ (c :: more ++ text)) ++ next =
      line ++ c :: (more ++ writeLines indent true text ++ next) := by
    rw [writeLines_line hline, writeLines_lineEnds (List.forall_mem_cons.mpr ⟨hc, hmore⟩) _ false
      (by simp)]
    simp
  have hgiven : ∀ n ∈ some indent, n = indent := fun n hn => (Option.some.inj hn).symm
  obtain ⟨mark', widest, hmark', -, hskip⟩ := emptyLines_writeLines hgiven hmore hbreak
    (fun _ _ _ => rfl) hnext (Mark.column_down (mark.right line.length) 1)
  have hinside : (mark.column == indent &&
      !(line ++ c :: (more ++ writeLines indent true text ++ next)).isEmpty) = true := by
    simp [hcolumn]
  have hblank : atBlank (line ++ c :: (more ++ writeLines indent true text ++ next)) =
      atBlank line := by
    rw [atBlank, atBlank, List.head?_append_of_ne_nil _ hne]
  refine ⟨mark', hmark', ?_⟩
  rw [hwritten, linesFrom]
  simp only [hinside, if_true, span_line hline hc.isBreak, takeBreak_lineEnd hc, hskip,
    Option.bind_eq_bind, Option.bind_some, hblank, Bool.false_and, Bool.false_eq_true, if_false]
  cases linesFrom false indent fuel ⟨mark', writeLines indent false text ++ next⟩ [c] more
    (atBlank line) <;> rfl

/-- A text that starts with a line and has line ends behind its last line is that line, the line
ends behind it, and more of this kind, if there is more. -/
lemma exists_line {text : List Char} (hne : text ≠ [])
    (hhead : ∀ c ∈ text.head?, isBreak c = false) (hlast : ∀ c ∈ text.getLast?, isBreak c = true) :
    ∃ (line : List Char) (c : Char) (more rest : List Char), line ≠ [] ∧
      text = line ++ (c :: more ++ rest) ∧ (∀ d ∈ line, isBreak d = false) ∧
      (∀ d ∈ c :: more, isBreak d = true) ∧ (∀ d ∈ rest.head?, isBreak d = false) ∧
      ∀ d ∈ rest.getLast?, isBreak d = true := by
  obtain ⟨line, ends, rfl, hline, hends⟩ := exists_eq_append_of_class (fun c => !isBreak c) text
  obtain ⟨lineEnds, rest, rfl, hlineEnds, hrest⟩ := exists_eq_append_of_class isBreak ends
  have hlineBreaks : ∀ c ∈ line, isBreak c = false := by simpa using hline
  have hlineNe : line ≠ [] := by
    rintro rfl
    obtain ⟨c, tail, heq⟩ := List.exists_cons_of_ne_nil hne
    rw [List.nil_append] at heq
    simp [heq] at hends hhead
    simp [hends] at hhead
  cases lineEnds with
  | nil =>
    -- the text would end with its line
    exfalso
    obtain rfl : rest = [] := by
      by_contra hcon
      obtain ⟨c, tail, rfl⟩ := List.exists_cons_of_ne_nil hcon
      simp at hends hrest
      simp [hends] at hrest
    rw [List.nil_append, List.append_nil, List.getLast?_eq_some_getLast hlineNe] at hlast
    have hbreak := hlast _ rfl
    rw [hlineBreaks _ (List.getLast_mem hlineNe)] at hbreak
    cases hbreak
  | cons c more =>
    refine ⟨line, c, more, rest, hlineNe, rfl, hlineBreaks, hlineEnds, hrest, fun d hd => ?_⟩
    have hrestNe : rest ≠ [] := by
      rintro rfl
      cases hd
    exact hlast d (by rwa [List.getLast?_append_of_ne_nil _ (by simp),
      List.getLast?_append_of_ne_nil _ hrestNe])

/-- Where a text has line ends behind it, its lines are read up to there: the text, the first of the
line ends, and the others. -/
lemma linesFrom_text {indent : ℕ} (hindent : indent ≠ 0) {next : List Char} (hnext : AtWord next)
    {text : List Char} (hall : ∀ c ∈ text, isBreak c = true → IsLineEnd c) (hne : text ≠ [])
    (hhead : ∀ c ∈ text.head?, isBreak c = false) (hlast : ∀ c ∈ text.getLast?, isBreak c = true)
    (fuel : ℕ) (hfuel : text.length < fuel) {mark : Mark} (hcolumn : mark.column = indent)
    (ending empty : List Char) (indented : Bool) :
    ∃ core last more mark', text = core ++ last :: more ∧ (∀ c ∈ last :: more, isBreak c = true) ∧
      mark'.column = 0 ∧
      linesFrom false indent fuel ⟨mark, writeLines indent false text ++ next⟩ ending empty
          indented =
        some (ending ++ empty ++ core, [last], more, ⟨mark', next⟩) := by
  induction fuel generalizing text mark ending empty indented with
  | zero => exact absurd hfuel (Nat.not_lt_zero _)
  | succ fuel ih =>
    obtain ⟨line, c, more, rest, hlineNe, rfl, hline, hends, hrest, hlastRest⟩ :=
      exists_line hne hhead hlast
    have hlength : rest.length + 1 < fuel := by
      have hpos := List.length_pos_of_ne_nil hlineNe
      simp only [List.length_append, List.length_cons] at hfuel
      omega
    obtain ⟨hc, hmore⟩ := List.forall_mem_cons.mp
      (fun d hd => hall d (by simp at hd ⊢; tauto) (hends d hd) : ∀ d ∈ c :: more, IsLineEnd d)
    obtain ⟨mark', hmark', hread⟩ := linesFrom_line hlineNe hline hc hmore hrest hnext hcolumn fuel
      ending empty indented
    rw [hread]
    rcases eq_or_ne rest [] with rfl | hrestNe
    · refine ⟨line, c, more, mark', by simp, hends, by simpa using hmark', ?_⟩
      have houtside : (mark'.column == indent) = false := by
        rw [hmark', if_pos rfl]
        exact beq_false_of_ne hindent.symm
      obtain ⟨left, rfl⟩ : ∃ left, fuel = left + 1 := ⟨fuel - 1, by omega⟩
      simp [linesFrom, houtside, writeLines]
    · obtain ⟨core, last, others, after, rfl, hothers, hafter, hreadRest⟩ := ih
        (fun d hd => hall d (by simp [hd])) hrestNe hrest hlastRest (by omega)
        (by rw [hmark', if_neg hrestNe]) [c] more (atBlank line)
      refine ⟨line ++ c :: more ++ core, last, others, after, by simp, hothers, hafter, ?_⟩
      rw [hreadRest, Option.map_some]
      simp

/-! ## Chomping -/

/-- The line that introduces a text: the indentation if it is not seen, and the chomping sign. -/
lemma header_eq (hinted : Bool) {sign : List Char} {chomping : Chomping}
    (hsign : (sign, chomping) ∈ [(['-'], .strip), ([], .clip), (['+'], .keep)]) (rest : List Char)
    (mark : Mark) :
    ∃ mark', mark'.column = 0 ∧
      header ⟨mark, (if hinted then ['2'] else []) ++ sign ++ '\n' :: rest⟩ =
        some (chomping, if hinted then some 2 else none, ⟨mark', rest⟩) := by
  simp only [List.mem_cons, Prod.mk.injEq, List.not_mem_nil, or_false] at hsign
  cases hinted <;> rcases hsign with ⟨rfl, rfl⟩ | ⟨rfl, rfl⟩ | ⟨rfl, rfl⟩ <;>
    exact ⟨_, Mark.column_down _ 1, rfl⟩

/-- The chomping sign tells whether a text ends with a line, with a line end or with several. -/
lemma chompingSign_cases {text : List Char} (hne : text ≠ []) :
    (∃ front c, text = front ++ [c] ∧ isBreak c = false ∧ chompingSign text = ['-']) ∨
      (∃ front c d, text = front ++ [c] ++ [d] ∧ isBreak c = false ∧ isBreak d = true ∧
        chompingSign text = []) ∨
      ∃ front d, text = front ++ [d] ∧ isBreak d = true ∧ chompingSign text = ['+'] := by
  obtain ⟨front, d, rfl⟩ := (List.eq_nil_or_concat text).resolve_left hne
  rw [List.concat_eq_append]
  cases hd : isBreak d with
  | false =>
    refine .inl ⟨front, d, rfl, hd, ?_⟩
    rcases List.eq_nil_or_concat front with rfl | ⟨front, c, rfl⟩ <;> simp [chompingSign, hd]
  | true =>
    right
    rcases List.eq_nil_or_concat front with rfl | ⟨front, c, rfl⟩
    · exact .inr ⟨[], d, rfl, hd, by simp [chompingSign, hd]⟩
    · rw [List.concat_eq_append]
      cases hc : isBreak c with
      | false => exact .inl ⟨front, c, d, rfl, hc, hd, by simp [chompingSign, hd, hc]⟩
      | true => exact .inr ⟨front ++ [c], d, rfl, hd, by simp [chompingSign, hd, hc]⟩

/-- A text is cut at the line ends behind its last line: the first of these, if there are any, and
the others.  Without a last line all line ends are others. -/
structure SplitsAt (text core ending empty : List Char) : Prop where
  eq_append : text = core ++ (ending ++ empty)
  isBreak : ∀ c ∈ ending ++ empty, isBreak c = true
  core_eq_nil : ending = [] → core = []
  length_le : ending.length ≤ 1

/-- A text that ends with one line end has no other line end there. -/
lemma SplitsAt.eq_of_single {core ending empty front : List Char} {c d : Char}
    (h : SplitsAt (front ++ [c] ++ [d]) core ending empty) (hc : Yaml.isBreak c = false) :
    core = front ++ [c] ∧ ending = [d] ∧ empty = [] := by
  obtain ⟨heq, hends, hcore, hlength⟩ := h
  have hnot : c ∉ ending ++ empty := fun hmem => by
    have hbreak := hends c hmem
    rw [hc] at hbreak
    cases hbreak
  match ending, hlength with
  | [], _ =>
    obtain rfl := hcore rfl
    exact absurd (heq ▸ by simp) hnot
  | [last], _ =>
    rcases List.eq_nil_or_concat empty with rfl | ⟨more, e, rfl⟩
    · obtain ⟨hfront, hlast⟩ := List.append_inj' heq rfl
      exact ⟨hfront.symm, hlast.symm, rfl⟩
    · -- the character before the last one would be a line end
      exfalso
      rw [List.concat_eq_append, ← List.append_assoc, ← List.append_assoc] at heq
      obtain ⟨hfront, -⟩ := List.append_inj' heq rfl
      have hlast := congrArg List.getLast? hfront
      rw [List.append_assoc, List.getLast?_concat, List.getLast?_append_of_ne_nil _ (by simp)]
        at hlast
      have hmem := List.mem_of_getLast? hlast.symm
      exact hnot (by simp at hmem ⊢; tauto)

/-! ## Whole scalars -/

lemma writeLines_append_lineFeed (indent : ℕ) (broken : Bool) (text : List Char) :
    writeLines indent broken (text ++ ['\n']) = writeLines indent broken text ++ ['\n'] := by
  induction text generalizing broken with
  | nil =>
    have hbreak : isBreak '\n' = true := rfl
    simp [writeLines, hbreak]
  | cons c text ih =>
    rw [List.cons_append, writeLines, writeLines, ih, ih]
    split <;> simp

lemma length_le_length_writeLines (indent : ℕ) (broken : Bool) (text : List Char) :
    text.length ≤ (writeLines indent broken text).length := by
  induction text generalizing broken with
  | nil => exact Nat.zero_le _
  | cons c text ih =>
    rw [writeLines]
    split
    · exact Nat.succ_le_succ (ih true)
    · have hrest := ih false
      simp only [List.length_append, List.length_cons]
      omega

/-- The lines of a text are written as those of the closed text. -/
lemma writeLines_closed (indent : ℕ) (text : List Char) :
    writeLines indent true text ++ (if text.getLast?.any isBreak then [] else ['\n']) =
      writeLines indent true (closed text) := by
  rw [closed]
  split
  · rw [List.append_nil]
  · rw [writeLines_append_lineFeed]

/-- The last character of a closed text ends a line. -/
lemma isBreak_of_mem_getLast?_closed {text : List Char} :
    ∀ c ∈ (closed text).getLast?, isBreak c = true := by
  intro c hc
  rw [closed] at hc
  split at hc
  case isTrue hlast =>
    rw [Option.mem_def.mp hc] at hlast
    exact hlast
  case isFalse =>
    rw [List.getLast?_concat] at hc
    obtain rfl := Option.some.inj hc
    rfl

lemma closed_ne_nil {text : List Char} (h : text ≠ []) : closed text ≠ [] := by
  rw [closed]
  split
  · exact h
  · simp

lemma head?_closed {text : List Char} (h : text ≠ []) : (closed text).head? = text.head? := by
  rw [closed]
  split
  · rfl
  · rw [List.head?_append_of_ne_nil _ h]

/-- A closed text has no line ends of another kind than the text. -/
lemma isLineEnd_of_mem_closed {text : List Char}
    (h : ∀ c ∈ text, isBreak c = true → IsLineEnd c) :
    ∀ c ∈ closed text, isBreak c = true → IsLineEnd c := by
  intro c hc hbreak
  rw [closed] at hc
  split at hc
  · exact h c hc hbreak
  · rcases List.mem_append.mp hc with hc | hc
    · exact h c hc hbreak
    · exact .inl (List.mem_singleton.mp hc)

/-- What a chomping leaves of the line ends behind the last line. -/
def Chomping.kept : Chomping → (ending empty : List Char) → List Char
  | .strip, _, _ => []
  | .clip, ending, _ => ending
  | .keep, ending, empty => ending ++ empty

/-- The first line of a text does not show the indentation of the block. -/
def IsHinted (text : List Char) : Prop :=
  (text.head?.any fun c => c == ' ' || isBreak c) = true

instance (text : List Char) : Decidable (IsHinted text) :=
  inferInstanceAs (Decidable (_ = true))

/-- A text without tabs the first line of which shows the indentation starts with a word. -/
lemma isGap_of_not_isHinted {text : List Char} (h : ¬ IsHinted text) (htabs : '\t' ∉ text) :
    ∀ c ∈ text.head?, isGap c = false := by
  intro c hc
  rw [IsHinted, Option.mem_def.mp hc] at h
  simp only [Option.any_some, Bool.or_eq_true, beq_iff_eq, not_or, Bool.not_eq_true] at h
  rw [isGap_eq_false_iff, isBlank, Bool.or_eq_false_iff]
  refine ⟨⟨beq_false_of_ne h.1, beq_false_of_ne ?_⟩, h.2⟩
  rintro rfl
  exact htabs (List.mem_of_mem_head? hc)

/-- A text that starts with no gap starts with a line that is not empty and not indented. -/
lemma eq_nil_of_head?_no_gap {lineEnds lines : List Char} (hall : ∀ c ∈ lineEnds, isBreak c = true)
    (hhead : ∀ c ∈ (lineEnds ++ lines).head?, isGap c = false) :
    lineEnds = [] ∧ ∀ c ∈ lines.head?, isBlank c = false := by
  cases lineEnds with
  | nil => exact ⟨rfl, fun c hc => (isGap_eq_false_iff.mp (hhead c hc)).1⟩
  | cons c lineEnds =>
    have hgap := isGap_of_isBreak (hall c List.mem_cons_self)
    rw [hhead c rfl] at hgap
    cases hgap

/-- The lines of a block that is closed, up to the first line to the left of it: the text before the
last line ends, the first of these and the others. -/
lemma linesFrom_closed {given : Option ℕ} {text next : List Char} (hne : text ≠ [])
    (hlast : ∀ c ∈ text.getLast?, isBreak c = true)
    (hall : ∀ c ∈ text, isBreak c = true → IsLineEnd c) (hgiven : ∀ n ∈ given, n = 2)
    (hhead : given = none → ∀ c ∈ text.head?, isGap c = false) (hnext : AtWord next) {mark : Mark}
    (hcolumn : mark.column = 0) :
    ∃ breaks widest start core ending empty mark', SplitsAt text core ending empty ∧
      mark'.column = 0 ∧ given.getD (max (max widest 1) 1) = 2 ∧
      emptyLines given mark (writeLines 2 true text ++ next) [] 0 = some (breaks, widest, start) ∧
      linesFrom false 2 (start.rest.length + 1) start [] breaks false =
        some (core, ending, empty, ⟨mark', next⟩) := by
  obtain ⟨lineEnds, lines, rfl, hlineEnds, hlines⟩ := exists_eq_append_of_class isBreak text
  have hlineEndsRead : ∀ c ∈ lineEnds, IsLineEnd c :=
    fun c hc => hall c (List.mem_append_left _ hc) (hlineEnds c hc)
  -- without a given indentation the first line shows it
  have hstartsWord : given = none → lineEnds = [] ∧ ∀ c ∈ lines.head?, isBlank c = false :=
    fun hnone => eq_nil_of_head?_no_gap hlineEnds (hhead hnone)
  have hblank : ∀ c ∈ lines.head?, isBlank c = true → given.isSome := by
    intro c hc hcBlank
    by_contra hcon
    have hno := (hstartsWord (by simpa using hcon)).2 c hc
    rw [hcBlank] at hno
    cases hno
  obtain ⟨start, widest, hstart, hwidest, hskip⟩ :=
    emptyLines_writeLines hgiven hlineEndsRead hlines hblank hnext hcolumn
  have hwritten : writeLines 2 true (lineEnds ++ lines) ++ next =
      lineEnds ++ writeLines 2 true lines ++ next := by
    rw [writeLines_lineEnds hlineEndsRead _ true fun _ => rfl]
  have hindent : given.getD (max (max widest 1) 1) = 2 := by
    cases hcase : given with
    | some n => exact hgiven n hcase
    | none =>
      obtain rfl := (hstartsWord hcase).1
      rw [hwidest rfl hne]
      rfl
  rw [hwritten]
  rcases eq_or_ne lines [] with rfl | hlinesNe
  · refine ⟨lineEnds, widest, _, [], [], lineEnds, start,
      ⟨by simp, by simpa using hlineEnds, fun _ => rfl, by simp⟩, by simpa using hstart, hindent,
      hskip, ?_⟩
    have houtside : (start.column == 2) = false := by
      rw [hstart, if_pos rfl]
      rfl
    simp [linesFrom, houtside, writeLines]
  · have hlastLines : ∀ c ∈ lines.getLast?, isBreak c = true := by
      rwa [List.getLast?_append_of_ne_nil _ hlinesNe] at hlast
    have hfuel : lines.length < (writeLines 2 false lines ++ next).length + 1 := by
      have hlength := length_le_length_writeLines 2 false lines
      rw [List.length_append]
      omega
    have hcolumn : start.column = 2 := by rw [hstart, if_neg hlinesNe]
    obtain ⟨core, last, more, mark', rfl, hends, hmark', hread⟩ := linesFrom_text two_ne_zero hnext
      (fun c hc => hall c (List.mem_append_right _ hc)) hlinesNe hlines hlastLines _ hfuel hcolumn
      [] lineEnds false
    exact ⟨lineEnds, widest, _, lineEnds ++ core, [last], more, mark',
      ⟨by simp, hends, by simp, by simp⟩, hmark', hindent, hskip, hread⟩

/-- A block of lines is read up to the first line to the left of it.  What is read before the line
ends at the end of the block, and these line ends, make up the closed text. -/
lemma read_lines {text next : List Char} (hne : text ≠ [])
    (hall : ∀ c ∈ text, isBreak c = true → IsLineEnd c) (htabs : '\t' ∉ text)
    (hnext : AtWord next) (chomping : Chomping) (sign : List Char)
    (hsign : (sign, chomping) ∈ [(['-'], .strip), ([], .clip), (['+'], .keep)]) (mark : Mark) :
    ∃ core ending empty mark', SplitsAt (closed text) core ending empty ∧ mark'.column = 0 ∧
      read false (some 0) ⟨mark, '|' :: ((if IsHinted text then ['2'] else []) ++ sign ++
          '\n' :: (writeLines 2 true (closed text) ++ next))⟩ =
        some (core ++ chomping.kept ending empty, ⟨mark', next⟩) := by
  let increment : Option ℕ := if IsHinted text then some 2 else none
  let given : Option ℕ := increment.map fun n => (some 0).getD 0 + n
  have hgiven : ∀ n ∈ given, n = 2 := by
    intro n hn
    simp only [given, increment] at hn
    split at hn <;> simp at hn
    exact hn.symm
  have hhead : given = none → ∀ c ∈ (closed text).head?, isGap c = false := by
    intro hnone
    rw [head?_closed hne]
    refine isGap_of_not_isHinted (fun hcon => ?_) htabs
    simp [given, increment, hcon] at hnone
  obtain ⟨first, hfirst, hheader⟩ := header_eq (decide (IsHinted text)) hsign
    (writeLines 2 true (closed text) ++ next) (mark.right 1)
  obtain ⟨breaks, widest, start, core, ending, empty, mark', hsplit, hmark', hindent, hskip,
    hread⟩ := linesFrom_closed (closed_ne_nil hne) isBreak_of_mem_getLast?_closed
      (isLineEnd_of_mem_closed hall) hgiven hhead hnext hfirst
  refine ⟨core, ending, empty, mark', hsplit, hmark', ?_⟩
  simp only [decide_eq_true_eq] at hheader
  have hgivenEq : (if IsHinted text then some 2 else none).map (fun n => (some 0).getD 0 + n) =
      given := rfl
  have hwider : max (max widest ((some 0).elim 0 (· + 1))) 1 = max (max widest 1) 1 := rfl
  simp only [read, Cursor.skip, List.drop_one, List.tail_cons, hheader, Option.bind_eq_bind,
    Option.bind_some, hgivenEq, hskip, hwider, hindent, hread]
  cases chomping <;> rfl

/-- The printable line ends are those that are read as they are written. -/
lemma isLineEnd_of_isPrintable {c : Char} (hprint : isPrintable c = true)
    (hbreak : isBreak c = true) : IsLineEnd c := by
  rcases isGap_iff.mp (isGap_of_isBreak hbreak) with rfl | rfl | rfl | rfl | rfl | rfl | rfl
  · exact absurd hbreak (by decide)
  · exact absurd hbreak (by decide)
  · exact .inl rfl
  · exact absurd hprint (by decide)
  · exact absurd hprint (by decide)
  · exact .inr rfl
  · exact .inr rfl

/-- A text behind a bar, with the line feed that may be missing: the lines of the closed text. -/
lemma writeLiteral_append (text next : List Char) :
    writeLiteral 2 text ++ (if text.getLast?.any isBreak then [] else ['\n']) ++ next =
      '|' :: ((if IsHinted text then ['2'] else []) ++
        chompingSign text ++ '\n' :: (writeLines 2 true (closed text) ++ next)) := by
  have htwo : (toString 2).toList = ['2'] := rfl
  simp only [← writeLines_closed, writeLiteral, htwo, List.cons_append, List.append_assoc, IsHinted]
  rfl

/-- A text is read back from behind a bar. -/
theorem read_writeLiteral {text : List Char} (hne : text ≠ []) (hhold : canHold text = true)
    {next : List Char} (hnext : AtWord next) (mark : Mark) :
    ∃ mark', mark'.column = 0 ∧
      read false (some 0) ⟨mark, writeLiteral 2 text ++
        (if text.getLast?.any isBreak then [] else ['\n']) ++ next⟩ =
          some (text, ⟨mark', next⟩) := by
  simp only [canHold, Bool.and_eq_true, List.all_eq_true] at hhold
  have hprintable := hhold.1.1
  have hall : ∀ c ∈ text, isBreak c = true → IsLineEnd c :=
    fun c hc => isLineEnd_of_isPrintable (hprintable c hc)
  have htabs : '\t' ∉ text := fun hc => absurd (hprintable _ hc) (by decide)
  have hclosed : ∀ front d, isBreak d = true → closed (front ++ [d]) = front ++ [d] := by
    intro front d hd
    simp [closed, hd]
  rw [writeLiteral_append]
  rcases chompingSign_cases hne with ⟨front, c, rfl, hc, hsign⟩ |
    ⟨front, c, d, rfl, hc, hd, hsign⟩ | ⟨front, d, rfl, hd, hsign⟩
  · -- the line feed that closes the block falls away
    obtain ⟨core, ending, empty, mark', hsplit, hmark', hread⟩ :=
      read_lines hne hall htabs hnext .strip ['-'] (by simp) mark
    have hopen : closed (front ++ [c]) = front ++ [c] ++ ['\n'] := by simp [closed, hc]
    rw [hopen] at hsplit
    obtain ⟨rfl, -, -⟩ := hsplit.eq_of_single hc
    refine ⟨mark', hmark', ?_⟩
    rw [hsign, hread, Chomping.kept, List.append_nil]
  · -- the only line end stays
    obtain ⟨core, ending, empty, mark', hsplit, hmark', hread⟩ :=
      read_lines hne hall htabs hnext .clip [] (by simp) mark
    rw [hclosed _ d hd] at hsplit
    obtain ⟨rfl, rfl, -⟩ := hsplit.eq_of_single hc
    refine ⟨mark', hmark', ?_⟩
    rw [hsign, hread, Chomping.kept]
  · -- all line ends stay
    obtain ⟨core, ending, empty, mark', hsplit, hmark', hread⟩ :=
      read_lines hne hall htabs hnext .keep ['+'] (by simp) mark
    rw [hclosed front d hd] at hsplit
    refine ⟨mark', hmark', ?_⟩
    rw [hsign, hread, Chomping.kept, ← hsplit.eq_append]

/-! ## Characters that are written -/

lemma isAllowed_of_mem_chompingSign {text : List Char} (hne : text ≠ []) {c : Char}
    (h : c ∈ chompingSign text) : isAllowed c = true := by
  rcases chompingSign_cases hne with ⟨-, -, -, -, hsign⟩ | ⟨-, -, -, -, -, -, hsign⟩ |
    ⟨-, -, -, -, hsign⟩ <;> rw [hsign] at h
  · rw [List.mem_singleton.mp h]
    rfl
  · simp at h
  · rw [List.mem_singleton.mp h]
    rfl

lemma isAllowed_of_mem_writeLines (indent : ℕ) (broken : Bool) {text : List Char}
    (h : ∀ c ∈ text, isPrintable c = true) :
    ∀ c ∈ writeLines indent broken text, isAllowed c = true := by
  induction text generalizing broken with
  | nil => simp [writeLines]
  | cons d text ih =>
    obtain ⟨hd, hmore⟩ := List.forall_mem_cons.mp h
    have hallowed := isAllowed_of_isPrintable hd
    intro c hc
    rw [writeLines] at hc
    split at hc
    · rcases List.mem_cons.mp hc with rfl | hc
      · exact hallowed
      · exact ih true hmore c hc
    · rcases List.mem_append.mp hc with hc | hc
      · split at hc
        · exact isAllowed_of_mem_replicate hc
        · simp at hc
      · rcases List.mem_cons.mp hc with rfl | hc
        · exact hallowed
        · exact ih false hmore c hc

end NodeTelemetry.Yaml.BlockScalar
