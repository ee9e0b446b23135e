import Mathlib
import NodeTelemetry.Yaml.PlainScalar
import NodeTelemetry.Proofs.Yaml.Characters

/-!
# Plain scalars are read back

A plain scalar is made of words with single spaces or more between them.  Reading goes word by word:
a word ends at the first gap, since no colon inside the text stands before one, and the gap after
the last word is the line end, with the indentation of the next line behind it.  A name before a
colon is a plain scalar of one word.
-/

namespace NodeTelemetry.Yaml.PlainScalar

/-! ## Gaps -/

/-- A gap ends at a word. -/
lemma gap_of_atWord (indent : ℕ) (mark : Mark) {next : List Char} (h : AtWord next)
    (blanks breaks : List Char) :
    gap indent mark next blanks breaks = some (blanks, breaks, ⟨mark, next⟩) := by
  unfold gap
  split
  · rfl
  · exact absurd (atWord_cons.mp h) (by decide)
  · simp only [isGap_eq_false_iff.mp (atWord_cons.mp h), Bool.false_eq_true, if_false]

/-- A space is kept if no line ended before it. -/
lemma gap_space (indent : ℕ) (mark : Mark) (rest blanks breaks : List Char) :
    gap indent mark (' ' :: rest) blanks breaks =
      gap indent (mark.right 1) rest (if breaks.isEmpty then blanks ++ [' '] else blanks)
        breaks := by
  rw [gap]
  · have hblank : isBlank ' ' = true := rfl
    simp only [hblank, if_true]
    split <;> simp
  · simp

/-- Spaces on a line are kept. -/
lemma gap_spaces (indent n : ℕ) (mark : Mark) {next : List Char} (h : AtWord next)
    (blanks : List Char) :
    gap indent mark (List.replicate n ' ' ++ next) blanks [] =
      some (blanks ++ List.replicate n ' ', [], ⟨mark.right n, next⟩) := by
  induction n generalizing mark blanks with
  | zero => simpa using gap_of_atWord indent mark h blanks []
  | succ n ih =>
    rw [List.replicate_succ, List.cons_append, gap_space, List.isEmpty_nil, if_pos rfl, ih]
    simp [Nat.add_comm 1]

/-- Spaces at the start of a line fall away. -/
lemma gap_indentation (indent n : ℕ) (mark : Mark) {next breaks : List Char} (h : AtWord next)
    (hbreaks : breaks.isEmpty = false) (blanks : List Char) :
    gap indent mark (List.replicate n ' ' ++ next) blanks breaks =
      some (blanks, breaks, ⟨mark.right n, next⟩) := by
  induction n generalizing mark with
  | zero => simpa using gap_of_atWord indent mark h blanks breaks
  | succ n ih =>
    rw [List.replicate_succ, List.cons_append, gap_space, hbreaks, if_neg Bool.false_ne_true, ih,
      Mark.right_right, Nat.add_comm 1]

/-- A line end with the indentation of the next line. -/
lemma gap_lineFeed (indent n : ℕ) (mark : Mark) {next : List Char} (h : AtWord next)
    (blanks : List Char) :
    gap indent mark ('\n' :: (List.replicate n ' ' ++ next)) blanks [] =
      some ([], ['\n'], ⟨(mark.down 1).right n, next⟩) := by
  rw [gap]
  · have hbreak : isBreak '\n' = true := rfl
    have hblank : isBlank '\n' = false := rfl
    simp only [hblank, hbreak, Bool.false_eq_true, if_false, if_true]
    exact gap_indentation indent n _ h rfl []
  · simp

/-! ## Words -/

/-- What comes after a character later in a text does not let it be plain only if it comes after it
in the whole text. -/
lemma badInside_append {before c : Char} {first second : List Char}
    (h : badInside before (first ++ c :: second) = false) : badInside c second = false := by
  induction first generalizing before with
  | nil =>
    simp only [List.nil_append, badInside, Bool.or_eq_false_iff] at h
    exact h.2
  | cons d first ih =>
    simp only [List.cons_append, badInside, Bool.or_eq_false_iff] at h
    exact ih h.2

/-- A word of a text is a run. -/
lemma run_word {before : Char} {word text : List Char} (next : List Char)
    (hword : ∀ c ∈ word, isGap c = false) (hinside : badInside before (word ++ text) = false)
    (htext : atGap text = true) (hnext : atGap next = true) :
    run false (word ++ (text ++ next)) = some (word, text ++ next) := by
  have hgap : atGap (text ++ next) = true := by
    cases text with
    | nil => exact hnext
    | cons => exact htext
  induction word generalizing before with
  | nil =>
    rw [List.nil_append]
    generalize text ++ next = left at hgap
    cases left with
    | nil => rfl
    | cons c left =>
      have hc : isGap c = true := hgap
      rw [run, if_pos hc]
  | cons c word ih =>
    obtain ⟨hc, hrest⟩ := List.forall_mem_cons.mp hword
    simp only [List.cons_append, badInside, Bool.or_eq_false_iff] at hinside
    -- a colon of the word stands before a character that is no gap, and this is so in any context
    have hcolon : (c == ':' && atGap (word ++ (text ++ next))) = false := by
      by_contra hcon
      rw [Bool.not_eq_false, Bool.and_eq_true] at hcon
      have hfollows : atGap (word ++ text) = false := by simpa [hcon.1] using hinside.1.1
      cases word with
      | nil => rw [List.nil_append, htext] at hfollows; cases hfollows
      | cons d word => exact absurd (hfollows.symm.trans hcon.2) Bool.false_ne_true
    rw [List.cons_append, run, hc, hcolon, ih hrest hinside.2]
    simp

/-! ## Whole scalars -/

/-- Reading goes on from a word to what comes after the gap behind it. -/
lemma readFrom_word {word left : List Char} (hword : word ≠ []) (hhead : word.head? ≠ some '#')
    (hleft : left ≠ []) (hgap : atGap left = true)
    (hrun : run false (word ++ left) = some (word, left)) {indent : ℕ} {mark : Mark}
    (hcolumn : mark.column ≠ 0) {blanks breaks : List Char} {after : Cursor}
    (hafter : gap indent (mark.right word.length) left [] [] = some (blanks, breaks, after))
    (fuel : ℕ) (pending : List Char) (broken : Bool) :
    readFrom false indent (fuel + 1) ⟨mark, word ++ left⟩ pending broken =
      if after.mark.column < indent then some (pending ++ word, !breaks.isEmpty, after)
      else (readFrom false indent fuel after (joinGap blanks breaks) !breaks.isEmpty).map
        fun (more, b, c) => (pending ++ word ++ more, b, c) := by
  have hhash : ((word ++ left).head? == some '#') = false := by
    rw [List.head?_append_of_ne_nil _ hword]
    simpa using hhead
  have hmarker : Cursor.atDocumentMarker ⟨mark, word ++ left⟩ = false :=
    Cursor.atDocumentMarker_of_column hcolumn
  have hempty : word.isEmpty = false := by simpa using hword
  have hempty' : left.isEmpty = false := by simpa using hleft
  simp only [readFrom, hhash, hmarker, hrun, hempty, hempty', hgap, hafter, Bool.or_false,
    Bool.false_eq_true, if_false, Option.bind_eq_bind, Option.bind_some, Bool.not_true,
    Bool.not_false, Bool.true_and, decide_eq_true_eq]
  split
  · rfl
  · cases readFrom false indent fuel after (joinGap blanks breaks) !breaks.isEmpty <;> rfl

/-- A text that a plain scalar can hold from some place on: words with spaces between them, none of
which looks like the start of something else. -/
structure IsPlain (text : List Char) : Prop where
  ne_nil : text ≠ []
  atWord : AtWord text
  noSpaceLast : text.getLast? ≠ some ' '
  spaces : ∀ c ∈ text, isGap c = true → c = ' '
  inside : badInside ' ' text = false

namespace IsPlain

/-- What comes after a space is plain too. -/
lemma of_append {first rest : List Char} (h : IsPlain (first ++ ' ' :: rest)) (hne : rest ≠ [])
    (hrest : AtWord rest) : IsPlain rest where
  ne_nil := hne
  atWord := hrest
  noSpaceLast := by
    have hlast := h.noSpaceLast
    rwa [List.getLast?_append_of_ne_nil _ (List.cons_ne_nil _ _),
      List.getLast?_cons_of_ne_nil hne] at hlast
  spaces := fun c hc => h.spaces c (by simp [hc])
  inside := badInside_append h.inside

/-- The first word of a plain text is not the start of a comment. -/
lemma head?_ne_hash {word more : List Char} (h : IsPlain (word ++ more)) (hword : word ≠ []) :
    word.head? ≠ some '#' := by
  obtain ⟨c, tail, rfl⟩ := List.exists_cons_of_ne_nil hword
  have hinside := h.inside
  simp only [List.cons_append, badInside, Bool.or_eq_false_iff] at hinside
  intro hcon
  obtain rfl : c = '#' := Option.some.inj hcon
  exact absurd hinside.1.2 (by decide)

/-- A text that can be plain is plain from its start on. -/
lemma of_canHold {text : List Char} (hne : text ≠ []) (hhold : canHold text = true) :
    IsPlain text := by
  simp only [canHold, Bool.and_eq_true, Bool.not_eq_true', Bool.or_eq_false_iff,
    beq_eq_false_iff_ne, List.all_eq_true] at hhold
  obtain ⟨⟨⟨⟨-, hstart⟩, hlater⟩, hprintable⟩, hfirst, hlast⟩ := hhold
  have hspaces : ∀ c ∈ text, isGap c = true → c = ' ' := by
    intro c hc hgap
    obtain ⟨hprint, hbreak⟩ := hprintable c hc
    rcases isGap_iff.mp hgap with rfl | rfl | rfl | rfl | rfl | rfl | rfl
    · rfl
    · exact absurd hprint (by decide)
    all_goals exact absurd hbreak (by decide)
  obtain ⟨c, rest, rfl⟩ := List.exists_cons_of_ne_nil hne
  refine ⟨hne, ?_, hlast, hspaces, ?_⟩
  · rw [atWord_cons, ← Bool.not_eq_true]
    exact fun hgap => hfirst (congrArg some (hspaces c List.mem_cons_self hgap))
  · have hchar : c ≠ '#' ∧ (c == ':' && atGap rest) = false := by
      constructor
      · rintro rfl
        exact absurd hstart (by simp [badStart])
      · simp only [badStart, Bool.or_eq_false_iff, Bool.and_eq_false_iff] at hstart
        rw [Bool.and_eq_false_iff]
        tauto
    rw [badInside, hchar.2, beq_false_of_ne hchar.1]
    simpa using hlater

end IsPlain

/-- Reading from a word on: the text up to the end of its line, and the indentation of the next
line. -/
lemma readFrom_text {text : List Char} {indent n : ℕ} {next : List Char} (htext : IsPlain text)
    (hn : n < indent) (hnext : AtWord next) (fuel : ℕ) (hfuel : text.length < fuel) (mark : Mark)
    (hcolumn : mark.column ≠ 0) (hindent : indent ≤ mark.column) (pending : List Char)
    (broken : Bool) :
    ∃ mark' : Mark, mark'.column = 0 ∧
      readFrom false indent fuel ⟨mark, text ++ '\n' :: (List.replicate n ' ' ++ next)⟩ pending
        broken = some (pending ++ text, true, ⟨mark'.right n, next⟩) := by
  induction fuel generalizing text mark pending broken with
  | zero => exact absurd hfuel (Nat.not_lt_zero _)
  | succ fuel ih =>
    obtain ⟨word, k, rest, hword, rfl, hwordGaps, hrest, hend⟩ :=
      exists_word htext.ne_nil htext.atWord htext.spaces
    have hhash := htext.head?_ne_hash hword
    have hrun := run_word ('\n' :: (List.replicate n ' ' ++ next)) hwordGaps htext.inside
    rw [List.append_assoc]
    cases k with
    | zero =>
      -- the last word of the text
      obtain rfl := hend rfl
      have hlastRun := hrun rfl rfl
      rw [List.replicate_zero, List.nil_append, List.nil_append] at hlastRun ⊢
      refine ⟨(mark.right word.length).down 1, rfl, ?_⟩
      rw [readFrom_word hword hhash (List.cons_ne_nil _ _) rfl hlastRun hcolumn
        (gap_lineFeed indent n _ hnext []), if_pos (by simpa using hn), List.append_nil]
      rfl
    | succ k =>
      -- another word comes after spaces
      have hrestNe : rest ≠ [] := by
        rintro rfl
        exact htext.noSpaceLast (by simp [List.getLast?_append, List.getLast?_replicate])
      have hrestPlain : IsPlain rest := by
        rw [List.replicate_succ', List.append_assoc, ← List.append_assoc] at htext
        exact htext.of_append hrestNe hrest
      have hrestWord : AtWord (rest ++ '\n' :: (List.replicate n ' ' ++ next)) := by
        obtain ⟨c, tail, rfl⟩ := List.exists_cons_of_ne_nil hrestNe
        exact hrest
      have hgapRun := hrun rfl rfl
      rw [List.append_assoc] at hgapRun ⊢
      have hafter := gap_spaces indent (k + 1) (mark.right word.length) hrestWord []
      have hlength : rest.length < fuel := by
        simp only [List.length_append, List.length_replicate] at hfuel
        omega
      obtain ⟨mark', hmark', hread⟩ := ih hrestPlain hlength
        ((mark.right word.length).right (k + 1)) (by simp) (by simp; omega)
        (List.replicate (k + 1) ' ') false
      refine ⟨mark', hmark', ?_⟩
      rw [readFrom_word hword hhash (by simp) rfl hgapRun hcolumn hafter,
        if_neg (by simp only [Mark.column_right]; omega)]
      change (readFrom false indent fuel _ (List.replicate (k + 1) ' ') false).map _ = _
      rw [hread, Option.map_some]
      simp

/-- A plain scalar is read up to the end of its line, and the indentation of the next line. -/
theorem read_text {text : List Char} {indent n : ℕ} {next : List Char} (hne : text ≠ [])
    (hhold : canHold text = true) (hn : n < indent) (hnext : AtWord next) {mark : Mark}
    (hcolumn : mark.column ≠ 0) (hindent : indent ≤ mark.column) :
    ∃ mark' : Mark, mark'.column = 0 ∧
      read false indent ⟨mark, text ++ '\n' :: (List.replicate n ' ' ++ next)⟩ =
        some (text, true, ⟨mark'.right n, next⟩) := by
  have hfuel : text.length < (text ++ '\n' :: (List.replicate n ' ' ++ next)).length + 1 := by
    rw [List.length_append]
    omega
  exact readFrom_text (.of_canHold hne hhold) hn hnext _ hfuel mark hcolumn hindent [] false

/-- A run of the characters of a name ends at a colon before a gap. -/
lemma run_identifier {name rest : List Char} (hname : ∀ c ∈ name, isIdentifierChar c = true)
    (hrest : atGap rest = true) :
    run false (name ++ ':' :: rest) = some (name, ':' :: rest) := by
  induction name with
  | nil =>
    have hcolon : isGap ':' = false := rfl
    simp [run, hcolon, hrest]
  | cons c name ih =>
    obtain ⟨hc, hmore⟩ := List.forall_mem_cons.mp hname
    have hcolon : (c == ':') = false := beq_false_of_ne (ne_of_isIdentifierChar hc (by decide))
    rw [List.cons_append, run, isGap_of_isIdentifierChar hc, hcolon, ih hmore]
    simp

/-- A name before a colon is a plain scalar, whatever follows the colon. -/
theorem read_identifier {name rest : List Char} (hname : IsIdentifier name)
    (hrest : atGap rest = true) (indent : ℕ) (mark : Mark) :
    read false indent ⟨mark, name ++ ':' :: rest⟩ =
      some (name, false, ⟨mark.right name.length, ':' :: rest⟩) := by
  have hrun := run_identifier hname.isIdentifierChar hrest
  have hmarker := hname.atDocumentMarker mark (':' :: rest)
  have hempty : name.isEmpty = false := by simpa using hname.ne_nil
  have hhash : ((name ++ ':' :: rest).head? == some '#') = false := by
    obtain ⟨c, tail, rfl, -, hall⟩ := hname.exists_cons
    have hc := ne_of_isIdentifierChar (d := '#') (hall c List.mem_cons_self) (by decide)
    simpa using hc
  have hcolon : atGap (':' :: rest) = false := rfl
  rw [read, readFrom]
  simp only [hmarker, hrun, hempty, hhash, hcolon, Bool.or_false, Bool.false_eq_true, if_false,
    Option.bind_eq_bind, Option.bind_some, Bool.not_false, Bool.or_true, if_true, List.nil_append]

/-! ## Words that can be plain -/

lemma badInside_of_isIdentifierChar (before : Char) {text : List Char}
    (h : ∀ c ∈ text, isIdentifierChar c = true) : badInside before text = false := by
  induction text generalizing before with
  | nil => rfl
  | cons c text ih =>
    obtain ⟨hc, hmore⟩ := List.forall_mem_cons.mp h
    have hcolon : (c == ':') = false := beq_false_of_ne (ne_of_isIdentifierChar hc rfl)
    have hhash : (c == '#') = false := beq_false_of_ne (ne_of_isIdentifierChar hc rfl)
    simp [badInside, hcolon, hhash, ih c hmore]

/-- Letters, digits and underscores can be plain. -/
lemma canHold_of_isIdentifierChar {text : List Char}
    (h : ∀ c ∈ text, isIdentifierChar c = true) : canHold text = true := by
  cases text with
  | nil => rfl
  | cons c rest =>
    obtain ⟨hc, hrest⟩ := List.forall_mem_cons.mp h
    have hne : ∀ d, isIdentifierChar d = false → (c == d) = false :=
      fun d hd => beq_false_of_ne (ne_of_isIdentifierChar hc hd)
    have hstart : badStart (c :: rest) = false := by
      rw [badStart, contains_of_isIdentifierChar hc (by decide), hne '?' rfl, hne ':' rfl,
        hne '-' rfl]
      rfl
    have hdash : c ≠ '-' := ne_of_isIdentifierChar hc rfl
    have hdot : c ≠ '.' := ne_of_isIdentifierChar hc rfl
    have hprintable : (c :: rest).all (fun c => isPrintable c && !isBreak c) = true := by
      rw [List.all_eq_true]
      intro d hd
      have hgap := isGap_eq_false_iff.mp (isGap_of_isIdentifierChar (h d hd))
      simp [isPrintable_of_isIdentifierChar (h d hd), hgap.2]
    have hspace : ∀ d ∈ c :: rest, d ≠ ' ' := fun d hd => ne_of_isIdentifierChar (h d hd) rfl
    have hlast : ((c :: rest).getLast? == some ' ') = false :=
      beq_false_of_ne fun hcon => hspace ' ' (List.mem_of_getLast? hcon) rfl
    simp only [canHold, hstart, hprintable, hlast]
    simp [hdash, hdot, badInside_of_isIdentifierChar c hrest, hspace c List.mem_cons_self]

end NodeTelemetry.Yaml.PlainScalar
