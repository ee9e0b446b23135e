import Mathlib
import NodeTelemetry.Yaml.QuotedScalar
import NodeTelemetry.Proofs.Numerals
import NodeTelemetry.Proofs.Yaml.Characters

/-!
# Quoted scalars are read back

Between quotes a text is read piece by piece: a piece ends at a gap or at the closing quote.  How
the characters of a piece are written does not matter as long as each is read back in front of any
rest (`QuotedScalar.piece_flatMap`): between single quotes a quote stands twice, and between double
quotes escapes are read back (`QuotedScalar.escape?_writeEscape`).  A gap is made of spaces, which
are kept, or, between single quotes, of separators of lines, which are kept while the indentation
after them falls away.
-/

namespace NodeTelemetry.Yaml.QuotedScalar

/-! ## Pieces -/

/-- A piece of a scalar ends here: at a gap or at the closing quote. -/
def EndsPiece (single : Bool) : List Char → Prop
  | [] => False
  | c :: rest => isGap c = true ∨ c = quote single ∧ (single = true → rest.head? ≠ some '\'')

lemma piece_of_endsPiece {single : Bool} {text : List Char} (h : EndsPiece single text) (fuel : ℕ)
    (mark : Mark) : piece single (fuel + 1) ⟨mark, text⟩ = some ([], false, ⟨mark, text⟩) := by
  obtain ⟨c, rest, rfl⟩ := List.exists_cons_of_ne_nil (l := text) (by rintro rfl; exact h)
  rcases h with hgap | ⟨rfl, hrest⟩
  · simp [piece, hgap]
  · have hgap : isGap (quote single) = false := by cases single <;> rfl
    have hdoubled : (single && quote single == '\'' && rest.head? == some '\'') = false := by
      cases single
      · rfl
      · simp [hrest rfl]
    simp [piece, hgap, hdoubled]

/-- A way to write a character is read back in front of any rest. -/
structure ReadsBack (single : Bool) (written : List Char) (c : Char) : Prop where
  ne_nil : written ≠ []
  piece_eq : ∀ fuel mark rest, piece single (fuel + 1) ⟨mark, written ++ rest⟩ =
    (piece single fuel ⟨mark.right written.length, rest⟩).map
      fun (more, escaped, after) => (c :: more, escaped, after)

/-- A piece is read back if each of its characters is. -/
lemma piece_flatMap {single : Bool} {write : Char → List Char} {word next : List Char}
    (hword : ∀ c ∈ word, ReadsBack single (write c) c) (hnext : EndsPiece single next)
    (mark : Mark) :
    piece single ((word.flatMap write ++ next).length + 1) ⟨mark, word.flatMap write ++ next⟩ =
      some (word, false, ⟨mark.right (word.flatMap write).length, next⟩) := by
  suffices hfuel : ∀ fuel, (word.flatMap write).length < fuel →
      piece single fuel ⟨mark, word.flatMap write ++ next⟩ =
        some (word, false, ⟨mark.right (word.flatMap write).length, next⟩) from
    hfuel _ (by rw [List.length_append]; omega)
  intro fuel hfuel
  induction word generalizing fuel mark with
  | nil =>
    obtain ⟨fuel, rfl⟩ := Nat.exists_eq_succ_of_ne_zero (Nat.ne_of_gt hfuel)
    exact piece_of_endsPiece hnext fuel mark
  | cons c word ih =>
    obtain ⟨hc, hrest⟩ := List.forall_mem_cons.mp hword
    obtain ⟨fuel, rfl⟩ := Nat.exists_eq_succ_of_ne_zero (Nat.ne_of_gt (Nat.zero_lt_of_lt hfuel))
    have hlength := List.length_pos_of_ne_nil hc.ne_nil
    rw [List.flatMap_cons, List.length_append] at hfuel
    rw [List.flatMap_cons, List.append_assoc, hc.piece_eq, ih hrest _ fuel (by omega)]
    simp

/-! ## Gaps -/

/-- A gap ends at a word. -/
lemma gap_of_atWord (mark : Mark) (escaped : Bool) {next : List Char} (h : AtWord next)
    (blanks breaks : List Char) :
    gap mark escaped next blanks breaks = (blanks, breaks, ⟨mark, next⟩) := by
  unfold gap
  split
  · rfl
  · exact absurd (atWord_cons.mp h) (by decide)
  · simp only [isGap_eq_false_iff.mp (atWord_cons.mp h), Bool.false_eq_true, if_false]

/-- A space is kept if no line ended before it. -/
lemma gap_space (mark : Mark) (rest blanks breaks : List Char) :
    gap mark false (' ' :: rest) blanks breaks =
      gap (mark.right 1) false rest (if breaks.isEmpty then blanks ++ [' '] else blanks)
        breaks := by
  rw [gap]
  · have hblank : isBlank ' ' = true := rfl
    simp only [hblank, if_true, Bool.not_false, Bool.and_true]
  · simp

/-- Spaces on a line are kept. -/
lemma gap_spaces (n : ℕ) (mark : Mark) {next : List Char} (h : AtWord next) (blanks : List Char) :
    gap mark false (List.replicate n ' ' ++ next) blanks [] =
      (blanks ++ List.replicate n ' ', [], ⟨mark.right n, next⟩) := by
  induction n generalizing mark blanks with
  | zero => simpa using gap_of_atWord mark false h blanks []
  | succ n ih =>
    rw [List.replicate_succ, List.cons_append, gap_space, List.isEmpty_nil, if_pos rfl, ih]
    simp [Nat.add_comm 1]

/-- Spaces at the start of a line fall away. -/
lemma gap_indentation (n : ℕ) (mark : Mark) {next breaks : List Char} (h : AtWord next)
    (hbreaks : breaks.isEmpty = false) (blanks : List Char) :
    gap mark false (List.replicate n ' ' ++ next) blanks breaks =
      (blanks, breaks, ⟨mark.right n, next⟩) := by
  induction n generalizing mark with
  | zero => simpa using gap_of_atWord mark false h blanks breaks
  | succ n ih =>
    rw [List.replicate_succ, List.cons_append, gap_space, hbreaks, if_neg Bool.false_ne_true, ih,
      Mark.right_right, Nat.add_comm 1]

/-- Separators are kept, and the indentation after them falls away. -/
lemma gap_separators {separators : List Char} (hall : ∀ c ∈ separators, isSeparator c = true)
    (n : ℕ) (mark : Mark) {next : List Char} (h : AtWord next) (breaks : List Char)
    (hbreaks : breaks ++ separators ≠ []) :
    ∃ mark', mark'.column = (if separators = [] then mark.column else 0) + n ∧
      gap mark false (separators ++ (List.replicate n ' ' ++ next)) [] breaks =
        ([], breaks ++ separators, ⟨mark', next⟩) := by
  induction separators generalizing mark breaks with
  | nil =>
    rw [List.append_nil] at hbreaks ⊢
    exact ⟨mark.right n, rfl, gap_indentation n mark h (by simpa using hbreaks) []⟩
  | cons c separators ih =>
    obtain ⟨hc, hrest⟩ := List.forall_mem_cons.mp hall
    obtain ⟨mark', hmark', hgap⟩ := ih hrest (mark.down 1) (breaks ++ [c]) (by simp)
    refine ⟨mark', by simpa using hmark', ?_⟩
    rw [List.append_assoc, List.singleton_append] at hgap
    rw [← hgap, List.cons_append, gap]
    · simp only [isSeparator, Bool.or_eq_true, beq_iff_eq] at hc
      rcases hc with rfl | rfl <;> rfl
    · rintro rest rfl
      exact absurd hc (by decide)

/-- Separators are not folded. -/
lemma joinGap_separators {separators : List Char} (hall : ∀ c ∈ separators, isSeparator c = true)
    (hne : separators ≠ []) : joinGap [] separators = separators := by
  obtain ⟨c, rest, rfl⟩ := List.exists_cons_of_ne_nil hne
  have hc : c ≠ '\n' := by
    rintro rfl
    exact absurd (hall _ List.mem_cons_self) (by decide)
  simp [joinGap, foldBreaks, hc]

/-! ## From piece to piece -/

section Pieces

variable {single : Bool} {write : Char → List Char} {word : List Char}

/-- The scalar ends after a piece before its closing quote. -/
lemma readFrom_closing (hword : ∀ c ∈ word, ReadsBack single (write c) c) {next : List Char}
    (hnext : EndsPiece single (quote single :: next)) (fuel : ℕ) {mark : Mark}
    (hcolumn : mark.column ≠ 0) :
    ∃ mark', readFrom single (fuel + 1) ⟨mark, word.flatMap write ++ quote single :: next⟩ =
      some (word, ⟨mark', next⟩) := by
  have hpiece := piece_flatMap hword hnext mark
  have hmarker : Cursor.atDocumentMarker ⟨mark, word.flatMap write ++ quote single :: next⟩ =
      false := Cursor.atDocumentMarker_of_column hcolumn
  have hempty : (word.flatMap write ++ quote single :: next).isEmpty = false := by simp
  refine ⟨(mark.right (word.flatMap write).length).right 1, ?_⟩
  simp only [readFrom, hmarker, hempty, hpiece, Bool.or_false, Bool.false_eq_true, if_false,
    Option.bind_eq_bind, Option.bind_some, List.head?_cons, beq_self_eq_true, if_true,
    Cursor.skip, List.drop_one, List.tail_cons]

/-- The scalar goes on after a piece before a gap. -/
lemma readFrom_gap (hword : ∀ c ∈ word, ReadsBack single (write c) c) {c : Char} {left : List Char}
    (hgap : isGap c = true) {mark : Mark} (hcolumn : mark.column ≠ 0) {blanks breaks : List Char}
    {after : Cursor}
    (hafter : gap (mark.right (word.flatMap write).length) false (c :: left) [] [] =
      (blanks, breaks, after)) (fuel : ℕ) :
    readFrom single (fuel + 1) ⟨mark, word.flatMap write ++ c :: left⟩ =
      (readFrom single fuel after).map
        fun (more, c) => (word ++ joinGap blanks breaks ++ more, c) := by
  have hends : EndsPiece single (c :: left) := .inl hgap
  have hpiece := piece_flatMap hword hends mark
  have hmarker : Cursor.atDocumentMarker ⟨mark, word.flatMap write ++ c :: left⟩ = false :=
    Cursor.atDocumentMarker_of_column hcolumn
  have hempty : (word.flatMap write ++ c :: left).isEmpty = false := by simp
  have hquote : ((c :: left).head? == some (quote single)) = false := by
    have hne : c ≠ quote single := by
      rintro rfl
      revert hgap
      cases single <;> decide
    simpa using hne
  simp only [readFrom, hmarker, hempty, hpiece, Bool.or_false, Bool.false_eq_true, if_false,
    Option.bind_eq_bind, Option.bind_some, hquote, hafter]
  cases readFrom single fuel after <;> rfl

end Pieces

/-! ## Between single quotes -/

/-- A character between single quotes. -/
def singleChar (c : Char) : List Char := if c = '\'' then ['\'', '\''] else [c]

lemma readsBack_singleChar {c : Char} (h : isGap c = false) :
    ReadsBack true (singleChar c) c := by
  unfold singleChar
  split
  case isTrue hquote =>
    subst hquote
    exact ⟨by simp, fun fuel mark rest => by simp [piece, h, Cursor.skip]⟩
  case isFalse hquote =>
    exact ⟨by simp, fun fuel mark rest => by simp [piece, h, hquote, quote, Cursor.skip]⟩

/-- A word is written character by character. -/
lemma singleBody_word (indent : ℕ) {word : List Char} (hword : ∀ c ∈ word, isBreak c = false)
    (rest : List Char) :
    singleBody indent false (word ++ rest) =
      word.flatMap singleChar ++ singleBody indent false rest := by
  induction word with
  | nil => rfl
  | cons c word ih =>
    obtain ⟨hc, hmore⟩ := List.forall_mem_cons.mp hword
    simp [singleBody, hc, singleChar, ih hmore]

/-- Separators are written as they stand, and the next line is indented. -/
lemma singleBody_separators (indent : ℕ) {separators : List Char}
    (hall : ∀ c ∈ separators, isSeparator c = true) {rest : List Char} (hrest : AtWord rest)
    (broken : Bool) (hbroken : separators = [] → broken = true) :
    singleBody indent broken (separators ++ rest) =
      separators ++ (List.replicate indent ' ' ++ singleBody indent false rest) := by
  induction separators generalizing broken with
  | nil =>
    obtain rfl := hbroken rfl
    cases rest with
    | nil => simp [singleBody]
    | cons c rest =>
      simp [singleBody, (isGap_eq_false_iff.mp (atWord_cons.mp hrest)).2]
  | cons c separators ih =>
    obtain ⟨hc, hmore⟩ := List.forall_mem_cons.mp hall
    simp only [isSeparator, Bool.or_eq_true, beq_iff_eq] at hc
    have hbreak : isBreak c = true := by rcases hc with rfl | rfl <;> rfl
    have hfeed : c ≠ '\n' := by rcases hc with rfl | rfl <;> decide
    simp [singleBody, hbreak, hfeed, ih hmore true fun _ => rfl]

/-- A text is not longer than it is between the quotes. -/
lemma length_le_length_singleBody (indent : ℕ) (broken : Bool) (text : List Char) :
    text.length ≤ (singleBody indent broken text).length := by
  induction text generalizing broken with
  | nil => exact Nat.zero_le _
  | cons c text ih =>
    rw [singleBody]
    split
    · have hrest := ih true
      simp only [List.length_append, List.length_cons]
      omega
    · have hrest := ih false
      have hchar : 1 ≤ (if c = '\'' then ['\'', '\''] else [c]).length := by split <;> simp
      simp only [List.length_append, List.length_cons]
      omega

/-- What is not found in a text is not found in its parts. -/
lemma adjacent_append {first second : Char → Bool} {xs ys : List Char}
    (h : adjacent first second (xs ++ ys) = false) :
    adjacent first second xs = false ∧ adjacent first second ys = false := by
  induction xs with
  | nil => exact ⟨rfl, h⟩
  | cons c xs ih =>
    cases xs with
    | nil =>
      refine ⟨rfl, ?_⟩
      cases ys with
      | nil => rfl
      | cons d ys =>
        simp only [List.cons_append, List.nil_append, adjacent, Bool.or_eq_false_iff] at h
        exact h.2
    | cons d xs =>
      simp only [List.cons_append, adjacent, Bool.or_eq_false_iff] at h ⊢
      obtain ⟨hxs, hys⟩ := ih h.2
      exact ⟨⟨h.1, hxs⟩, hys⟩

/-- A text that can stand between single quotes if no line ends in it: its gaps are spaces or
separators, and no space stands beside a separator. -/
structure SingleLine (text : List Char) : Prop where
  gaps : ∀ c ∈ text, isGap c = true → c = ' ' ∨ isSeparator c = true
  noSpaceAfter : adjacent isBreak (· == ' ') text = false
  noSpaceBefore : adjacent (· == ' ') isBreak text = false

lemma SingleLine.append {first second : List Char} (h : SingleLine (first ++ second)) :
    SingleLine first ∧ SingleLine second := by
  obtain ⟨hgaps, hafter, hbefore⟩ := h
  exact ⟨⟨fun c hc => hgaps c (List.mem_append_left _ hc), (adjacent_append hafter).1,
      (adjacent_append hbefore).1⟩,
    ⟨fun c hc => hgaps c (List.mem_append_right _ hc), (adjacent_append hafter).2,
      (adjacent_append hbefore).2⟩⟩

/-- A gap is made of spaces or of separators. -/
lemma SingleLine.spaces_or_separators {gaps : List Char} (h : SingleLine gaps)
    (hall : ∀ c ∈ gaps, isGap c = true) :
    gaps = List.replicate gaps.length ' ' ∨ ∀ c ∈ gaps, isSeparator c = true := by
  induction gaps with
  | nil => exact .inl rfl
  | cons c gaps ih =>
    obtain ⟨hc, hmore⟩ := List.forall_mem_cons.mp hall
    have hkind := h.gaps c List.mem_cons_self hc
    cases gaps with
    | nil =>
      rcases hkind with rfl | hsep
      · exact .inl rfl
      · exact .inr (by simpa using hsep)
    | cons d gaps =>
      have hafter := h.noSpaceAfter
      have hbefore := h.noSpaceBefore
      rw [adjacent, Bool.or_eq_false_iff] at hafter hbefore
      have hd : ∀ e, isSeparator e = true → isBreak e = true := fun e he => by
        simp only [isSeparator, Bool.or_eq_true, beq_iff_eq] at he
        rcases he with rfl | rfl <;> rfl
      have hline : SingleLine ([c] ++ (d :: gaps)) := h
      rcases ih hline.append.2 hmore with hspaces | hseps
      · rw [List.length_cons, List.replicate_succ] at hspaces
        obtain ⟨rfl, htail⟩ := List.cons.inj hspaces
        rcases hkind with rfl | hsep
        · refine .inl ?_
          rw [List.length_cons, List.length_cons, List.replicate_succ, List.replicate_succ, ← htail]
        · exact absurd hafter.1 (by simp [hd c hsep])
      · rcases hkind with rfl | hsep
        · exact absurd hbefore.1 (by simp [hd d (hseps d List.mem_cons_self)])
        · exact .inr (List.forall_mem_cons.mpr ⟨hsep, hseps⟩)

/-- Spaces are written as they stand. -/
lemma singleBody_spaces (indent n : ℕ) (rest : List Char) :
    singleBody indent false (List.replicate n ' ' ++ rest) =
      List.replicate n ' ' ++ singleBody indent false rest := by
  have hbreaks : ∀ c ∈ List.replicate n ' ', isBreak c = false := fun c hc => by
    rw [List.eq_of_mem_replicate hc]
    rfl
  rw [singleBody_word indent hbreaks]
  simp [List.flatMap_replicate, singleChar]

/-- What is written for a text that starts with a word starts with one, or is the closing quote. -/
lemma atWord_singleBody (indent : ℕ) {text : List Char} (h : AtWord text) (next : List Char) :
    AtWord (singleBody indent false text ++ '\'' :: next) := by
  cases text with
  | nil => exact atWord_cons.mpr rfl
  | cons c text =>
    have hgap := atWord_cons.mp h
    simp only [singleBody, (isGap_eq_false_iff.mp hgap).2, Bool.false_eq_true, if_false,
      List.nil_append]
    split
    · exact atWord_cons.mpr rfl
    · exact atWord_cons.mpr hgap

/-- A gap is written as it stands, and the next line is indented; it is read as that gap. -/
lemma exists_gap_singleBody {indent : ℕ} (hindent : indent ≠ 0) {gaps : List Char}
    (hgaps : ∀ c ∈ gaps, isGap c = true) (hne : gaps ≠ []) (hline : SingleLine gaps)
    {rest : List Char} (hrest : AtWord rest) (next : List Char) (mark : Mark) :
    ∃ (spaces blanks breaks : List Char) (after : Mark),
      singleBody indent false (gaps ++ rest) = gaps ++ (spaces ++ singleBody indent false rest) ∧
      after.column ≠ 0 ∧ joinGap blanks breaks = gaps ∧
      gap mark false (gaps ++ (spaces ++ (singleBody indent false rest ++ '\'' :: next))) [] [] =
        (blanks, breaks, ⟨after, singleBody indent false rest ++ '\'' :: next⟩) := by
  have hleft := atWord_singleBody indent hrest next
  rcases hline.spaces_or_separators hgaps with hspaces | hseps
  · have hpositive := List.length_pos_of_ne_nil hne
    refine ⟨[], gaps, [], mark.right gaps.length, ?_, ?_, by simp [joinGap], ?_⟩
    · rw [hspaces, singleBody_spaces, List.nil_append]
    · rw [Mark.column_right]
      omega
    · have hgap := gap_spaces gaps.length mark hleft []
      rwa [← hspaces] at hgap
  · obtain ⟨after, hcolumn, hgap⟩ := gap_separators hseps indent mark hleft [] (by simpa using hne)
    refine ⟨List.replicate indent ' ', [], gaps, after, ?_, ?_, joinGap_separators hseps hne, hgap⟩
    · exact singleBody_separators indent hseps hrest false fun hnil => absurd hnil hne
    · rw [hcolumn]
      omega

/-- Inside the quotes, reading goes from word to word. -/
lemma readFrom_singleBody {indent : ℕ} (hindent : indent ≠ 0) {next : List Char}
    (hnext : next.head? ≠ some '\'') {text : List Char} (htext : SingleLine text) (fuel : ℕ)
    (hfuel : text.length < fuel) {mark : Mark} (hcolumn : mark.column ≠ 0) :
    ∃ mark', readFrom true fuel ⟨mark, singleBody indent false text ++ '\'' :: next⟩ =
      some (text, ⟨mark', next⟩) := by
  induction fuel generalizing text mark with
  | zero => exact absurd hfuel (Nat.not_lt_zero _)
  | succ fuel ih =>
    obtain ⟨word, more, rfl, hword, hmore⟩ := exists_eq_append_of_class (fun c => !isGap c) text
    obtain ⟨gaps, rest, rfl, hgaps, hrest⟩ := exists_eq_append_of_class isGap more
    have hwordGaps : ∀ c ∈ word, isGap c = false := by simpa using hword
    have hwordBreaks : ∀ c ∈ word, isBreak c = false :=
      fun c hc => (isGap_eq_false_iff.mp (hwordGaps c hc)).2
    have hreads : ∀ c ∈ word, ReadsBack true (singleChar c) c :=
      fun c hc => readsBack_singleChar (hwordGaps c hc)
    cases gaps with
    | nil =>
      obtain rfl : rest = [] := by
        by_contra hcon
        obtain ⟨c, tail, rfl⟩ := List.exists_cons_of_ne_nil hcon
        simp [atWord_cons.mp hrest] at hmore
      have hends : EndsPiece true (quote true :: next) := .inr ⟨rfl, fun _ => hnext⟩
      have hbody : singleBody indent false word = word.flatMap singleChar := by
        simpa [singleBody] using singleBody_word indent hwordBreaks []
      rw [List.nil_append, List.append_nil, hbody]
      exact readFrom_closing hreads hends fuel hcolumn
    | cons g gs =>
      obtain ⟨hgapsLine, hrestLine⟩ := htext.append.2.append
      have hlength : rest.length < fuel := by
        simp only [List.length_append, List.length_cons] at hfuel
        omega
      obtain ⟨spaces, blanks, breaks, after, hbody, hafterColumn, hjoin, hgap⟩ :=
        exists_gap_singleBody hindent hgaps (List.cons_ne_nil g gs) hgapsLine hrest next
          (mark.right (word.flatMap singleChar).length)
      rw [List.cons_append] at hgap
      obtain ⟨mark', hread⟩ := ih hrestLine hlength hafterColumn
      refine ⟨mark', ?_⟩
      rw [singleBody_word indent hwordBreaks, hbody, List.append_assoc, List.append_assoc,
        List.append_assoc, List.cons_append,
        readFrom_gap hreads (hgaps g List.mem_cons_self) hcolumn hgap, hread, hjoin]
      simp

/-- A text without line feeds is read back from between single quotes. -/
theorem read_writeSingle {indent : ℕ} (hindent : indent ≠ 0) {text : List Char}
    (hhold : singleCanHold text = true) (hfeed : '\n' ∉ text) {next : List Char}
    (hnext : next.head? ≠ some '\'') (mark : Mark) :
    ∃ mark', read true ⟨mark, writeSingle indent text ++ next⟩ = some (text, ⟨mark', next⟩) := by
  simp only [singleCanHold, Bool.and_eq_true, Bool.not_eq_true', List.all_eq_true] at hhold
  obtain ⟨⟨hprintable, hafter⟩, hbefore⟩ := hhold
  have hline : SingleLine text := by
    refine ⟨fun c hc hgap => ?_, hafter, hbefore⟩
    have hprint := hprintable c hc
    rcases isGap_iff.mp hgap with rfl | rfl | rfl | rfl | rfl | rfl | rfl
    · exact .inl rfl
    · exact absurd hprint (by decide)
    · exact absurd hc hfeed
    · exact absurd hprint (by decide)
    · exact absurd hprint (by decide)
    · exact .inr rfl
    · exact .inr rfl
  have hlength := length_le_length_singleBody indent false text
  have hfuel : text.length < (writeSingle indent text ++ next).length + 1 := by
    simp only [writeSingle, List.length_append, List.length_cons]
    omega
  have hskip : Cursor.skip ⟨mark, writeSingle indent text ++ next⟩ 1 =
      ⟨mark.right 1, singleBody indent false text ++ '\'' :: next⟩ := by
    simp [Cursor.skip, writeSingle]
  rw [read, hskip]
  exact readFrom_singleBody hindent hnext hline _ hfuel (by simp)

/-! ## Between double quotes -/

/-- The letters of escapes stand for the characters that they are written for. -/
lemma lookup_of_escapeLetter? {c letter : Char} (h : escapeLetter? c = some letter) :
    codeLength? letter = none ∧ simpleEscapes.lookup letter = some c ∧ isBreak letter = false := by
  obtain ⟨before, after, heq, -⟩ := List.lookup_eq_some_iff.mp h
  have hall : ∀ p ∈ before ++ (c, letter) :: after, codeLength? p.2 = none ∧
      simpleEscapes.lookup p.2 = some p.1 ∧ isBreak p.2 = false := by
    rw [← heq]
    decide
  exact hall (c, letter) (by simp)

/-- A character is read back from its code point in enough digits. -/
lemma escape?_hexDigits {letter c : Char} {places : ℕ} (hletter : codeLength? letter = some places)
    (hplaces : 0 < places) (hc : c.toNat < 16 ^ places) (rest : List Char) :
    escape? (letter :: (hexDigits places c.toNat ++ rest)) = some (c, places + 1) := by
  have htake : (hexDigits places c.toNat ++ rest).take places = hexDigits places c.toNat :=
    List.take_left' (length_hexDigits places c.toNat)
  have hvalid : c.toNat.isValidChar := c.valid
  simp only [escape?, hletter, htake, length_hexDigits, if_true, natural?_hexDigits hplaces hc,
    Option.bind_some]
  rw [dif_pos hvalid]
  rfl

/-- An escape is a backslash, a letter and then digits, and is read back in front of any rest. -/
lemma escape?_writeEscape (c : Char) :
    ∃ letter tail, writeEscape c = '\\' :: letter :: tail ∧ isBreak letter = false ∧
      ∀ rest, escape? (letter :: (tail ++ rest)) = some (c, tail.length + 1) := by
  have hcode : ∀ letter places, codeLength? letter = some places → 0 < places →
      c.toNat < 16 ^ places → ∀ rest, escape? (letter :: (hexDigits places c.toNat ++ rest)) =
        some (c, (hexDigits places c.toNat).length + 1) := by
    intro letter places hletter hplaces hc rest
    rw [escape?_hexDigits hletter hplaces hc, length_hexDigits]
  have hbound : c.toNat < 16 ^ 8 := by
    have hvalid := c.valid
    have hval : c.toNat = c.val.toNat := rfl
    simp only [UInt32.isValidChar, Nat.isValidChar] at hvalid
    omega
  unfold writeEscape
  cases hletter : escapeLetter? c with
  | some letter =>
    obtain ⟨hcodeLength, hlookup, hbreak⟩ := lookup_of_escapeLetter? hletter
    refine ⟨letter, [], rfl, hbreak, fun rest => ?_⟩
    simp [escape?, hcodeLength, hlookup]
  | none =>
    simp only
    split_ifs with htwo hfour
    · exact ⟨'x', _, rfl, rfl, hcode 'x' 2 rfl (by norm_num) (by omega)⟩
    · exact ⟨'u', _, rfl, rfl, hcode 'u' 4 rfl (by norm_num) (by omega)⟩
    · exact ⟨'U', _, rfl, rfl, hcode 'U' 8 rfl (by norm_num) hbound⟩

/-- Every character but a space is written as an escape, or stands for itself and ends no piece. -/
lemma doubleChar_cases {c : Char} (hc : c ≠ ' ') : doubleChar c = writeEscape c ∨
    doubleChar c = [c] ∧ isGap c = false ∧ c ≠ '"' ∧ c ≠ '\\' := by
  unfold doubleChar
  split
  case isTrue => exact .inl rfl
  case isFalse hplain =>
    simp only [Bool.not_eq_true, Bool.or_eq_false_iff, Bool.not_eq_false', beq_eq_false_iff_ne]
      at hplain
    obtain ⟨⟨⟨hprint, hbreak⟩, hquote⟩, hbackslash⟩ := hplain
    refine .inr ⟨rfl, ?_, hquote, hbackslash⟩
    rw [← Bool.not_eq_true, isGap, hbreak, Bool.or_false, isBlank, Bool.or_eq_true, beq_iff_eq,
      beq_iff_eq]
    rintro (rfl | rfl)
    · exact hc rfl
    · exact absurd hprint (by decide)

lemma readsBack_doubleChar {c : Char} (hc : c ≠ ' ') : ReadsBack false (doubleChar c) c := by
  rcases doubleChar_cases hc with heq | ⟨heq, hgap, hquote, hbackslash⟩
  · obtain ⟨letter, tail, hescaped, hbreak, hescape⟩ := escape?_writeEscape c
    rw [heq, hescaped]
    refine ⟨by simp, fun fuel mark rest => ?_⟩
    have hgap : isGap '\\' = false := rfl
    simp [piece, hgap, quote, atBreak, hbreak, hescape, Cursor.skip, Nat.add_comm]
  · rw [heq]
    exact ⟨by simp, fun fuel mark rest => by
      simp [piece, hgap, quote, hquote, hbackslash, Cursor.skip]⟩

/-- A gap ends where another character is written. -/
lemma atWord_flatMap_doubleChar {text : List Char} (h : ∀ c ∈ text.head?, c ≠ ' ')
    (next : List Char) : AtWord (text.flatMap doubleChar ++ '"' :: next) := by
  cases text with
  | nil => exact atWord_cons.mpr rfl
  | cons c text =>
    rcases doubleChar_cases (h c rfl) with heq | ⟨heq, hgap, -⟩
    · obtain ⟨letter, tail, hescaped, -⟩ := escape?_writeEscape c
      rw [List.flatMap_cons, heq, hescaped]
      exact atWord_cons.mpr rfl
    · rw [List.flatMap_cons, heq]
      exact atWord_cons.mpr hgap

/-- Inside double quotes, reading goes from space to space. -/
lemma readFrom_doubleBody {next : List Char} (text : List Char) (fuel : ℕ)
    (hfuel : text.length < fuel) {mark : Mark} (hcolumn : mark.column ≠ 0) :
    ∃ mark', readFrom false fuel ⟨mark, text.flatMap doubleChar ++ '"' :: next⟩ =
      some (text, ⟨mark', next⟩) := by
  induction fuel generalizing text mark with
  | zero => exact absurd hfuel (Nat.not_lt_zero _)
  | succ fuel ih =>
    obtain ⟨word, more, rfl, hword, hmore⟩ := exists_eq_append_of_class (fun c => c != ' ') text
    obtain ⟨spaces, rest, rfl, hspaces, hrest⟩ := exists_eq_append_of_class (fun c => c == ' ') more
    have hreads : ∀ c ∈ word, ReadsBack false (doubleChar c) c :=
      fun c hc => readsBack_doubleChar (by simpa using hword c hc)
    have hreplicate : spaces = List.replicate spaces.length ' ' :=
      List.eq_replicate_of_mem fun c hc => by simpa using hspaces c hc
    cases hlength : spaces.length with
    | zero =>
      obtain rfl := List.length_eq_zero_iff.mp hlength
      obtain rfl : rest = [] := by
        by_contra hcon
        obtain ⟨c, tail, rfl⟩ := List.exists_cons_of_ne_nil hcon
        simp at hrest hmore
        exact hrest hmore
      have hends : EndsPiece false (quote false :: next) := .inr ⟨rfl, fun hcon => by cases hcon⟩
      rw [List.append_nil, List.append_nil]
      exact readFrom_closing hreads hends fuel hcolumn
    | succ n =>
      have hleft := atWord_flatMap_doubleChar (by simpa using hrest) next
      have hbody : (word ++ (spaces ++ rest)).flatMap doubleChar =
          word.flatMap doubleChar ++ (List.replicate (n + 1) ' ' ++ rest.flatMap doubleChar) := by
        have hspace : doubleChar ' ' = [' '] := rfl
        rw [hreplicate, hlength, List.flatMap_append, List.flatMap_append, List.flatMap_replicate,
          hspace]
        simp
      have hshort : rest.length < fuel := by
        simp only [List.length_append] at hfuel
        omega
      have hafter := gap_spaces (n + 1) (mark.right (word.flatMap doubleChar).length) hleft []
      rw [List.replicate_succ, List.cons_append] at hafter
      have hplace : ((mark.right (word.flatMap doubleChar).length).right (n + 1)).column ≠ 0 := by
        simp
      obtain ⟨mark', hread⟩ := ih rest hshort hplace
      refine ⟨mark', ?_⟩
      rw [hbody, List.append_assoc, List.append_assoc, List.replicate_succ, List.cons_append,
        readFrom_gap hreads rfl hcolumn hafter, hread, hreplicate, hlength, List.replicate_succ]
      simp [joinGap]

/-- Every text is read back from between double quotes. -/
theorem read_writeDouble (text next : List Char) (mark : Mark) :
    ∃ mark', read false ⟨mark, writeDouble text ++ next⟩ = some (text, ⟨mark', next⟩) := by
  have hchar : ∀ c : Char, 1 ≤ (doubleChar c).length := fun c => by
    by_cases hc : c = ' '
    · rw [hc]
      rfl
    · exact List.length_pos_of_ne_nil (readsBack_doubleChar hc).ne_nil
  have hlength : text.length ≤ (text.flatMap doubleChar).length := by
    have hsum := List.length_le_sum_of_one_le (text.map fun c => (doubleChar c).length)
      (List.forall_mem_map.mpr fun c _ => hchar c)
    rwa [List.length_map, ← List.length_flatMap] at hsum
  have hfuel : text.length < (writeDouble text ++ next).length + 1 := by
    simp only [writeDouble, List.length_append, List.length_cons]
    omega
  have hskip : Cursor.skip ⟨mark, writeDouble text ++ next⟩ 1 =
      ⟨mark.right 1, text.flatMap doubleChar ++ '"' :: next⟩ := by
    simp [Cursor.skip, writeDouble]
  rw [read, hskip]
  exact readFrom_doubleBody text _ hfuel (by simp)

/-! ## Characters that are written -/

lemma isAllowed_of_mem_singleBody (indent : ℕ) (broken : Bool) {text : List Char}
    (h : ∀ c ∈ text, isPrintable c = true) :
    ∀ c ∈ singleBody indent broken text, isAllowed c = true := by
  induction text generalizing broken with
  | nil =>
    intro c hc
    rw [singleBody] at hc
    split at hc
    · exact isAllowed_of_mem_replicate hc
    · simp at hc
  | cons d text ih =>
    obtain ⟨hd, hmore⟩ := List.forall_mem_cons.mp h
    have hallowed := isAllowed_of_isPrintable hd
    intro c hc
    rw [singleBody] at hc
    split at hc
    · rcases List.mem_append.mp hc with hc | hc
      · split at hc
        · rw [List.mem_singleton.mp hc]
          rfl
        · simp at hc
      · rcases List.mem_cons.mp hc with rfl | hc
        · exact hallowed
        · exact ih true hmore c hc
    · rcases List.mem_append.mp hc with hc | hc
      · rcases List.mem_append.mp hc with hc | hc
        · split at hc
          · exact isAllowed_of_mem_replicate hc
          · simp at hc
        · split at hc
          · have hquote : c = '\'' := by simpa using hc
            rw [hquote]
            rfl
          · rwa [List.mem_singleton.mp hc]
      · exact ih false hmore c hc

lemma isAllowed_of_mem_hexDigits {places n : ℕ} {c : Char} (h : c ∈ hexDigits places n) :
    isAllowed c = true := by
  induction places generalizing n with
  | zero => simp [hexDigits] at h
  | succ places ih =>
    rw [hexDigits] at h
    rcases List.mem_append.mp h with h | h
    · exact ih h
    · have hdigit : ∀ d < 16, isAllowed (("0123456789ABCDEF".toList)[d]?.getD '0') = true := by
        decide
      rw [List.mem_singleton.mp h]
      exact hdigit _ (Nat.mod_lt n (by norm_num))

/-- An escape is a backslash and a letter, behind which digits may stand. -/
lemma isAllowed_of_mem_writeEscape {c d : Char} (h : d ∈ writeEscape c) : isAllowed d = true := by
  unfold writeEscape at h
  split at h
  case h_1 letter hletter =>
    obtain ⟨before, after, hentries, -⟩ := List.lookup_eq_some_iff.mp hletter
    have hletters : ∀ entry ∈ before ++ (c, letter) :: after, isAllowed entry.2 = true := by
      rw [← hentries]
      decide
    have hallowed := hletters (c, letter) (by simp)
    rcases List.mem_cons.mp h with rfl | h
    · rfl
    · rwa [List.mem_singleton.mp h]
  case h_2 =>
    have hescape : ∀ (letter : Char) (places : ℕ), isAllowed letter = true →
        d ∈ '\\' :: letter :: hexDigits places c.toNat → isAllowed d = true := by
      intro letter places hletter hd
      rcases List.mem_cons.mp hd with rfl | hd
      · rfl
      · rcases List.mem_cons.mp hd with rfl | hd
        · exact hletter
        · exact isAllowed_of_mem_hexDigits hd
    split at h
    · exact hescape 'x' 2 rfl h
    · split at h
      · exact hescape 'u' 4 rfl h
      · exact hescape 'U' 8 rfl h

lemma isAllowed_of_mem_doubleChar {c d : Char} (h : d ∈ doubleChar c) : isAllowed d = true := by
  unfold doubleChar at h
  split at h
  case isTrue => exact isAllowed_of_mem_writeEscape h
  case isFalse hplain =>
    simp only [Bool.or_eq_true, not_or, Bool.not_eq_true', Bool.not_eq_false] at hplain
    rw [List.mem_singleton.mp h]
    exact isAllowed_of_isPrintable hplain.1.1.1

end NodeTelemetry.Yaml.QuotedScalar
