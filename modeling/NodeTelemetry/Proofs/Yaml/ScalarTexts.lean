import Mathlib
import NodeTelemetry.Yaml.ScalarText
import NodeTelemetry.Proofs.Yaml.TokenRun
import NodeTelemetry.Proofs.Yaml.QuotedScalars
import NodeTelemetry.Proofs.Yaml.BlockScalars

/-!
# Values of keys are read back

A value behind a colon is one token, and the reader stands at the start of the next line after it.
This is so for a plain scalar in any mapping (`TokenReader.leads_plain`), and for a text in the
style that is chosen for it in a mapping at the left margin (`TokenReader.leads_writeText`).  The
style is chosen by one half of `serde_yaml` 0.9, its emitter, and read by the other.
-/

namespace NodeTelemetry.Yaml

namespace TokenReader

variable {tokens : List Token} {columns : List ℕ} {mark : Mark}

/-! ## Plain scalars -/

/-- A text that can be plain starts with a character that may start a token. -/
lemma atToken_of_canHold {text : List Char} (hne : text ≠ [])
    (hhold : PlainScalar.canHold text = true) (next : List Char) : AtToken (text ++ next) := by
  obtain ⟨c, rest, rfl⟩ := List.exists_cons_of_ne_nil hne
  simp only [PlainScalar.canHold, Bool.and_eq_true, Bool.not_eq_true', Bool.or_eq_false_iff,
    beq_eq_false_iff_ne, List.all_eq_true] at hhold
  obtain ⟨⟨⟨⟨-, hstart⟩, -⟩, hprintable⟩, hspace, -⟩ := hhold
  obtain ⟨hprint, hbreak⟩ := hprintable c List.mem_cons_self
  intro d hd
  obtain rfl := Option.some.inj hd
  refine ⟨?_, ?_, ?_⟩
  · have htab : c ≠ '\t' := by
      rintro rfl
      exact absurd hprint (by decide)
    have hblank : c ≠ ' ' := fun hc => hspace (congrArg some hc)
    simp only [isGap, isBlank, hbreak, beq_false_of_ne hblank, beq_false_of_ne htab, Bool.or_self]
  · rintro rfl
    exact absurd hstart (by simp [PlainScalar.badStart])
  · rintro rfl
    exact absurd hprint (by decide)

/-- An indicator that starts a text that can be plain stands before a character that is no gap, also
in front of a line end. -/
lemma atGap_of_badStart {c : Char} {rest : List Char} (h : PlainScalar.badStart (c :: rest) = false)
    (hc : c = '?' ∨ c = ':' ∨ c = '-') (next : List Char) :
    atGap (rest ++ '\n' :: next) = false := by
  have hrest : atGap rest = false := by
    simp only [PlainScalar.badStart, Bool.or_eq_false_iff] at h
    rcases hc with rfl | rfl | rfl <;> simpa using h.2
  cases rest with
  | nil => cases hrest
  | cons d rest => exact hrest

/-- A text that can be plain starts a plain scalar. -/
lemma startsPlain_of_badStart {c : Char} {rest : List Char}
    (h : PlainScalar.badStart (c :: rest) = false) (hgap : isGap c = false) (next : List Char) :
    startsPlain false c (rest ++ '\n' :: next) = true := by
  by_cases hc : c = '?' ∨ c = ':' ∨ c = '-'
  · have hfollows := atGap_of_badStart h hc next
    have hblank : ((rest ++ '\n' :: next).head?.any isBlank) = false := by
      generalize rest ++ '\n' :: next = after at hfollows
      cases after with
      | nil => rfl
      | cons d after => exact (isGap_eq_false_iff.mp hfollows).1
    rcases hc with rfl | rfl | rfl
    · simp [startsPlain, hfollows]
    · simp [startsPlain, hfollows]
    · rw [startsPlain, hblank]
      simp
  · simp only [not_or] at hc
    simp only [PlainScalar.badStart, Bool.or_eq_false_iff] at h
    have hsigns := h.1
    simp at hsigns
    simp [startsPlain, hgap, hsigns, hc]

/-- What starts a plain scalar in its text starts one in front of a line end, and no other token. -/
lemma take_plainScalar {text : List Char} (hne : text ≠ [])
    (hhold : PlainScalar.canHold text = true) (hcolumn : mark.column ≠ 0) (next : List Char) :
    (afterColon tokens columns mark (text ++ '\n' :: next)).take =
      (afterColon tokens columns mark (text ++ '\n' :: next)).plainScalar := by
  have hgap := (atToken_of_canHold hne hhold []).atWord
  obtain ⟨c, rest, rfl⟩ := List.exists_cons_of_ne_nil hne
  have hmarker : Cursor.atDocumentMarker ⟨mark, c :: (rest ++ '\n' :: next)⟩ = false :=
    Cursor.atDocumentMarker_of_column hcolumn
  have hstart : PlainScalar.badStart (c :: rest) = false := by
    simp only [PlainScalar.canHold, Bool.and_eq_true, Bool.not_eq_true'] at hhold
    exact hhold.1.1.1.2
  have hindicator : ∀ d, d = '?' ∨ d = ':' ∨ d = '-' →
      (c == d && atGap (rest ++ '\n' :: next)) = false := by
    intro d hd
    by_cases hc : c = d
    · rw [atGap_of_badStart hstart (hc ▸ hd), Bool.and_false]
    · rw [beq_false_of_ne hc, Bool.false_and]
  have hsigns := hstart
  simp only [PlainScalar.badStart, Bool.or_eq_false_iff] at hsigns
  have hnone := hsigns.1
  simp at hnone
  simp only [afterColon, List.cons_append, take, inFlow, List.isEmpty_nil, Bool.not_true, hmarker,
    startsPlain_of_badStart hstart (atWord_cons.mp hgap), Bool.false_or,
    hindicator '?' (by simp), hindicator ':' (by simp), hindicator '-' (by simp)]
  simp [hnone]

/-- Behind a value, the reader goes on at the start of the next line. -/
lemma advanceToToken_indented (columns : List ℕ) (tokens : List Token) {mark : Mark}
    (hmark : mark.column = 0) (n : ℕ) {text : List Char} (h : AtToken text) :
    (lineStart tokens columns (mark.right n) text).advanceToToken =
      (lineStart tokens columns mark (List.replicate n ' ' ++ text)).advanceToToken := by
  rw [advanceToToken_lineStart tokens columns hmark n h, lineStart,
    advanceToToken_of_skipGap (skipGap_of_atToken h (mark.right n) true), Mark.column_right, hmark,
    Nat.zero_add]

/-- A plain scalar is the value of a key up to the end of its line. -/
lemma leads_plain {text : List Char} (hne : text ≠ []) (hhold : PlainScalar.canHold text = true)
    {column n : ℕ} (hcolumn : column < mark.column) (hn : n ≤ column) {next : List Char}
    (hnext : AtToken next) :
    ∃ mark' : Mark, mark'.column = 0 ∧
      (afterColon tokens (column :: columns) mark
        (' ' :: (text ++ '\n' :: (List.replicate n ' ' ++ next)))).Leads
          (lineStart (.scalar .plain text :: tokens) (column :: columns) mark'
            (List.replicate n ' ' ++ next)) := by
  have hplace : (mark.right 1).column ≠ 0 := by simp
  obtain ⟨mark', hmark', hread⟩ := PlainScalar.read_text hne hhold (Nat.lt_succ_of_le hn)
    hnext.atWord hplace (by rw [Mark.column_right]; omega)
  have htaken : (afterColon tokens (column :: columns) (mark.right 1)
      (text ++ '\n' :: (List.replicate n ' ' ++ next))).take =
        some (lineStart (.scalar .plain text :: tokens) (column :: columns) (mark'.right n)
          next) := by
    rw [take_plainScalar hne hhold hplace, plainScalar]
    simp only [saveCandidate, afterColon, inFlow, List.isEmpty_nil, Bool.not_true,
      Bool.false_eq_true, if_false, List.head?_cons, Option.elim_some, Option.bind_eq_bind,
      Option.bind_some, hread]
    rfl
  have hopen : ∀ k ∈ (column :: columns).head?, k ≤ mark.column := by
    intro k hk
    obtain rfl := Option.some.inj hk
    exact hcolumn.le
  refine ⟨mark', hmark', leads_of_take (advanceToToken_afterColon tokens hopen
    (atToken_of_canHold hne hhold _)) (by simp [afterColon]) htaken
      (advanceToToken_indented _ _ hmark' n hnext) ?_⟩
  simp only [lineStart, afterColon, List.length_append, List.length_cons]
  omega

/-! ## Texts in their styles -/

/-- A quoted scalar is the value of a key up to its closing quote, before a line end. -/
lemma leads_quoted (single : Bool) {text written : List Char}
    (hquote : ∃ rest, written = QuotedScalar.quote single :: rest)
    (hread : ∀ mark next, ∃ mark', QuotedScalar.read single ⟨mark, written ++ '\n' :: next⟩ =
      some (text, ⟨mark', '\n' :: next⟩))
    (hcolumns : ∀ k ∈ columns.head?, k ≤ mark.column) (next : List Char) :
    ∃ mark' : Mark, mark'.column = 0 ∧
      (afterColon tokens columns mark (' ' :: (written ++ '\n' :: next))).Leads
        (lineStart (.scalar (if single then .singleQuoted else .doubleQuoted) text :: tokens)
          columns mark' next) := by
  obtain ⟨after, hafter⟩ := hread (mark.right 1) next
  obtain ⟨rest, rfl⟩ := hquote
  have htoken : AtToken (QuotedScalar.quote single :: rest ++ '\n' :: next) := by
    intro c hc
    obtain rfl := Option.some.inj hc
    cases single <;> decide
  have hmarker : Cursor.atDocumentMarker
      ⟨mark.right 1, QuotedScalar.quote single :: (rest ++ '\n' :: next)⟩ = false :=
    Cursor.atDocumentMarker_of_column (by simp)
  have htake : (afterColon tokens columns (mark.right 1)
      (QuotedScalar.quote single :: rest ++ '\n' :: next)).take =
        (afterColon tokens columns (mark.right 1)
          (QuotedScalar.quote single :: rest ++ '\n' :: next)).quotedScalar single := by
    simp only [take, afterColon, List.cons_append, hmarker]
    cases single <;> rfl
  have htaken : (afterColon tokens columns (mark.right 1)
      (QuotedScalar.quote single :: rest ++ '\n' :: next)).take =
        some (afterColon (.scalar (if single then .singleQuoted else .doubleQuoted) text :: tokens)
          columns after ('\n' :: next)) := by
    rw [htake, quotedScalar]
    simp only [saveCandidate, afterColon, Bool.false_eq_true, if_false, Option.bind_eq_bind,
      Option.bind_some, hafter]
    rfl
  refine ⟨after.down 1, rfl, leads_of_take (advanceToToken_afterColon tokens hcolumns htoken)
    (by simp [afterColon]) htaken (advanceToToken_lineFeed _ _ _ _) ?_⟩
  simp only [lineStart, afterColon, List.length_append, List.length_cons]
  omega

/-- A block of lines is the value of a key up to the first line to the left of it. -/
lemma leads_literal {text : List Char} (hne : text ≠ []) (hhold : BlockScalar.canHold text = true)
    (hcolumn : 0 < mark.column) {next : List Char} (hnext : AtToken next) :
    ∃ mark' : Mark, mark'.column = 0 ∧
      (afterColon tokens (0 :: columns) mark (' ' :: (BlockScalar.writeLiteral 2 text ++
        (if text.getLast?.any isBreak then [] else ['\n']) ++ next))).Leads
          (lineStart (.scalar .literal text :: tokens) (0 :: columns) mark' next) := by
  obtain ⟨mark', hmark', hread⟩ :=
    BlockScalar.read_writeLiteral hne hhold hnext.atWord (mark.right 1)
  obtain ⟨lines, hlines⟩ : ∃ lines, BlockScalar.writeLiteral 2 text ++
      (if text.getLast?.any isBreak then [] else ['\n']) ++ next = '|' :: (lines ++ next) := by
    simp only [BlockScalar.writeLiteral, List.cons_append]
    exact ⟨_, rfl⟩
  rw [hlines] at hread ⊢
  have htoken : AtToken ('|' :: (lines ++ next)) := by
    intro c hc
    obtain rfl := Option.some.inj hc
    decide
  have hopen : ∀ k ∈ (0 :: columns).head?, k ≤ mark.column := by
    intro k hk
    obtain rfl := Option.some.inj hk
    exact hcolumn.le
  have hmarker : Cursor.atDocumentMarker ⟨mark.right 1, '|' :: (lines ++ next)⟩ = false :=
    Cursor.atDocumentMarker_of_column (by simp)
  have htake : (afterColon tokens (0 :: columns) (mark.right 1) ('|' :: (lines ++ next))).take =
      (afterColon tokens (0 :: columns) (mark.right 1) ('|' :: (lines ++ next))).blockScalar
        false := by
    simp only [take, afterColon, hmarker]
    rfl
  have htaken : (afterColon tokens (0 :: columns) (mark.right 1) ('|' :: (lines ++ next))).take =
      some (lineStart (.scalar .literal text :: tokens) (0 :: columns) mark' next) := by
    rw [htake, blockScalar]
    simp only [dropCandidate, afterColon, Option.any_none, Bool.false_eq_true, if_false,
      List.head?_cons, Option.bind_eq_bind, Option.bind_some, hread]
    rfl
  refine ⟨mark', hmark', leads_of_take (advanceToToken_afterColon tokens hopen htoken)
    (by simp [afterColon]) htaken rfl ?_⟩
  simp only [lineStart, afterColon, List.length_append, List.length_cons]
  omega

end TokenReader

/-- The line end behind a value that does not end a line itself. -/
def lineEndAfter (value : List Char) : List Char :=
  if value.getLast?.any isBreak then [] else ['\n']

lemma lineEndAfter_of_not_isBreak {value : List Char} {c : Char} (h : isBreak c = false) :
    lineEndAfter (value ++ [c]) = ['\n'] := by
  simp [lineEndAfter, h]

lemma lineEndAfter_of_canHold {text : List Char} (hne : text ≠ [])
    (hhold : PlainScalar.canHold text = true) : lineEndAfter text = ['\n'] := by
  obtain ⟨front, c, rfl⟩ := (List.eq_nil_or_concat text).resolve_left hne
  simp only [PlainScalar.canHold, Bool.and_eq_true, List.all_eq_true, Bool.not_eq_true'] at hhold
  rw [List.concat_eq_append]
  exact lineEndAfter_of_not_isBreak (hhold.1.2 c (by simp)).2

/-- A block of lines ends a line if its text does. -/
lemma lineEndAfter_writeLiteral {text : List Char} (hne : text ≠ []) (indent : ℕ) :
    lineEndAfter (BlockScalar.writeLiteral indent text) =
      if text.getLast?.any isBreak then [] else ['\n'] := by
  have hlines : ∀ (text : List Char) (broken : Bool), text ≠ [] →
      (BlockScalar.writeLines indent broken text).getLast? = text.getLast? := by
    intro text
    induction text with
    | nil => exact fun _ hcon => absurd rfl hcon
    | cons c text ih =>
      intro broken _
      rcases eq_or_ne text [] with rfl | htext
      · rw [BlockScalar.writeLines]
        split <;> simp [BlockScalar.writeLines]
      · have hwritten : ∀ b, BlockScalar.writeLines indent b text ≠ [] := fun b hcon => by
          have hlength := BlockScalar.length_le_length_writeLines indent b text
          rw [hcon, List.length_nil, Nat.le_zero, List.length_eq_zero_iff] at hlength
          exact htext hlength
        rw [BlockScalar.writeLines]
        split
        · rw [List.getLast?_cons_of_ne_nil (hwritten true), ih true htext,
            List.getLast?_cons_of_ne_nil htext]
        · rw [List.getLast?_append_of_ne_nil _ (List.cons_ne_nil _ _),
            List.getLast?_cons_of_ne_nil (hwritten false), ih false htext,
            List.getLast?_cons_of_ne_nil htext]
  have hwritten : BlockScalar.writeLines indent true text ≠ [] := fun hcon => by
    have hlength := BlockScalar.length_le_length_writeLines indent true text
    rw [hcon, List.length_nil, Nat.le_zero, List.length_eq_zero_iff] at hlength
    exact hne hlength
  rw [lineEndAfter, BlockScalar.writeLiteral, List.getLast?_append_of_ne_nil _ (by simp),
    List.getLast?_cons_of_ne_nil hwritten, hlines text true hne]

/-- What holds of a text that is written in a style. -/
lemma styleOf_cases (text : List Char) :
    (styleOf text = .plain ∧ text ≠ [] ∧ PlainScalar.canHold text = true ∧
        looksLikeValue text = false) ∨
      (styleOf text = .singleQuoted ∧ '\n' ∉ text ∧ QuotedScalar.singleCanHold text = true) ∨
      styleOf text = .doubleQuoted ∨
      (styleOf text = .literal ∧ text ≠ [] ∧ BlockScalar.canHold text = true) := by
  unfold styleOf
  cases hfeed : hasLineFeed text with
  | true =>
    have hne : text ≠ [] := by
      rintro rfl
      cases hfeed
    cases hhold : BlockScalar.canHold text <;> simp [hne]
  | false =>
    have hnone : '\n' ∉ text := by
      rw [hasLineFeed, ← Bool.not_eq_true, List.contains_iff_mem] at hfeed
      exact hfeed
    cases hplain : (!looksLikeValue text && PlainScalar.canHold text) with
    | true =>
      rw [Bool.and_eq_true, Bool.not_eq_true'] at hplain
      have hne : text ≠ [] := by
        rintro rfl
        exact absurd hplain.1 (by decide)
      simp [hplain, hne]
    | false => cases hhold : QuotedScalar.singleCanHold text <;> simp [hnone]

namespace TokenReader

/-- A text is read back as the value of a key in a mapping at the left margin. -/
theorem leads_writeText (text : List Char) (tokens : List Token) (columns : List ℕ) {mark : Mark}
    (hcolumn : 0 < mark.column) {next : List Char} (hnext : AtToken next) :
    ∃ mark' : Mark, mark'.column = 0 ∧
      (afterColon tokens (0 :: columns) mark
        (' ' :: (writeText 2 text ++ lineEndAfter (writeText 2 text) ++ next))).Leads
          (lineStart (.scalar (styleOf text) text :: tokens) (0 :: columns) mark' next) := by
  have hopen : ∀ k ∈ (0 :: columns).head?, k ≤ mark.column := by
    intro k hk
    obtain rfl := Option.some.inj hk
    exact hcolumn.le
  rcases styleOf_cases text with ⟨hstyle, hne, hhold, -⟩ | ⟨hstyle, hfeed, hhold⟩ | hstyle |
    ⟨hstyle, hne, hhold⟩ <;> rw [writeText, hstyle] <;> simp only
  · rw [lineEndAfter_of_canHold hne hhold, List.append_assoc]
    exact leads_plain hne hhold (n := 0) hcolumn le_rfl hnext
  · have hend : lineEndAfter (QuotedScalar.writeSingle 2 text) = ['\n'] :=
      lineEndAfter_of_not_isBreak rfl
    rw [hend, List.append_assoc]
    exact leads_quoted true ⟨_, rfl⟩ (fun mark next =>
      QuotedScalar.read_writeSingle two_ne_zero hhold hfeed (by simp) mark) hopen next
  · have hend : lineEndAfter (QuotedScalar.writeDouble text) = ['\n'] :=
      lineEndAfter_of_not_isBreak rfl
    rw [hend, List.append_assoc]
    exact leads_quoted false ⟨_, rfl⟩ (fun mark next =>
      QuotedScalar.read_writeDouble text ('\n' :: next) mark) hopen next
  · rw [lineEndAfter_writeLiteral hne]
    exact leads_literal hne hhold hcolumn hnext

end TokenReader

/-- A text is written in characters that may stand in a document, whatever characters it holds. -/
theorem isAllowed_of_mem_writeText {text : List Char} :
    ∀ c ∈ writeText 2 text, isAllowed c = true := by
  intro c hc
  rw [writeText] at hc
  rcases styleOf_cases text with ⟨hstyle, -, hhold, -⟩ | ⟨hstyle, -, hhold⟩ | hstyle |
    ⟨hstyle, hne, hhold⟩ <;> rw [hstyle] at hc
  · simp only [PlainScalar.canHold, Bool.and_eq_true, List.all_eq_true] at hhold
    exact isAllowed_of_isPrintable (hhold.1.2 c hc).1
  · simp only [QuotedScalar.singleCanHold, Bool.and_eq_true, List.all_eq_true] at hhold
    simp only [QuotedScalar.writeSingle, List.cons_append, List.mem_cons, List.mem_append,
      List.not_mem_nil, or_false] at hc
    rcases hc with rfl | hc | rfl
    · rfl
    · exact QuotedScalar.isAllowed_of_mem_singleBody 2 false hhold.1.1 c hc
    · rfl
  · simp only [QuotedScalar.writeDouble, List.cons_append, List.mem_cons, List.mem_append,
      List.not_mem_nil, or_false, List.mem_flatMap] at hc
    rcases hc with rfl | ⟨d, -, hc⟩ | rfl
    · rfl
    · exact QuotedScalar.isAllowed_of_mem_doubleChar hc
    · rfl
  · simp only [BlockScalar.canHold, Bool.and_eq_true, List.all_eq_true] at hhold
    rw [BlockScalar.writeLiteral, List.mem_append, List.mem_append] at hc
    rcases hc with (hc | hc) | hc
    · rcases List.mem_cons.mp hc with rfl | hc
      · rfl
      · split at hc
        · rw [List.mem_singleton.mp (hc : c ∈ ['2'])]
          rfl
        · simp at hc
    · exact BlockScalar.isAllowed_of_mem_chompingSign hne hc
    · rcases List.mem_cons.mp hc with rfl | hc
      · rfl
      · exact BlockScalar.isAllowed_of_mem_writeLines 2 true hhold.1.1 c hc

end NodeTelemetry.Yaml
