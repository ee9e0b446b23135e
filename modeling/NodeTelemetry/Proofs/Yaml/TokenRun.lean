import Mathlib
import NodeTelemetry.Yaml.Token
import NodeTelemetry.Proofs.Yaml.PlainScalars

/-!
# Cutting block mappings into tokens

A reader that cuts a text into tokens stands at the start of a line (`TokenReader.lineStart`) or
behind the colon of a key (`TokenReader.afterColon`), and goes from the one to the other: a key at
the start of a line opens or closes block mappings by its column and leads behind its colon
(`TokenReader.leads_key`), and a value leads to the start of the next line.  `TokenReader.Leads`
says that two readers give the same tokens in the end, without running out of fuel, and is
transitive.

What a text starts with cannot be undone by what follows: tokens before which no candidate for a key
is left stay at the front whatever is read later (`TokenReader.prefix_of_run`).
-/

namespace NodeTelemetry.Yaml.TokenReader

/-! ## From reader to reader -/

/-- Takes tokens to the end of the text from the next token on. -/
def resume (fuel : ℕ) (s : TokenReader) : Option (List Token) :=
  if s.cursor.rest.isEmpty then s.finish else s.take.bind (run fuel)

lemma run_succ (fuel : ℕ) (s : TokenReader) :
    run (fuel + 1) s = s.advanceToToken.bind (resume fuel) := rfl

/-- Two readers give the same tokens, and fuel that is enough for the one is enough for the other.
-/
def Leads (s s' : TokenReader) : Prop :=
  ∀ fuel, s.cursor.rest.length < fuel →
    ∃ fuel', s'.cursor.rest.length < fuel' ∧ run fuel s = run fuel' s'

lemma Leads.refl (s : TokenReader) : s.Leads s := fun fuel hfuel => ⟨fuel, hfuel, rfl⟩

lemma Leads.trans {s s' s'' : TokenReader} (h : s.Leads s') (h' : s'.Leads s'') :
    s.Leads s'' := by
  intro fuel hfuel
  obtain ⟨fuel', hfuel', heq⟩ := h fuel hfuel
  obtain ⟨fuel'', hfuel'', heq'⟩ := h' fuel' hfuel'
  exact ⟨fuel'', hfuel'', heq.trans heq'⟩

/-- Readers lead to each other if they go to the same next token. -/
lemma leads_of_advanceToToken {s s' : TokenReader} (h : s.advanceToToken = s'.advanceToToken)
    (hlength : s'.cursor.rest.length ≤ s.cursor.rest.length) : s.Leads s' := by
  intro fuel hfuel
  obtain ⟨fuel, rfl⟩ := Nat.exists_eq_succ_of_ne_zero (Nat.ne_of_gt (Nat.zero_lt_of_lt hfuel))
  exact ⟨fuel + 1, Nat.lt_of_le_of_lt hlength hfuel, by rw [run_succ, run_succ, h]⟩

/-- A reader leads behind the token that it takes. -/
lemma run_of_take {s at' s' : TokenReader} (hat : s.advanceToToken = some at')
    (hrest : at'.cursor.rest ≠ []) (htake : at'.take = some s') (fuel : ℕ) :
    run (fuel + 1) s = run fuel s' := by
  have hempty : at'.cursor.rest.isEmpty = false := by simpa using hrest
  rw [run_succ, hat, Option.bind_some, resume, hempty, if_neg Bool.false_ne_true, htake,
    Option.bind_some]

lemma leads_of_take {s at' taken s' : TokenReader} (hat : s.advanceToToken = some at')
    (hrest : at'.cursor.rest ≠ []) (htake : at'.take = some taken)
    (hnext : taken.advanceToToken = s'.advanceToToken)
    (hlength : s'.cursor.rest.length < s.cursor.rest.length) : s.Leads s' := by
  intro fuel hfuel
  obtain ⟨fuel, rfl⟩ := Nat.exists_eq_succ_of_ne_zero (Nat.ne_of_gt (Nat.zero_lt_of_lt hfuel))
  obtain ⟨fuel, rfl⟩ := Nat.exists_eq_succ_of_ne_zero (n := fuel) (by omega)
  exact ⟨fuel + 1, by omega, by rw [run_of_take hat hrest htake, run_succ, run_succ, hnext]⟩

/-! ## Places in a block mapping -/

/-- The reader at the start of a line, where a key may start. -/
def lineStart (tokens : List Token) (columns : List ℕ) (mark : Mark) (text : List Char) :
    TokenReader := ⟨⟨mark, text⟩, tokens, columns, true, none, []⟩

/-- The reader behind the colon of a key. -/
def afterColon (tokens : List Token) (columns : List ℕ) (mark : Mark) (text : List Char) :
    TokenReader := ⟨⟨mark, text⟩, tokens, columns, false, none, []⟩

/-- The text is at its end or at a character that may start a token. -/
def AtToken (text : List Char) : Prop :=
  ∀ c ∈ text.head?, isGap c = false ∧ c ≠ '#' ∧ c ≠ byteOrderMark

lemma AtToken.atWord {text : List Char} (h : AtToken text) : AtWord text := fun c hc => (h c hc).1

lemma atToken_nil : AtToken [] := by simp [AtToken]

/-- A token may start where a name does. -/
lemma atToken_of_isIdentifier {name : List Char} (h : IsIdentifier name) (rest : List Char) :
    AtToken (name ++ rest) := by
  obtain ⟨c, tail, rfl, -, hall⟩ := h.exists_cons
  have hc := hall c List.mem_cons_self
  intro d hd
  obtain rfl := Option.some.inj hd
  exact ⟨isGap_of_isIdentifierChar hc, ne_of_isIdentifierChar hc (by decide),
    ne_of_isIdentifierChar hc (by decide)⟩

/-! ## The way to the next token -/

lemma skipGap_of_atToken {text : List Char} (h : AtToken text) (mark : Mark) (keyAllowed : Bool) :
    skipGap false mark text keyAllowed false = (⟨mark, text⟩, keyAllowed) := by
  unfold skipGap
  split
  · rfl
  · exact absurd (h _ rfl).1 (by decide)
  · obtain ⟨hgap, hhash, hmark⟩ := h _ rfl
    simp only [isGap, isBlank, Bool.or_eq_false_iff] at hgap
    simp [hgap, hhash, hmark]

lemma skipGap_space (mark : Mark) (rest : List Char) (keyAllowed : Bool) :
    skipGap false mark (' ' :: rest) keyAllowed false =
      skipGap false (mark.right 1) rest keyAllowed false := by
  have hbreak : isBreak ' ' = false := rfl
  have hmark : (' ' == byteOrderMark) = false := rfl
  rw [skipGap]
  · simp [hbreak, hmark]
  · simp

lemma skipGap_spaces (n : ℕ) {text : List Char} (h : AtToken text) (mark : Mark)
    (keyAllowed : Bool) :
    skipGap false mark (List.replicate n ' ' ++ text) keyAllowed false =
      (⟨mark.right n, text⟩, keyAllowed) := by
  induction n generalizing mark with
  | zero => exact skipGap_of_atToken h mark keyAllowed
  | succ n ih =>
    rw [List.replicate_succ, List.cons_append, skipGap_space, ih, Mark.right_right, Nat.add_comm 1]

/-- On a new line a key may start. -/
lemma skipGap_lineFeed (mark : Mark) (rest : List Char) (keyAllowed : Bool) :
    skipGap false mark ('\n' :: rest) keyAllowed false =
      skipGap false (mark.down 1) rest true false := by
  have hbreak : isBreak '\n' = true := rfl
  rw [skipGap]
  · simp [hbreak]
  · simp

/-- Nothing is closed to the right of the innermost collection. -/
lemma dedentFrom_of_le {column : ℕ} {columns : List ℕ} (h : ∀ n ∈ columns.head?, n ≤ column)
    (tokens : List Token) : dedentFrom column columns tokens = (columns, tokens) := by
  cases columns with
  | nil => rfl
  | cons n columns => rw [dedentFrom, if_neg (Nat.not_lt.mpr (h n rfl))]

/-- What stays open reaches at most to the column. -/
lemma le_of_mem_head?_dedentFrom (column : ℕ) (columns : List ℕ) (tokens : List Token) :
    ∀ n ∈ (dedentFrom column columns tokens).1.head?, n ≤ column := by
  induction columns generalizing tokens with
  | nil => simp [dedentFrom]
  | cons n columns ih =>
    rw [dedentFrom]
    split
    · exact ih _
    · intro k hk
      obtain rfl := Option.some.inj hk
      omega

/-- Without candidates, the way to the next token is a gap and what it closes. -/
lemma advanceToToken_of_skipGap {tokens : List Token} {columns : List ℕ}
    {keyAllowed keyAllowed' : Bool} {cursor cursor' : Cursor}
    (h : skipGap false cursor.mark cursor.rest keyAllowed false = (cursor', keyAllowed')) :
    advanceToToken ⟨cursor, tokens, columns, keyAllowed, none, []⟩ =
      some ⟨cursor', (dedentFrom cursor'.mark.column columns tokens).2,
        (dedentFrom cursor'.mark.column columns tokens).1, keyAllowed', none, []⟩ := by
  have htoken : toToken ⟨cursor, tokens, columns, keyAllowed, none, []⟩ =
      ⟨cursor', tokens, columns, keyAllowed', none, []⟩ := by
    simp only [toToken, inFlow, List.isEmpty_nil, Bool.not_true, h]
  rw [advanceToToken, htoken]
  rfl

/-- The token at the start of a line closes what stands to the right of it. -/
lemma advanceToToken_lineStart (tokens : List Token) (columns : List ℕ) {mark : Mark}
    (hmark : mark.column = 0) (n : ℕ) {text : List Char} (h : AtToken text) :
    (lineStart tokens columns mark (List.replicate n ' ' ++ text)).advanceToToken =
      some ⟨⟨mark.right n, text⟩, (dedentFrom n columns tokens).2,
        (dedentFrom n columns tokens).1, true, none, []⟩ := by
  rw [lineStart, advanceToToken_of_skipGap (skipGap_spaces n h mark true), Mark.column_right, hmark,
    Nat.zero_add]

/-- The value of a key stands behind a space. -/
lemma advanceToToken_afterColon (tokens : List Token) {columns : List ℕ} {mark : Mark}
    (hcolumns : ∀ n ∈ columns.head?, n ≤ mark.column) {text : List Char} (h : AtToken text) :
    (afterColon tokens columns mark (' ' :: text)).advanceToToken =
      some (afterColon tokens columns (mark.right 1) text) := by
  have hgap : skipGap false mark (' ' :: text) false false = (⟨mark.right 1, text⟩, false) :=
    skipGap_spaces 1 h mark false
  have hopen : ∀ n ∈ columns.head?, n ≤ (mark.right 1).column :=
    fun n hn => Nat.le_succ_of_le (hcolumns n hn)
  rw [afterColon, advanceToToken_of_skipGap hgap, dedentFrom_of_le hopen]
  rfl

/-- A line end leads to the next line, where a key may start. -/
lemma advanceToToken_lineFeed (tokens : List Token) (columns : List ℕ) (mark : Mark)
    (text : List Char) :
    (afterColon tokens columns mark ('\n' :: text)).advanceToToken =
      (lineStart tokens columns (mark.down 1) text).advanceToToken := by
  have hgap := skipGap_lineFeed mark text false
  simp only [advanceToToken, toToken, afterColon, lineStart, inFlow, List.isEmpty_nil,
    Bool.not_true, hgap]

/-- Behind a key with nothing after the colon comes the next line. -/
lemma leads_lineFeed (tokens : List Token) (columns : List ℕ) (mark : Mark) (text : List Char) :
    (afterColon tokens columns mark ('\n' :: text)).Leads
      (lineStart tokens columns (mark.down 1) text) :=
  leads_of_advanceToToken (advanceToToken_lineFeed tokens columns mark text) (Nat.le_succ _)

/-! ## Keys -/

/-- The block mappings that are open at a key: those to its right are closed, and one is opened at
its column if there is none. -/
def openAt (column : ℕ) (columns : List ℕ) (tokens : List Token) : List ℕ × List Token :=
  let left := dedentFrom column columns tokens
  if left.1.head?.all fun n => n < column then (column :: left.1, .blockMappingStart :: left.2)
  else left

/-- The reader that has taken a name. -/
def behindName (tokens : List Token) (columns : List ℕ) (mark : Mark) (name rest : List Char) :
    TokenReader :=
  ⟨⟨mark.right name.length, rest⟩, .scalar .plain name :: tokens, columns, false,
    some ⟨tokens.length, mark, columns.head? == some mark.column⟩, []⟩

/-- A name is taken as a plain scalar, and may be a key. -/
lemma take_identifier {name rest : List Char} (hname : IsIdentifier name)
    (hrest : atGap rest = true) (tokens : List Token) (columns : List ℕ) (mark : Mark) :
    take ⟨⟨mark, name ++ ':' :: rest⟩, tokens, columns, true, none, []⟩ =
      some (behindName tokens columns mark name (':' :: rest)) := by
  have hplain : take ⟨⟨mark, name ++ ':' :: rest⟩, tokens, columns, true, none, []⟩ =
      plainScalar ⟨⟨mark, name ++ ':' :: rest⟩, tokens, columns, true, none, []⟩ := by
    have hmarker := hname.atDocumentMarker mark (':' :: rest)
    obtain ⟨c, tail, rfl, -, hall⟩ := hname.exists_cons
    have hc := hall c List.mem_cons_self
    have hne : ∀ d, isIdentifierChar d = false → (c == d) = false :=
      fun d hd => beq_false_of_ne (ne_of_isIdentifierChar hc hd)
    have hstarts : startsPlain false c (tail ++ ':' :: rest) = true := by
      rw [startsPlain, isGap_of_isIdentifierChar hc, contains_of_isIdentifierChar hc (by decide)]
      rfl
    rw [List.cons_append] at hmarker ⊢
    simp only [take, hmarker, inFlow, List.isEmpty_nil, Bool.not_true, hstarts,
      hne '%' rfl, hne '[' rfl, hne '\x7b' rfl, hne ']' rfl, hne '\x7d' rfl, hne ',' rfl,
      hne '-' rfl, hne '?' rfl, hne ':' rfl, hne '*' rfl, hne '&' rfl, hne '!' rfl, hne '|' rfl,
      hne '>' rfl, hne '\'' rfl, hne '"' rfl, Bool.false_and, Bool.false_eq_true, if_false, if_true]
  rw [hplain]
  simp only [plainScalar, saveCandidate, dropCandidate, inFlow, column, List.isEmpty_nil,
    Bool.not_true, Bool.not_false, Bool.true_and, if_true, Option.any_none, Bool.false_eq_true,
    if_false, Option.bind_eq_bind, Option.bind_some, PlainScalar.read_identifier hname hrest]
  rfl

/-- The colon behind a name is near enough for the name to be a key. -/
lemma advanceToToken_behindName {tokens : List Token} {columns : List ℕ} {mark : Mark}
    (hcolumns : ∀ n ∈ columns.head?, n ≤ mark.column) {name : List Char}
    (hlength : name.length ≤ 1024) (rest : List Char) :
    (behindName tokens columns mark name (':' :: rest)).advanceToToken =
      some (behindName tokens columns mark name (':' :: rest)) := by
  have htoken : AtToken (':' :: rest) := by
    intro c hc
    obtain rfl := Option.some.inj hc
    decide
  have hgap := skipGap_of_atToken htoken (mark.right name.length) false
  have hfresh : Candidate.isStale ⟨tokens.length, mark, columns.head? == some mark.column⟩
      (mark.right name.length) = false := by
    simp [Candidate.isStale, Mark.right, hlength]
  have hopen : ∀ n ∈ columns.head?, n ≤ (mark.right name.length).column :=
    fun n hn => (hcolumns n hn).trans (Nat.le_add_right _ _)
  simp only [advanceToToken, toToken, dropStale, freshen, behindName, inFlow, List.isEmpty_nil,
    Bool.not_true, hgap, hfresh, Bool.false_eq_true, if_false, Option.bind_eq_bind,
    Option.bind_some, List.mapM_nil, Option.pure_def, Option.map_some, dedentTo, column,
    dedentFrom_of_le hopen]

/-- The colon makes the name a key, and a mapping starts there if none is open. -/
lemma take_colon (tokens : List Token) (columns : List ℕ) (mark : Mark) (name : List Char)
    {rest : List Char} (hrest : atGap rest = true) :
    take (behindName tokens columns mark name (':' :: rest)) =
      some (afterColon
        (.value :: .scalar .plain name :: .key ::
          (if columns.head?.all fun n => n < mark.column then .blockMappingStart :: tokens
            else tokens))
        (if columns.head?.all fun n => n < mark.column then mark.column :: columns else columns)
        (mark.right (name.length + 1)) rest) := by
  have hmarker : Cursor.atDocumentMarker ⟨mark.right name.length, ':' :: rest⟩ = false := by
    simp [Cursor.atDocumentMarker]
  have htake : take (behindName tokens columns mark name (':' :: rest)) =
      value (behindName tokens columns mark name (':' :: rest)) := by
    simp only [take, behindName, hmarker, hrest]
    rfl
  let scalar : Token := .scalar .plain name
  have hkey : (scalar :: tokens).insertIdx ((scalar :: tokens).length - tokens.length) .key =
      scalar :: .key :: tokens := by
    rw [List.length_cons, Nat.add_sub_cancel_left]
    rfl
  have hstart : (scalar :: .key :: tokens).insertIdx
      ((scalar :: .key :: tokens).length - tokens.length) .blockMappingStart =
        scalar :: .key :: .blockMappingStart :: tokens := by
    rw [List.length_cons, List.length_cons, Nat.add_assoc, Nat.add_sub_cancel_left]
    rfl
  rw [htake]
  simp only [value, behindName, insertAt, indentTo, inFlow, List.isEmpty_nil, Bool.not_true,
    Bool.false_or, scalar, hkey]
  cases columns.head?.all fun n => decide (n < mark.column) with
  | true =>
    simp only [Bool.not_true, Bool.false_eq_true, if_false, if_true, scalar, hstart]
    rfl
  | false => rfl

/-- A name that is too long is no key, and nothing else may stand before a colon. -/
lemma resume_of_longName {tokens : List Token} {columns : List ℕ} {mark : Mark} {name : List Char}
    (hlength : 1024 < name.length) {rest : List Char} (hrest : atGap rest = true) (fuel : ℕ) :
    (behindName tokens columns mark name (':' :: rest)).advanceToToken.bind (resume fuel) =
      none := by
  have htoken : AtToken (':' :: rest) := by
    intro c hc
    obtain rfl := Option.some.inj hc
    decide
  have hgap := skipGap_of_atToken htoken (mark.right name.length) false
  have hstale : Candidate.isStale ⟨tokens.length, mark, columns.head? == some mark.column⟩
      (mark.right name.length) = true := by
    simp [Candidate.isStale, Mark.right, hlength]
  have hmarker : ∀ m : Mark, Cursor.atDocumentMarker ⟨m, ':' :: rest⟩ = false := by
    simp [Cursor.atDocumentMarker]
  simp only [advanceToToken, toToken, dropStale, freshen, behindName, inFlow, List.isEmpty_nil,
    Bool.not_true, hgap, hstale, if_true, Option.bind_eq_bind]
  cases columns.head? == some mark.column with
  | true => rfl
  | false =>
    simp only [Bool.false_eq_true, if_false, Option.bind_some, List.mapM_nil, Option.pure_def,
      Option.map_some, resume, List.isEmpty_cons, dedentTo, inFlow, List.isEmpty_nil, Bool.not_true,
      take, hmarker, hrest]
    rfl

section Key

variable {name rest : List Char} (hname : IsIdentifier name) (hrest : atGap rest = true)
include hname hrest

/-- The reader behind a key that stands at a column of a line. -/
def behindKey (tokens : List Token) (columns : List ℕ) (mark : Mark) (column : ℕ)
    (name rest : List Char) : TokenReader :=
  afterColon (.value :: .scalar .plain name :: .key :: (openAt column columns tokens).2)
    (openAt column columns tokens).1 (mark.right (column + (name.length + 1))) rest

/-- The name of a key is taken first. -/
lemma run_name (tokens : List Token) (columns : List ℕ) {mark : Mark} (hmark : mark.column = 0)
    (column fuel : ℕ) :
    run (fuel + 1) (lineStart tokens columns mark
        (List.replicate column ' ' ++ (name ++ ':' :: rest))) =
      run fuel (behindName (dedentFrom column columns tokens).2 (dedentFrom column columns tokens).1
        (mark.right column) name (':' :: rest)) :=
  run_of_take (advanceToToken_lineStart tokens columns hmark column
    (atToken_of_isIdentifier hname _)) (by simp) (take_identifier hname hrest _ _ _) fuel

/-- A key opens its mapping if it is the first one there, and leads behind its colon. -/
lemma run_key (tokens : List Token) (columns : List ℕ) {mark : Mark} (hmark : mark.column = 0)
    (column : ℕ) (hlength : name.length ≤ 1024) (fuel : ℕ) :
    run (fuel + 2) (lineStart tokens columns mark
        (List.replicate column ' ' ++ (name ++ ':' :: rest))) =
      run fuel (behindKey tokens columns mark column name rest) := by
  have hcolumn : (mark.right column).column = column := by
    rw [Mark.column_right, hmark, Nat.zero_add]
  have hopen := le_of_mem_head?_dedentFrom column columns tokens
  rw [run_name hname hrest tokens columns hmark column (fuel + 1),
    run_of_take (advanceToToken_behindName (by rwa [hcolumn]) hlength rest) (by simp [behindName])
      (take_colon _ _ _ name hrest) fuel, hcolumn, Mark.right_right, behindKey, openAt]
  split <;> rfl

lemma leads_key (tokens : List Token) (columns : List ℕ) {mark : Mark} (hmark : mark.column = 0)
    (column : ℕ) (hlength : name.length ≤ 1024) :
    (lineStart tokens columns mark (List.replicate column ' ' ++ (name ++ ':' :: rest))).Leads
      (behindKey tokens columns mark column name rest) := by
  have hpos := List.length_pos_of_ne_nil hname.ne_nil
  intro fuel hfuel
  simp only [lineStart, List.length_append, List.length_replicate, List.length_cons] at hfuel
  obtain ⟨fuel, rfl⟩ : ∃ f, fuel = f + 2 := ⟨fuel - 2, by omega⟩
  refine ⟨fuel, ?_, run_key hname hrest tokens columns hmark column hlength fuel⟩
  simp only [behindKey, afterColon]
  omega

/-- A key is never behind its colon if it is too long. -/
lemma run_longKey (tokens : List Token) (columns : List ℕ) {mark : Mark} (hmark : mark.column = 0)
    (column : ℕ) (hlength : 1024 < name.length) (fuel : ℕ) :
    run fuel (lineStart tokens columns mark
      (List.replicate column ' ' ++ (name ++ ':' :: rest))) = none := by
  match fuel with
  | 0 => rfl
  | 1 =>
    rw [run_name hname hrest tokens columns hmark column 0]
    rfl
  | fuel + 2 =>
    rw [run_name hname hrest tokens columns hmark column (fuel + 1), run_succ]
    exact resume_of_longName hlength hrest fuel

/-- Where a text with a key at the start of a line has tokens, they are those of the reader behind
the key. -/
lemma exists_run_of_key (tokens : List Token) (columns : List ℕ) {mark : Mark}
    (hmark : mark.column = 0) (column : ℕ) {fuel : ℕ} {all : List Token}
    (hrun : run fuel (lineStart tokens columns mark
      (List.replicate column ' ' ++ (name ++ ':' :: rest))) = some all) :
    ∃ fuel', run fuel' (behindKey tokens columns mark column name rest) = some all := by
  rcases Nat.lt_or_ge 1024 name.length with hlong | hlength
  · rw [run_longKey hname hrest tokens columns hmark column hlong] at hrun
    cases hrun
  · match fuel with
    | 0 => cases hrun
    | 1 =>
      rw [run_name hname hrest tokens columns hmark column 0] at hrun
      cases hrun
    | fuel + 2 =>
      exact ⟨fuel, run_key hname hrest tokens columns hmark column hlength fuel ▸ hrun⟩

end Key

/-! ## What is kept -/

/-- The reader keeps tokens: they are its first ones, and no candidate for a key stands before any
of them. -/
structure Keeps (old : List Token) (s : TokenReader) : Prop where
  suffix : old <:+ s.tokens
  candidate : ∀ k ∈ s.candidate, old.length ≤ k.position
  enclosing : ∀ e ∈ s.enclosing, ∀ k ∈ e, old.length ≤ k.position

namespace Keeps

variable {old : List Token} {s s' : TokenReader}

/-- Only the tokens and the candidates matter. -/
lemma congr (h : s.Keeps old) (htokens : s'.tokens = s.tokens)
    (hcandidate : s'.candidate = s.candidate) (henclosing : s'.enclosing = s.enclosing) :
    s'.Keeps old :=
  ⟨htokens ▸ h.suffix, hcandidate ▸ h.candidate, henclosing ▸ h.enclosing⟩

/-- Tokens may come behind. -/
lemma append (h : s.Keeps old) (more : List Token) (htokens : s'.tokens = more ++ s.tokens)
    (hcandidate : s'.candidate = s.candidate) (henclosing : s'.enclosing = s.enclosing) :
    s'.Keeps old :=
  ⟨htokens ▸ h.suffix.trans (List.suffix_append _ _), hcandidate ▸ h.candidate,
    henclosing ▸ h.enclosing⟩

lemma advance (h : s.Keeps old) (n : ℕ) (t : Token) : (s.advance n t).Keeps old :=
  h.append [t] rfl rfl rfl

/-- What is put in behind the tokens that are kept leaves them alone. -/
lemma insertAt (h : s.Keeps old) {position : ℕ} (hposition : old.length ≤ position) (t : Token) :
    (s.insertAt position t).Keeps old := by
  obtain ⟨more, hmore⟩ := h.suffix
  have hinsert : ∀ (more : List Token) (i : ℕ), i ≤ more.length →
      (more ++ old).insertIdx i t = more.insertIdx i t ++ old := by
    intro more i hi
    induction more generalizing i with
    | nil =>
      obtain rfl := Nat.le_zero.mp hi
      rfl
    | cons u more ih =>
      cases i with
      | zero => rfl
      | succ i =>
        rw [List.cons_append, List.insertIdx_succ_cons, List.insertIdx_succ_cons,
          ih i (Nat.le_of_succ_le_succ hi), List.cons_append]
  refine ⟨?_, h.candidate, h.enclosing⟩
  have hlength : s.tokens.length - position ≤ more.length := by
    rw [← hmore, List.length_append]
    omega
  change old <:+ s.tokens.insertIdx (s.tokens.length - position) t
  rw [← hmore] at hlength ⊢
  rw [hinsert more _ hlength]
  exact List.suffix_append _ _

lemma length_le (h : s.Keeps old) : old.length ≤ s.tokens.length := h.suffix.length_le

lemma indentTo (h : s.Keeps old) (column : ℕ) {position : ℕ} (hposition : old.length ≤ position)
    (t : Token) : (s.indentTo column position t).Keeps old := by
  unfold TokenReader.indentTo
  split
  · exact h
  · exact (h.congr rfl rfl rfl : Keeps old { s with columns := column :: s.columns }).insertAt
      hposition t

lemma dedentAll (h : s.Keeps old) : s.dedentAll.Keeps old := by
  unfold TokenReader.dedentAll
  split
  · exact h
  · exact h.append _ rfl rfl rfl

lemma dedentTo (h : s.Keeps old) (column : ℕ) : (s.dedentTo column).Keeps old := by
  have hmore : ∀ columns tokens, old <:+ tokens → old <:+ (dedentFrom column columns tokens).2 := by
    intro columns
    induction columns with
    | nil => exact fun _ h => h
    | cons n columns ih =>
      intro tokens htokens
      rw [dedentFrom]
      split
      · exact ih _ (htokens.trans (List.suffix_cons _ _))
      · exact htokens
  unfold TokenReader.dedentTo
  split
  · exact h
  · exact ⟨hmore _ _ h.suffix, h.candidate, h.enclosing⟩

lemma dropCandidate (h : s.Keeps old) (hs : s.dropCandidate = some s') : s'.Keeps old := by
  unfold TokenReader.dropCandidate at hs
  split at hs
  · cases hs
  · obtain rfl := Option.some.inj hs
    exact ⟨h.suffix, by simp, h.enclosing⟩

/-- A new candidate stands behind all tokens. -/
lemma saveCandidate (h : s.Keeps old) (hs : s.saveCandidate = some s') : s'.Keeps old := by
  unfold TokenReader.saveCandidate at hs
  split at hs
  · obtain ⟨dropped, hdropped, hs⟩ := Option.bind_eq_some_iff.mp hs
    obtain rfl := Option.some.inj hs
    have hkept := h.dropCandidate hdropped
    exact ⟨hkept.suffix, fun k hk => by cases hk; exact hkept.length_le, hkept.enclosing⟩
  · obtain rfl := Option.some.inj hs
    exact h

/-- A candidate that is not forgotten stays as it is. -/
lemma mem_of_freshen {mark : Mark} {candidate fresh : Option Candidate}
    (h : freshen mark candidate = some fresh) : ∀ k ∈ fresh, k ∈ candidate := by
  cases candidate with
  | none =>
    obtain rfl := Option.some.inj h
    exact fun k hk => hk
  | some k =>
    simp only [freshen] at h
    split at h
    · split at h
      · cases h
      · obtain rfl := Option.some.inj h
        simp
    · obtain rfl := Option.some.inj h
      exact fun k hk => hk

lemma exists_mem_of_mapM_freshen {mark : Mark} {levels fresh : List (Option Candidate)}
    (h : levels.mapM (freshen mark) = some fresh) :
    ∀ e ∈ fresh, ∀ k ∈ e, ∃ e' ∈ levels, k ∈ e' := by
  induction levels generalizing fresh with
  | nil =>
    obtain rfl := Option.some.inj h
    simp
  | cons level levels ih =>
    rw [List.mapM_cons] at h
    obtain ⟨first, hfirst, h⟩ := Option.bind_eq_some_iff.mp h
    obtain ⟨others, hothers, h⟩ := Option.bind_eq_some_iff.mp h
    obtain rfl := Option.some.inj h
    intro e he k hk
    rcases List.mem_cons.mp he with rfl | he
    · exact ⟨level, List.mem_cons_self, mem_of_freshen hfirst k hk⟩
    · obtain ⟨e', he', hk'⟩ := ih hothers e he k hk
      exact ⟨e', List.mem_cons_of_mem _ he', hk'⟩

lemma dropStale (h : s.Keeps old) (hs : s.dropStale = some s') : s'.Keeps old := by
  obtain ⟨candidate, hcandidate, hs⟩ := Option.bind_eq_some_iff.mp hs
  obtain ⟨enclosing, henclosing, hs⟩ := Option.bind_eq_some_iff.mp hs
  obtain rfl := Option.some.inj hs
  refine ⟨h.suffix, fun k hk => h.candidate k (mem_of_freshen hcandidate k hk), fun e he k hk => ?_⟩
  obtain ⟨e', he', hk'⟩ := exists_mem_of_mapM_freshen henclosing e he k hk
  exact h.enclosing e' he' k hk'

lemma advanceToToken (h : s.Keeps old) (hs : s.advanceToToken = some s') : s'.Keeps old := by
  obtain ⟨fresh, hfresh, rfl⟩ := Option.map_eq_some_iff.mp hs
  have htoken : s.toToken.Keeps old := h.congr rfl rfl rfl
  exact (htoken.dropStale hfresh).dedentTo _

/-! ### The tokens -/

lemma documentMarker (h : s.Keeps old) {t : Token} (hs : s.documentMarker t = some s') :
    s'.Keeps old := by
  obtain ⟨dropped, hdropped, hs⟩ := Option.bind_eq_some_iff.mp hs
  obtain rfl := Option.some.inj hs
  exact (h.dedentAll.dropCandidate hdropped).append [t] rfl rfl rfl

lemma directive (h : s.Keeps old) (hs : s.directive = some s') : s'.Keeps old := by
  obtain ⟨dropped, hdropped, hs⟩ := Option.bind_eq_some_iff.mp hs
  obtain ⟨⟨d, cursor⟩, -, hs⟩ := Option.bind_eq_some_iff.mp hs
  obtain rfl := Option.some.inj hs
  exact (h.dedentAll.dropCandidate hdropped).append [.directive d] rfl rfl rfl

lemma flowStart (h : s.Keeps old) {t : Token} (hs : s.flowStart t = some s') : s'.Keeps old := by
  obtain ⟨saved, hsaved, hs⟩ := Option.bind_eq_some_iff.mp hs
  obtain rfl := Option.some.inj hs
  have hkept := h.saveCandidate hsaved
  refine ⟨hkept.suffix.trans (List.suffix_cons _ _),
    by simp [TokenReader.advance, TokenReader.emit],
    List.forall_mem_cons.mpr ⟨hkept.candidate, hkept.enclosing⟩⟩

lemma flowEnd (h : s.Keeps old) {t : Token} (hs : s.flowEnd t = some s') : s'.Keeps old := by
  obtain ⟨dropped, hdropped, hs⟩ := Option.bind_eq_some_iff.mp hs
  obtain rfl := Option.some.inj hs
  have hkept := h.dropCandidate hdropped
  cases henclosing : dropped.enclosing with
  | nil => exact hkept.append [t] rfl rfl rfl
  | cons candidate enclosing =>
    have hlevels := hkept.enclosing
    rw [henclosing] at hlevels
    exact ⟨hkept.suffix.trans (List.suffix_cons _ _), hlevels candidate List.mem_cons_self,
      fun e he => hlevels e (List.mem_cons_of_mem _ he)⟩

lemma flowEntry (h : s.Keeps old) (hs : s.flowEntry = some s') : s'.Keeps old := by
  obtain ⟨dropped, hdropped, hs⟩ := Option.bind_eq_some_iff.mp hs
  obtain rfl := Option.some.inj hs
  exact (h.dropCandidate hdropped).append [.flowEntry] rfl rfl rfl

/-- A choice keeps tokens if both of its sides do. -/
lemma ite {c : Prop} [Decidable c] {x y : Option TokenReader}
    (hx : ∀ s', x = some s' → s'.Keeps old) (hy : ∀ s', y = some s' → s'.Keeps old) :
    ∀ s', (if c then x else y) = some s' → s'.Keeps old := by
  split
  · exact hx
  · exact hy

/-- A sign that drops the candidate. -/
lemma dropped (h : s.Keeps old) {t : Token} {finish : TokenReader → TokenReader}
    (hfinish : ∀ d : TokenReader, (finish d).tokens = t :: d.tokens ∧
      (finish d).candidate = d.candidate ∧ (finish d).enclosing = d.enclosing) :
    ∀ s', (s.dropCandidate.bind fun d => some (finish d)) = some s' → s'.Keeps old := by
  intro s' hs
  obtain ⟨dropped, hdropped, hs⟩ := Option.bind_eq_some_iff.mp hs
  obtain rfl := Option.some.inj hs
  obtain ⟨htokens, hcandidate, henclosing⟩ := hfinish dropped
  exact (h.dropCandidate hdropped).append [t] htokens hcandidate henclosing

lemma blockEntry (h : s.Keeps old) (hs : s.blockEntry = some s') : s'.Keeps old := by
  unfold TokenReader.blockEntry at hs
  refine ite ?_ (ite ?_ ?_) s' hs
  · exact h.dropped fun _ => ⟨rfl, rfl, rfl⟩
  · exact (h.indentTo _ h.length_le _).dropped fun _ => ⟨rfl, rfl, rfl⟩
  · exact fun _ hcon => by cases hcon

lemma explicitKey (h : s.Keeps old) (hs : s.explicitKey = some s') : s'.Keeps old := by
  unfold TokenReader.explicitKey at hs
  refine ite ?_ (ite ?_ ?_) s' hs
  · exact h.dropped fun _ => ⟨rfl, rfl, rfl⟩
  · exact (h.indentTo _ h.length_le _).dropped fun _ => ⟨rfl, rfl, rfl⟩
  · exact fun _ hcon => by cases hcon

lemma value (h : s.Keeps old) (hs : s.value = some s') : s'.Keeps old := by
  unfold TokenReader.value at hs
  split at hs
  · rename_i k hk
    obtain rfl := Option.some.inj hs
    have hposition := h.candidate k hk
    have hopened := (h.insertAt hposition .key).indentTo k.mark.column hposition .blockMappingStart
    exact ⟨hopened.suffix.trans (List.suffix_cons _ _), by simp [TokenReader.advance,
      TokenReader.emit], hopened.enclosing⟩
  · split at hs
    · obtain rfl := Option.some.inj hs
      exact h.append [.value] rfl rfl rfl
    · split at hs
      · obtain rfl := Option.some.inj hs
        exact (h.indentTo _ h.length_le _).advance 1 .value
      · cases hs

lemma anchor (h : s.Keeps old) {make : List Char → Token} (hs : s.anchor make = some s') :
    s'.Keeps old := by
  obtain ⟨saved, hsaved, hs⟩ := Option.bind_eq_some_iff.mp hs
  obtain ⟨⟨name, cursor⟩, -, hs⟩ := Option.bind_eq_some_iff.mp hs
  obtain rfl := Option.some.inj hs
  exact (h.saveCandidate hsaved).append [make name] rfl rfl rfl

lemma tag (h : s.Keeps old) (hs : s.tag = some s') : s'.Keeps old := by
  obtain ⟨saved, hsaved, hs⟩ := Option.bind_eq_some_iff.mp hs
  obtain ⟨⟨name, cursor⟩, -, hs⟩ := Option.bind_eq_some_iff.mp hs
  obtain rfl := Option.some.inj hs
  exact (h.saveCandidate hsaved).append [.tag name] rfl rfl rfl

lemma blockScalar (h : s.Keeps old) {folded : Bool} (hs : s.blockScalar folded = some s') :
    s'.Keeps old := by
  obtain ⟨dropped, hdropped, hs⟩ := Option.bind_eq_some_iff.mp hs
  obtain ⟨⟨text, cursor⟩, -, hs⟩ := Option.bind_eq_some_iff.mp hs
  obtain rfl := Option.some.inj hs
  exact (h.dropCandidate hdropped).append [_] rfl rfl rfl

lemma quotedScalar (h : s.Keeps old) {single : Bool} (hs : s.quotedScalar single = some s') :
    s'.Keeps old := by
  obtain ⟨saved, hsaved, hs⟩ := Option.bind_eq_some_iff.mp hs
  obtain ⟨⟨text, cursor⟩, -, hs⟩ := Option.bind_eq_some_iff.mp hs
  obtain rfl := Option.some.inj hs
  exact (h.saveCandidate hsaved).append [_] rfl rfl rfl

lemma plainScalar (h : s.Keeps old) (hs : s.plainScalar = some s') : s'.Keeps old := by
  obtain ⟨saved, hsaved, hs⟩ := Option.bind_eq_some_iff.mp hs
  obtain ⟨⟨text, broken, cursor⟩, -, hs⟩ := Option.bind_eq_some_iff.mp hs
  obtain rfl := Option.some.inj hs
  exact (h.saveCandidate hsaved).append [_] rfl rfl rfl

/-- Whatever token is taken, the tokens stay. -/
lemma take (h : s.Keeps old) (hs : s.take = some s') : s'.Keeps old := by
  unfold TokenReader.take at hs
  split at hs
  · cases hs
  · refine ite (fun _ => h.directive) ?_ s' hs
    refine ite (fun _ => h.documentMarker) ?_
    refine ite (fun _ => h.flowStart) (ite (fun _ => h.flowStart) ?_)
    refine ite (fun _ => h.flowEnd) (ite (fun _ => h.flowEnd) (ite (fun _ => h.flowEntry) ?_))
    refine ite (fun _ => h.blockEntry) (ite (fun _ => h.explicitKey) (ite (fun _ => h.value) ?_))
    refine ite (fun _ => h.anchor) (ite (fun _ => h.anchor) (ite (fun _ => h.tag) ?_))
    refine ite (fun _ => h.blockScalar) (ite (fun _ => h.blockScalar) ?_)
    refine ite (fun _ => h.quotedScalar) (ite (fun _ => h.quotedScalar) ?_)
    exact ite (fun _ => h.plainScalar) fun _ hcon => by cases hcon

/-- Tokens that are kept come first in the end. -/
lemma prefix_of_run (h : s.Keeps old) {fuel : ℕ} {all : List Token}
    (hrun : run fuel s = some all) : old.reverse <+: all := by
  induction fuel generalizing s with
  | zero => cases hrun
  | succ fuel ih =>
    rw [run_succ] at hrun
    obtain ⟨at', hat, hrun⟩ := Option.bind_eq_some_iff.mp hrun
    have hkept := h.advanceToToken hat
    unfold resume at hrun
    split at hrun
    · obtain ⟨dropped, hdropped, rfl⟩ := Option.map_eq_some_iff.mp hrun
      exact List.reverse_prefix.mpr (hkept.dedentAll.dropCandidate hdropped).suffix
    · obtain ⟨taken, htaken, hrun⟩ := Option.bind_eq_some_iff.mp hrun
      exact ih (hkept.take htaken) hrun

end Keeps

/-- Behind a colon all tokens so far are kept. -/
lemma keeps_afterColon (tokens : List Token) (columns : List ℕ) (mark : Mark) (text : List Char) :
    (afterColon tokens columns mark text).Keeps tokens :=
  ⟨List.suffix_refl tokens, by simp [afterColon], by simp [afterColon]⟩

end NodeTelemetry.Yaml.TokenReader
