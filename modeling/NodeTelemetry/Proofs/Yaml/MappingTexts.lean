import Mathlib
import NodeTelemetry.Proofs.Yaml.ScalarTexts
import NodeTelemetry.Proofs.Yaml.MappingNodes

/-!
# Texts of block mappings

Lines that are written for an entry of a block mapping are cut into the tokens of the entry
(`TokenReader.Writes`): for a plain scalar in any mapping, for a text in the style chosen for it in
a mapping at the left margin, and for a mapping of such entries further to the right.  The lines of
a whole mapping make its document (`Document.ofText?_flatMap`).

Where a key is written behind some of these lines, it is the next key of the document, whatever
comes behind it (`Document.exists_of_key_behind`), and so it is within a mapping that is itself a
value (`Document.exists_of_key_within`).
-/

namespace NodeTelemetry.Yaml

namespace TokenReader

/-! ## Open mappings -/

/-- A key belongs to a mapping at its own column. -/
lemma exists_openAt (column : ℕ) (columns : List ℕ) (tokens : List Token) :
    ∃ outer, (openAt column columns tokens).1 = column :: outer := by
  have hle := le_of_mem_head?_dedentFrom column columns tokens
  rw [openAt]
  split
  case isTrue => exact ⟨_, rfl⟩
  case isFalse hopen =>
    cases hleft : (dedentFrom column columns tokens).1 with
    | nil => simp [hleft] at hopen
    | cons n outer =>
      rw [hleft] at hle hopen
      have hn := hle n rfl
      simp only [List.head?_cons, Option.all_some, decide_eq_true_eq] at hopen
      exact ⟨outer, by rw [Nat.le_antisymm hn (Nat.le_of_not_lt hopen)]⟩

/-- A mapping that is open at a column stays the one for the keys there. -/
lemma openAt_of_dedentFrom {column : ℕ} {columns outer : List ℕ} {tokens left : List Token}
    (h : dedentFrom column columns tokens = (column :: outer, left)) :
    openAt column columns tokens = (column :: outer, left) := by
  simp [openAt, h]

/-- Closing what stands to the right of a column may be done in two steps. -/
lemma dedentFrom_dedentFrom {column column' : ℕ} (h : column ≤ column') (columns : List ℕ)
    (tokens : List Token) :
    dedentFrom column (dedentFrom column' columns tokens).1 (dedentFrom column' columns tokens).2 =
      dedentFrom column columns tokens := by
  induction columns generalizing tokens with
  | nil => rfl
  | cons n columns ih =>
    rw [dedentFrom]
    split
    · rw [ih, dedentFrom, if_pos (by omega)]
    · rfl

/-! ## Lines of an entry -/

/-- The lines of an entry at a column, behind the spaces of the first of them, are cut into the
tokens of the entry, if less than the column of spaces stands before the token behind them. -/
structure Writes (column : ℕ) (text : List Char) (e : MappingEntry) : Prop where
  atToken : ∀ rest, AtToken (text ++ rest)
  leads : ∀ (tokens : List Token) (columns : List ℕ) (mark : Mark), mark.column = 0 →
    ∀ n ≤ column, ∀ next, AtToken next → ∃ tokens' columns' mark', Mark.column mark' = 0 ∧
      (lineStart tokens columns mark
        (List.replicate column ' ' ++ (text ++ (List.replicate n ' ' ++ next)))).Leads
          (lineStart tokens' columns' mark' (List.replicate n ' ' ++ next)) ∧
      dedentFrom column columns' tokens' = ((openAt column columns tokens).1,
        e.tokens.reverse ++ (openAt column columns tokens).2)

section Entries

variable {α : Type} {text : α → List Char} {entry : α → MappingEntry} {column : ℕ} {as : List α}
  (h : ∀ a ∈ as, Writes column (text a) (entry a))
include h

/-- The lines of several entries are cut into their tokens. -/
lemma leads_entries (tokens : List Token) (columns : List ℕ) {mark : Mark} (hmark : mark.column = 0)
    {n : ℕ} (hn : n ≤ column) {next : List Char} (hnext : AtToken next) :
    ∃ tokens' columns' mark', Mark.column mark' = 0 ∧
      (lineStart tokens columns mark ((as.flatMap fun a => List.replicate column ' ' ++ text a) ++
        (List.replicate n ' ' ++ next))).Leads
          (lineStart tokens' columns' mark' (List.replicate n ' ' ++ next)) ∧
      openAt column columns' tokens' = ((openAt column columns tokens).1,
        ((as.map entry).flatMap MappingEntry.tokens).reverse ++ (openAt column columns tokens).2) ∧
      (as ≠ [] ∨ dedentFrom column columns tokens = openAt column columns tokens →
        dedentFrom column columns' tokens' = openAt column columns' tokens') := by
  induction as generalizing tokens columns mark with
  | nil =>
    exact ⟨tokens, columns, mark, hmark, .refl _, rfl, fun hopen => hopen.resolve_left (by simp)⟩
  | cons a as ih =>
    obtain ⟨ha, hmore⟩ := List.forall_mem_cons.mp h
    obtain ⟨outer, houter⟩ := exists_openAt column columns tokens
    -- behind the first entry comes the next one, or else what stands behind all of them
    obtain ⟨k, hk, after, hafter, hrest⟩ : ∃ k ≤ column, ∃ after, AtToken after ∧
        (as.flatMap fun a => List.replicate column ' ' ++ text a) ++
          (List.replicate n ' ' ++ next) = List.replicate k ' ' ++ after := by
      cases as with
      | nil => exact ⟨n, hn, next, hnext, rfl⟩
      | cons b as =>
        refine ⟨column, le_rfl, _, (hmore b List.mem_cons_self).atToken
          ((as.flatMap fun a => List.replicate column ' ' ++ text a) ++
            (List.replicate n ' ' ++ next)), ?_⟩
        simp only [List.flatMap_cons, List.append_assoc]
    obtain ⟨tokens₁, columns₁, mark₁, hmark₁, hleads₁, hdedent₁⟩ :=
      ha.leads tokens columns mark hmark k hk after hafter
    rw [houter] at hdedent₁ ⊢
    obtain ⟨tokens₂, columns₂, mark₂, hmark₂, hleads₂, hopen₂, hdedent₂⟩ :=
      ih hmore tokens₁ columns₁ hmark₁
    have hopen₁ := openAt_of_dedentFrom hdedent₁
    rw [hopen₁] at hopen₂
    refine ⟨tokens₂, columns₂, mark₂, hmark₂, ?_, ?_, fun _ => ?_⟩
    · rw [List.flatMap_cons, List.append_assoc, List.append_assoc, hrest]
      rw [hrest] at hleads₂
      exact hleads₁.trans hleads₂
    · rw [hopen₂, List.map_cons, List.flatMap_cons, List.reverse_append, List.append_assoc]
    · exact hdedent₂ (.inr (hdedent₁.trans hopen₁.symm))

end Entries

/-! ## Entries -/

section Entry

variable {name : List Char} (hname : IsIdentifier name) (hlength : name.length ≤ 1024)
include hname hlength

/-- What is read as a scalar behind a key is written for an entry. -/
lemma writes_scalar {column : ℕ} {style : Style} {text value : List Char}
    (hvalue : ∀ (tokens : List Token) (outer : List ℕ) (mark : Mark), column < mark.column →
      ∀ n ≤ column, ∀ next, AtToken next → ∃ mark', Mark.column mark' = 0 ∧
        (afterColon tokens (column :: outer) mark
          (' ' :: (value ++ lineEndAfter value ++ (List.replicate n ' ' ++ next)))).Leads
            (lineStart (.scalar style text :: tokens) (column :: outer) mark'
              (List.replicate n ' ' ++ next))) :
    Writes column (writeEntry name value) (.scalar name style text) := by
  have hwritten : ∀ rest, writeEntry name value ++ rest =
      name ++ ':' :: ' ' :: (value ++ lineEndAfter value ++ rest) := by
    intro rest
    simp [writeEntry, lineEndAfter]
  refine ⟨fun rest => ?_, fun tokens columns mark hmark n hn next hnext => ?_⟩
  · rw [hwritten]
    exact atToken_of_isIdentifier hname _
  · obtain ⟨outer, houter⟩ := exists_openAt column columns tokens
    let behind : List Token :=
      .value :: .scalar .plain name :: .key :: (openAt column columns tokens).2
    have hgap : atGap
      (' ' :: (value ++ lineEndAfter value ++ (List.replicate n ' ' ++ next))) = true := rfl
    have hkey := leads_key hname hgap tokens columns hmark column hlength
    rw [behindKey, houter] at hkey
    obtain ⟨mark', hmark', hleads⟩ := hvalue behind outer
      (mark.right (column + (name.length + 1))) (by rw [Mark.column_right]; omega) n hn next hnext
    refine ⟨.scalar style text :: behind, column :: outer, mark', hmark', ?_, ?_⟩
    · rw [hwritten]
      exact hkey.trans hleads
    · rw [dedentFrom_of_le (by simp), houter]
      rfl

/-- A plain scalar is written for an entry of any mapping. -/
lemma writes_plain {text : List Char} (hne : text ≠ []) (hhold : PlainScalar.canHold text = true)
    (column : ℕ) : Writes column (writeEntry name text) (.scalar name .plain text) := by
  refine writes_scalar hname hlength fun tokens outer mark hcolumn n hn next hnext => ?_
  rw [lineEndAfter_of_canHold hne hhold, List.append_assoc]
  exact leads_plain hne hhold hcolumn hn hnext

/-- A text is written for an entry of a mapping at the left margin. -/
lemma writes_text (text : List Char) :
    Writes 0 (writeEntry name (writeText 2 text)) (.scalar name (styleOf text) text) := by
  refine writes_scalar hname hlength fun tokens outer mark hcolumn n hn next hnext => ?_
  obtain rfl := Nat.le_zero.mp hn
  exact leads_writeText text tokens outer hcolumn hnext

/-- The entries of a mapping further to the right are written for an entry. -/
lemma writes_mapping {α : Type} {text : α → List Char} {entry : α → MappingEntry}
    {column column' : ℕ} (hcolumn : column < column') {as : List α} (hne : as ≠ [])
    (h : ∀ a ∈ as, Writes column' (text a) (entry a)) :
    Writes column (name ++ ':' :: '\n' :: as.flatMap fun a => List.replicate column' ' ' ++ text a)
      (.mapping name (as.map entry)) := by
  refine ⟨fun rest => ?_, fun tokens columns mark hmark n hn next hnext => ?_⟩
  · rw [List.append_assoc]
    exact atToken_of_isIdentifier hname _
  · obtain ⟨outer, houter⟩ := exists_openAt column columns tokens
    let lines := as.flatMap fun a => List.replicate column' ' ' ++ text a
    let behind : List Token :=
      .value :: .scalar .plain name :: .key :: (openAt column columns tokens).2
    have hgap : atGap ('\n' :: (lines ++ (List.replicate n ' ' ++ next))) = true := rfl
    have hkey := leads_key hname hgap tokens columns hmark column hlength
    rw [behindKey, houter] at hkey
    have hright : openAt column' (column :: outer) behind =
        (column' :: column :: outer, .blockMappingStart :: behind) := by
      rw [openAt, dedentFrom_of_le (by simpa using hcolumn.le)]
      simp [hcolumn]
    obtain ⟨tokens', columns', mark', hmark', hleads, hopen, hdedent⟩ :=
      leads_entries h behind (column :: outer) (Mark.column_down _ 1) (hn.trans hcolumn.le) hnext
    have hclosed := hdedent (.inl hne)
    rw [hopen, hright] at hclosed
    refine ⟨tokens', columns', mark', hmark', ?_, ?_⟩
    · rw [List.append_assoc]
      exact (hkey.trans (leads_lineFeed _ _ _ _)).trans hleads
    · rw [← dedentFrom_dedentFrom hcolumn.le, hclosed, dedentFrom, if_pos hcolumn,
        dedentFrom_of_le (by simp), houter]
      simp [MappingEntry.tokens, MappingEntry.mapping, MappingEntry.keyTokens, behind]

end Entry

/-! ## The whole text -/

/-- At the end of the text the mapping at the left margin is closed. -/
lemma run_lineStart_nil {tokens left : List Token} {columns : List ℕ} {mark : Mark}
    (hmark : mark.column = 0) (h : dedentFrom 0 columns tokens = ([0], left)) {fuel : ℕ}
    (hfuel : 0 < fuel) :
    run fuel (lineStart tokens columns mark []) = some (left.reverse ++ [.blockEnd]) := by
  obtain ⟨fuel, rfl⟩ := Nat.exists_eq_succ_of_ne_zero (Nat.ne_of_gt hfuel)
  have hend := advanceToToken_lineStart tokens columns hmark 0 atToken_nil
  rw [List.replicate_zero, List.nil_append] at hend
  rw [run_succ, hend, Option.bind_some, resume, List.isEmpty_nil, if_pos rfl, h, finish]
  simp [dedentAll, inFlow, dropCandidate]

/-- What a reader leads to has the same tokens in the end. -/
lemma Leads.exists_run {s s' : TokenReader} (h : s.Leads s') {all : List Token}
    (hrun : run (s.cursor.rest.length + 1) s = some all) : ∃ fuel, run fuel s' = some all := by
  obtain ⟨fuel, -, heq⟩ := h _ (Nat.lt_succ_self _)
  exact ⟨fuel, heq ▸ hrun⟩

/-- The tokens behind a key start with those before the key and those of the key. -/
lemma exists_eq_append_of_key {name rest : List Char} (hname : IsIdentifier name)
    (hrest : atGap rest = true) (tokens : List Token) (columns : List ℕ) {mark : Mark}
    (hmark : mark.column = 0) (column : ℕ) {fuel : ℕ} {all : List Token}
    (hrun : run fuel (lineStart tokens columns mark
      (List.replicate column ' ' ++ (name ++ ':' :: rest))) = some all) :
    ∃ more, all =
      (openAt column columns tokens).2.reverse ++ (MappingEntry.keyTokens name ++ more) := by
  obtain ⟨fuel', hrun'⟩ := exists_run_of_key hname hrest tokens columns hmark column hrun
  obtain ⟨more, rfl⟩ := (keeps_afterColon _ _ _ _).prefix_of_run hrun'
  exact ⟨more, by simp [MappingEntry.keyTokens]⟩

end TokenReader

/-! ## Documents -/

namespace Document

open TokenReader

variable {α β : Type} {text : α → List Char} {entry : α → MappingEntry} {as : List α}
  (h : ∀ a ∈ as, Writes 0 (text a) (entry a))
include h

/-- A reader at the start of a text goes behind the first entries. -/
lemma leads_start {next : List Char} (hnext : AtToken next) :
    ∃ tokens columns mark, Mark.column mark = 0 ∧
      (TokenReader.start (as.flatMap text ++ next)).Leads (lineStart tokens columns mark next) ∧
      openAt 0 columns tokens =
        ([0], ((as.map entry).flatMap MappingEntry.tokens).reverse ++ [.blockMappingStart]) ∧
      (as ≠ [] → dedentFrom 0 columns tokens = openAt 0 columns tokens) := by
  obtain ⟨tokens, columns, mark, hmark, hleads, hopen, hdedent⟩ :=
    leads_entries h [] [] (rfl : Mark.start.column = 0) le_rfl hnext
  simp only [List.replicate_zero, List.nil_append] at hleads
  exact ⟨tokens, columns, mark, hmark, hleads, hopen, fun hne => hdedent (.inl hne)⟩

/-- The lines of all entries are cut into the tokens of a mapping. -/
lemma tokens_ofText?_flatMap (hne : as ≠ []) (hallowed : (as.flatMap text).all isAllowed = true) :
    Token.ofText? (as.flatMap text) = some (.blockMappingStart ::
      ((as.map entry).flatMap MappingEntry.tokens ++ [.blockEnd])) := by
  obtain ⟨tokens, columns, mark, hmark, hleads, hopen, hdedent⟩ := leads_start h atToken_nil
  rw [List.append_nil] at hleads
  obtain ⟨fuel, hfuel, hrun⟩ := hleads ((as.flatMap text).length + 1) (Nat.lt_succ_self _)
  rw [Token.ofText?, if_pos hallowed, hrun,
    run_lineStart_nil hmark ((hdedent hne).trans hopen) (Nat.zero_lt_of_lt hfuel)]
  simp

/-- The lines of all entries make a document, a mapping of their nodes. -/
theorem ofText?_flatMap (hmakes : ∀ a ∈ as, (entry a).Makes) (hne : as ≠ [])
    (hallowed : (as.flatMap text).all isAllowed = true) :
    ofText? (as.flatMap text) =
      some (some ⟨.mapping ((as.map entry).map MappingEntry.pair), []⟩) :=
  ofText?_of_entries (by simpa using hmakes) (tokens_ofText?_flatMap h hne hallowed)

variable {name rest : List Char} (hname : IsIdentifier name) (hrest : atGap rest = true)
include hname hrest

/-- A key behind the lines of some entries is the next key of the document. -/
theorem exists_of_key_behind (hmakes : ∀ a ∈ as, (entry a).Makes) {d : Option Document}
    (hd : ofText? (as.flatMap text ++ (name ++ ':' :: rest)) = some d) :
    ∃ value others anchored, d = some ⟨.mapping ((as.map entry).map MappingEntry.pair ++
      (MappingEntry.key name, value) :: others), anchored⟩ := by
  obtain ⟨tokens, columns, mark, hmark, hleads, hopen, -⟩ :=
    leads_start h (atToken_of_isIdentifier hname (':' :: rest))
  obtain ⟨all, hall, -⟩ := Option.bind_eq_some_iff.mp hd
  have hrun := hall
  rw [Token.ofText?] at hrun
  obtain ⟨-, hrun⟩ := Option.ite_none_right_eq_some.mp hrun
  obtain ⟨fuel, hrun⟩ := hleads.exists_run hrun
  obtain ⟨more, rfl⟩ := exists_eq_append_of_key hname hrest tokens columns hmark 0 hrun
  rw [hopen] at hall
  have htokens : Token.ofText? (as.flatMap text ++ (name ++ ':' :: rest)) =
      some (.blockMappingStart :: ((as.map entry).flatMap MappingEntry.tokens ++
        (MappingEntry.keyTokens name ++ more))) := by
    simpa using hall
  exact exists_of_key (by simpa using hmakes) htokens hd

/-- A key behind the lines of some entries of a mapping that is itself a value is the next key
there. -/
theorem exists_of_key_within (hmakes : ∀ a ∈ as, (entry a).Makes) {outer : List Char}
    (houter : IsIdentifier outer) (hlength : outer.length ≤ 1024) {column : ℕ}
    (hcolumn : 0 < column) {text' : β → List Char} {entry' : β → MappingEntry} {bs : List β}
    (h' : ∀ b ∈ bs, Writes column (text' b) (entry' b)) (hmakes' : ∀ b ∈ bs, (entry' b).Makes)
    {d : Option Document}
    (hd : ofText? (as.flatMap text ++ (outer ++ ':' :: '\n' ::
      ((bs.flatMap fun b => List.replicate column ' ' ++ text' b) ++
        (List.replicate column ' ' ++ (name ++ ':' :: rest))))) = some d) :
    ∃ value others others' anchored, d = some ⟨.mapping ((as.map entry).map MappingEntry.pair ++
      (MappingEntry.key outer, .mapping ((bs.map entry').map MappingEntry.pair ++
        (MappingEntry.key name, value) :: others)) :: others'), anchored⟩ := by
  let lines := (bs.flatMap fun b => List.replicate column ' ' ++ text' b) ++
    (List.replicate column ' ' ++ (name ++ ':' :: rest))
  obtain ⟨tokens, columns, mark, hmark, hleads, hopen, -⟩ :=
    leads_start h (atToken_of_isIdentifier houter (':' :: '\n' :: lines))
  have hgap : atGap ('\n' :: lines) = true := rfl
  have hkey := leads_key houter hgap tokens columns hmark 0 hlength
  rw [behindKey, hopen] at hkey
  let behind : List Token := .value :: .scalar .plain outer :: .key ::
    (((as.map entry).flatMap MappingEntry.tokens).reverse ++ [.blockMappingStart])
  obtain ⟨tokens', columns', mark', hmark', hleads', hopen', -⟩ :=
    leads_entries h' behind [0] (Mark.column_down _ 1) le_rfl
      (atToken_of_isIdentifier hname (':' :: rest))
  have hright : openAt column [0] behind = ([column, 0], .blockMappingStart :: behind) := by
    simp [openAt, dedentFrom, hcolumn]
  rw [hright] at hopen'
  obtain ⟨all, hall, -⟩ := Option.bind_eq_some_iff.mp hd
  have hrun := hall
  rw [Token.ofText?] at hrun
  obtain ⟨-, hrun⟩ := Option.ite_none_right_eq_some.mp hrun
  obtain ⟨fuel, hrun⟩ :=
    (((hleads.trans hkey).trans (leads_lineFeed _ _ _ _)).trans hleads').exists_run hrun
  obtain ⟨more, rfl⟩ := exists_eq_append_of_key hname hrest tokens' columns' hmark' column hrun
  rw [hopen'] at hall
  have htokens : Token.ofText? (as.flatMap text ++ (outer ++ ':' :: '\n' :: lines)) =
      some (.blockMappingStart :: ((as.map entry).flatMap MappingEntry.tokens ++
        (MappingEntry.keyTokens outer ++ .blockMappingStart ::
          ((bs.map entry').flatMap MappingEntry.tokens ++
            (MappingEntry.keyTokens name ++ more))))) := by
    simpa [behind, MappingEntry.keyTokens] using hall
  exact exists_of_nested_key (by simpa using hmakes) (by simpa using hmakes') htokens hd

end Document

end NodeTelemetry.Yaml
