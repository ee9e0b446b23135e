import NodeTelemetry.Yaml.PlainScalar
import NodeTelemetry.Yaml.QuotedScalar
import NodeTelemetry.Yaml.BlockScalar
import NodeTelemetry.Yaml.Property

/-!
# Tokens

A document is first cut into tokens.  Indentation becomes brackets: a block collection starts with
a token of its own and ends where the text falls back to the left of its column.

Whether a node is the key of a mapping is seen only at the colon after it.  A `Candidate` therefore
remembers the place of a node that may turn out to be a key, one for each open flow collection and
one for the block around them; at the colon the key token, and the start of the mapping if this is
its first key, are put in at that place.  A key stands on one line and is not longer than 1024
characters.  The tokens are those of the reader of `serde_yaml` 0.9.
-/

namespace NodeTelemetry.Yaml

/-- How a scalar is written. -/
inductive Style where
  | plain
  | singleQuoted
  | doubleQuoted
  | literal
  | folded
  deriving DecidableEq, Repr

/-- The tokens of a document. -/
inductive Token where
  | directive (d : Directive)
  | documentStart
  | documentEnd
  | blockSequenceStart
  | blockMappingStart
  | blockEnd
  | flowSequenceStart
  | flowSequenceEnd
  | flowMappingStart
  | flowMappingEnd
  | blockEntry
  | flowEntry
  | key
  | value
  | alias (name : List Char)
  | anchor (name : List Char)
  | tag (name : TagName)
  | scalar (style : Style) (text : List Char)
  deriving DecidableEq, Repr

/-- The place of a node that may be a key: the number of tokens before it, where it starts, and
whether it must be a key because it stands at the indentation of a block mapping. -/
structure Candidate where
  position : Nat
  mark : Mark
  required : Bool
  deriving DecidableEq, Repr

/-- The state of cutting a text into tokens, the latest token first.  `columns` are those of the
open block collections, the innermost first; `enclosing` are the candidates of the flow levels
around the current one. -/
structure TokenReader where
  cursor : Cursor
  tokens : List Token
  columns : List Nat
  keyAllowed : Bool
  candidate : Option Candidate
  enclosing : List (Option Candidate)
  deriving DecidableEq, Repr

namespace TokenReader

/-- The state at the start of a text. -/
def start (text : List Char) : TokenReader := ⟨.ofText text, [], [], true, none, []⟩

/-- A flow collection is open. -/
def inFlow (s : TokenReader) : Bool := !s.enclosing.isEmpty

/-- The column of the cursor. -/
def column (s : TokenReader) : Nat := s.cursor.mark.column

/-- Adds a token. -/
def emit (s : TokenReader) (t : Token) : TokenReader := { s with tokens := t :: s.tokens }

/-- Puts a token in before all but the first `position` ones. -/
def insertAt (s : TokenReader) (position : Nat) (t : Token) : TokenReader :=
  { s with tokens := s.tokens.insertIdx (s.tokens.length - position) t }

/-! ## The way to the next token -/

/-- Skips blanks, comments and line ends.  A tab is blank space where no key may start.  Outside
flow collections a key may start on a new line. -/
def skipGap (flow : Bool) (mark : Mark) :
    List Char → (keyAllowed inComment : Bool) → Cursor × Bool
  | [], keyAllowed, _ => (⟨mark, []⟩, keyAllowed)
  | '\r' :: '\n' :: rest, keyAllowed, _ =>
    skipGap flow (mark.down 2) rest (keyAllowed || !flow) false
  | c :: rest, keyAllowed, inComment =>
    if isBreak c then skipGap flow (mark.down 1) rest (keyAllowed || !flow) false
    else if inComment then skipGap flow (mark.right 1) rest keyAllowed true
    else if c == byteOrderMark && mark.column == 0 then
      skipGap flow (mark.right 1) rest keyAllowed false
    else if c == ' ' || (c == '\t' && (flow || !keyAllowed)) then
      skipGap flow (mark.right 1) rest keyAllowed false
    else if c == '#' then skipGap flow (mark.right 1) rest keyAllowed true
    else (⟨mark, c :: rest⟩, keyAllowed)

/-- The state with the cursor at the next token. -/
def toToken (s : TokenReader) : TokenReader :=
  let (cursor, keyAllowed) := skipGap s.inFlow s.cursor.mark s.cursor.rest s.keyAllowed false
  { s with cursor := cursor, keyAllowed := keyAllowed }

/-! ## Candidates for keys -/

/-- The cursor is too far from a candidate for it to be a key. -/
def Candidate.isStale (k : Candidate) (place : Mark) : Bool :=
  k.mark.line < place.line || k.mark.index + 1024 < place.index

/-- Forgets a candidate that can no longer be a key, which is an error if it must be one. -/
def freshen (mark : Mark) : Option Candidate → Option (Option Candidate)
  | none => some none
  | some k =>
    if Candidate.isStale k mark then (if k.required then none else some none) else some (some k)

/-- Forgets all candidates that can no longer be keys. -/
def dropStale (s : TokenReader) : Option TokenReader := do
  let candidate ← freshen s.cursor.mark s.candidate
  let enclosing ← s.enclosing.mapM (freshen s.cursor.mark)
  some { s with candidate := candidate, enclosing := enclosing }

/-- Forgets the candidate of the current level, which is an error if it must be a key. -/
def dropCandidate (s : TokenReader) : Option TokenReader :=
  if s.candidate.any fun k => k.required then none else some { s with candidate := none }

/-- Makes the node at the cursor a candidate, if a key may start here. -/
def saveCandidate (s : TokenReader) : Option TokenReader :=
  if s.keyAllowed then do
    let s ← s.dropCandidate
    some { s with candidate := some {
      position := s.tokens.length
      mark := s.cursor.mark
      required := !s.inFlow && s.columns.head? == some s.column } }
  else some s

/-! ## Indentation -/

/-- Opens a block collection at a column to the right of the innermost one, with a token put in
at a position. -/
def indentTo (s : TokenReader) (column position : Nat) (opening : Token) : TokenReader :=
  if s.inFlow || !(s.columns.head?.all fun n => n < column) then s
  else { s with columns := column :: s.columns }.insertAt position opening

/-- Closes the block collections to the right of a column. -/
def dedentFrom (column : Nat) : List Nat → List Token → List Nat × List Token
  | [], tokens => ([], tokens)
  | n :: columns, tokens =>
    if column < n then dedentFrom column columns (.blockEnd :: tokens) else (n :: columns, tokens)

/-- Closes the block collections to the right of a column, outside flow collections. -/
def dedentTo (s : TokenReader) (column : Nat) : TokenReader :=
  if s.inFlow then s
  else
    let (columns, tokens) := dedentFrom column s.columns s.tokens
    { s with columns := columns, tokens := tokens }

/-- Closes all block collections, outside flow collections. -/
def dedentAll (s : TokenReader) : TokenReader :=
  if s.inFlow then s
  else { s with columns := [], tokens := s.columns.map (fun _ => Token.blockEnd) ++ s.tokens }

/-! ## The tokens -/

/-- Adds a token of a number of characters. -/
def advance (s : TokenReader) (n : Nat) (t : Token) : TokenReader :=
  { s with cursor := s.cursor.skip n }.emit t

/-- Takes a document marker. -/
def documentMarker (s : TokenReader) (t : Token) : Option TokenReader := do
  let s ← s.dedentAll.dropCandidate
  some ({ s with keyAllowed := false }.advance 3 t)

/-- Takes a directive. -/
def directive (s : TokenReader) : Option TokenReader := do
  let s ← s.dedentAll.dropCandidate
  let (d, cursor) ← readDirective s.cursor
  some ({ s with keyAllowed := false, cursor := cursor }.emit (.directive d))

/-- Takes the opening bracket of a flow collection. -/
def flowStart (s : TokenReader) (t : Token) : Option TokenReader := do
  let s ← s.saveCandidate
  some ({ s with
    enclosing := s.candidate :: s.enclosing, candidate := none, keyAllowed := true }.advance 1 t)

/-- Takes the closing bracket of a flow collection. -/
def flowEnd (s : TokenReader) (t : Token) : Option TokenReader := do
  let s ← s.dropCandidate
  let s := match s.enclosing with
    | [] => s
    | candidate :: enclosing => { s with candidate := candidate, enclosing := enclosing }
  some ({ s with keyAllowed := false }.advance 1 t)

/-- Takes the comma between the entries of a flow collection. -/
def flowEntry (s : TokenReader) : Option TokenReader := do
  let s ← s.dropCandidate
  some ({ s with keyAllowed := true }.advance 1 .flowEntry)

/-- Takes the dash of an entry of a block sequence. -/
def blockEntry (s : TokenReader) : Option TokenReader := do
  let s ←
    if s.inFlow then some s
    else if s.keyAllowed then some (s.indentTo s.column s.tokens.length .blockSequenceStart)
    else none
  let s ← s.dropCandidate
  some ({ s with keyAllowed := true }.advance 1 .blockEntry)

/-- Takes the question mark of a key. -/
def explicitKey (s : TokenReader) : Option TokenReader := do
  let s ←
    if s.inFlow then some s
    else if s.keyAllowed then some (s.indentTo s.column s.tokens.length .blockMappingStart)
    else none
  let s ← s.dropCandidate
  some ({ s with keyAllowed := !s.inFlow }.advance 1 .key)

/-- Takes the colon of a value.  If there is a candidate it is the key. -/
def value (s : TokenReader) : Option TokenReader :=
  match s.candidate with
  | some k =>
    let s := (s.insertAt k.position .key).indentTo k.mark.column k.position .blockMappingStart
    some ({ s with candidate := none, keyAllowed := false }.advance 1 .value)
  | none =>
    if s.inFlow then some ({ s with keyAllowed := false }.advance 1 .value)
    else if s.keyAllowed then
      some ((s.indentTo s.column s.tokens.length .blockMappingStart).advance 1 .value)
    else none

/-- Takes an alias or an anchor. -/
def anchor (s : TokenReader) (make : List Char → Token) : Option TokenReader := do
  let s ← s.saveCandidate
  let (name, cursor) ← readAnchorName s.cursor
  some ({ s with keyAllowed := false, cursor := cursor }.emit (make name))

/-- Takes a tag. -/
def tag (s : TokenReader) : Option TokenReader := do
  let s ← s.saveCandidate
  let (name, cursor) ← readTag s.inFlow s.cursor
  some ({ s with keyAllowed := false, cursor := cursor }.emit (.tag name))

/-- Takes a block scalar, after which a key may start. -/
def blockScalar (s : TokenReader) (folded : Bool) : Option TokenReader := do
  let s ← s.dropCandidate
  let (text, cursor) ← BlockScalar.read folded s.columns.head? s.cursor
  some ({ s with keyAllowed := true, cursor := cursor }.emit
    (.scalar (if folded then .folded else .literal) text))

/-- Takes a quoted scalar. -/
def quotedScalar (s : TokenReader) (single : Bool) : Option TokenReader := do
  let s ← s.saveCandidate
  let (text, cursor) ← QuotedScalar.read single s.cursor
  some ({ s with keyAllowed := false, cursor := cursor }.emit
    (.scalar (if single then .singleQuoted else .doubleQuoted) text))

/-- Takes a plain scalar.  If it ends after a line end, a key may start. -/
def plainScalar (s : TokenReader) : Option TokenReader := do
  let s ← s.saveCandidate
  let (text, broken, cursor) ←
    PlainScalar.read s.inFlow (s.columns.head?.elim 0 (· + 1)) s.cursor
  some ({ s with keyAllowed := broken, cursor := cursor }.emit (.scalar .plain text))

/-- A plain scalar may start here. -/
def startsPlain (flow : Bool) (c : Char) (rest : List Char) : Bool :=
  !(isGap c || "-?:,[]\x7b\x7d#&*!|>'\"%@\x60".toList.contains c)
    || (c == '-' && !(rest.head?.any isBlank))
    || (!flow && (c == '?' || c == ':') && !atGap rest)

/-- Takes the token at the cursor. -/
def take (s : TokenReader) : Option TokenReader :=
  match s.cursor.rest with
  | [] => none
  | c :: rest =>
    if c == '%' && s.column == 0 then s.directive
    else if s.cursor.atDocumentMarker then
      s.documentMarker (if c == '-' then .documentStart else .documentEnd)
    else if c == '[' then s.flowStart .flowSequenceStart
    else if c == '\x7b' then s.flowStart .flowMappingStart
    else if c == ']' then s.flowEnd .flowSequenceEnd
    else if c == '\x7d' then s.flowEnd .flowMappingEnd
    else if c == ',' then s.flowEntry
    else if c == '-' && atGap rest then s.blockEntry
    else if c == '?' && (s.inFlow || atGap rest) then s.explicitKey
    else if c == ':' && (s.inFlow || atGap rest) then s.value
    else if c == '*' then s.anchor .alias
    else if c == '&' then s.anchor .anchor
    else if c == '!' then s.tag
    else if c == '|' && !s.inFlow then s.blockScalar false
    else if c == '>' && !s.inFlow then s.blockScalar true
    else if c == '\'' then s.quotedScalar true
    else if c == '"' then s.quotedScalar false
    else if startsPlain s.inFlow c rest then s.plainScalar
    else none

/-- Goes to the next token: candidates that it leaves behind are forgotten, and block collections
to its right are closed. -/
def advanceToToken (s : TokenReader) : Option TokenReader :=
  s.toToken.dropStale.map fun s => s.dedentTo s.column

/-- Ends the text: all block collections are closed. -/
def finish (s : TokenReader) : Option (List Token) :=
  s.dedentAll.dropCandidate.map fun s => s.tokens.reverse

/-- Takes tokens to the end of the text. -/
def run : Nat → TokenReader → Option (List Token)
  | 0, _ => none
  | fuel + 1, s =>
    s.advanceToToken.bind fun s =>
      if s.cursor.rest.isEmpty then s.finish else s.take.bind (run fuel)

end TokenReader

/-- The tokens of a text, unless it holds a character that may not stand in a document or cannot
be cut into tokens. -/
def Token.ofText? (text : List Char) : Option (List Token) :=
  if text.all isAllowed then TokenReader.run (text.length + 1) (.start text) else none

end NodeTelemetry.Yaml
