/-!
# Characters of YAML text

The characters that may stand in a document, the classes in which its rules are put, and places in
a text.  Text is read from a list of characters; a `Cursor` is what is left of it together with
the place reached, which matters because YAML is laid out by columns and lines.

Configurations are read and written by `serde_yaml` 0.9, so its reader and its emitter are followed
here and in the other modules on YAML, also where YAML itself says something else or leaves it open.
-/

namespace NodeTelemetry.Yaml

/-! ## Classes -/

/-- The byte order mark. -/
def byteOrderMark : Char := '\uFEFF'

/-- The character may stand in a document. -/
def isAllowed (c : Char) : Bool :=
  let n := c.toNat
  n == 0x09 || n == 0x0a || n == 0x0d || (0x20 ≤ n && n ≤ 0x7e) || n == 0x85
    || (0xa0 ≤ n && n ≤ 0xd7ff) || (0xe000 ≤ n && n ≤ 0xfffd) || 0x10000 ≤ n

/-- The character is written as it stands; others are written as escapes between double quotes. -/
def isPrintable (c : Char) : Bool :=
  let n := c.toNat
  n == 0x0a || (0x20 ≤ n && n ≤ 0x7e) || (0xa0 ≤ n && n ≤ 0xd7ff)
    || (0xe000 ≤ n && n ≤ 0xfffd && c != byteOrderMark) || 0x10000 ≤ n

/-- The character ends a line. -/
def isBreak (c : Char) : Bool :=
  c == '\n' || c == '\r' || c == '\u0085' || c == '\u2028' || c == '\u2029'

/-- The character is a space or a tab. -/
def isBlank (c : Char) : Bool := c == ' ' || c == '\t'

/-- The character is a blank or ends a line. -/
def isGap (c : Char) : Bool := isBlank c || isBreak c

/-- The text is at its end or at the end of a line. -/
def atBreak : List Char → Bool
  | [] => true
  | c :: _ => isBreak c

/-- The text is at its end, at a blank or at the end of a line. -/
def atGap : List Char → Bool
  | [] => true
  | c :: _ => isGap c

/-- The character may stand in a name: an ASCII letter or digit, a dash or an underscore. -/
def isNameChar (c : Char) : Bool := c.isAlphanum || c == '-' || c == '_'

/-- The character opens, closes or separates the parts of a flow collection. -/
def isFlowIndicator (c : Char) : Bool :=
  c == ',' || c == '[' || c == ']' || c == '\x7b' || c == '\x7d'

theorem isGap_of_isBreak {c : Char} (h : isBreak c = true) : isGap c = true := by
  simp [isGap, h]

/-- A printable character may stand in a document. -/
theorem isAllowed_of_isPrintable {c : Char} (h : isPrintable c = true) : isAllowed c = true := by
  simp only [isPrintable, isAllowed, Bool.or_eq_true, Bool.and_eq_true, beq_iff_eq,
    decide_eq_true_eq] at h ⊢
  omega

/-! ## Places -/

/-- A place in a text: the characters before it, the line and the column. -/
structure Mark where
  index : Nat
  line : Nat
  column : Nat
  deriving DecidableEq, Repr

/-- The start of a text. -/
def Mark.start : Mark := ⟨0, 0, 0⟩

/-- The place a number of characters further on the same line. -/
def Mark.right (m : Mark) (n : Nat) : Mark := ⟨m.index + n, m.line, m.column + n⟩

/-- The start of the next line, after a line end of a number of characters. -/
def Mark.down (m : Mark) (n : Nat) : Mark := ⟨m.index + n, m.line + 1, 0⟩

/-- A place and the text from there on. -/
structure Cursor where
  mark : Mark
  rest : List Char
  deriving DecidableEq, Repr

namespace Cursor

/-- The start of a text. -/
def ofText (text : List Char) : Cursor := ⟨.start, text⟩

/-- The cursor a number of characters further on the same line. -/
def skip (c : Cursor) (n : Nat) : Cursor := ⟨c.mark.right n, c.rest.drop n⟩

/-- The longest run of characters of a class that holds no line end, and the cursor after it. -/
def span (c : Cursor) (p : Char → Bool) : List Char × Cursor :=
  let run := c.rest.takeWhile p
  (run, ⟨c.mark.right run.length, c.rest.dropWhile p⟩)

/-- The cursor after the blanks that follow. -/
def skipBlanks (c : Cursor) : Cursor := (c.span isBlank).2

/-- The cursor after a comment, if one starts here. -/
def skipComment (c : Cursor) : Cursor :=
  if c.rest.head? = some '#' then (c.span fun d => !isBreak d).2 else c

/-- The line end that follows, if there is one, and the cursor after it.  All line ends are read as
line feeds but for the separators of lines and of paragraphs. -/
def takeBreak (c : Cursor) : List Char × Cursor :=
  match c.rest with
  | '\r' :: '\n' :: rest => (['\n'], ⟨c.mark.down 2, rest⟩)
  | d :: rest =>
    if isBreak d then
      ([if d = '\u2028' || d = '\u2029' then d else '\n'], ⟨c.mark.down 1, rest⟩)
    else ([], c)
  | [] => ([], c)

/-- A document marker stands at the start of a line: three dashes or three dots, and then a gap. -/
def atDocumentMarker (c : Cursor) : Bool :=
  c.mark.column == 0
    && (c.rest.take 3 == ['-', '-', '-'] || c.rest.take 3 == ['.', '.', '.'])
    && atGap (c.rest.drop 3)

end Cursor

/-! ## Folding -/

/-- What the line ends between two pieces of a flowing text stand for: a single line feed is a
space, and of several the first one falls away; a separator of lines stays. -/
def foldBreaks : List Char → List Char
  | [] => []
  | first :: more =>
    if first = '\n' then (if more.isEmpty then [' '] else more) else first :: more

/-- What the blanks and line ends between two pieces of a flowing text stand for. -/
def joinGap (blanks breaks : List Char) : List Char :=
  if breaks.isEmpty then blanks else foldBreaks breaks

end NodeTelemetry.Yaml
