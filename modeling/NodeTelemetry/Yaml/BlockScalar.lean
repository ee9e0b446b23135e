import NodeTelemetry.Yaml.Character

/-!
# Block scalars

A block scalar is introduced by a bar, and keeps its lines as they are, or by a greater-than sign,
and has them folded.  A digit after the sign gives the indentation of its lines, which is that of
the first one otherwise; a plus sign keeps all line ends after the text, and a minus sign none.
Blocks are read as `serde_yaml` 0.9 reads them, and written as it writes them.
-/

namespace NodeTelemetry.Yaml.BlockScalar

/-- What becomes of the line ends after the text. -/
inductive Chomping where
  /-- None stays. -/
  | strip
  /-- The first one stays. -/
  | clip
  /-- All stay. -/
  | keep
  deriving DecidableEq, Repr

/-- The chomping sign that follows. -/
def chomping? (c : Cursor) : Option Chomping × Cursor :=
  match c.rest with
  | '+' :: _ => (some .keep, c.skip 1)
  | '-' :: _ => (some .strip, c.skip 1)
  | _ => (none, c)

/-- The indentation digit that follows.  Zero is an error. -/
def increment? (c : Cursor) : Option (Option Nat × Cursor) :=
  match c.rest with
  | d :: _ =>
    if d == '0' then none
    else if d.isDigit then some (some (d.toNat - '0'.toNat), c.skip 1)
    else some (none, c)
  | [] => some (none, c)

/-- Reads the rest of the line that introduces the scalar: the chomping, the indentation if it is
given, and the cursor at the line after it. -/
def header (c : Cursor) : Option (Chomping × Option Nat × Cursor) := do
  let (sign, c) := chomping? c
  let (increment, c) ← increment? c
  let (sign, c) := if sign.isNone && increment.isSome then chomping? c else (sign, c)
  let c := c.skipBlanks.skipComment
  if atBreak c.rest then some (sign.getD .clip, increment, c.takeBreak.2) else none

/-- Skips indentation and empty lines: the line ends read, the largest column reached, and the
cursor.  Without a given indentation all spaces are taken.  A tab instead of a space of the
indentation is an error. -/
def emptyLines (indent : Option Nat) (mark : Mark) :
    List Char → (breaks : List Char) → (widest : Nat) → Option (List Char × Nat × Cursor)
  | [], breaks, widest => some (breaks, max widest mark.column, ⟨mark, []⟩)
  | '\r' :: '\n' :: rest, breaks, widest =>
    emptyLines indent (mark.down 2) rest (breaks ++ ['\n']) (max widest mark.column)
  | c :: rest, breaks, widest =>
    let inside := indent.all fun n => mark.column < n
    if inside && c == ' ' then emptyLines indent (mark.right 1) rest breaks widest
    else if inside && c == '\t' then none
    else if isBreak c then
      emptyLines indent (mark.down 1) rest
        (breaks ++ [if c = '\u2028' || c = '\u2029' then c else '\n']) (max widest mark.column)
    else some (breaks, max widest mark.column, ⟨mark, c :: rest⟩)

/-- The text is at a blank. -/
def atBlank (text : List Char) : Bool := text.head?.any isBlank

/-- Reads lines: their text, the last line end, the line ends of empty lines after it, and the
cursor.  `ending` is the line end of the line before, `empty` the line ends of empty lines after
it, and `indented` tells whether that line started with a blank. -/
def linesFrom (folded : Bool) (indent : Nat) :
    Nat → Cursor → (ending empty : List Char) → (indented : Bool) →
      Option (List Char × List Char × List Char × Cursor)
  | 0, _, _, _, _ => none
  | fuel + 1, c, ending, empty, indented =>
    if c.mark.column == indent && !c.rest.isEmpty then do
      let blank := atBlank c.rest
      let joint :=
        if folded && ending == ['\n'] && !indented && !blank then
          (if empty.isEmpty then [' '] else []) ++ empty
        else ending ++ empty
      let (line, c) := c.span fun d => !isBreak d
      let (ending, c) := c.takeBreak
      let (empty, _, c) ← emptyLines (some indent) c.mark c.rest [] 0
      let (more, ending, empty, c) ← linesFrom folded indent fuel c ending empty blank
      some (joint ++ line ++ more, ending, empty, c)
    else some ([], ending, empty, c)

/-- Reads a block scalar from the sign that introduces it on, inside a block of the given
indentation: its text and the cursor after it. -/
def read (folded : Bool) (parent : Option Nat) (c : Cursor) : Option (List Char × Cursor) := do
  let (chomping, increment, c) ← header (c.skip 1)
  let given := increment.map fun n => parent.getD 0 + n
  let (empty, widest, c) ← emptyLines given c.mark c.rest [] 0
  let indent := given.getD (max (max widest (parent.elim 0 (· + 1))) 1)
  let (text, ending, empty, c) ← linesFrom folded indent (c.rest.length + 1) c [] empty false
  let tail := match chomping with
    | .strip => []
    | .clip => ending
    | .keep => ending ++ empty
  some (text ++ tail, c)

/-! ## Writing -/

/-- The text can be written behind a bar: it is printable, no line of it ends with a space, and it
does not end with one. -/
def canHold (s : List Char) : Bool :=
  s.all isPrintable && !(s.getLast? == some ' ')
    && !(s.zip (s.drop 1)).any fun (c, d) => c == ' ' && isBreak d

/-- The chomping sign that keeps the line ends after a text as they are. -/
def chompingSign (s : List Char) : List Char :=
  match s.reverse with
  | [] => ['-']
  | [last] => if isBreak last then ['+'] else ['-']
  | last :: before :: _ =>
    if !isBreak last then ['-'] else if isBreak before then ['+'] else []

/-- The lines of a text, each indented unless it is empty. -/
def writeLines (indent : Nat) : (broken : Bool) → List Char → List Char
  | _, [] => []
  | broken, c :: rest =>
    if isBreak c then c :: writeLines indent true rest
    else (if broken then List.replicate indent ' ' else []) ++ c :: writeLines indent false rest

/-- A text behind a bar.  The indentation is given where the first line does not show it. -/
def writeLiteral (indent : Nat) (s : List Char) : List Char :=
  '|' :: (if s.head?.any fun c => c == ' ' || isBreak c then (toString indent).toList else [])
    ++ chompingSign s ++ '\n' :: writeLines indent true s

end NodeTelemetry.Yaml.BlockScalar
