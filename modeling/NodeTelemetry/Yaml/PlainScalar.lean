import NodeTelemetry.Yaml.Character

/-!
# Plain scalars

A plain scalar is text without quotes.  It runs until a colon before a gap, a comment, a line that
is not indented enough, or, inside a flow collection, an indicator of the collection.  Its lines
are folded together.  It ends where the reader of `serde_yaml` 0.9 ends it, and may be written where
the emitter of `serde_yaml` 0.9 writes one.
-/

namespace NodeTelemetry.Yaml.PlainScalar

/-- A run of a plain scalar without gaps, and the rest of the text.  A colon directly before an
indicator inside a flow collection is an error. -/
def run (flow : Bool) : List Char → Option (List Char × List Char)
  | [] => some ([], [])
  | c :: rest =>
    if isGap c then some ([], c :: rest)
    else if flow && c == ':'
        && (rest.head?.any fun d => isFlowIndicator d || d == '?') then none
    else if c == ':' && atGap rest then some ([], c :: rest)
    else if flow && isFlowIndicator c then some ([], c :: rest)
    else (run flow rest).map fun (more, left) => (c :: more, left)

/-- The blanks and line ends between two runs: the blanks if no line ends, the line ends, and the
cursor after them.  A tab within the indentation is an error. -/
def gap (indent : Nat) (mark : Mark) :
    List Char → (blanks breaks : List Char) → Option (List Char × List Char × Cursor)
  | [], blanks, breaks => some (blanks, breaks, ⟨mark, []⟩)
  | '\r' :: '\n' :: rest, _, breaks => gap indent (mark.down 2) rest [] (breaks ++ ['\n'])
  | c :: rest, blanks, breaks =>
    if isBlank c then
      if breaks.isEmpty then gap indent (mark.right 1) rest (blanks ++ [c]) breaks
      else if mark.column < indent && c == '\t' then none
      else gap indent (mark.right 1) rest blanks breaks
    else if isBreak c then
      gap indent (mark.down 1) rest []
        (breaks ++ [if c = '\u2028' || c = '\u2029' then c else '\n'])
    else some (blanks, breaks, ⟨mark, c :: rest⟩)

/-- Reads on from a run on: the text from there on, whether a line end was read last, and the
cursor after it.  `pending` is what stands for the gap before the cursor; it belongs to the text
only if a run follows. -/
def readFrom (flow : Bool) (indent : Nat) :
    Nat → Cursor → (pending : List Char) → (broken : Bool) → Option (List Char × Bool × Cursor)
  | 0, _, _, _ => none
  | fuel + 1, c, pending, broken =>
    if c.atDocumentMarker || c.rest.head? == some '#' then some ([], broken, c)
    else do
      let (piece, left) ← run flow c.rest
      if piece.isEmpty then some ([], broken, c)
      else
        let c : Cursor := ⟨c.mark.right piece.length, left⟩
        if left.isEmpty || !atGap left then some (pending ++ piece, false, c)
        else
          let (blanks, breaks, c) ← gap indent c.mark c.rest [] []
          let broken := !breaks.isEmpty
          if !flow && c.mark.column < indent then some (pending ++ piece, broken, c)
          else
            let (more, broken, c) ← readFrom flow indent fuel c (joinGap blanks breaks) broken
            some (pending ++ piece ++ more, broken, c)

/-- Reads a plain scalar in or outside a flow collection, of which lines after the first are
indented at least as given: its text, whether it ends after a line end, and the cursor after it. -/
def read (flow : Bool) (indent : Nat) (c : Cursor) : Option (List Char × Bool × Cursor) :=
  readFrom flow indent (c.rest.length + 1) c [] false

/-! ## Writing -/

/-- The first character of a text, with those after it, does not let the text be plain. -/
def badStart : List Char → Bool
  | [] => false
  | c :: rest =>
    "#,[]\x7b\x7d&*!|>'\"%@\x60".toList.contains c
      || ((c == '?' || c == ':' || c == '-') && atGap rest)

/-- Some later character does not let the text be plain: a colon before a gap, or a number sign
after one. -/
def badInside : (before : Char) → List Char → Bool
  | _, [] => false
  | before, c :: rest =>
    (c == ':' && atGap rest) || (c == '#' && isGap before) || badInside c rest

/-- The text can be written without quotes: it is on one line, printable and without spaces at its
ends, and does not look like the start of anything else. -/
def canHold (s : List Char) : Bool :=
  !(s.take 3 == ['-', '-', '-'] || s.take 3 == ['.', '.', '.'])
    && !badStart s
    && !(s.head?.any fun c => badInside c (s.drop 1))
    && s.all (fun c => isPrintable c && !isBreak c)
    && !(s.head? == some ' ' || s.getLast? == some ' ')

end NodeTelemetry.Yaml.PlainScalar
