import NodeTelemetry.Yaml.Character
import NodeTelemetry.Decimal.Numeral

/-!
# Quoted scalars

Between single quotes a quote is written twice and all else stands for itself.  Between double
quotes a backslash starts an escape.  In both, lines are folded together; an escaped line end
between double quotes falls away.  The escapes are those that `serde_yaml` 0.9 reads, and the ones
that are written are those that it writes.
-/

namespace NodeTelemetry.Yaml.QuotedScalar

/-! ## Escapes -/

/-- The escapes of one character, with what they stand for. -/
def simpleEscapes : List (Char × Char) :=
  [ ('0', '\x00'), ('a', '\x07'), ('b', '\x08'), ('t', '\t'), ('\t', '\t'), ('n', '\n'),
    ('v', '\x0b'), ('f', '\x0c'), ('r', '\r'), ('e', '\x1b'), (' ', ' '), ('"', '"'), ('/', '/'),
    ('\\', '\\'), ('N', '\u0085'), ('_', '\u00a0'), ('L', '\u2028'), ('P', '\u2029') ]

/-- The number of digits after the escapes that give a code point. -/
def codeLength? : Char → Option Nat
  | 'x' => some 2
  | 'u' => some 4
  | 'U' => some 8
  | _ => none

/-- The character of an escape, given the text after the backslash, and the number of characters
that the escape takes there. -/
def escape? : List Char → Option (Char × Nat)
  | [] => none
  | c :: rest =>
    match codeLength? c with
    | some n =>
      if (rest.take n).length = n then
        (Decimal.natural? 16 (rest.take n)).bind fun code =>
          if h : code.isValidChar then some (Char.ofNatAux code h, n + 1) else none
      else none
    | none => (simpleEscapes.lookup c).map fun d => (d, 1)

/-! ## Reading -/

/-- The mark that ends the scalar. -/
def quote (single : Bool) : Char := if single then '\'' else '"'

/-- Reads characters until a gap, the closing quote or an escaped line end: what they stand for,
whether a line end was escaped, and the cursor after them. -/
def piece (single : Bool) : Nat → Cursor → Option (List Char × Bool × Cursor)
  | 0, _ => none
  | fuel + 1, c =>
    let goOn (n : Nat) (d : Char) : Option (List Char × Bool × Cursor) :=
      (piece single fuel (c.skip n)).map fun (more, escaped, c) => (d :: more, escaped, c)
    match c.rest with
    | [] => some ([], false, c)
    | d :: rest =>
      if isGap d then some ([], false, c)
      else if single && d == '\'' && rest.head? == some '\'' then goOn 2 '\''
      else if d == quote single then some ([], false, c)
      else if !single && d == '\\' then
        if !rest.isEmpty && atBreak rest then some ([], true, (c.skip 1).takeBreak.2)
        else (escape? rest).bind fun (e, n) => goOn (1 + n) e
      else goOn 1 d

/-- The blanks and line ends that follow: the blanks if no line ends, and the line ends.  After a
line end, which may be an escaped one before the gap, blanks fall away. -/
def gap (mark : Mark) (escaped : Bool) :
    List Char → (blanks breaks : List Char) → List Char × List Char × Cursor
  | [], blanks, breaks => (blanks, breaks, ⟨mark, []⟩)
  | '\r' :: '\n' :: rest, _, breaks => gap (mark.down 2) escaped rest [] (breaks ++ ['\n'])
  | c :: rest, blanks, breaks =>
    if isBlank c then
      gap (mark.right 1) escaped rest
        (if breaks.isEmpty && !escaped then blanks ++ [c] else blanks) breaks
    else if isBreak c then
      gap (mark.down 1) escaped rest []
        (breaks ++ [if c = '\u2028' || c = '\u2029' then c else '\n'])
    else (blanks, breaks, ⟨mark, c :: rest⟩)

/-- Reads on inside the quotes; the answer is the text and the cursor after the closing quote. -/
def readFrom (single : Bool) : Nat → Cursor → Option (List Char × Cursor)
  | 0, _ => none
  | fuel + 1, c =>
    if c.atDocumentMarker || c.rest.isEmpty then none
    else do
      let (text, escaped, c) ← piece single (c.rest.length + 1) c
      if c.rest.head? == some (quote single) then some (text, c.skip 1)
      else
        let (blanks, breaks, c) := gap c.mark escaped c.rest [] []
        let (more, c) ← readFrom single fuel c
        some (text ++ (if escaped then breaks else joinGap blanks breaks) ++ more, c)

/-- Reads a quoted scalar from its opening quote on: its text and the cursor after it. -/
def read (single : Bool) (c : Cursor) : Option (List Char × Cursor) :=
  readFrom single (c.rest.length + 1) (c.skip 1)

/-! ## Writing -/

/-- Somewhere in the text the first character is directly followed by the second. -/
def adjacent (first second : Char → Bool) : List Char → Bool
  | c :: d :: rest => (first c && second d) || adjacent first second (d :: rest)
  | _ => false

/-- The text can be written between single quotes: it is printable, and no space stands beside a
line end. -/
def singleCanHold (s : List Char) : Bool :=
  s.all isPrintable && !adjacent isBreak (· == ' ') s && !adjacent (· == ' ') isBreak s

/-- A text between single quotes, from a place on.  After line ends the next line is indented, and
a lone line feed is written twice because it would be read as a space. -/
def singleBody (indent : Nat) : (broken : Bool) → List Char → List Char
  | broken, [] => if broken then List.replicate indent ' ' else []
  | broken, c :: rest =>
    if isBreak c then
      (if c = '\n' && !broken then ['\n'] else []) ++ c :: singleBody indent true rest
    else
      (if broken then List.replicate indent ' ' else [])
        ++ (if c = '\'' then ['\'', '\''] else [c]) ++ singleBody indent false rest

/-- A text between single quotes. -/
def writeSingle (indent : Nat) (s : List Char) : List Char :=
  '\'' :: singleBody indent false s ++ ['\'']

/-- The last digits of a code point, in capital hexadecimal. -/
def hexDigits : Nat → Nat → List Char
  | 0, _ => []
  | places + 1, n =>
    hexDigits places (n / 16) ++ [("0123456789ABCDEF".toList)[n % 16]?.getD '0']

/-- The letter after the backslash of a character with an escape of its own. -/
def escapeLetter? (c : Char) : Option Char :=
  [ ('\x00', '0'), ('\x07', 'a'), ('\x08', 'b'), ('\t', 't'), ('\n', 'n'), ('\x0b', 'v'),
    ('\x0c', 'f'), ('\r', 'r'), ('\x1b', 'e'), ('"', '"'), ('\\', '\\'), ('\u0085', 'N'),
    ('\u00a0', '_'), ('\u2028', 'L'), ('\u2029', 'P') ].lookup c

/-- The escape of a character. -/
def writeEscape (c : Char) : List Char :=
  match escapeLetter? c with
  | some letter => ['\\', letter]
  | none =>
    if c.toNat ≤ 0xff then '\\' :: 'x' :: hexDigits 2 c.toNat
    else if c.toNat ≤ 0xffff then '\\' :: 'u' :: hexDigits 4 c.toNat
    else '\\' :: 'U' :: hexDigits 8 c.toNat

/-- A character between double quotes. -/
def doubleChar (c : Char) : List Char :=
  if !isPrintable c || isBreak c || c == '"' || c == '\\' then writeEscape c else [c]

/-- A text between double quotes. -/
def writeDouble (s : List Char) : List Char := '"' :: s.flatMap doubleChar ++ ['"']

end NodeTelemetry.Yaml.QuotedScalar
