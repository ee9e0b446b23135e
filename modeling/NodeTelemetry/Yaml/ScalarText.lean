import NodeTelemetry.Yaml.Value
import NodeTelemetry.Yaml.Token

/-!
# Text as a scalar

A text is written so that it reads back as the same text: behind a bar if it has line feeds,
between single quotes if it looks like another value, and plain otherwise.  Where that form cannot
hold it, quotes are used, and double quotes can hold anything.  This is the choice that the emitter
of `serde_yaml` 0.9 makes.
-/

namespace NodeTelemetry.Yaml

/-- Line ends in a text are only found in a block of lines. -/
def hasLineFeed (s : List Char) : Bool := s.contains '\n'

/-- The text would be read as another value, or looks like a number. -/
def looksLikeValue (s : List Char) : Bool := Value.ofPlain s ≠ .text || Value.isPadded s

/-- The style in which a text is written. -/
def styleOf (s : List Char) : Style :=
  if hasLineFeed s then (if BlockScalar.canHold s then .literal else .doubleQuoted)
  else if !looksLikeValue s && PlainScalar.canHold s then .plain
  else if QuotedScalar.singleCanHold s then .singleQuoted
  else .doubleQuoted

/-- A text as a scalar whose further lines are indented as given. -/
def writeText (indent : Nat) (s : List Char) : List Char :=
  match styleOf s with
  | .plain => s
  | .singleQuoted => QuotedScalar.writeSingle indent s
  | .literal => BlockScalar.writeLiteral indent s
  | _ => QuotedScalar.writeDouble s

/-- An entry of a block mapping on lines of its own. -/
def writeEntry (key value : List Char) : List Char :=
  key ++ ':' :: ' ' :: value ++ (if value.getLast?.any isBreak then [] else ['\n'])

end NodeTelemetry.Yaml
