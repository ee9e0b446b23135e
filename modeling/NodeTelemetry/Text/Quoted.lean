import NodeTelemetry.Text.Visible

/-!
# Quoted text in messages

A message shows a text between double quotes.  Quotes and backslashes are escaped, tabs, line feeds
and carriage returns have escapes of their own, and a character that would not be seen is shown by
its code.
-/

namespace NodeTelemetry.Text

/-- The escape of a character by its code, in hexadecimal digits. -/
def codeEscape (c : Char) : List Char :=
  "\\u\x7b".toList ++ Nat.toDigits 16 c.toNat ++ ['\x7d']

/-- A character as it stands between quotes. -/
def quotedChar (c : Char) : List Char :=
  if c = '\x00' then ['\\', '0']
  else if c = '\t' then ['\\', 't']
  else if c = '\n' then ['\\', 'n']
  else if c = '\r' then ['\\', 'r']
  else if c = '"' || c = '\\' then ['\\', c]
  else if isVisible c then [c]
  else codeEscape c

/-- A text between quotes. -/
def quoted (s : List Char) : String :=
  String.ofList ('"' :: s.flatMap quotedChar ++ ['"'])

end NodeTelemetry.Text
