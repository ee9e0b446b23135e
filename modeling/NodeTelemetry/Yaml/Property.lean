import NodeTelemetry.Yaml.Character
import NodeTelemetry.Decimal.Numeral

/-!
# Anchors, tags and directives

A node may be given a name by an anchor, which an alias refers to, and a type by a tag.  A tag is
written in full between angle brackets or after a handle, which stands for the start of the tag; a
directive before a document declares handles, or the version of YAML.  All of them are read as
`serde_yaml` 0.9 reads them.
-/

namespace NodeTelemetry.Yaml

/-! ## Anchors and aliases -/

/-- The character may follow the name of an anchor or an alias directly. -/
def mayFollowName (c : Char) : Bool :=
  isGap c || "?:,]\x7d%@\x60".toList.contains c

/-- Reads the name of an anchor or of an alias after its sign. -/
def readAnchorName (c : Cursor) : Option (List Char × Cursor) :=
  let (name, c) := (c.skip 1).span isNameChar
  if name.isEmpty || !(c.rest.head?.all mayFollowName) then none else some (name, c)

/-! ## Tags -/

/-- The character may stand in a tag.  Inside angle brackets, commas and square brackets may. -/
def isTagChar (full : Bool) (c : Char) : Bool :=
  isNameChar c || ";/?:@&=+$.%!~*'()".toList.contains c || (full && ",[]".toList.contains c)

/-- The number of octets of a character whose code starts with the given one. -/
def octetCount? (octet : Nat) : Option Nat :=
  if octet < 0x80 then some 1
  else if 0xc0 ≤ octet && octet < 0xe0 then some 2
  else if 0xe0 ≤ octet && octet < 0xf0 then some 3
  else if 0xf0 ≤ octet && octet < 0xf8 then some 4
  else none

/-- The octet that is escaped here by a percent sign and two digits. -/
def escapedOctet? : List Char → Option Nat
  | '%' :: a :: b :: _ => Decimal.natural? 16 [a, b]
  | _ => none

/-- Further octets of an escaped character, each of which carries six bits of its code. -/
def escapedTail : Nat → List Char → Nat → Option Nat
  | 0, _, code => some code
  | n + 1, text, code =>
    (escapedOctet? text).bind fun octet =>
      if 0x80 ≤ octet && octet < 0xc0 then escapedTail n (text.drop 3) (code * 64 + octet % 64)
      else none

/-- The character that is escaped here octet by octet, and the number of its octets.  A code that
took more octets than it needs is no character of its own, and read as a replacement. -/
def escapedChar? (text : List Char) : Option (Char × Nat) := do
  let first ← escapedOctet? text
  let count ← octetCount? first
  if count = 1 then some (Char.ofNat first, 1)
  else
    let code ← escapedTail (count - 1) (text.drop 3) (first % (1 <<< (7 - count)))
    some (if code < 0x80 then '\uFFFD' else Char.ofNat code, count)

/-- Reads the characters of a tag. -/
def tagText (full : Bool) : Nat → Cursor → Option (List Char × Cursor)
  | 0, _ => none
  | fuel + 1, c =>
    match c.rest with
    | [] => some ([], c)
    | d :: _ =>
      if d == '%' then do
        let (e, count) ← escapedChar? c.rest
        let (more, c) ← tagText full fuel (c.skip (3 * count))
        some (e :: more, c)
      else if isTagChar full d then
        (tagText full fuel (c.skip 1)).map fun (more, c) => (d :: more, c)
      else some ([], c)

/-- A tag as written: the handle, if it has one, and what follows it. -/
structure TagName where
  handle : List Char
  suffix : List Char
  deriving DecidableEq, Repr

/-- Reads the exclamation mark, the name and, if it is there, the exclamation mark of a handle. -/
def readHandle (c : Cursor) : Option (List Char × Cursor) :=
  if c.rest.head? == some '!' then
    let (name, c) := (c.skip 1).span isNameChar
    if c.rest.head? == some '!' then some ('!' :: name ++ ['!'], c.skip 1)
    else some ('!' :: name, c)
  else none

/-- The tag that starts here, without the check of what follows it. -/
def tagNameAt (c : Cursor) : Option (TagName × Cursor) := do
  let fuel := c.rest.length + 1
  if (c.rest.drop 1).head? == some '<' then
    let (suffix, c) ← tagText true fuel (c.skip 2)
    if suffix.isEmpty || c.rest.head? != some '>' then none else some (⟨[], suffix⟩, c.skip 1)
  else
    let (head, c) ← readHandle c
    let (more, c) ← tagText false fuel c
    if 1 < head.length && head.getLast? == some '!' then
      if more.isEmpty then none else some (⟨head, more⟩, c)
    else
      let suffix := head.drop 1 ++ more
      if suffix.isEmpty then some (⟨[], ['!']⟩, c) else some (⟨['!'], suffix⟩, c)

/-- Reads a tag, which a gap follows, or a comma inside a flow collection. -/
def readTag (flow : Bool) (c : Cursor) : Option (TagName × Cursor) := do
  let (tag, c) ← tagNameAt c
  if atGap c.rest || (flow && c.rest.head? == some ',') then some (tag, c) else none

/-! ## Directives -/

/-- A declaration before a document. -/
inductive Directive where
  /-- The version of YAML. -/
  | version (major minor : Nat)
  /-- A handle and what it stands for. -/
  | tagHandle (handle start : List Char)
  deriving DecidableEq, Repr

/-- Reads a number of at most nine digits. -/
def readVersionNumber (c : Cursor) : Option (Nat × Cursor) :=
  let (digits, c) := c.span Char.isDigit
  if 9 < digits.length then none else (Decimal.natural? 10 digits).map fun n => (n, c)

/-- Reads what a version directive declares. -/
def readVersion (c : Cursor) : Option (Directive × Cursor) := do
  let (major, c) ← readVersionNumber c.skipBlanks
  if c.rest.head? != some '.' then none
  else
    let (minor, c) ← readVersionNumber (c.skip 1)
    some (.version major minor, c)

/-- Reads what a tag directive declares. -/
def readTagHandle (c : Cursor) : Option (Directive × Cursor) := do
  let (handle, c) ← readHandle c.skipBlanks
  if handle.length ≠ 1 && handle.getLast? != some '!' then none
  else if !(c.rest.head?.any isBlank) then none
  else
    let c := c.skipBlanks
    let (start, c) ← tagText true (c.rest.length + 1) c
    if start.isEmpty || !atGap c.rest then none else some (.tagHandle handle start, c)

/-- Reads a directive from its percent sign to the end of its line. -/
def readDirective (c : Cursor) : Option (Directive × Cursor) := do
  let (name, c) := (c.skip 1).span isNameChar
  if !atGap c.rest then none
  else
    let (directive, c) ←
      if name = "YAML".toList then readVersion c
      else if name = "TAG".toList then readTagHandle c
      else none
    let c := c.skipBlanks.skipComment
    if atBreak c.rest then some (directive, c.takeBreak.2) else none

end NodeTelemetry.Yaml
