import NodeTelemetry.Yaml.Token

/-!
# Nodes

The tokens of a document are put together into a tree of nodes.  A place in which a node is
missing, such as the value of a key with nothing after the colon, holds an empty plain scalar.

Anchors are numbered: an anchor gets the number of distinct names defined before it, an alias
refers to the number that its name had last, and a number stands for the node that got it last.
So a name that is defined a second time may take over the number of another one, as it does in the
reader of `serde_yaml` 0.9, the trees of which these are.
-/

namespace NodeTelemetry.Yaml

/-- A node of a document.  Tags matter for scalars only. -/
inductive Node where
  /-- A reference to the anchor of a number. -/
  | alias (anchor : Nat)
  | scalar (tag : Option (List Char)) (style : Style) (text : List Char)
  | sequence (items : List Node)
  | mapping (entries : List (Node × Node))
  deriving Repr, Inhabited

/-- The node in a place where nothing is written. -/
def Node.missing : Node := .scalar none .plain []

/-- A document: its root, and the nodes with anchors in the order in which they start. -/
structure Document where
  root : Node
  anchored : List (Nat × Node)
  deriving Repr, Inhabited

/-- The node that a node stands for: an alias stands for the last node of its number. -/
def Document.resolve (d : Document) : Node → Node
  | .alias n => ((d.anchored.reverse.lookup n).getD .missing)
  | node => node

/-- What is known while nodes are put together: the tokens that are left, the handles of tags, the
names of anchors with their numbers, and the nodes with anchors. -/
structure Reading where
  tokens : List Token
  handles : List (List Char × List Char)
  names : List (List Char × Nat)
  anchored : List (Nat × Node)

/-- Steps of putting nodes together, which fail where the tokens make no document. -/
abbrev Read := StateT Reading Option

namespace Read

/-- The next token, which stays. -/
def peek : Read (Option Token) := fun s => some (s.tokens.head?, s)

/-- Leaves the next token behind. -/
def next : Read Unit := fun s => some ((), { s with tokens := s.tokens.drop 1 })

/-- Leaves the next token behind if it is the given one. -/
def accept (t : Token) : Read Bool := fun s =>
  if s.tokens.head? = some t then some (true, { s with tokens := s.tokens.drop 1 })
  else some (false, s)

/-- Leaves the next token behind, which must be the given one. -/
def expect (t : Token) : Read Unit := do
  if ← accept t then pure () else failure

/-! ## Properties of a node -/

/-- The tag in full: the start that its handle stands for, and its suffix. -/
def fullTag (name : TagName) : Read (List Char) := fun s =>
  if name.handle.isEmpty then some (name.suffix, s)
  else (s.handles.lookup name.handle).map fun start => (start ++ name.suffix, s)

/-- The anchor and the tag that stand before a node, in either order. -/
def properties : Read (Option (List Char) × Option TagName) := do
  match ← peek with
  | some (.anchor a) =>
    next
    match ← peek with
    | some (.tag t) =>
      next
      pure (some a, some t)
    | _ => pure (some a, none)
  | some (.tag t) =>
    next
    match ← peek with
    | some (.anchor a) =>
      next
      pure (some a, some t)
    | _ => pure (none, some t)
  | _ => pure (none, none)

/-- Numbers the anchor of a node that starts here; the answer is the place kept for the node. -/
def openAnchor : Option (List Char) → Read (Option Nat)
  | none => pure none
  | some name => fun s =>
    let number := s.names.length
    some (some s.anchored.length, { s with
      names := (name, number) :: s.names.filter fun entry => entry.1 ≠ name
      anchored := s.anchored ++ [(number, .missing)] })

/-- Puts a node into the place kept for it. -/
def closeAnchor (place : Option Nat) (node : Node) : Read Node := fun s =>
  match place with
  | none => some (node, s)
  | some i =>
    some (node, { s with anchored := s.anchored.modify i fun entry => (entry.1, node) })

/-- The reference of an alias, the name of which must be known. -/
def refer (name : List Char) : Read Node := fun s =>
  (s.names.lookup name).map fun number => (.alias number, s)

/-! ## Nodes -/

/-- The next token ends a value in a block mapping. -/
def endsBlockValue : Option Token → Bool
  | some .key | some .value | some .blockEnd => true
  | _ => false

/-- The next token ends a key or a value in a flow collection that ends with the given token. -/
def endsFlowValue (closing : Token) : Option Token → Bool
  | some .flowEntry => true
  | t => t == some closing

mutual

/-- Puts a node together.  Block collections are found outside flow collections only, and a
sequence of entries at the indentation of a mapping only where a mapping has its values. -/
def node : Nat → (block indentless : Bool) → Read Node
  | 0, _, _ => failure
  | fuel + 1, block, indentless => do
    match ← peek with
    | some (.alias name) =>
      next
      refer name
    | _ =>
      let (anchor, tagName) ← properties
      let tag ← match tagName with
        | none => pure none
        | some name => some <$> fullTag name
      let place ← openAnchor anchor
      let t ← peek
      let content ← match t with
        | some (.scalar style text) =>
          next
          pure (.scalar (if tag = some ['!'] then none else tag) style text)
        | some .flowSequenceStart =>
          next
          .sequence <$> flowItems fuel true
        | some .flowMappingStart =>
          next
          .mapping <$> flowEntries fuel true
        | _ =>
          if indentless && t == some .blockEntry then .sequence <$> indentlessItems fuel
          else if block && t == some .blockSequenceStart then
            next
            .sequence <$> blockItems fuel
          else if block && t == some .blockMappingStart then
            next
            .mapping <$> blockEntries fuel
          else if anchor.isSome || tag.isSome then pure (.scalar tag .plain [])
          else failure
      closeAnchor place content

/-- The entries of a block sequence up to its end. -/
def blockItems : Nat → Read (List Node)
  | 0 => failure
  | fuel + 1 => do
    if ← accept .blockEntry then
      let t ← peek
      let item ←
        if t == some .blockEntry || t == some .blockEnd then pure .missing
        else node fuel true false
      (item :: ·) <$> blockItems fuel
    else
      expect .blockEnd
      pure []

/-- The entries of a sequence at the indentation of the mapping around it. -/
def indentlessItems : Nat → Read (List Node)
  | 0 => failure
  | fuel + 1 => do
    if ← accept .blockEntry then
      let t ← peek
      let item ←
        if t == some .blockEntry || endsBlockValue t then pure .missing
        else node fuel true false
      (item :: ·) <$> indentlessItems fuel
    else pure []

/-- The entries of a block mapping up to its end. -/
def blockEntries : Nat → Read (List (Node × Node))
  | 0 => failure
  | fuel + 1 => do
    if ← accept .key then
      let key ← if endsBlockValue (← peek) then pure .missing else node fuel true true
      let value ←
        if ← accept .value then
          if endsBlockValue (← peek) then pure .missing else node fuel true true
        else pure .missing
      ((key, value) :: ·) <$> blockEntries fuel
    else
      expect .blockEnd
      pure []

/-- The entries of a flow sequence up to its end.  A pair of key and value is a mapping of its
own. -/
def flowItems : Nat → (first : Bool) → Read (List Node)
  | 0, _ => failure
  | fuel + 1, first => do
    if ← accept .flowSequenceEnd then pure []
    else
      if !first then expect .flowEntry
      if ← accept .key then
        let key ←
          if (← peek) == some .value || endsFlowValue .flowSequenceEnd (← peek) then
            next
            pure .missing
          else node fuel false false
        let value ← flowValue fuel .flowSequenceEnd
        (.mapping [(key, value)] :: ·) <$> flowItems fuel false
      else if ← accept .flowSequenceEnd then pure []
      else
        let item ← node fuel false false
        (item :: ·) <$> flowItems fuel false

/-- The entries of a flow mapping up to its end.  A node alone is a key without a value. -/
def flowEntries : Nat → (first : Bool) → Read (List (Node × Node))
  | 0, _ => failure
  | fuel + 1, first => do
    if ← accept .flowMappingEnd then pure []
    else
      if !first then expect .flowEntry
      if ← accept .key then
        let key ←
          if (← peek) == some .value || endsFlowValue .flowMappingEnd (← peek) then pure .missing
          else node fuel false false
        let value ← flowValue fuel .flowMappingEnd
        ((key, value) :: ·) <$> flowEntries fuel false
      else if ← accept .flowMappingEnd then pure []
      else
        let key ← node fuel false false
        ((key, .missing) :: ·) <$> flowEntries fuel false

/-- The value after a key in a flow collection that ends with the given token. -/
def flowValue : Nat → (closing : Token) → Read Node
  | 0, _ => failure
  | fuel + 1, closing => do
    if ← accept .value then
      if endsFlowValue closing (← peek) then pure .missing else node fuel false false
    else pure .missing

end

/-! ## Documents -/

/-- Takes in the directives before a document: at most one version, which is 1.1 or 1.2, and no
handle twice. -/
def directives : Nat → (versioned : Bool) → Read Unit
  | 0, _ => failure
  | fuel + 1, versioned => do
    match ← peek with
    | some (.directive (.version major minor)) =>
      if versioned || major ≠ 1 || (minor ≠ 1 && minor ≠ 2) then failure
      else
        next
        directives fuel true
    | some (.directive (.tagHandle handle start)) =>
      next
      let s ← get
      if (s.handles.lookup handle).isSome then failure
      else
        set { s with handles := s.handles ++ [(handle, start)] }
        directives fuel versioned
    | _ => pure ()

/-- The handles that need no directive; a directive goes before them. -/
def standardHandles : List (List Char × List Char) :=
  [(['!'], ['!']), (['!', '!'], "tag:yaml.org,2002:".toList)]

/-- Leaves all document ends behind. -/
def documentEnds : Nat → Read Unit
  | 0 => pure ()
  | fuel + 1 => do
    if ← accept .documentEnd then documentEnds fuel

/-- The next token starts a document explicitly. -/
def startsDocument : Option Token → Bool
  | some (.directive _) | some .documentStart => true
  | _ => false

/-- The root of the only document, if there is one. -/
def document (fuel : Nat) : Read (Option Node) := do
  let t ← peek
  if t.isNone then pure none
  else
    let explicit := startsDocument t
    if explicit then
      directives fuel false
      expect .documentStart
    modify fun s => { s with handles := s.handles ++ standardHandles }
    let t ← peek
    let root ←
      if explicit && (t.isNone || startsDocument t || t == some .documentEnd) then pure .missing
      else node fuel true false
    documentEnds fuel
    if (← peek).isNone then pure (some root) else failure

end Read

/-- The document in a text, if there is one; a text that is not one document has no answer. -/
def Document.ofText? (text : List Char) : Option (Option Document) := do
  let tokens ← Token.ofText? text
  let (root, s) ← (Read.document (tokens.length + 2)).run ⟨tokens, [], [], []⟩
  some (root.map fun root => ⟨root, s.anchored⟩)

end NodeTelemetry.Yaml
