import NodeTelemetry.Config.Field
import NodeTelemetry.Config.Problem
import NodeTelemetry.Yaml.Node
import NodeTelemetry.Yaml.Value
import NodeTelemetry.Text.Blank

/-!
# Reading a configuration

A configuration is read from a mapping: each entry replaces one field of the standard configuration.
A field that is unknown or set twice is a fault, and so is a value of the wrong kind.  Faults are
found in the order of the document, and at a key before its value, as `serde_yaml` 0.9 finds them.
-/

namespace NodeTelemetry

open Yaml

/-! ## What a scalar is -/

/-- The tags that give a scalar a type of its own. -/
def coreTag (type : String) : List Char := ("tag:yaml.org,2002:" ++ type).toList

/-- What the value of a plain scalar is called. -/
def Found.ofValue (s : List Char) : Value → Found
  | .null => .unit
  | .boolean b => .boolean b
  | .unsigned n => .integer n
  | .signed i => .integer i
  | .wideUnsigned n => .wideUnsigned n
  | .wideSigned i => .wideSigned i
  | .float x => .float x
  | .text => .string s

/-- What a scalar is called.  A scalar that does not fit the type of its tag is a fault. -/
def Found.ofScalar (tag : Option (List Char)) (style : Style) (s : List Char) :
    Except DocumentFault Found :=
  let typed (expected : String) : Option Found → Except DocumentFault Found
    | some found => .ok found
    | none => .error (.invalidValue (.string s) expected)
  let untyped := if style = .plain then Found.ofValue s (Value.ofPlain s) else .string s
  match tag with
  | none => .ok untyped
  | some t =>
    if t = coreTag "bool" then typed "a boolean" ((Value.boolean? s).map .boolean)
    else if t = coreTag "int" then typed "an integer" ((Value.integer? s).map (Found.ofValue s))
    else if t = coreTag "float" then typed "a float" ((Value.float? s).map .float)
    else if t = coreTag "null" then typed "null" (if Value.isNull s then some .unit else none)
    else if t.head? = some '!' then .ok untyped
    else .ok (.string s)

/-- The fault of a node of the wrong kind. -/
def mismatch (expected : String) : Node → DocumentFault
  | .scalar tag style s =>
    match Found.ofScalar tag style s with
    | .ok found => .invalidType found expected
    | .error fault => fault
  | .sequence _ => .invalidType .sequence expected
  | .mapping _ | .alias _ => .invalidType .map expected

/-! ## Values of fields -/

/-- Reads a natural number below a bound.  It is a plain scalar, or a block of lines that has the
tag of integers. -/
def readNatural (expected : String) (bound : Nat) (node : Node) : Except DocumentFault Nat :=
  match node with
  | .scalar tag style s =>
    if style = .plain || (style = .literal && tag = some (coreTag "int")) then
      match Value.natural? UInt64.size s with
      | some n =>
        if n < bound then .ok n else .error (.invalidValue (.integer n) expected)
      | none => .error (mismatch expected node)
    else .error (mismatch expected node)
  | _ => .error (mismatch expected node)

/-- Reads the text of any scalar. -/
def readText (expected : String) : Node → Except DocumentFault String
  | .scalar _ _ s => .ok (String.ofList s)
  | node => .error (mismatch expected node)

/-- Reads a text that may be missing.  Only a plain scalar can say that it is; with the tag of
nothing it must, and otherwise the fault is reported without a place. -/
def readOptionalText (path : List String) (node : Node) :
    Except DocumentProblem (Option String) :=
  match node with
  | .scalar tag .plain s =>
    match tag with
    | none => .ok (if s.isEmpty || Value.isNull s then none else some (String.ofList s))
    | some t =>
      if t = coreTag "null" then
        if Value.isNull s then .ok none
        else .error ⟨[], .invalidValue (.string s) "null"⟩
      else .ok (some (String.ofList s))
  | _ => ((readText "a string" node).map some).mapError (⟨path, ·⟩)

/-! ## Mappings of fields -/

/-- The name of the field that a key gives. -/
def readKey (path : List String) (node : Node) : Except DocumentProblem (List Char) :=
  match node with
  | .scalar _ _ s => .ok s
  | _ => .error ⟨path, mismatch "field identifier" node⟩

/-- The path to the value of a key.  A key that is an alias does not show there. -/
def stepTo (path : List String) (key : Node) (name : List Char) : List String :=
  match key with
  | .alias _ => path ++ ["?"]
  | _ => path ++ [String.ofList name]

/-- A way to read the fields of `σ`, which are listed by `φ`: the known fields with their names, and
how the value of one, found at a path, is put into place. -/
structure FieldReader (φ σ : Type) where
  known : List (String × φ)
  put : φ → List String → Node → σ → Except DocumentProblem σ

namespace FieldReader

variable {φ σ : Type} [BEq φ]

/-- The known field of a name. -/
def find? (r : FieldReader φ σ) (name : List Char) : Option (String × φ) :=
  r.known.find? fun entry => entry.1.toList == name

/-- Reads entries one after another, given the fields that were set before. -/
def readEntries (r : FieldReader φ σ) (d : Document) (path : List String) :
    List (Node × Node) → (seen : List φ) → σ → Except DocumentProblem σ
  | [], _, s => .ok s
  | (key, value) :: rest, seen, s => do
    let name ← readKey path (d.resolve key)
    match r.find? name with
    | none => throw ⟨path, .unknownField name (r.known.map (·.1))⟩
    | some (known, field) =>
      if seen.contains field then throw ⟨path, .duplicateField known⟩
      let s ← r.put field (stepTo path key name) (d.resolve value) s
      readEntries r d path rest (field :: seen) s

/-- Reads a mapping of fields over initial ones.  Where nothing is written, nothing is replaced. -/
def read (r : FieldReader φ σ) (d : Document) (path : List String) (expected : String)
    (initial : σ) (node : Node) : Except DocumentProblem σ :=
  match node with
  | .mapping entries => r.readEntries d path entries [] initial
  | .scalar _ .plain [] => .ok initial
  | _ => .error ⟨path, mismatch expected node⟩

end FieldReader

/-- Reads the rates of a sampling policy. -/
def samplingReader : FieldReader EventType SamplingPolicy where
  known := EventType.all.map fun t => (t.name, t)
  put t path node p := do
    let n ← (readNatural "u32" UInt32.size node).mapError (⟨path, ·⟩)
    pure (p.set t (UInt32.ofNat n))

/-- Reads the fields of a configuration. -/
def configReader (d : Document) : FieldReader ConfigField Config where
  known := ConfigField.all.map fun f => (f.name, f)
  put f path node c :=
    let natural (expected : String) (bound : Nat) : Except DocumentProblem Nat :=
      (readNatural expected bound node).mapError (⟨path, ·⟩)
    let word (expected : String) : Except DocumentProblem UInt64 :=
      (natural expected UInt64.size).map UInt64.ofNat
    match f with
    | .intervalSecs => do pure { c with intervalSecs := ← word "u64" }
    | .pollTimeoutMs => do pure { c with pollTimeoutMs := ← word "u64" }
    | .channelCapacity => do pure { c with channelCapacity := ← word "usize" }
    | .maxNodes => do pure { c with maxNodes := ← word "usize" }
    | .maxDropReasons => do pure { c with maxDropReasons := ← word "usize" }
    | .maxInflightWakeups => do pure { c with maxInflightWakeups := ← word "usize" }
    | .nodeSlots => do
      let n ← natural "u32" UInt32.size
      pure { c with nodeSlots := UInt32.ofNat n }
    | .nodeName => do pure { c with nodeName := ← readOptionalText path node }
    | .procStatPath => do
      let text ← (readText "path string" node).mapError (⟨path, ·⟩)
      pure { c with procStatPath := text }
    | .sampling => do
      let policy ← samplingReader.read d path "struct SamplingPolicy" .standard node
      pure { c with sampling := policy }
    | .syntheticProducers => do pure { c with syntheticProducers := ← word "usize" }

namespace Config

/-- The configuration that a document describes. -/
def ofDocument (d : Document) : Except DocumentProblem Config :=
  (configReader d).read d [] "struct AgentConfig" .standard d.root

/-- The configuration that a text describes.  A text without a document leaves all as it is. -/
def ofText (text : String) : Except DocumentError Config :=
  if Text.isBlankText text.toList then .ok .standard
  else
    match Document.ofText? text.toList with
    | none => .error .malformed
    | some none => .ok .standard
    | some (some d) => (ofDocument d).mapError .problem

end Config

end NodeTelemetry
