import NodeTelemetry.Text.Quoted
import NodeTelemetry.Decimal.Shortest

/-!
# Problems in a configuration document

What may be wrong with a document that is well formed, with the place of the fault and the text of
the message, in the words of `serde_yaml` 0.9.
-/

namespace NodeTelemetry

/-- What was found in a place. -/
inductive Found where
  | unit
  | boolean (b : Bool)
  | integer (i : Int)
  | wideUnsigned (n : Nat)
  | wideSigned (i : Int)
  | float (x : Float)
  | string (s : List Char)
  | sequence
  | map
  deriving DecidableEq

/-- What is wrong in a place. -/
inductive DocumentFault where
  /-- Something of another kind is needed. -/
  | invalidType (found : Found) (expected : String)
  /-- Something of this kind is needed, but not this. -/
  | invalidValue (found : Found) (expected : String)
  /-- There is no field of that name among the known ones. -/
  | unknownField (name : List Char) (known : List String)
  /-- The field was set before. -/
  | duplicateField (name : String)
  deriving DecidableEq

/-- A fault and the names of the fields that lead to it. -/
structure DocumentProblem where
  path : List String
  fault : DocumentFault
  deriving DecidableEq

/-- Why a text gives no configuration. -/
inductive DocumentError where
  /-- The text is not one document. -/
  | malformed
  /-- The document is not a configuration. -/
  | problem (p : DocumentProblem)
  deriving DecidableEq

/-- A text between the marks that set it off in a message. -/
def setOff (s : String) : String := "\x60" ++ s ++ "\x60"

/-- The text of what was found. -/
def Found.text : Found → String
  | .unit => "unit value"
  | .boolean b => "boolean " ++ setOff (if b then "true" else "false")
  | .integer i => "integer " ++ setOff (toString i)
  | .wideUnsigned n => "integer " ++ setOff (toString n) ++ " as u128"
  | .wideSigned i => "integer " ++ setOff (toString i) ++ " as i128"
  | .float x => "floating point " ++ setOff (Decimal.shortestText x)
  | .string s => "string " ++ Text.quoted s
  | .sequence => "sequence"
  | .map => "map"

/-- The text of a fault. -/
def DocumentFault.text : DocumentFault → String
  | .invalidType found expected => "invalid type: " ++ found.text ++ ", expected " ++ expected
  | .invalidValue found expected => "invalid value: " ++ found.text ++ ", expected " ++ expected
  | .unknownField name known =>
    "unknown field " ++ setOff (String.ofList name) ++ ", expected one of "
      ++ ", ".intercalate (known.map setOff)
  | .duplicateField name => "duplicate field " ++ setOff name

/-- The text of a problem: the path to it, if it is not at the root, and the fault. -/
def DocumentProblem.text (p : DocumentProblem) : String :=
  (if p.path.isEmpty then "" else ".".intercalate p.path ++ ": ") ++ p.fault.text

/-- The text of an error. -/
def DocumentError.message : DocumentError → String
  | .malformed => "not a document"
  | .problem p => p.text

end NodeTelemetry
