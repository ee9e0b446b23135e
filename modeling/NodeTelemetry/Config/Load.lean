import NodeTelemetry.Config.Reading
import NodeTelemetry.AgentError

/-!
# Loading a configuration

The configuration in a file is read and validated.  Without a file the standard one holds.
-/

namespace NodeTelemetry.Config

/-- The validated configuration in the text of a file. -/
def ofFileText (text : String) : Except AgentError Config := do
  let c ← (ofText text).mapError .document
  c.validate.mapError .fault
  pure c

/-- The configuration in the file of a path, where files are read as given. -/
def load (readText : String → Except FileError String) (path : Option String) :
    Except AgentError Config :=
  match path with
  | none => .ok .standard
  | some path => do
    let text ← (readText path).mapError (.unreadable path)
    ofFileText text

end NodeTelemetry.Config
