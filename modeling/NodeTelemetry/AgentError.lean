import NodeTelemetry.Config
import NodeTelemetry.Config.Problem
import NodeTelemetry.Files

/-!
# Errors of the agent

Every error belongs to one of six kinds, which its message names first.
-/

namespace NodeTelemetry

/-- The kinds of error. -/
inductive ErrorKind where
  | config
  | io
  | yaml
  | decode
  | exporting
  | task
  deriving DecidableEq, Repr

/-- What a message of a kind starts with. -/
def ErrorKind.heading : ErrorKind → String
  | .config => "Configuration error"
  | .io => "IO error"
  | .yaml => "Failed to parse configuration"
  | .decode => "Malformed event"
  | .exporting => "Export failed"
  | .task => "Aggregator task failed"

/-- The message of a kind with the given details. -/
def ErrorKind.message (kind : ErrorKind) (details : String) : String :=
  kind.heading ++ ": " ++ details

/-- The errors of the agent. -/
inductive AgentError where
  /-- The configuration file cannot be read. -/
  | unreadable (path : String) (cause : FileError)
  /-- The agent does not run with the configuration. -/
  | fault (cause : ConfigFault)
  /-- The configuration file does not hold a configuration. -/
  | document (cause : DocumentError)
  /-- A record has a code that stands for no kind of event. -/
  | unknownCode (code : UInt32)
  /-- The metrics cannot be written. -/
  | writing (cause : String)
  deriving DecidableEq

namespace AgentError

/-- The kind of an error. -/
def kind : AgentError → ErrorKind
  | .unreadable _ _ | .fault _ => .config
  | .document _ => .yaml
  | .unknownCode _ => .decode
  | .writing _ => .exporting

/-- The details of an error. -/
def details : AgentError → String
  | .unreadable path cause => "cannot read " ++ path ++ ": " ++ cause.message
  | .fault cause => cause.message
  | .document cause => cause.message
  | .unknownCode code => "unknown event type " ++ toString code.toNat
  | .writing cause => "failed to write metrics: " ++ cause

/-- The message of an error. -/
def message (e : AgentError) : String := e.kind.message e.details

end AgentError

end NodeTelemetry
