import NodeTelemetry.CommandLine
import NodeTelemetry.Config.Load
import NodeTelemetry.Config.Writing
import NodeTelemetry.Aggregator.Loop

/-!
# The program

What the agent does for a command line: it answers and exits, or it starts to aggregate.  The
answer and the log of a run are plain text, made here from what happened.
-/

namespace NodeTelemetry

/-- The version of the agent. -/
def agentVersion : String := "0.1.0"

/-- The name of the agent as a command. -/
def programName : String := "ebtel"

/-- A run of the agent that is about to start. -/
structure RunPlan where
  config : Config
  host : String
  synthetic : Bool

/-- What the agent does for a command line. -/
inductive Outcome where
  /-- It writes its answer, after some lines of the log, and exits with a code. -/
  | answers (log : List String) (stdout stderr : String) (code : UInt32)
  /-- It starts to aggregate. -/
  | runs (plan : RunPlan)

/-! ## Answers -/

/-- The line of the log with which the agent starts. -/
def startLine : String := "Starting " ++ programName ++ " v" ++ agentVersion

/-- The lines of the help on the agent or on a command. -/
def helpLines : Option String → List String
  | some "run" =>
    [ "Run the aggregation loop and export metrics to stdout",
      "",
      "Usage: ebtel run [OPTIONS]",
      "",
      "Options:",
      "  -c, --config <CONFIG>        YAML configuration file",
      "  -i, --interval <INTERVAL>    Export interval in seconds",
      "  -n, --node-name <NODE_NAME>  Value of the node label",
      "  -s, --synthetic              Feed the pipeline from synthetic producers",
      "  -v, --verbose                Enable verbose logging",
      "  -h, --help                   Print help" ]
  | some "config" =>
    [ "Print the effective configuration as YAML",
      "",
      "Usage: ebtel config [OPTIONS]",
      "",
      "Options:",
      "  -c, --config <CONFIG>  YAML configuration file",
      "  -v, --verbose          Enable verbose logging",
      "  -h, --help             Print help" ]
  | _ =>
    [ "Kernel telemetry aggregation agent with Prometheus text export",
      "",
      "Usage: ebtel [OPTIONS] [COMMAND]",
      "",
      "Commands:",
      "  run     Run the aggregation loop and export metrics to stdout",
      "  config  Print the effective configuration as YAML",
      "  help    Print this message or the help of the given subcommand(s)",
      "",
      "Options:",
      "  -v, --verbose  Enable verbose logging",
      "  -h, --help     Print help",
      "  -V, --version  Print version" ]

/-- The help on the agent or on a command. -/
def helpText (command : Option String) : String :=
  String.join ((helpLines command).map (· ++ "\n"))

/-- The text of a mistake in a command line. -/
def UsageError.message : UsageError → String
  | .unknownArgument => "unexpected argument found"
  | .unknownCommand => "unrecognized subcommand"
  | .unneededValue => "unexpected value for an argument found; no more were expected"
  | .repeated => "an argument cannot be used multiple times"
  | .missingValue => "a value is required for an argument but none was supplied"
  | .badNumber => "invalid value for an argument"

/-- The exit code of an answer about the use of the command line. -/
def UsageAnswer.exitCode : UsageAnswer → UInt32
  | .help _ | .version => 0
  | .error _ => 2

/-- The answer to a command line that is not an invocation. -/
def UsageAnswer.outcome (a : UsageAnswer) : Outcome :=
  match a with
  | .help command => .answers [] (helpText command) "" a.exitCode
  | .version => .answers [] (programName ++ " " ++ agentVersion ++ "\n") "" a.exitCode
  | .error e => .answers [] "" ("error: " ++ e.message ++ "\n") a.exitCode

/-- The answer to an error. -/
def AgentError.outcome (e : AgentError) : Outcome :=
  .answers [startLine] "" ("Error: " ++ e.message ++ "\n") 1

/-- The surroundings of the agent: how files are read, the name of the node in the environment, and
the name of the host. -/
structure Surroundings where
  readText : String → Except FileError String
  environmentName : Option String
  systemName : String

/-- The configuration of a run: that of the file, with what the command line says put over it. -/
def runConfig (s : Surroundings) (file : Option String) (interval : Option UInt64)
    (nodeName : Option String) : Except AgentError Config := do
  let c ← Config.load s.readText file
  let c := { c with
    intervalSecs := interval.getD c.intervalSecs
    nodeName := nodeName.or c.nodeName }
  c.validate.mapError .fault
  pure c

/-- What the agent does for a command. -/
def Command.outcome (s : Surroundings) : Command → Outcome
  | .config file =>
    match Config.load s.readText file with
    | .ok c => .answers [startLine] c.toText "" 0
    | .error e => e.outcome
  | .run file interval nodeName synthetic =>
    match runConfig s file interval nodeName with
    | .ok c => .runs ⟨c, c.hostName s.environmentName s.systemName, synthetic⟩
    | .error e => e.outcome

/-- What the agent does for a command line. -/
def outcome (s : Surroundings) (args : List String) : Outcome :=
  match CommandLine.parse args with
  | .error answer => answer.outcome
  | .ok ⟨_, some command⟩ => command.outcome s
  | .ok ⟨_, none⟩ =>
    .answers [startLine] ""
      "No command specified. Use --help for usage information.\n" 1

/-! ## Runs -/

namespace RunPlan

/-- The loop of a run that starts at an instant. -/
def loop (p : RunPlan) (words : List UInt32) (now : Instant) : AggregationLoop :=
  .start
    (.initial p.config.tables p.config.channelCapacity.toNat p.config.sampling words p.host .unread)
    p.config.interval p.config.pollTimeout now false []

/-- The lines of the log before the first turn. -/
def openingLog (p : RunPlan) : List String :=
  [ startLine,
    "Node name: " ++ p.host,
    if p.synthetic then
      "Starting " ++ toString p.config.syntheticProducers.toNat ++ " synthetic producers"
    else "No instrumentation source attached, metrics will stay empty",
    "Aggregating every " ++ p.config.interval.text ++ " (poll timeout "
      ++ p.config.pollTimeout.text ++ ")" ]

/-- The lines of the log for a reading of the processor times. -/
def readingLog (p : RunPlan) : Except FileError String → List String
  | .error e => ["Failed to read " ++ p.config.procStatPath ++ ": " ++ e.message]
  | .ok text =>
    if (CpuTimes.ofText? text.toList).isNone then
      ["No parsable cpu line in " ++ p.config.procStatPath]
    else []

/-- The lines of the log for a turn with a reading of the processor times. -/
def turnLog (p : RunPlan) (reading : Except FileError String) (r : TurnRecord) : List String :=
  (if r.exported.isSome then p.readingLog reading else [])
    ++ r.failure.toList.map fun e => "Failed to export metrics: " ++ e.message

/-- The lines of the log after the last turn, with the number of callbacks that synthetic producers
made. -/
def closingLog (p : RunPlan) (loop : AggregationLoop) (issued : Nat) : List String :=
  [ "Aggregator stopped after " ++ toString loop.pipeline.aggregator.ticks.toNat ++ " ticks ("
      ++ toString loop.pipeline.channel.published.toNat ++ " events published, "
      ++ toString loop.pipeline.channel.dropped.toNat ++ " dropped)" ]
    ++ (if p.synthetic then
      ["Synthetic producers issued " ++ toString issued ++ " callbacks"] else [])
    ++ ["Shutdown complete"]

/-- The line of the log when the agent is told to stop. -/
def stopLine : String := "Shutdown signal received"

/-- The log of a run of which the surroundings stay as they are until it is told to stop, in the
turn with the first tick. -/
def log (p : RunPlan) (reading : Except FileError String) (producers : List Activity)
    (issued : Nat) : List String :=
  let start : Instant := ⟨0⟩
  let turn : Turn :=
    { now := start, kernelText := reading.toOption.map String.toList, early := producers,
      late := [], later := start, cancels := true }
  let run := (p.loop [] start).run [turn]
  p.openingLog ++ run.records.flatMap (p.turnLog reading)
    ++ stopLine :: p.closingLog run.loop issued

end RunPlan

end NodeTelemetry
