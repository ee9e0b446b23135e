import NodeTelemetry.Program
import NodeTelemetry.Probe.Synthetic
import NodeTelemetry.Exposition

/-!
# The agent as a command

The outer layer: it reads files, the clock and random numbers, and writes what the program says to
the standard streams.
-/

namespace NodeTelemetry

/-- Why a file cannot be read. -/
def fileError : IO.Error → FileError
  | .inappropriateType _ 21 _ => .isDirectory
  | .inappropriateType .. => .notDirectory
  | .invalidArgument _ 22 _ => .nulInName
  | .invalidArgument .. => .nameTooLong
  | .permissionDenied .. => .denied
  | _ => .notFound

/-- Reads a file as text. -/
def readFileText (path : String) : IO (Except FileError String) := do
  let found : Except IO.Error ByteArray ← (IO.FS.readBinFile path).toBaseIO
  match found with
  | .ok bytes =>
    pure <| match String.fromUTF8? bytes with
      | some text => .ok text
      | none => .error .notText
  | .error e => pure (.error (fileError e))

/-- The file that a command line asks for. -/
def requestedFile (args : List String) : Option String :=
  match CommandLine.parse args with
  | .ok ⟨_, some (.run file _ _ _)⟩ => file
  | .ok ⟨_, some (.config file)⟩ => file
  | _ => none

/-- The clock. -/
def readClock : IO Instant := do
  pure ⟨(← IO.monoNanosNow : Nat)⟩

/-- A burst of draws. -/
def drawBurst : IO (List SyntheticDraw) :=
  (List.range burstSize).mapM fun _ => do
    let roll ← IO.rand 0 99
    let choice ← IO.rand 0 999999
    pure (SyntheticDraw.ofRoll roll choice)

/-- A burst of each synthetic producer of a plan. -/
def drawBursts (plan : RunPlan) (now : Instant) : IO (List Activity) := do
  let node := (NodeStrategy.cpuHash plan.config.nodeSlots).nodeOn 0
  let calls ← (List.range plan.config.syntheticProducers.toNat).mapM fun producer => do
    let draws ← drawBurst
    pure (syntheticCalls (UInt32.ofNat producer) node (UInt64.ofNat now.nanos.toNat) draws)
  pure (calls.flatten.map Activity.call)

/-- Runs the loop until it ends. -/
partial def serve (plan : RunPlan) (loop : AggregationLoop) : IO Unit := do
  let now ← readClock
  let reading ← readFileText plan.config.procStatPath
  let producers ← if plan.synthetic then drawBursts plan now else pure []
  let turn : Turn :=
    { now := now, kernelText := reading.toOption.map String.toList, early := producers,
      late := [], later := now, cancels := false }
  let (record, after) := loop.turn turn
  for line in plan.turnLog reading record do
    IO.eprintln line
  let out ← IO.getStdout
  for snapshots in record.exported do
    out.putStr (Exposition.render snapshots)
    out.flush
  IO.sleep (UInt32.ofNat (record.wait.nanos / 1000000))
  match after with
  | some loop => serve plan loop
  | none => pure ()

/-- Answers a command line. -/
def answer (args : List String) : IO UInt32 := do
  let read ← match requestedFile args with
    | some path => readFileText path
    | none => pure (.error .notFound)
  let host ← readFileText "/etc/hostname"
  let surroundings : Surroundings :=
    { readText := fun _ => read
      environmentName := ← IO.getEnv "NODE_NAME"
      systemName := (host.toOption.map fun h => h.trimAscii.toString).getD "unknown" }
  match outcome surroundings args with
  | .answers log stdout stderr code => do
    for line in log do
      IO.eprintln line
    IO.print stdout
    IO.eprint stderr
    pure code
  | .runs plan => do
    for line in plan.openingLog do
      IO.eprintln line
    let now ← readClock
    serve plan (plan.loop [] now)
    pure 0

end NodeTelemetry

/-- Runs the agent. -/
def main (args : List String) : IO UInt32 := NodeTelemetry.answer args
