import NodeTelemetry.Pipeline
import NodeTelemetry.AgentError

/-!
# The aggregation loop

The loop ticks at once and then in regular intervals until it is cancelled.  In each turn it looks
at the clock, ticks and exports if a tick is due, looks at the clock again, and drains the event
channel, for which it waits no longer than the poll timeout and no longer than until the next tick.
After a tick the next one is due an interval later; if that time is past already, it is due an
interval from now.  A failed export changes nothing.  Cancellation is noticed between turns.

What the loop meets in its surroundings is given turn by turn: the readings of the clock, the text
of the kernel, what the producers do meanwhile, and whether the loop is cancelled from outside.  The
exporter is given by its answers, which may cancel the loop too.
-/

namespace NodeTelemetry

/-- What the loop meets in one turn. -/
structure Turn where
  /-- The clock at the start of the turn. -/
  now : Instant
  /-- The text of the kernel, if it can be read. -/
  kernelText : Option (List Char)
  /-- What the producers do before the tick. -/
  early : List Activity
  /-- What the producers do between the tick and the drain. -/
  late : List Activity
  /-- The clock before the drain. -/
  later : Instant
  /-- The loop is cancelled from outside during the turn. -/
  cancels : Bool

/-- How the exporter answers a call. -/
structure ExportReply where
  /-- Why it fails, if it does. -/
  failure : Option AgentError
  /-- It cancels the loop. -/
  cancels : Bool

/-- What happened in one turn. -/
structure TurnRecord where
  now : Instant
  /-- The snapshots that were made and exported, if a tick was due. -/
  exported : Option (List Snapshot)
  /-- Why the export failed, if it did. -/
  failure : Option AgentError
  /-- When the next tick is due, if the clock can hold it. -/
  due : Option Instant
  /-- How long the drain was asked to wait. -/
  wait : Duration
  /-- The number of events that were drained. -/
  drained : Nat

/-- The loop between two turns. -/
structure AggregationLoop where
  pipeline : Pipeline
  interval : Duration
  pollTimeout : Duration
  due : Instant
  cancelled : Bool
  replies : List ExportReply

/-- How a run ended. -/
inductive Ending where
  /-- The loop was cancelled. -/
  | cancelled
  /-- The next tick is due at an instant that the clock cannot hold. -/
  | beyondClock
  /-- The loop still runs. -/
  | running
  deriving DecidableEq, Repr

/-- When the next tick is due, after one that was due at `due` and came at `now`. -/
def nextDue (interval : Duration) (due now : Instant) : Option Instant :=
  (due.add? interval).bind fun next =>
    if next.nanos < now.nanos then now.add? interval else some next

namespace AggregationLoop

/-- The loop before its first turn, started at an instant. -/
def start (pipeline : Pipeline) (interval pollTimeout : Duration) (now : Instant)
    (cancelled : Bool) (replies : List ExportReply) : AggregationLoop :=
  ⟨pipeline, interval, pollTimeout, now, cancelled, replies⟩

/-- The end of a turn: the producers go on and the channel is drained. -/
def finishTurn (loop : AggregationLoop) (turn : Turn) : Duration × Nat × AggregationLoop :=
  let wait := loop.pollTimeout.min (loop.due.since turn.later)
  let (drained, pipeline) := (loop.pipeline.actAll turn.late).drain
  (wait, drained,
    { loop with pipeline := pipeline, cancelled := loop.cancelled || turn.cancels })

/-- One turn: what happened in it, and the loop after it unless the clock cannot hold the next
tick. -/
def turn (loop : AggregationLoop) (turn : Turn) : TurnRecord × Option AggregationLoop :=
  let loop := { loop with pipeline := loop.pipeline.actAll turn.early }
  if loop.due.nanos ≤ turn.now.nanos then
    let (made, pipeline) := loop.pipeline.tick turn.now turn.kernelText
    let failure := loop.replies.head?.bind ExportReply.failure
    let cancels := loop.replies.head?.any ExportReply.cancels
    match nextDue loop.interval loop.due turn.now with
    | none => (⟨turn.now, some made, failure, none, ⟨0⟩, 0⟩, none)
    | some due =>
      let loop := { loop with
        pipeline := pipeline
        due := due
        cancelled := loop.cancelled || cancels
        replies := loop.replies.drop 1 }
      let (wait, drained, loop) := loop.finishTurn turn
      (⟨turn.now, some made, failure, some due, wait, drained⟩, some loop)
  else
    let (wait, drained, after) := loop.finishTurn turn
    (⟨turn.now, none, none, some loop.due, wait, drained⟩, some after)

/-- What a run came to: what happened in its turns, how it ended, and the loop after the last whole
turn. -/
structure Run where
  records : List TurnRecord
  ending : Ending
  loop : AggregationLoop

/-- Runs the loop through turns until it is cancelled or the turns are over. -/
def run (loop : AggregationLoop) : List Turn → Run
  | [] => ⟨[], if loop.cancelled then .cancelled else .running, loop⟩
  | t :: rest =>
    if loop.cancelled then ⟨[], .cancelled, loop⟩
    else
      match loop.turn t with
      | (record, none) => ⟨[record], .beyondClock, loop⟩
      | (record, some after) =>
        let r := run after rest
        { r with records := record :: r.records }

/-- The snapshots that were exported in a run, tick by tick. -/
def Run.exports (r : Run) : List (List Snapshot) := r.records.filterMap TurnRecord.exported

/-- A loop that is cancelled makes no turn. -/
theorem run_of_cancelled {loop : AggregationLoop} (h : loop.cancelled = true) (turns : List Turn) :
    loop.run turns = ⟨[], .cancelled, loop⟩ := by
  cases turns <;> simp [run, h]

end AggregationLoop

end NodeTelemetry
