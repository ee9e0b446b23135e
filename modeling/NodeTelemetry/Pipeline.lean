import NodeTelemetry.Aggregator
import NodeTelemetry.Probe
import NodeTelemetry.Sampling

/-!
# The pipeline

The tables, the event channel and the aggregator, together with the policy by which the events of
handlers are sampled.  Producers act on the pipeline by handler calls, by updates of the tables and
by events of their own; the aggregator drains the channel and ticks.
-/

namespace NodeTelemetry

/-- Everything between the handlers and the snapshots. -/
structure Pipeline where
  tables : Tables
  channel : EventChannel
  policy : SamplingPolicy
  words : WordStream
  aggregator : Aggregator

/-- What producers do. -/
inductive Activity where
  /-- A handler is called. -/
  | call (c : ProbeCall)
  /-- A record of a table is changed directly. -/
  | update (u : TableUpdate)
  /-- An event is offered to the channel directly. -/
  | publish (e : Event)
  deriving DecidableEq, Repr

/-- A step of the pipeline. -/
inductive Pipeline.Step where
  | act (a : Activity)
  | drain
  | tick (now : Instant) (kernelText : Option (List Char))
  deriving DecidableEq, Repr

namespace Pipeline

/-- An empty pipeline. -/
def initial (tables : Tables) (channelCapacity : Nat) (policy : SamplingPolicy)
    (words : List UInt32) (host : String) (cpu : CpuSource) : Pipeline where
  tables := tables
  channel := .bounded channelCapacity
  policy := policy
  words := .ofList words
  aggregator := .initial host cpu

/-- Offers an event to the channel. -/
def publish (p : Pipeline) (e : Event) : Bool × Pipeline :=
  let (taken, channel) := p.channel.publish e
  (taken, { p with channel := channel })

/-- Offers the event of a handler to the channel, if it is sampled. -/
def emit (p : Pipeline) (e : Event) : Pipeline :=
  let (chosen, words) := p.policy.shouldPublish e.eventType p.words
  let p := { p with words := words }
  if chosen then (p.publish e).2 else p

/-- Calls a handler: the tables change first, and then the event is reported. -/
def call (p : Pipeline) (c : ProbeCall) : Pipeline :=
  let (tables, event) := c.run p.tables
  let p := { p with tables := tables }
  match event with
  | some e => p.emit e
  | none => p

/-- The pipeline after a producer did something. -/
def act (p : Pipeline) : Activity → Pipeline
  | .call c => p.call c
  | .update u => { p with tables := p.tables.apply u }
  | .publish e => (p.publish e).2

/-- The pipeline after a list of activities, the first one first. -/
def actAll (p : Pipeline) (activities : List Activity) : Pipeline := activities.foldl act p

/-- Lets the aggregator take the events that wait; the answer starts with their number. -/
def drain (p : Pipeline) : Nat × Pipeline :=
  let (n, aggregator, channel) := p.aggregator.drain p.channel
  (n, { p with aggregator := aggregator, channel := channel })

/-- Lets the aggregator tick; the answer starts with its snapshots. -/
def tick (p : Pipeline) (now : Instant) (kernelText : Option (List Char)) :
    List Snapshot × Pipeline :=
  let (made, aggregator) := p.aggregator.tick p.tables now kernelText
  (made, { p with aggregator := aggregator })

/-- A step; the answer starts with the snapshots, if the step is a tick. -/
def step (p : Pipeline) : Step → Option (List Snapshot) × Pipeline
  | .act a => (none, p.act a)
  | .drain => (none, p.drain.2)
  | .tick now kernelText =>
    let (made, p) := p.tick now kernelText
    (some made, p)

/-- A list of steps; the answer starts with the snapshots of each tick. -/
def run (p : Pipeline) : List Step → List (List Snapshot) × Pipeline
  | [] => ([], p)
  | s :: rest =>
    let (made, p) := p.step s
    let (more, p) := run p rest
    (made.toList ++ more, p)

/-- Reporting an event leaves the tables alone. -/
@[simp] theorem tables_emit (p : Pipeline) (e : Event) : (p.emit e).tables = p.tables := by
  unfold emit
  split
  split <;> rfl

/-- What a handler does to the tables depends on nothing else. -/
@[simp] theorem tables_call (p : Pipeline) (c : ProbeCall) :
    (p.call c).tables = (c.run p.tables).1 := by
  unfold call
  simp only
  split <;> simp

@[simp] theorem run_snd_cons (p : Pipeline) (s : Step) (steps : List Step) :
    (p.run (s :: steps)).2 = ((p.step s).2.run steps).2 := rfl

end Pipeline

end NodeTelemetry
