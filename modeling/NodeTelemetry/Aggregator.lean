import NodeTelemetry.Tables
import NodeTelemetry.Percentile
import NodeTelemetry.Rate
import NodeTelemetry.CpuTime
import NodeTelemetry.Snapshot
import NodeTelemetry.EventChannel

/-!
# The aggregator

The aggregator is the only reader of the tables and of the event channel.  At each tick it makes a
snapshot of every node with counters: percentiles from the histogram, rates since the last reading
of that node, the mean run-queue latency, and the utilization of the processors, which is read once
for all nodes.  Events are only counted, by kind, since the tables already hold what they say.
-/

namespace NodeTelemetry

/-- What the aggregator keeps from tick to tick. -/
structure Aggregator where
  host : String
  cpu : CpuSource
  rates : KeyMap RateState
  processed : EventCounts
  ticks : UInt64

namespace Aggregator

/-- An aggregator before its first tick. -/
def initial (host : String) (cpu : CpuSource) : Aggregator := ⟨host, cpu, .empty, .zero, 0⟩

/-- The snapshot of a node. -/
def snapshotOf (host : String) (cpu : Float) (node : UInt32) (counters : NodeCounters)
    (histogram : Histogram) (rates : Rates) : Snapshot where
  nodeId := node
  nodeName := nodeName host node
  rttP50 := histogram.percentile (50 : UInt64).toFloat
  rttP99 := histogram.percentile (99 : UInt64).toFloat
  retransRate := rates.retrans
  dropRate := rates.drop
  runqlat := counters.runqlatMean
  cpu := cpu

/-- The snapshots of those of the given nodes that have counters, and the rates after them. -/
def snapshots (host : String) (cpu : Float) (now : Instant) (tables : Tables) :
    List UInt32 → KeyMap RateState → List Snapshot × KeyMap RateState
  | [], rates => ([], rates)
  | node :: rest, rates =>
    match tables.snapshot node with
    | none => snapshots host cpu now tables rest rates
    | some (counters, histogram) =>
      let state := ((rates.get? node).getD .initial).update counters now
      let (more, rates) := snapshots host cpu now tables rest (rates.insert node state)
      (snapshotOf host cpu node counters histogram state.rates :: more, rates)

/-- Makes the snapshots of a tick, in ascending order of nodes, given the text of the kernel. -/
def tick (a : Aggregator) (tables : Tables) (now : Instant) (kernelText : Option (List Char)) :
    List Snapshot × Aggregator :=
  let (percent, cpu) := a.cpu.sample kernelText
  let (made, rates) := snapshots a.host percent now tables tables.trackedNodes a.rates
  (made, { a with cpu := cpu, rates := rates, ticks := a.ticks + 1 })

/-- Takes the events that wait in the channel; the answer starts with their number. -/
def drain (a : Aggregator) (channel : EventChannel) : Nat × Aggregator × EventChannel :=
  let (events, channel) := channel.poll
  (events.length, { a with processed := a.processed.countAll events }, channel)

end Aggregator

end NodeTelemetry
