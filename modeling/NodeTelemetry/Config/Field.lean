import NodeTelemetry.Config

/-!
# The fields of a configuration document

A configuration is written as a mapping with one entry for each field, and its sampling as a
mapping inside it.  Fields are named here, with the way in which each is held.
-/

namespace NodeTelemetry

/-- The fields of a configuration. -/
inductive ConfigField where
  | intervalSecs
  | pollTimeoutMs
  | channelCapacity
  | maxNodes
  | maxDropReasons
  | maxInflightWakeups
  | nodeSlots
  | nodeName
  | procStatPath
  | sampling
  | syntheticProducers
  deriving DecidableEq, Repr

namespace ConfigField

/-- The fields in the order in which they are written. -/
def all : List ConfigField :=
  [.intervalSecs, .pollTimeoutMs, .channelCapacity, .maxNodes, .maxDropReasons,
    .maxInflightWakeups, .nodeSlots, .nodeName, .procStatPath, .sampling, .syntheticProducers]

/-- The name of a field in a document. -/
def name : ConfigField → String
  | .intervalSecs => "interval_secs"
  | .pollTimeoutMs => "poll_timeout_ms"
  | .channelCapacity => "channel_capacity"
  | .maxNodes => "max_nodes"
  | .maxDropReasons => "max_drop_reasons"
  | .maxInflightWakeups => "max_inflight_wakeups"
  | .nodeSlots => "node_slots"
  | .nodeName => "node_name"
  | .procStatPath => "proc_stat_path"
  | .sampling => "sampling"
  | .syntheticProducers => "synthetic_producers"

end ConfigField

/-- A policy with the rate of one kind of event replaced. -/
def SamplingPolicy.set (p : SamplingPolicy) (t : EventType) (n : UInt32) : SamplingPolicy :=
  match t with
  | .rtt => { p with rtt := n }
  | .retrans => { p with retrans := n }
  | .drop => { p with drop := n }
  | .runqlat => { p with runqlat := n }

end NodeTelemetry
