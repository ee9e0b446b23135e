import NodeTelemetry.Time
import NodeTelemetry.Tables
import NodeTelemetry.Sampling

/-!
# Configuration

What an operator can set: the rhythm of the aggregation, the sizes of the tables and of the event
channel, the name of the node, the file of processor times, the sampling of events and the number of
synthetic producers.  `Config.validate` tells which settings the agent runs with.
-/

namespace NodeTelemetry

/-- The settings of the agent. -/
structure Config where
  intervalSecs : UInt64
  pollTimeoutMs : UInt64
  channelCapacity : UInt64
  maxNodes : UInt64
  maxDropReasons : UInt64
  maxInflightWakeups : UInt64
  nodeSlots : UInt32
  nodeName : Option String
  procStatPath : String
  sampling : SamplingPolicy
  syntheticProducers : UInt64
  deriving DecidableEq, Repr

/-- Why the agent does not run with a configuration. -/
inductive ConfigFault where
  | zeroInterval
  | zeroPollTimeout
  | longPollTimeout (pollTimeoutMs intervalSecs : UInt64)
  | zeroChannelCapacity
  | zeroTableCapacity
  | badNodeSlots (maxNodes : UInt64) (nodeSlots : UInt32)
  deriving DecidableEq, Repr

namespace Config

/-- The settings that hold where nothing else is set. -/
def standard : Config where
  intervalSecs := 5
  pollTimeoutMs := 100
  channelCapacity := 65536
  maxNodes := 256
  maxDropReasons := 64
  maxInflightWakeups := 10240
  nodeSlots := 8
  nodeName := none
  procStatPath := "/proc/stat"
  sampling := .standard
  syntheticProducers := 4

instance : Inhabited Config := ⟨standard⟩

/-- The time between ticks. -/
def interval (c : Config) : Duration := .ofSecs c.intervalSecs

/-- How long the aggregator waits for events at most. -/
def pollTimeout (c : Config) : Duration := .ofMillis c.pollTimeoutMs

/-- The empty tables of a configuration. -/
def tables (c : Config) : Tables :=
  .ofCapacities c.maxNodes c.maxDropReasons c.maxInflightWakeups

/-- The first reason why the agent does not run with a configuration, if there is one. -/
def fault? (c : Config) : Option ConfigFault :=
  if c.intervalSecs = 0 then some .zeroInterval
  else if c.pollTimeoutMs = 0 then some .zeroPollTimeout
  else if c.interval.nanos ≤ c.pollTimeout.nanos then
    some (.longPollTimeout c.pollTimeoutMs c.intervalSecs)
  else if c.channelCapacity = 0 then some .zeroChannelCapacity
  else if c.maxNodes = 0 || c.maxDropReasons = 0 || c.maxInflightWakeups = 0 then
    some .zeroTableCapacity
  else if c.nodeSlots = 0 || c.maxNodes < c.nodeSlots.toUInt64 then
    some (.badNodeSlots c.maxNodes c.nodeSlots)
  else none

/-- Accepts a configuration or names the first fault of it. -/
def validate (c : Config) : Except ConfigFault Unit :=
  match c.fault? with
  | some fault => .error fault
  | none => .ok ()

/-- The name given to the node: the one configured, or else that of the environment.  An empty name
is none. -/
def givenName? (c : Config) (environment : Option String) : Option String :=
  (c.nodeName.filter fun n => !n.isEmpty).or (environment.filter fun n => !n.isEmpty)

/-- The name of the node, which is that of the host if none is given. -/
def hostName (c : Config) (environment : Option String) (system : String) : String :=
  (c.givenName? environment).getD system

theorem validate_eq_ok_iff {c : Config} : c.validate = .ok () ↔ c.fault? = none := by
  unfold validate
  split <;> simp_all

end Config

/-- The text of a fault. -/
def ConfigFault.message : ConfigFault → String
  | .zeroInterval => "interval_secs must be > 0"
  | .zeroPollTimeout => "poll_timeout_ms must be > 0"
  | .longPollTimeout ms secs =>
    "poll_timeout_ms (" ++ toString ms.toNat ++ ") must be shorter than the "
      ++ toString secs.toNat ++ "s interval"
  | .zeroChannelCapacity => "channel_capacity must be > 0"
  | .zeroTableCapacity => "table capacities must be > 0"
  | .badNodeSlots nodes slots =>
    "node_slots must be between 1 and max_nodes (" ++ toString nodes.toNat ++ "), got "
      ++ toString slots.toNat

end NodeTelemetry
