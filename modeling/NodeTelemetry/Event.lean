/-!
# Telemetry events

A handler reports what it recorded as an event: the node, the kind of observation, its value, the
time and one number more, which is the reason of a drop and the process of a run-queue wait.
-/

namespace NodeTelemetry

/-- The kinds of observation. -/
inductive EventType where
  | rtt
  | retrans
  | drop
  | runqlat
  deriving DecidableEq, Repr

/-- One observation. -/
structure Event where
  nodeId : UInt32
  eventType : EventType
  value : UInt64
  timestampNs : UInt64
  extraData : UInt32
  deriving DecidableEq, Repr

namespace EventType

/-- All kinds, in the order of their codes. -/
def all : List EventType := [.rtt, .retrans, .drop, .runqlat]

/-- The number that stands for a kind in a record. -/
def code : EventType → UInt32
  | .rtt => 1
  | .retrans => 2
  | .drop => 3
  | .runqlat => 4

/-- The kind that a number stands for. -/
def ofCode? (n : UInt32) : Option EventType := all.find? fun t => t.code == n

/-- The name of a kind. -/
def name : EventType → String
  | .rtt => "rtt"
  | .retrans => "retrans"
  | .drop => "drop"
  | .runqlat => "runqlat"

@[simp] theorem ofCode?_code (t : EventType) : ofCode? t.code = some t := by
  cases t <;> rfl

theorem code_of_ofCode? {n : UInt32} {t : EventType} (h : ofCode? n = some t) : t.code = n := by
  have := List.find?_some h
  simpa using this

end EventType

/-! ## Counts by kind -/

/-- A count, modulo `2 ^ 64`, for each kind of event. -/
structure EventCounts where
  rtt : UInt64
  retrans : UInt64
  drop : UInt64
  runqlat : UInt64
  deriving DecidableEq, Repr

namespace EventCounts

/-- Nothing counted. -/
def zero : EventCounts := ⟨0, 0, 0, 0⟩

/-- The count of a kind. -/
def get (c : EventCounts) : EventType → UInt64
  | .rtt => c.rtt
  | .retrans => c.retrans
  | .drop => c.drop
  | .runqlat => c.runqlat

/-- One more event of a kind. -/
def count (c : EventCounts) : EventType → EventCounts
  | .rtt => { c with rtt := c.rtt + 1 }
  | .retrans => { c with retrans := c.retrans + 1 }
  | .drop => { c with drop := c.drop + 1 }
  | .runqlat => { c with runqlat := c.runqlat + 1 }

/-- The counts with a list of events added, each under its own kind. -/
def countAll (c : EventCounts) (events : List Event) : EventCounts :=
  events.foldl (fun c e => c.count e.eventType) c

theorem get_count (c : EventCounts) (t t' : EventType) :
    (c.count t).get t' = if t = t' then c.get t' + 1 else c.get t' := by
  cases t <;> cases t' <;> rfl

end EventCounts

end NodeTelemetry
