import NodeTelemetry.SlotTable

/-!
# Counters of a node

A node has six counters, which wrap modulo `2 ^ 64`, and the latest time at which one of its
handlers ran.  The counter table holds one such record for each node below its capacity.
-/

namespace NodeTelemetry

/-- The counters of a node, by name. -/
inductive CounterField where
  | rttSum
  | rttCount
  | retransCount
  | dropCount
  | runqlatSum
  | runqlatCount
  deriving DecidableEq, Repr

/-- The counters of a node and the latest time at which it was touched. -/
structure NodeCounters where
  rttSum : UInt64
  rttCount : UInt64
  retransCount : UInt64
  dropCount : UInt64
  runqlatSum : UInt64
  runqlatCount : UInt64
  lastUpdate : UInt64
  deriving DecidableEq, Repr

namespace NodeCounters

/-- The counters of a node on which nothing happened. -/
def zero : NodeCounters := ⟨0, 0, 0, 0, 0, 0, 0⟩

instance : Inhabited NodeCounters := ⟨zero⟩

/-- The value of a counter. -/
def get (c : NodeCounters) : CounterField → UInt64
  | .rttSum => c.rttSum
  | .rttCount => c.rttCount
  | .retransCount => c.retransCount
  | .dropCount => c.dropCount
  | .runqlatSum => c.runqlatSum
  | .runqlatCount => c.runqlatCount

/-- The counters with an amount added to one of them. -/
def add (c : NodeCounters) (field : CounterField) (delta : UInt64) : NodeCounters :=
  match field with
  | .rttSum => { c with rttSum := c.rttSum + delta }
  | .rttCount => { c with rttCount := c.rttCount + delta }
  | .retransCount => { c with retransCount := c.retransCount + delta }
  | .dropCount => { c with dropCount := c.dropCount + delta }
  | .runqlatSum => { c with runqlatSum := c.runqlatSum + delta }
  | .runqlatCount => { c with runqlatCount := c.runqlatCount + delta }

/-- The counters touched at a time: the latest time of all stays. -/
def touch (c : NodeCounters) (time : UInt64) : NodeCounters :=
  { c with lastUpdate := if c.lastUpdate < time then time else c.lastUpdate }

/-- The mean run-queue latency, zero if there is no sample. -/
def runqlatMean (c : NodeCounters) : Float :=
  if c.runqlatCount = 0 then (0 : UInt64).toFloat
  else c.runqlatSum.toFloat / c.runqlatCount.toFloat

@[simp] theorem get_zero (field : CounterField) : zero.get field = 0 := by
  cases field <;> rfl

/-- Adding to a counter changes that counter and no other. -/
theorem get_add (c : NodeCounters) (field field' : CounterField) (delta : UInt64) :
    (c.add field delta).get field' =
      if field = field' then c.get field' + delta else c.get field' := by
  cases field <;> cases field' <;> rfl

@[simp] theorem lastUpdate_add (c : NodeCounters) (field : CounterField) (delta : UInt64) :
    (c.add field delta).lastUpdate = c.lastUpdate := by
  cases field <;> rfl

@[simp] theorem get_touch (c : NodeCounters) (time : UInt64) (field : CounterField) :
    (c.touch time).get field = c.get field := by
  cases field <;> rfl

end NodeCounters

/-- The counters of each node. -/
abbrev CounterTable := SlotTable NodeCounters

namespace CounterTable

/-- Adds an amount to a counter of a node. -/
def increment (t : CounterTable) (node : UInt32) (field : CounterField) (delta : UInt64) :
    CounterTable :=
  t.update node .zero fun c => c.add field delta

/-- Touches a node at a time. -/
def touch (t : CounterTable) (node : UInt32) (time : UInt64) : CounterTable :=
  t.update node .zero fun c => c.touch time

end CounterTable

end NodeTelemetry
