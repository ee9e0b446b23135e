import NodeTelemetry.Histogram
import NodeTelemetry.Counters
import NodeTelemetry.DropReasons
import NodeTelemetry.Wakeups

/-!
# The shared tables

What the handlers record lives in four tables: counters and a round-trip histogram for each node,
drops for each reason, and the pending wakeups.  Nodes, reasons and processes are different keys
and never share a table.  Everything else of the agent only reads the tables.
-/

namespace NodeTelemetry

/-- The four tables. -/
structure Tables where
  counters : CounterTable
  histograms : HistogramTable
  dropReasons : DropReasonTable
  wakeups : WakeupTable
  deriving DecidableEq, Repr

/-- A change of one record of one table. -/
inductive TableUpdate where
  | increment (node : UInt32) (field : CounterField) (delta : UInt64)
  | touch (node : UInt32) (time : UInt64)
  | observe (node : UInt32) (value : UInt64)
  | recordDrop (reason : UInt32)
  | recordWakeup (pid : UInt32) (time : UInt64)
  | takeWakeup (pid : UInt32)
  deriving DecidableEq, Repr

namespace Tables

/-- Empty tables of the given capacities. -/
def ofCapacities (maxNodes maxDropReasons maxInflight : UInt64) : Tables where
  counters := .ofCapacity maxNodes.toNat
  histograms := .ofCapacity maxNodes.toNat
  dropReasons := .ofCapacity maxDropReasons.toNat
  wakeups := .ofMaxInflight maxInflight

/-- The tables after an update. -/
def apply (t : Tables) : TableUpdate → Tables
  | .increment node field delta => { t with counters := t.counters.increment node field delta }
  | .touch node time => { t with counters := t.counters.touch node time }
  | .observe node value => { t with histograms := t.histograms.observe node value }
  | .recordDrop reason => { t with dropReasons := t.dropReasons.record reason }
  | .recordWakeup pid time => { t with wakeups := t.wakeups.recordWakeup pid time }
  | .takeWakeup pid => { t with wakeups := (t.wakeups.take pid).2 }

/-- The tables after a list of updates, the first one first. -/
def applyAll (t : Tables) (updates : List TableUpdate) : Tables := updates.foldl apply t

/-- The counters and the histogram of a node.  A node without counters has none; a node without a
histogram has an empty one. -/
def snapshot (t : Tables) (node : UInt32) : Option (NodeCounters × Histogram) :=
  (t.counters.get? node).map fun c => (c, (t.histograms.get? node).getD .empty)

/-- The nodes with counters or a histogram, ascending and each once. -/
def trackedNodes (t : Tables) : List UInt32 :=
  t.counters.slots.unionKeys t.histograms.slots

theorem snapshot_eq_none_iff {t : Tables} {node : UInt32} :
    t.snapshot node = none ↔ t.counters.get? node = none := by
  simp [snapshot]

@[simp] theorem applyAll_cons (t : Tables) (u : TableUpdate) (us : List TableUpdate) :
    t.applyAll (u :: us) = (t.apply u).applyAll us := rfl

end Tables

end NodeTelemetry
