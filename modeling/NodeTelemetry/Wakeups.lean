import NodeTelemetry.KeyMap

/-!
# Pending wakeups

A process that is woken waits for a processor.  The table holds the time of the latest wakeup of
each waiting process, up to a number of processes that is kept in a counter beside the map.  A
wakeup of a process that waits already replaces its time even when the table is full; a wakeup of
another process is then turned away and counted.
-/

namespace NodeTelemetry

/-- The times at which the waiting processes were woken, by process. -/
structure WakeupTable where
  maxInflight : UInt64
  pending : KeyMap UInt64
  inflight : UInt64
  rejected : UInt64
  deriving DecidableEq, Repr

namespace WakeupTable

/-- The table without waiting processes. -/
def ofMaxInflight (maxInflight : UInt64) : WakeupTable := ⟨maxInflight, .empty, 0, 0⟩

/-- Stores the time at which a process was woken. -/
def recordWakeup (t : WakeupTable) (pid : UInt32) (time : UInt64) : WakeupTable :=
  if (t.pending.get? pid).isSome then { t with pending := t.pending.insert pid time }
  else if t.maxInflight ≤ t.inflight then { t with rejected := t.rejected + 1 }
  else { t with pending := t.pending.insert pid time, inflight := t.inflight + 1 }

/-- Takes the time at which a process was woken out of the table. -/
def take (t : WakeupTable) (pid : UInt32) : Option UInt64 × WakeupTable :=
  match t.pending.get? pid with
  | some time =>
    (some time, { t with pending := t.pending.erase pid, inflight := t.inflight - 1 })
  | none => (none, t)

/-- The number of waiting processes, as counted. -/
def len (t : WakeupTable) : UInt64 := t.inflight

/-- No process waits. -/
def isEmpty (t : WakeupTable) : Bool := t.len == 0

/-- Taking the wakeup of a process that does not wait changes nothing. -/
theorem take_of_get?_eq_none {t : WakeupTable} {pid : UInt32} (h : t.pending.get? pid = none) :
    t.take pid = (none, t) := by
  simp [take, h]

theorem take_of_get?_eq_some {t : WakeupTable} {pid : UInt32} {time : UInt64}
    (h : t.pending.get? pid = some time) :
    t.take pid =
      (some time, { t with pending := t.pending.erase pid, inflight := t.inflight - 1 }) := by
  simp [take, h]

end WakeupTable

end NodeTelemetry
