import NodeTelemetry.SlotTable

/-!
# Packet drops by reason

The table counts packet drops for each reason code below its capacity, modulo `2 ^ 64`.
-/

namespace NodeTelemetry

/-- The number of drops for each reason code. -/
abbrev DropReasonTable := SlotTable UInt64

namespace DropReasonTable

/-- Counts a drop for a reason. -/
def record (t : DropReasonTable) (reason : UInt32) : DropReasonTable :=
  t.update reason 0 (· + 1)

/-- The number of drops for a reason, zero if there was none. -/
def count (t : DropReasonTable) (reason : UInt32) : UInt64 := (t.get? reason).getD 0

/-- The reasons that occurred with their counts, ascending. -/
def counts (t : DropReasonTable) : List (UInt32 × UInt64) := t.slots.entries

end DropReasonTable

end NodeTelemetry
