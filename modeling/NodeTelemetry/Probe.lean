import NodeTelemetry.Tables
import NodeTelemetry.Event

/-!
# Probe handlers

The kernel calls a handler at six points.  A handler first records in the tables what it saw and
then reports it as an event, except for a wakeup, which is only remembered, and a switch to a
process whose wakeup nobody saw, which leaves no trace at all.  A node outside the tables loses
its record but is reported all the same.

The node on which a handler runs and the reading of the clock are arguments, so a handler is a
function of the tables alone; whether its event is published is decided elsewhere.
-/

namespace NodeTelemetry

/-- The smoothed round-trip time of the kernel, in microseconds times eight, in milliseconds. -/
def srttToMillis (srtt : UInt32) : UInt64 := ((srtt >>> 3) / 1000).toUInt64

/-- What a handler is called for. -/
inductive Callback where
  /-- A round trip took so many milliseconds. -/
  | roundTrip (millis : UInt64)
  /-- An acknowledgement came in, with the smoothed round-trip time of the kernel. -/
  | ack (srtt : UInt32)
  /-- A segment was sent again. -/
  | retransmit
  /-- A packet was dropped for a reason. -/
  | packetDrop (reason : UInt32)
  /-- A process was woken. -/
  | wakeup (pid : UInt32)
  /-- A processor was given to a process. -/
  | switch (pid : UInt32)
  deriving DecidableEq, Repr

/-- A call of a handler, with the node it runs on and the reading of the clock in nanoseconds. -/
structure ProbeCall where
  callback : Callback
  node : UInt32
  now : UInt64
  deriving DecidableEq, Repr

namespace Tables

/-- Changes the counters of a node and touches it. -/
def bump (t : Tables) (node : UInt32) (now : UInt64) (change : NodeCounters → NodeCounters) :
    Tables :=
  { t with counters := t.counters.update node .zero fun c => (change c).touch now }

/-- Records a round trip of a node. -/
def recordRoundTrip (t : Tables) (node : UInt32) (now millis : UInt64) : Tables :=
  { t with histograms := t.histograms.observe node millis }.bump node now fun c =>
    (c.add .rttSum millis).add .rttCount 1

/-- Records a retransmission of a node. -/
def recordRetransmit (t : Tables) (node : UInt32) (now : UInt64) : Tables :=
  t.bump node now fun c => c.add .retransCount 1

/-- Records a packet drop of a node. -/
def recordPacketDrop (t : Tables) (node : UInt32) (now : UInt64) (reason : UInt32) : Tables :=
  { t with dropReasons := t.dropReasons.record reason }.bump node now fun c => c.add .dropCount 1

/-- Records a run-queue wait of a node. -/
def recordRunqueueWait (t : Tables) (node : UInt32) (now millis : UInt64) : Tables :=
  t.bump node now fun c => (c.add .runqlatSum millis).add .runqlatCount 1

end Tables

/-- The milliseconds from a wakeup to a switch, zero if the clock went back. -/
def waitMillis (woken now : UInt64) : UInt64 :=
  if woken < now then (now - woken) / 1000000 else 0

namespace ProbeCall

/-- What a call of a handler does: the tables after it, and the event to report. -/
def run (c : ProbeCall) (t : Tables) : Tables × Option Event :=
  match c.callback with
  | .roundTrip millis =>
    (t.recordRoundTrip c.node c.now millis, some ⟨c.node, .rtt, millis, c.now, 0⟩)
  | .ack srtt =>
    let millis := srttToMillis srtt
    (t.recordRoundTrip c.node c.now millis, some ⟨c.node, .rtt, millis, c.now, 0⟩)
  | .retransmit =>
    (t.recordRetransmit c.node c.now, some ⟨c.node, .retrans, 1, c.now, 0⟩)
  | .packetDrop reason =>
    (t.recordPacketDrop c.node c.now reason, some ⟨c.node, .drop, 1, c.now, reason⟩)
  | .wakeup pid =>
    ({ t with wakeups := t.wakeups.recordWakeup pid c.now }, none)
  | .switch pid =>
    match t.wakeups.take pid with
    | (none, _) => (t, none)
    | (some woken, wakeups) =>
      let millis := waitMillis woken c.now
      ({ t with wakeups := wakeups }.recordRunqueueWait c.node c.now millis,
        some ⟨c.node, .runqlat, millis, c.now, pid⟩)

/-- A switch to a process whose wakeup nobody saw leaves no trace. -/
theorem run_switch_of_not_pending {c : ProbeCall} {pid : UInt32} {t : Tables}
    (hc : c.callback = .switch pid) (h : t.wakeups.pending.get? pid = none) :
    c.run t = (t, none) := by
  simp [run, hc, WakeupTable.take_of_get?_eq_none h]

end ProbeCall

/-! ## Naming the node of a handler -/

/-- How a handler finds the node it runs on. -/
inductive NodeStrategy where
  /-- Always the same node. -/
  | fixed (node : UInt32)
  /-- The processor number, folded onto a number of slots. -/
  | cpuHash (slots : UInt32)
  deriving DecidableEq, Repr

/-- The node of a handler that runs on a processor. -/
def NodeStrategy.nodeOn : NodeStrategy → UInt32 → UInt32
  | .fixed node, _ => node
  | .cpuHash slots, cpu => cpu % (if slots = 0 then 1 else slots)

end NodeTelemetry
