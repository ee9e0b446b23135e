import NodeTelemetry.Snapshot
import NodeTelemetry.Decimal.Hundredths

/-!
# The text exposition of snapshots

The snapshots of one tick are exposed as one record of text.  For each of six gauges there are a
line of help, a line with its type, and a line for each node; a blank line ends the record.
Without snapshots there is no record.
-/

namespace NodeTelemetry

/-- A gauge: its name, its help, and its value in a snapshot. -/
structure Gauge where
  name : String
  help : String
  value : Snapshot → Float

/-- The gauges in the order in which they are written. -/
def gauges : List Gauge :=
  [ ⟨"ebpf_rtt_p50_milliseconds", "50th percentile RTT in milliseconds", Snapshot.rttP50⟩,
    ⟨"ebpf_rtt_p99_milliseconds", "99th percentile RTT in milliseconds", Snapshot.rttP99⟩,
    ⟨"ebpf_tcp_retrans_rate", "TCP retransmission rate per second", Snapshot.retransRate⟩,
    ⟨"ebpf_drop_rate", "Packet drop rate per second", Snapshot.dropRate⟩,
    ⟨"ebpf_runqlat_p95_milliseconds", "95th percentile runqueue latency", Snapshot.runqlat⟩,
    ⟨"ebpf_cpu_utilization", "CPU utilization percentage", Snapshot.cpu⟩ ]

namespace Exposition

/-- A label value between its quotes: backslashes, quotes and line feeds are escaped. -/
def escapeLabel : List Char → List Char
  | [] => []
  | c :: rest =>
    if c = '\\' then '\\' :: '\\' :: escapeLabel rest
    else if c = '"' then '\\' :: '"' :: escapeLabel rest
    else if c = '\n' then '\\' :: 'n' :: escapeLabel rest
    else c :: escapeLabel rest

/-- The line of a gauge for a node. -/
def valueLine (g : Gauge) (s : Snapshot) : String :=
  g.name ++ "\x7bnode=\"" ++ String.ofList (escapeLabel s.nodeName.toList) ++ "\"\x7d "
    ++ Decimal.twoPlaces (g.value s)

/-- The lines of a gauge. -/
def gaugeLines (g : Gauge) (snapshots : List Snapshot) : List String :=
  ("# HELP " ++ g.name ++ " " ++ g.help) :: ("# TYPE " ++ g.name ++ " gauge")
    :: snapshots.map (valueLine g)

/-- The lines of a record, the blank one at its end included. -/
def recordLines (snapshots : List Snapshot) : List String :=
  if snapshots.isEmpty then []
  else gauges.flatMap (fun g => gaugeLines g snapshots) ++ [""]

/-- The text of a record: its lines, each ended by a line feed. -/
def render (snapshots : List Snapshot) : String :=
  String.join ((recordLines snapshots).map fun line => line ++ "\n")

end Exposition

end NodeTelemetry
