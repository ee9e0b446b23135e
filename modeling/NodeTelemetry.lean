import NodeTelemetry.Main
import NodeTelemetry.Event.Record
import NodeTelemetry.Proofs.EventIndependence
import NodeTelemetry.Proofs.SampleEstimates
import NodeTelemetry.Proofs.ChannelRun
import NodeTelemetry.Proofs.HandlerUpdates
import NodeTelemetry.Proofs.HandlerAccounts
import NodeTelemetry.Proofs.EventAccounting
import NodeTelemetry.Proofs.NodeIsolation
import NodeTelemetry.Proofs.TickFrame
import NodeTelemetry.Proofs.RecordLabels
import NodeTelemetry.Proofs.RecordBoundaries
import NodeTelemetry.Proofs.TickSchedule
import NodeTelemetry.Proofs.ConfigKeys
import NodeTelemetry.Proofs.ConfiguredNodes
import NodeTelemetry.Proofs.SyntheticLoad
import NodeTelemetry.Proofs.RateSign
import NodeTelemetry.Proofs.CpuHistory
import NodeTelemetry.Proofs.CpuLine
import NodeTelemetry.Proofs.WakeupRun
import NodeTelemetry.Proofs.SampledWords
import NodeTelemetry.Proofs.PrintedValues
import NodeTelemetry.Proofs.EventRecords
import NodeTelemetry.Proofs.LoopClock
import NodeTelemetry.Proofs.SlotRun
import NodeTelemetry.Proofs.SampleHalving
