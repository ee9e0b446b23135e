import NodeTelemetry.Config.Field
import NodeTelemetry.Yaml.ScalarText

/-!
# Writing a configuration

A configuration is written as a mapping with one entry for each field, in order; the rates of the
sampling policy are a mapping inside it, indented by two columns.  The text is the one that
`serde_yaml` 0.9 writes.
-/

namespace NodeTelemetry

open Yaml

/-- A natural number as a scalar. -/
def writeNat (n : Nat) : List Char := (toString n).toList

/-- The indentation of what is inside an entry. -/
def indentation : Nat := 2

/-- The entries of a sampling policy. -/
def SamplingPolicy.write (p : SamplingPolicy) : List Char :=
  EventType.all.flatMap fun t =>
    List.replicate indentation ' ' ++ writeEntry t.name.toList (writeNat (p.oneIn t).toNat)

namespace Config

/-- The entry of a field. -/
def writeField (c : Config) (f : ConfigField) : List Char :=
  let entry (value : List Char) := writeEntry f.name.toList value
  match f with
  | .intervalSecs => entry (writeNat c.intervalSecs.toNat)
  | .pollTimeoutMs => entry (writeNat c.pollTimeoutMs.toNat)
  | .channelCapacity => entry (writeNat c.channelCapacity.toNat)
  | .maxNodes => entry (writeNat c.maxNodes.toNat)
  | .maxDropReasons => entry (writeNat c.maxDropReasons.toNat)
  | .maxInflightWakeups => entry (writeNat c.maxInflightWakeups.toNat)
  | .nodeSlots => entry (writeNat c.nodeSlots.toNat)
  | .nodeName => entry (c.nodeName.elim "null".toList fun n => writeText indentation n.toList)
  | .procStatPath => entry (writeText indentation c.procStatPath.toList)
  | .sampling => f.name.toList ++ ':' :: '\n' :: c.sampling.write
  | .syntheticProducers => entry (writeNat c.syntheticProducers.toNat)

/-- The text of a configuration. -/
def toText (c : Config) : String := String.ofList (ConfigField.all.flatMap c.writeField)

end Config

end NodeTelemetry
