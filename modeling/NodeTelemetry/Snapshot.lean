/-!
# Snapshots

What is reported of a node at one tick.
-/

namespace NodeTelemetry

/-- The values of a node at one tick. -/
structure Snapshot where
  nodeId : UInt32
  nodeName : String
  rttP50 : Float
  rttP99 : Float
  retransRate : Float
  dropRate : Float
  runqlat : Float
  cpu : Float
  deriving DecidableEq

/-- The `node` label of a node: node 0 is the host itself, and the others are numbered. -/
def nodeName (host : String) (node : UInt32) : String :=
  if node = 0 then host else host ++ "-" ++ toString node.toNat

end NodeTelemetry
