import NodeTelemetry.Probe

/-!
# Synthetic producers

Without instrumentation the handlers can be driven by producers that make traffic up.  A producer
makes bursts of 64 callbacks.  Each is drawn at random: eighty of a hundred are round trips of 1 to
200 milliseconds, five are retransmissions, five are packet drops for one of eight reasons, and ten
are a wakeup and a switch of one of a thousand processes, which no other producer uses.
-/

namespace NodeTelemetry

/-- A callback of a producer as it is drawn. -/
inductive SyntheticDraw where
  /-- A round trip of one millisecond more than the number. -/
  | roundTrip (n : Fin 200)
  | retransmit
  | packetDrop (reason : Fin 8)
  /-- A wakeup and a switch of one of the producer's processes. -/
  | runqueue (process : Fin 1000)
  deriving DecidableEq, Repr

namespace SyntheticDraw

/-- The draw of a roll below a hundred, with a choice among those of its kind. -/
def ofRoll (roll choice : Nat) : SyntheticDraw :=
  if roll < 80 then .roundTrip (Fin.ofNat 200 choice)
  else if roll < 85 then .retransmit
  else if roll < 90 then .packetDrop (Fin.ofNat 8 choice)
  else .runqueue (Fin.ofNat 1000 choice)

/-- The first process of a producer. -/
def firstPid (producer : UInt32) : UInt32 := 10000 + producer * 100000

/-- What the handlers are called for by a draw of a producer. -/
def callbacks (producer : UInt32) : SyntheticDraw → List Callback
  | .roundTrip n => [.roundTrip (UInt64.ofNat (n.val + 1))]
  | .retransmit => [.retransmit]
  | .packetDrop reason => [.packetDrop (UInt32.ofNat reason.val)]
  | .runqueue process =>
    let pid := firstPid producer + UInt32.ofNat process.val
    [.wakeup pid, .switch pid]

end SyntheticDraw

/-- The number of draws in a burst. -/
def burstSize : Nat := 64

/-- The handler calls of a producer for a list of draws, all on one node and at one time. -/
def syntheticCalls (producer node : UInt32) (now : UInt64) (draws : List SyntheticDraw) :
    List ProbeCall :=
  draws.flatMap fun d => (d.callbacks producer).map fun callback => ⟨callback, node, now⟩

end NodeTelemetry
