import NodeTelemetry.Time
import NodeTelemetry.Counters

/-!
# Rates of counters

A rate is the growth of a counter per second between two readings.  Each node keeps the counters
and the instant of the last reading that counted: a reading at that instant or before is ignored,
and the first one only starts the record.
-/

namespace NodeTelemetry

/-- The growth of a counter per second; the rate before if no time went by.  A counter that went
back has a negative rate. -/
def rate (current previous : UInt64) (elapsed previousRate : Float) : Float :=
  if (0 : UInt64).toFloat < elapsed then (current.toFloat - previous.toFloat) / elapsed
  else previousRate

/-- The two rates that are reported for a node. -/
structure Rates where
  retrans : Float
  drop : Float
  deriving DecidableEq

/-- The counters of a reading that counted. -/
structure RateBaseline where
  retrans : UInt64
  drops : UInt64
  instant : Instant
  deriving DecidableEq, Repr

/-- The last reading that counted, if there was one, and the rates reported then. -/
structure RateState where
  baseline : Option RateBaseline
  rates : Rates
  deriving DecidableEq

namespace RateState

/-- The state before the first reading. -/
def initial : RateState := ⟨none, ⟨(0 : UInt64).toFloat, (0 : UInt64).toFloat⟩⟩

/-- Takes in the retransmissions and drops counted at an instant. -/
def observe (s : RateState) (retrans drops : UInt64) (now : Instant) : RateState :=
  match s.baseline with
  | none => { s with baseline := some ⟨retrans, drops, now⟩ }
  | some previous =>
    let elapsed := (now.since previous.instant).toSeconds
    if elapsed ≤ (0 : UInt64).toFloat then s
    else
      { baseline := some ⟨retrans, drops, now⟩
        rates :=
          { retrans := rate retrans previous.retrans elapsed s.rates.retrans
            drop := rate drops previous.drops elapsed s.rates.drop } }

/-- Takes in the counters of a node. -/
def update (s : RateState) (counters : NodeCounters) (now : Instant) : RateState :=
  s.observe counters.retransCount counters.dropCount now

end RateState

end NodeTelemetry
