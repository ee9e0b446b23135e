import NodeTelemetry.Histogram

/-!
# Percentiles of a histogram

A percentile is estimated by the lower bound of the bucket that holds the sample of the wanted
rank.  The rank of percentile `p` among `n` samples is `n * p / 100`, rounded as binary64 numbers
are and cut to a natural number, and at least one.
-/

namespace NodeTelemetry

/-- A percentile held between 0 and 100; what is not a number stays so. -/
def clampPercentile (p : Float) : Float :=
  if p < (0 : UInt64).toFloat then (0 : UInt64).toFloat
  else if (100 : UInt64).toFloat < p then (100 : UInt64).toFloat
  else p

/-- The rank of a percentile among a number of samples. -/
def rankOf (total : UInt64) (p : Float) : UInt64 :=
  let rank := (total.toFloat * clampPercentile p / (100 : UInt64).toFloat).toUInt64
  if rank < 1 then 1 else rank

/-- The first position at which the running sum of counts reaches a rank. -/
def findRank (rank : UInt64) : List UInt64 → (running : UInt64) → (position : Nat) → Option Nat
  | [], _, _ => none
  | count :: rest, running, position =>
    if rank ≤ running + count then some position
    else findRank rank rest (running + count) (position + 1)

/-- The lower bound of a bucket. -/
def bucketFloor (i : Nat) : Float := ((1 : UInt64) <<< UInt64.ofNat i).toFloat

/-- The estimate of a percentile; zero if there is no sample, or none of the wanted rank. -/
def Histogram.percentile (h : Histogram) (p : Float) : Float :=
  if h.total = 0 then (0 : UInt64).toFloat
  else
    match findRank (rankOf h.total p) h.buckets.toList 0 0 with
    | some i => bucketFloor i
    | none => (0 : UInt64).toFloat

end NodeTelemetry
