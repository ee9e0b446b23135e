import NodeTelemetry.Event

/-!
# Sampling of events

A policy publishes one in `N` events of each kind, on average.  The choice takes a uniform number
below `N` from a stream of random 32-bit words by multiplication with rejection: a word `w` gives
the high half of the product `w * N`, and is rejected when the low half lies above the largest
multiple of `N` of the form `N * 2 ^ k` that fits, so that each number is the result of equally
many words.  Rates 0 and 1 need no randomness.
-/

namespace NodeTelemetry

/-! ## Random words -/

/-- A stream of random words: those listed, then zeros forever, and how many were taken so far. -/
structure WordStream where
  pending : List UInt32
  taken : Nat
  deriving DecidableEq, Repr

namespace WordStream

/-- The stream of the listed words, then zeros. -/
def ofList (words : List UInt32) : WordStream := ⟨words, 0⟩

/-- The low half of the product up to which a word counts: `N`, shifted left until its top bit is
set, less one. -/
def zone (n : UInt32) : UInt32 := (n <<< (31 - n.log2)) - 1

/-- The word gives a number below `n`. -/
def accepts (n w : UInt32) : Bool := w.toNat * n.toNat % UInt32.size ≤ (zone n).toNat

/-- The number below `n` that an accepted word gives. -/
def scaled (n w : UInt32) : UInt32 := UInt32.ofNat (w.toNat * n.toNat / UInt32.size)

/-- A uniform number below `n` from the first accepted word of a list that continues with zeros:
the number, the words that are left, and how many words were taken.  A zero is always accepted. -/
def drawFrom (n : UInt32) : List UInt32 → UInt32 × List UInt32 × Nat
  | [] => (0, [], 1)
  | w :: rest =>
    if accepts n w then (scaled n w, rest, 1)
    else
      let (result, left, taken) := drawFrom n rest
      (result, left, taken + 1)

/-- A uniform number below `n` taken from the stream. -/
def below (s : WordStream) (n : UInt32) : UInt32 × WordStream :=
  let (result, left, taken) := drawFrom n s.pending
  (result, ⟨left, s.taken + taken⟩)

@[simp] theorem accepts_zero (n : UInt32) : accepts n 0 = true := by
  simp [accepts]

@[simp] theorem scaled_zero (n : UInt32) : scaled n 0 = 0 := by
  simp [scaled]

end WordStream

/-! ## Policies -/

/-- For each kind of event the number of events of which one is published; with zero, none is. -/
structure SamplingPolicy where
  rtt : UInt32
  retrans : UInt32
  drop : UInt32
  runqlat : UInt32
  deriving DecidableEq, Repr

namespace SamplingPolicy

/-- Frequent kinds are thinned out, and every retransmission is published. -/
def standard : SamplingPolicy := ⟨100, 1, 10, 100⟩

instance : Inhabited SamplingPolicy := ⟨standard⟩

/-- Every event is published. -/
def unsampled : SamplingPolicy := ⟨1, 1, 1, 1⟩

/-- The number of events of a kind of which one is published. -/
def oneIn (p : SamplingPolicy) : EventType → UInt32
  | .rtt => p.rtt
  | .retrans => p.retrans
  | .drop => p.drop
  | .runqlat => p.runqlat

/-- Decides whether an event of a kind is published. -/
def shouldPublish (p : SamplingPolicy) (t : EventType) (words : WordStream) : Bool × WordStream :=
  let n := p.oneIn t
  if n = 0 then (false, words)
  else if n = 1 then (true, words)
  else
    let (r, words') := words.below n
    (r == 0, words')

theorem shouldPublish_of_zero {p : SamplingPolicy} {t : EventType} (h : p.oneIn t = 0)
    (words : WordStream) : p.shouldPublish t words = (false, words) := by
  simp [shouldPublish, h]

theorem shouldPublish_of_one {p : SamplingPolicy} {t : EventType} (h : p.oneIn t = 1)
    (words : WordStream) : p.shouldPublish t words = (true, words) := by
  simp [shouldPublish, h]

end SamplingPolicy

end NodeTelemetry
