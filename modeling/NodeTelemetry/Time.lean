/-!
# Instants and durations

Readings of the monotonic clock and spans of time, both counted in nanoseconds.  An `Instant` is
measured from the origin of the clock and may lie before it; the clock itself holds whole seconds
in a signed 64-bit number, so an instant further than that from the origin is not representable
(`Instant.Representable`) and a sum that leaves the range has no value (`Instant.add?`).
-/

namespace NodeTelemetry

/-- The nanoseconds in one second. -/
def nanosPerSecond : Nat := 1000000000

/-- A span of time in nanoseconds. -/
structure Duration where
  nanos : Nat
  deriving DecidableEq, Repr, Inhabited

/-- A reading of the monotonic clock, in nanoseconds from its origin. -/
structure Instant where
  nanos : Int
  deriving DecidableEq, Repr, Inhabited

namespace Duration

/-- A span of whole seconds. -/
def ofSecs (s : UInt64) : Duration := ⟨s.toNat * nanosPerSecond⟩

/-- A span of whole milliseconds. -/
def ofMillis (ms : UInt64) : Duration := ⟨ms.toNat * 1000000⟩

/-- The shorter of two spans. -/
def min (a b : Duration) : Duration := if a.nanos ≤ b.nanos then a else b

/-- The span in seconds: the whole seconds and the remaining nanoseconds over `10 ^ 9` are
rounded each on its own, and then their sum. -/
def toSeconds (d : Duration) : Float :=
  (UInt64.ofNat (d.nanos / nanosPerSecond)).toFloat
    + (UInt64.ofNat (d.nanos % nanosPerSecond)).toFloat / (UInt64.ofNat nanosPerSecond).toFloat

/-! ## Text of a span

A span is written in the largest of the units s, ms, µs and ns in which its whole part is not
zero, with as many decimals as it needs. -/

/-- A number with a fraction of `places` digits, less the zeros at its end. -/
def decimalText (whole fraction places : Nat) : String :=
  let digits := (Nat.toDigits 10 fraction).leftpad places '0'
  let kept := (digits.reverse.dropWhile (· == '0')).reverse
  toString whole ++ (if kept.isEmpty then "" else "." ++ String.ofList kept)

/-- The text of a span, for log messages. -/
def text (d : Duration) : String :=
  if nanosPerSecond ≤ d.nanos then
    decimalText (d.nanos / nanosPerSecond) (d.nanos % nanosPerSecond) 9 ++ "s"
  else if 1000000 ≤ d.nanos then
    decimalText (d.nanos / 1000000) (d.nanos % 1000000) 6 ++ "ms"
  else if 1000 ≤ d.nanos then
    decimalText (d.nanos / 1000) (d.nanos % 1000) 3 ++ "µs"
  else
    toString d.nanos ++ "ns"

end Duration

namespace Instant

/-- How far the clock reaches to each side of its origin, in nanoseconds: `2 ^ 63` seconds. -/
def reach : Nat := 0x8000000000000000 * nanosPerSecond

/-- The clock holds the whole seconds of an instant in a signed 64-bit number. -/
def Representable (t : Instant) : Prop := -(reach : Int) ≤ t.nanos ∧ t.nanos < (reach : Int)

instance (t : Instant) : Decidable t.Representable :=
  inferInstanceAs (Decidable (_ ∧ _))

/-- The instant a span after another, if the clock can hold it. -/
def add? (t : Instant) (d : Duration) : Option Instant :=
  let sum : Instant := ⟨t.nanos + d.nanos⟩
  if sum.Representable then some sum else none

/-- The span from an earlier instant to this one, zero if that one is not earlier. -/
def since (t earlier : Instant) : Duration := ⟨(t.nanos - earlier.nanos).toNat⟩

theorem since_eq_zero {t earlier : Instant} (h : t.nanos ≤ earlier.nanos) :
    t.since earlier = ⟨0⟩ := by
  simp only [since, Duration.mk.injEq]
  omega

end Instant

end NodeTelemetry
