import NodeTelemetry.Binary64

/-!
# Numbers with two decimals

Gauges are written with exactly two digits after the point: the exact value of the binary64
number is rounded to the nearest hundredth, and a half goes to the even hundredth.  The sign is
that of the number, so a negative number that rounds to zero is written `-0.00`.
-/

namespace NodeTelemetry.Decimal

/-- The number of hundredths nearest to `m * 2 ^ q`, ties to even. -/
def hundredths (m : Nat) (q : Int) : Nat :=
  if 0 ≤ q then (m <<< q.toNat) * 100
  else roundHalfEven (m * 100) (1 <<< (-q).toNat)

/-- A number of hundredths, written with a point. -/
def hundredthsText (n : Nat) : String :=
  let cents := n % 100
  toString (n / 100) ++ "." ++ (if cents < 10 then "0" else "") ++ toString cents

/-- The text of a number with two decimals. -/
def twoPlaces (x : Float) : String :=
  match Binary64.ofFloat x with
  | .nan => "NaN"
  | .infinite negative => if negative then "-inf" else "inf"
  | .finite negative m q => (if negative then "-" else "") ++ hundredthsText (hundredths m q)

end NodeTelemetry.Decimal
