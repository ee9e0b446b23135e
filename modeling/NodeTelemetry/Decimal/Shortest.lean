import NodeTelemetry.Binary64

/-!
# The fewest digits that read back

The decimal of a binary64 number here is the shortest one that reads back as the number: with the
fewest significant digits that lie in the interval of reals rounding to it, and of those the
nearest to its exact value, upwards if two are equally near.  It is written positionally,
whatever its magnitude, and always with a point.
-/

namespace NodeTelemetry.Decimal

/-- The power `10 ^ k`. -/
def tens (k : Nat) : Nat := Nat.pow 10 k

/-- The positive number `m * 2 ^ q` as a quotient of natural numbers. -/
def quotient (m : Nat) (q : Int) : Nat × Nat :=
  if 0 ≤ q then (m <<< q.toNat, 1) else (m, 1 <<< (-q).toNat)

/-- The least `k` at or above the given one, of those within a limit, with `num / den < 10 ^ k`. -/
def raisePoint (num den : Nat) : Nat → Nat → Nat
  | 0, k => k
  | limit + 1, k => if num < den * tens k then k else raisePoint num den limit (k + 1)

/-- How many zeros follow the point of `num / den < 1`, within a limit. -/
def leadingZeros (num den : Nat) : Nat → Nat
  | 0 => 0
  | limit + 1 => if den ≤ num * 10 then 0 else leadingZeros (num * 10) den limit + 1

/-- The place `k` of the point: `10 ^ (k - 1) ≤ num / den < 10 ^ k`. -/
def pointPlace (num den : Nat) : Int :=
  if den ≤ num then (raisePoint num den 400 1 : Nat) else -(leadingZeros num den 400 : Nat)

/-- The reals that round to `m * 2 ^ q` in quarters of `2 ^ q`: the ends of their interval, which
belong to it iff `m` is even.  Below a power of two the neighbours lie twice as close. -/
def interval (m : Nat) (q : Int) : Nat × Nat :=
  (if m = Binary64.normal ∧ -1074 < q then 4 * m - 1 else 4 * m - 2, 4 * m + 2)

/-- The decimal `c * 10 ^ e` rounds to `m * 2 ^ q`. -/
def readsBack (m : Nat) (q : Int) (c : Nat) (e : Int) : Bool :=
  let (low, high) := interval m q
  let scaled := if 0 ≤ e then c * tens e.toNat else c
  let grid := if 0 ≤ e then 1 else tens (-e).toNat
  let (lowNum, lowDen) := quotient low (q - 2)
  let (highNum, highDen) := quotient high (q - 2)
  if m % 2 = 0 then lowNum * grid ≤ scaled * lowDen && scaled * highDen ≤ highNum * grid
  else lowNum * grid < scaled * lowDen && scaled * highDen < highNum * grid

/-- The neighbours of `m * 2 ^ q` among the multiples of `10 ^ e`: the one at or below it, and
whether the one above is at least as near. -/
def onGrid (m : Nat) (q e : Int) : Nat × Bool :=
  let (num, den) := quotient m q
  let num := if 0 ≤ e then num else num * tens (-e).toNat
  let den := if 0 ≤ e then den * tens e.toNat else den
  (num / den, den ≤ 2 * (num % den))

/-- Searches the grids of `digits`, `digits + 1`, … significant digits for a decimal that reads
back; the answer `(c, e)` stands for `c * 10 ^ e`. -/
def search (m : Nat) (q place : Int) : Nat → Nat → Nat × Int
  | 0, digits => ((onGrid m q (place - digits)).1, place - digits)
  | limit + 1, digits =>
    let e := place - digits
    let (below, upper) := onGrid m q e
    let lower := readsBack m q below e
    let higher := readsBack m q (below + 1) e
    if lower && higher then (if upper then below + 1 else below, e)
    else if lower then (below, e)
    else if higher then (below + 1, e)
    else search m q place limit (digits + 1)

/-- The decimal `c * 10 ^ e` with the zeros at the end of `c`, up to a limit, moved into `e`. -/
def dropTens : Nat → Nat → Int → Nat × Int
  | 0, c, e => (c, e)
  | limit + 1, c, e => if c % 10 = 0 then dropTens limit (c / 10) (e + 1) else (c, e)

/-- The shortest decimal `c * 10 ^ e` that reads back as the positive number `m * 2 ^ q`. -/
def shortest (m : Nat) (q : Int) : Nat × Int :=
  let (num, den) := quotient m q
  let (c, e) := search m q (pointPlace num den) 17 1
  dropTens 18 c e

/-- The decimal `c * 10 ^ e` written positionally and with a point. -/
def positional (c : Nat) (e : Int) : String :=
  if 0 ≤ e then toString (c * tens e.toNat) ++ ".0"
  else
    let places := (-e).toNat
    let fraction := (Nat.toDigits 10 (c % tens places)).leftpad places '0'
    toString (c / tens places) ++ "." ++ String.ofList fraction

/-- The text of a number in the fewest digits that read back. -/
def shortestText (x : Float) : String :=
  match Binary64.ofFloat x with
  | .nan => "NaN"
  | .infinite negative => if negative then "-inf" else "inf"
  | .finite negative m q =>
    let magnitude := if m = 0 then "0.0" else
      let (c, e) := shortest m q
      positional c e
    (if negative then "-" else "") ++ magnitude

end NodeTelemetry.Decimal
