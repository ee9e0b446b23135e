/-!
# Reading numerals

Natural numbers in a base and decimal fractions, read from a list of characters all of which must
belong to the numeral.
-/

namespace NodeTelemetry.Decimal

/-- The value of a digit in a base up to sixteen. -/
def digitValue? (base : Nat) (c : Char) : Option Nat :=
  let value :=
    if c.isDigit then some (c.toNat - '0'.toNat)
    else if 'a' ≤ c && c ≤ 'f' then some (c.toNat - 'a'.toNat + 10)
    else if 'A' ≤ c && c ≤ 'F' then some (c.toNat - 'A'.toNat + 10)
    else none
  value.filter (· < base)

/-- The value of digits, most significant first, continuing from a value. -/
def digitsValue? (base : Nat) : Nat → List Char → Option Nat
  | value, [] => some value
  | value, c :: rest =>
    (digitValue? base c).bind fun d => digitsValue? base (value * base + d) rest

/-- The number written in one digit or more of a base. -/
def natural? (base : Nat) (text : List Char) : Option Nat :=
  if text.isEmpty then none else digitsValue? base 0 text

/-- A text less one plus sign at its start. -/
def unplus (text : List Char) : List Char := if text.head? == some '+' then text.drop 1 else text

/-- The number below a bound that is written in decimal digits after an optional plus sign. -/
def bounded? (bound : Nat) (text : List Char) : Option Nat :=
  (natural? 10 (unplus text)).filter (· < bound)

/-! ## Decimal fractions -/

/-- A decimal fraction: `coefficient * 10 ^ exponent`, with a sign. -/
structure Fraction where
  negative : Bool
  coefficient : Nat
  exponent : Int
  deriving DecidableEq, Repr

/-- The exponent after the letter of an exponent. -/
def exponent? : List Char → Option Int
  | '+' :: rest => (natural? 10 rest).map fun n => (n : Int)
  | '-' :: rest => (natural? 10 rest).map fun n => -(n : Int)
  | rest => (natural? 10 rest).map fun n => (n : Int)

/-- Reads digits with a point before, among or after them, and an exponent if there is one, after
an optional minus sign. -/
def fraction? (text : List Char) : Option Fraction := do
  let negative := text.head? == some '-'
  let text := if negative then text.drop 1 else text
  let whole := text.takeWhile Char.isDigit
  let text := text.dropWhile Char.isDigit
  let pointed := text.head? == some '.'
  let decimals := if pointed then (text.drop 1).takeWhile Char.isDigit else []
  let text := if pointed then (text.drop 1).dropWhile Char.isDigit else text
  let coefficient ← natural? 10 (whole ++ decimals)
  let exponent ← match text with
    | [] => some 0
    | c :: rest => if c == 'e' || c == 'E' then exponent? rest else none
  some ⟨negative, coefficient, exponent - decimals.length⟩

/-- The binary64 number nearest to a fraction.  Fractions of more than four hundred places before
the point or of as many zeros after it are beyond the largest and below the smallest number. -/
def Fraction.toFloat (f : Fraction) : Float :=
  let places : Int := f.exponent + (Nat.log2 f.coefficient * 30103 / 100000 : Nat)
  let magnitude : Float :=
    if f.coefficient = 0 then (0 : UInt64).toFloat
    else if 400 < places then Float.ofBits 0x7ff0000000000000
    else if places < -400 then (0 : UInt64).toFloat
    else Float.ofScientific f.coefficient (f.exponent < 0) f.exponent.natAbs
  if f.negative then -magnitude else magnitude

end NodeTelemetry.Decimal
