import NodeTelemetry.Decimal.Numeral

/-!
# Values of plain scalars

A plain scalar without a tag stands for the value that its text looks like: nothing, a truth value,
an integer in one of four bases, a decimal fraction, or else the text itself.  Integers come in
four widths.  A text of digits that starts with a superfluous zero is no number.  This is how
`serde_yaml` 0.9 tells values apart, and so what it puts between quotes when it writes a text.
-/

namespace NodeTelemetry.Yaml

/-- What a plain scalar stands for. -/
inductive Value where
  | null
  | boolean (b : Bool)
  /-- A natural number below `2 ^ 64`. -/
  | unsigned (n : Nat)
  /-- A number that is written with a minus sign and is at least `-2 ^ 63`. -/
  | signed (i : Int)
  /-- A natural number below `2 ^ 128`. -/
  | wideUnsigned (n : Nat)
  /-- A number that is written with a minus sign and is at least `-2 ^ 127`. -/
  | wideSigned (i : Int)
  | float (x : Float)
  | text
  deriving DecidableEq

namespace Value

/-- The text stands for nothing. -/
def isNull (s : List Char) : Bool :=
  s = "null".toList || s = "Null".toList || s = "NULL".toList || s = ['~']

/-- The truth value that the text stands for. -/
def boolean? (s : List Char) : Option Bool :=
  if s = "true".toList || s = "True".toList || s = "TRUE".toList then some true
  else if s = "false".toList || s = "False".toList || s = "FALSE".toList then some false
  else none

/-- The text starts with a sign. -/
def isSigned (s : List Char) : Bool := s.head? == some '+' || s.head? == some '-'

/-- The text is two digits or more after an optional sign, the first of them zero. -/
def isPadded (s : List Char) : Bool :=
  let digits := if isSigned s then s.drop 1 else s
  1 < digits.length && digits.head? == some '0' && digits.all Char.isDigit

/-- The base that two characters at the start of a number stand for. -/
def base? : List Char → Option Nat
  | '0' :: 'x' :: _ => some 16
  | '0' :: 'o' :: _ => some 8
  | '0' :: 'b' :: _ => some 2
  | _ => none

/-- The natural number in a text after its sign: in the base that its start gives, or decimal. -/
def magnitude? (s : List Char) : Option Nat :=
  match base? s with
  | some base => Decimal.natural? base (s.drop 2)
  | none => Decimal.natural? 10 s

/-- The natural number below a bound that the text stands for. -/
def natural? (bound : Nat) (s : List Char) : Option Nat :=
  if isPadded s then none else (magnitude? (Decimal.unplus s)).filter (· < bound)

/-- The number that the text, with its minus sign, stands for, if it is at least `-bound`. -/
def negative? (bound : Nat) (s : List Char) : Option Int :=
  if isPadded s || s.head? != some '-' then none
  else ((magnitude? (s.drop 1)).filter (· ≤ bound)).map fun n => -(n : Int)

/-- The number of integers of twice 64 bits. -/
def wideSize : Nat := UInt64.size * UInt64.size

/-- The integer that the text stands for, in the first width that holds it. -/
def integer? (s : List Char) : Option Value :=
  ((natural? UInt64.size s).map unsigned).or <|
    ((negative? (UInt64.size / 2) s).map signed).or <|
      ((natural? wideSize s).map wideUnsigned).or <|
        (negative? (wideSize / 2) s).map wideSigned

/-- The fraction that the text stands for.  What lies beyond the largest number is no fraction, but
infinity and what is not a number have texts of their own. -/
def float? (s : List Char) : Option Float :=
  let unsigned := Decimal.unplus s
  if unsigned.length < s.length && isSigned unsigned then none
  else if [".inf", ".Inf", ".INF"].any fun t => t.toList = unsigned then
    some (Float.ofBits 0x7ff0000000000000)
  else if ["-.inf", "-.Inf", "-.INF"].any fun t => t.toList = s then
    some (Float.ofBits 0xfff0000000000000)
  else if [".nan", ".NaN", ".NAN"].any fun t => t.toList = s then
    some (Float.ofBits 0x7ff8000000000000)
  else
    ((Decimal.fraction? unsigned).map fun f => f.toFloat).filter Float.isFinite

/-- What the text of a plain scalar stands for. -/
def ofPlain (s : List Char) : Value :=
  if s.isEmpty || isNull s then .null
  else match boolean? s with
    | some b => .boolean b
    | none =>
      match integer? s with
      | some v => v
      | none => if isPadded s then .text else ((float? s).map float).getD .text

end Value

end NodeTelemetry.Yaml
