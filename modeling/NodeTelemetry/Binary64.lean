/-!
# The value of a binary64 number

A finite binary64 number is `± m * 2 ^ q` for natural `m < 2 ^ 53` and integer `q`.  This module
takes the sign, `m` and `q` from the bits of a `Float`, so that texts of numbers can be made in
exact arithmetic.
-/

namespace NodeTelemetry

/-- The value of a binary64 number: a finite one is `mantissa * 2 ^ exponent`, with a sign. -/
inductive Binary64 where
  | nan
  | infinite (negative : Bool)
  | finite (negative : Bool) (mantissa : Nat) (exponent : Int)
  deriving DecidableEq, Repr

namespace Binary64

/-- The least mantissa of a number that is not subnormal: `2 ^ 52`. -/
def normal : Nat := 0x10000000000000

/-- The value that a bit pattern stands for. -/
def ofBits (bits : UInt64) : Binary64 :=
  let negative : Bool := 0x8000000000000000 ≤ bits.toNat
  let field : Nat := bits.toNat / normal % 0x800
  let fraction : Nat := bits.toNat % normal
  if field = 0x7ff then
    if fraction = 0 then .infinite negative else .nan
  else if field = 0 then .finite negative fraction (-1074)
  else .finite negative (normal + fraction) ((field : Int) - 1075)

/-- The value of a number. -/
def ofFloat (x : Float) : Binary64 := ofBits x.toBits

end Binary64

/-! ## Quotients of natural numbers, rounded -/

/-- The natural number nearest to `num / den`; of two equally near ones, the even one. -/
def roundHalfEven (num den : Nat) : Nat :=
  let quotient := num / den
  let rest := num % den
  if 2 * rest < den then quotient
  else if den < 2 * rest then quotient + 1
  else if quotient % 2 = 0 then quotient
  else quotient + 1

end NodeTelemetry
