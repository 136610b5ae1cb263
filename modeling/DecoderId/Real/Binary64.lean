/-!
# Double precision numbers

The numbers that a 64-bit binary format holds, and the one nearest to a decimal
fraction. All arithmetic is exact, on natural numbers.
-/

namespace DecoderId

/-- A double precision number: `finite negative mantissa exponent` is
`± mantissa · 2 ^ exponent`, with the sign kept on zero. -/
inductive Binary64 where
  | finite (negative : Bool) (mantissa : Nat) (exponent : Int)
  | infinite (negative : Bool)
  | nan
deriving DecidableEq, Repr

namespace Binary64

/-- The least exponent, of the subnormal numbers and of zero. -/
def minExponent : Int := -1074

/-- The greatest exponent. -/
def maxExponent : Int := 971

/-- The integer nearest to a quotient; a half goes to the even neighbour. -/
def roundDiv (num den : Nat) : Nat :=
  let q := num / den
  let r := num % den
  if 2 * r < den then q
  else if den < 2 * r then q + 1
  else if q % 2 = 0 then q else q + 1

/-- A quotient divided by `2 ^ e`, as a quotient again. -/
def scale (num den : Nat) (e : Int) : Nat × Nat :=
  if 0 ≤ e then (num, den <<< e.toNat) else (num <<< (-e).toNat, den)

/-- The exponent at which a positive quotient has a mantissa of 53 bits, or the
least exponent if that is greater. -/
def exponentOf (num den : Nat) : Int :=
  let guess : Int := (num.log2 : Int) - den.log2 - 52
  let (n, d) := scale num den guess
  max minExponent (if n < d <<< 52 then guess - 1 else guess)

/-- The number nearest to a quotient; a half goes to the even mantissa. -/
def ofQuotient (negative : Bool) (num den : Nat) : Binary64 :=
  if num = 0 then .finite negative 0 minExponent
  else
    let e := exponentOf num den
    let (n, d) := scale num den e
    let m := roundDiv n d
    let (m, e) := if m = 1 <<< 53 then (1 <<< 52, e + 1) else (m, e)
    if maxExponent < e then .infinite negative else .finite negative m e

/-- The number nearest to `± mantissa · 10 ^ exponent`. A magnitude far outside the
format is decided from the count of digits, without the power of ten. -/
def ofDecimal (negative : Bool) (mantissa : Nat) (digits : Nat) (exponent : Int) : Binary64 :=
  if mantissa = 0 ∨ digits + exponent < -400 then .finite negative 0 minExponent
  else if 400 < exponent then .infinite negative
  else if 0 ≤ exponent then ofQuotient negative (mantissa * Nat.pow 10 exponent.toNat) 1
  else ofQuotient negative mantissa (Nat.pow 10 (-exponent).toNat)

end Binary64

end DecoderId
