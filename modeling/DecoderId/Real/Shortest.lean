import DecoderId.Numeral
import DecoderId.Real.Binary64

/-!
# The shortest decimal that reads back

Every finite double has an interval of reals that round to it. `shortest` takes the
coarsest grid of powers of ten that has a point in the interval, and of its points
there the nearest to the number. A layout then says how these digits are written.
-/

namespace DecoderId.Binary64

/-- The reals that round to a positive number, in quarters of its last place: the
number is `4 · mantissa`, the bounds belong to the interval iff the mantissa is even. -/
structure Interval where
  low : Nat
  number : Nat
  high : Nat
  closed : Bool

/-- The interval of `mantissa · 2 ^ exponent`. Below a power of two the next number is
half as far away. -/
def intervalOf (mantissa : Nat) (exponent : Int) : Interval :=
  { low := 4 * mantissa - (if mantissa = 1 <<< 52 ∧ minExponent < exponent then 1 else 2)
    number := 4 * mantissa
    high := 4 * mantissa + 2
    closed := mantissa % 2 = 0 }

/-- The point of the grid `unit · 10 ^ k` in the interval that is nearest to the number,
as a multiple of the step. `step` and `unit` are the step of the grid and a quarter of
the last place over one denominator. -/
def gridPoint? (i : Interval) (step unit : Nat) : Option Nat :=
  let below := i.number * unit / step
  let holds (d : Nat) :=
    if i.closed then i.low * unit ≤ d * step ∧ d * step ≤ i.high * unit
    else i.low * unit < d * step ∧ d * step < i.high * unit
  let distanceBelow := i.number * unit - below * step
  let distanceAbove := (below + 1) * step - i.number * unit
  if holds below then
    if holds (below + 1) ∧
        (distanceAbove < distanceBelow ∨ distanceAbove = distanceBelow ∧ below % 2 = 1) then some (below + 1)
    else some below
  else if holds (below + 1) then some (below + 1)
  else none

/-- The coarsest grid with a point in the interval, from `10 ^ k` down: the point and
the exponent of the grid. -/
def coarsest (i : Interval) (exponent : Int) : Nat → Int → Nat × Int
  | 0, k => (0, k)
  | fuel + 1, k =>
    let step := Nat.pow 10 k.toNat <<< (2 - exponent).toNat
    let unit := Nat.pow 10 (-k).toNat <<< (exponent - 2).toNat
    match gridPoint? i step unit with
    | some d => (d, k)
    | none => coarsest i exponent fuel (k - 1)

/-- The shortest decimal `d · 10 ^ k` that reads back as the positive number. It has at
most 17 digits, so 40 grids from the first power of ten above the number are enough. -/
def shortest (mantissa : Nat) (exponent : Int) : Nat × Int :=
  let top : Int := ((mantissa.log2 + exponent + 1) * 30103).fdiv 100000 + 2
  coarsest (intervalOf mantissa exponent) exponent 40 top

/-! ## Layout -/

/-- How the digits of a real number are written. -/
structure Layout where
  /-- The least exponent that is written positionally. -/
  leastPositional : Int
  /-- The least exponent above those written positionally. -/
  leastScientific : Int
  /-- The least number of digits of an exponent. -/
  exponentWidth : Nat
  /-- The text of an infinite number, behind its sign. -/
  infinity : String
  /-- The text of a number that is none. -/
  notANumber : String

/-- Exponents from -4 to 15 are written positionally, with at least one digit on each
side of the point; others behind an `e`, with a sign and at least two digits. -/
def Layout.display : Layout := ⟨-4, 16, 2, "inf", "nan"⟩

/-- The decimal digits of a number without the zeros at its end. -/
def significantDigits (n : Nat) : List Char :=
  (((Numeral.digits 10 n).reverse.dropWhile (· = 0)).reverse).map fun d => Char.ofNat (0x30 + d)

/-- Digits `d₁d₂…` that stand for `d₁.d₂… · 10 ^ exponent`, written out. -/
def Layout.write (l : Layout) (ds : List Char) (exponent : Int) : List Char :=
  if l.leastPositional ≤ exponent ∧ exponent < l.leastScientific then
    if exponent < 0 then
      ['0', '.'] ++ List.replicate (-exponent - 1).toNat '0' ++ ds
    else
      let whole := exponent.toNat + 1
      let fraction := ds.drop whole
      ds.take whole ++ List.replicate (whole - ds.length) '0' ++ ['.'] ++
        (if fraction.isEmpty then ['0'] else fraction)
  else
    let point := if ds.length = 1 then ds else ds.take 1 ++ ['.'] ++ ds.drop 1
    let size := (Numeral.digits 10 exponent.natAbs).map fun d => Char.ofNat (0x30 + d)
    point ++ ['e', if exponent < 0 then '-' else '+'] ++ List.replicate (l.exponentWidth - size.length) '0' ++ size

/-- The text of a number. -/
def render (l : Layout) : Binary64 → String
  | .nan => l.notANumber
  | .infinite negative => (if negative then "-" else "") ++ l.infinity
  | .finite negative mantissa exponent =>
    let sign := if negative then ['-'] else []
    if mantissa = 0 then String.ofList (sign ++ l.write ['0'] 0)
    else
      let (d, k) := shortest mantissa exponent
      let size := (Numeral.digits 10 d).length
      String.ofList (sign ++ l.write (significantDigits d) (k + size - 1))

end DecoderId.Binary64
