import DecoderId.Numeral
import DecoderId.Real.Binary64

/-!
# Decimal fractions as text

The double that a text denotes: a sign, digits with a point among, before or behind
them, and an exponent. Infinity and the number that is none have names.
-/

namespace DecoderId.Binary64

/-- An ASCII letter in small. -/
def smallLetter (c : Nat) : Nat := if 0x41 ≤ c ∧ c ≤ 0x5A then c + 0x20 else c

/-- The ASCII digits at the start of a text, and what follows them. -/
def leadingDigits (t : Text) : Text × Text := (t.takeWhile Text.isAsciiDigit, t.dropWhile Text.isAsciiDigit)

/-- The exponent that a text consists of; no text is none. -/
def exponent? : Text → Option Int
  | [] => some 0
  | c :: rest =>
    if smallLetter c = 0x65 then
      let (negative, body) := Numeral.cutSign rest
      match leadingDigits body with
      | ([], _) => none
      | (ds, []) => some (if negative then -(Text.digitsValue ds : Int) else Text.digitsValue ds)
      | _ => none
    else none

/-- The number that a text denotes. White space may stand around it, or single underscores
inside, but not both. -/
def ofText? (t : Text) : Option Binary64 :=
  let (negative, body) := Numeral.cutSign (if t.contains 0x5F then Numeral.ungrouped t else Numeral.unpadded t)
  let name := Text.toString (body.map smallLetter)
  if name = "inf" ∨ name = "infinity" then some (.infinite negative)
  else if name = "nan" then some .nan
  else
    let (whole, afterWhole) := leadingDigits body
    let (fraction, tail) := match afterWhole with
      | 0x2E :: rest => leadingDigits rest
      | rest => ([], rest)
    let ds := whole ++ fraction
    if ds.isEmpty then none
    else (exponent? tail).map fun e =>
      .ofDecimal negative (Text.digitsValue ds) ds.length (e - fraction.length)

end DecoderId.Binary64
