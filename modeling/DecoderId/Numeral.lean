import DecoderId.Text.Blank
import DecoderId.Text.Digit

/-!
# Numerals

Integers as text. Writing and reading are inverse (`Numeral.ofDigits_digits`), but
both stop at a length: a decimal numeral of more than `maxDigits` digits is neither
read nor written where the limit is enforced, while a hexadecimal one has no limit.
-/

namespace DecoderId.Numeral

/-! ## Writing -/

/-- The digits of a number in a base of at least two, the most significant first. -/
def digits (base n : Nat) : List Nat :=
  if n < base ∨ base < 2 then [n] else digits base (n / base) ++ [n % base]
termination_by n
decreasing_by exact Nat.div_lt_self (by omega) (by omega)

/-- The digits of a number denote it. -/
theorem ofDigits_digits (base n : Nat) : Text.ofDigits base (digits base n) = n := by
  induction n using Nat.strongRecOn with
  | _ n ih =>
    rw [digits]
    split
    · simp [Text.ofDigits]
    · rw [Text.ofDigits_append_singleton, ih _ (Nat.div_lt_self (by omega) (by omega))]
      exact Nat.div_add_mod n base

/-- The decimal text of an integer. -/
def ofInt (n : Int) : Text :=
  (if n < 0 then [0x2D] else []) ++ (digits 10 n.natAbs).map (0x30 + ·)

/-- The decimal text of an integer, as a string. -/
def decimal (n : Int) : String := (ofInt n).toString

/-- The most digits that a decimal numeral may have. -/
def maxDigits : Nat := 4300

/-- Can the integer be written in decimal? The power is too large to be computed when a term is checked. -/
@[irreducible] def isWritable (n : Int) : Bool := n.natAbs < Nat.pow 10 maxDigits

/-- The upper case hexadecimal text of an integer, filled with zeros behind the sign
to at least `width` characters. -/
def hexFilled (width : Nat) (n : Int) : String :=
  let sign := if n < 0 then ['-'] else []
  let body := (digits 16 n.natAbs).map fun d => Char.ofNat (if d < 10 then 0x30 + d else 0x37 + d)
  String.ofList (sign ++ List.replicate (width - sign.length - body.length) '0' ++ body)

/-! ## Reading -/

/-- A text without its underscores, unless one stands at an end of it or next to another. -/
def ungrouped (t : Text) : Text :=
  let groups := t.splitOn 0x5F
  if groups.all (!·.isEmpty) then groups.flatten else t

/-- The sign of a numeral and what follows it. -/
def cutSign : Text → Bool × Text
  | 0x2D :: rest => (true, rest)
  | 0x2B :: rest => (false, rest)
  | t => (false, t)

/-- The white space that may stand around a numeral: without the information separators. -/
def isPadding (c : Nat) : Bool := Text.isBlank c && !(28 ≤ c && c ≤ 31)

/-- A text without the white space around it. -/
def unpadded (t : Text) : Text := ((t.dropWhile isPadding).reverse.dropWhile isPadding).reverse

/-- Is this nothing, or the zeros behind the point of an integer? -/
def isZeroFraction : Option Text → Bool
  | none => true
  | some zeros => !zeros.isEmpty && zeros.all (· = 0x30)

/-- What a numeral is without the zeros and underscores in front, `last` being the last of
those so far. It stays in front of a point and at the end. A minus sign may follow. -/
def behindZeros? (last : Nat) : Text → Option Text
  | [] => some [last]
  | c :: rest =>
    if c = 0x30 ∨ c = 0x5F then behindZeros? c rest
    else if c = 0x2E then some (last :: c :: rest)
    else if Text.isAsciiDigit c || c == 0x2D then some (c :: rest)
    else none

/-- A numeral, which starts with a digit, without the zeros in front and the underscores
among them. -/
def withoutZeros? : Text → Option Text
  | [] => none
  | c :: rest =>
    if c = 0x30 then behindZeros? c rest
    else if Text.isAsciiDigit c then some (c :: rest)
    else none

/-- The integer that a minus sign and ASCII digits without zeros in front denote. -/
def ofPlain? (t : Text) : Option Int :=
  let (negative, ds) := match t with
    | 0x2D :: rest => (true, rest)
    | _ => (false, t)
  if ds.isEmpty || !ds.all Text.isAsciiDigit || (ds.head? == some 0x30 && ds.length != 1) then none
  else if maxDigits < ds.length then none
  else some (if negative then -(Text.digitsValue ds : Int) else Text.digitsValue ds)

/-- The integer that a text denotes: white space around it, a sign, zeros in front, and
ASCII digits, between which underscores may stand and behind which a point and zeros may. -/
def toInt? (t : Text) : Option Int :=
  let (negative, body) := cutSign (unpadded t)
  (withoutZeros? body).bind fun (numeral : Text) =>
    let (whole, fraction) := numeral.cut 0x2E
    if isZeroFraction fraction then ofPlain? ((if negative then [0x2D] else []) ++ ungrouped whole) else none

end DecoderId.Numeral
