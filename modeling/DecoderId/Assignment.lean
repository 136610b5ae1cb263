import DecoderId.Fault
import DecoderId.Text.Blank

/-!
# Assignments

A CV is named by its number, with or without `CV` in front, and an assignment gives it
a byte: `CV=VALUE`, the value in decimal, or in hexadecimal behind `0x`. Decimal digits
may be those of any script, and white space may stand around a number and behind `CV`.
-/

namespace DecoderId

/-- A CV and the byte that it is to hold. -/
structure Assignment where
  cv : CvNumber
  value : Byte
deriving DecidableEq

/-! ## CV numbers -/

/-- The text behind `CV`, in either case, and the white space that follows it; without
`CV` in front, the whole text. -/
def CvNumber.cutLabel : Text → Text
  | c :: v :: rest =>
    if (c = 0x43 ∨ c = 0x63) ∧ (v = 0x56 ∨ v = 0x76) then Text.stripLeft rest else c :: v :: rest
  | t => t

/-- The value of one to four decimal digits. -/
def CvNumber.shortNumeral? (t : Text) : Option Nat :=
  if 1 ≤ t.length ∧ t.length ≤ 4 then (Text.decimalDigits? t).map (Text.ofDigits 10) else none

/-- The CV that a text names. -/
def CvNumber.parse (raw : Text) : Except AssignmentFault CvNumber :=
  let t := raw.strip
  if t.isEmpty then .error ⟨raw, .emptyCv⟩
  else match CvNumber.shortNumeral? (CvNumber.cutLabel t) with
    | none => .error ⟨raw, .malformedCv raw⟩
    | some n =>
      match CvNumber.ofInt? n with
      | some cv => .ok cv
      | none => .error ⟨raw, .cvOutOfRange n⟩

/-! ## Values -/

/-- A value as it is written: the digits of a decimal or a hexadecimal numeral. -/
inductive ValueNumeral where
  | decimal (digits : List Nat)
  | hexadecimal (digits : List Nat)
deriving DecidableEq

/-- The numeral that a text consists of, behind white space. -/
def ValueNumeral.parse? (t : Text) : Option ValueNumeral :=
  match Text.stripLeft t with
  | [] => none
  | first :: rest =>
    if first = 0x30 ∧ (rest.head? = some 0x78 ∨ rest.head? = some 0x58) then
      if rest.tail.isEmpty then none else (Text.hexDigits? rest.tail).map .hexadecimal
    else (Text.decimalDigits? (first :: rest)).map .decimal

/-- The value of a numeral, unless it is in decimal and too long. -/
def ValueNumeral.value : ValueNumeral → Except Fault Nat
  | .decimal ds => if Numeral.maxDigits < ds.length then .error (.longNumeral ds.length) else .ok (Text.ofDigits 10 ds)
  | .hexadecimal ds => .ok (Text.ofDigits 16 ds)

/-! ## Assignments -/

/-- The two sides of an assignment: a text that is not empty, and a numeral. -/
def Assignment.sides? (t : Text) : Option (Text × ValueNumeral) :=
  match Text.cut 0x3D t with
  | ([], _) | (_, none) => none
  | (left, some right) => (ValueNumeral.parse? right).map (left, ·)

/-- The byte that a CV is assigned. A value too long to be shown is not reported as out
of range. -/
def Assignment.checkValue (raw : Text) (cv : CvNumber) (value : Nat) : Except Fault Assignment :=
  match Byte.ofInt? value with
  | some b => .ok ⟨cv, b⟩
  | none =>
    if Numeral.isWritable value then .error (.assignment ⟨raw, .valueOutOfRange cv.number value⟩)
    else .error .longInteger

/-- The assignment that a text denotes. A fault of its CV is reported with the whole text. -/
def Assignment.parse (raw : Text) : Except Fault Assignment :=
  match Assignment.sides? raw.strip with
  | none => .error (.assignment ⟨raw, .noAssignment raw⟩)
  | some (left, numeral) =>
    match CvNumber.parse left with
    | .error f => .error (.assignment ⟨raw, f.cause⟩)
    | .ok cv =>
      match numeral.value with
      | .error f => .error f
      | .ok value => Assignment.checkValue raw cv value

end DecoderId
