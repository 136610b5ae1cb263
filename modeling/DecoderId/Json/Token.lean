import DecoderId.Json.Basic
import DecoderId.Text.Digit
import DecoderId.Numeral

/-!
# JSON tokens

The lexical elements of a JSON text, each with its position. A string that is not
well formed is a token too, with what is wrong in it: whether that matters depends
on what is expected where it stands. White space is the space, the tab and the two
line end characters. The list ends at the first thing that no token starts with.
-/

namespace DecoderId.Json

/-- The two kinds of value that hold others. -/
inductive Container where
  | array
  | object
deriving DecidableEq, Repr

/-- What is wrong in a string, and where. -/
inductive StringFault where
  | unterminated (opening : Nat)
  | control (position : Nat)
  | escape (position : Nat)
  | unicodeEscape (position : Nat)
deriving DecidableEq, Repr

/-- A lexical element. -/
inductive Token where
  | opening (c : Container)
  | closing (c : Container)
  | comma
  | colon
  | text (t : Text)
  | scalar (value : Json)
  /-- An integer of more digits than a numeral may have. -/
  | longInteger (digits : Nat)
  | faulty (fault : StringFault)
  | unknown

/-- A token and the position of its first code point. -/
structure Placed where
  position : Nat
  token : Token

/-! ## Strings -/

/-- The code unit of four hexadecimal digits. A fifth character has to follow them. -/
def codeUnit? : Text → Option Nat
  | a :: b :: c :: d :: _ :: _ => (Text.hexDigits? [a, b, c, d]).map (Text.ofDigits 16)
  | _ => none

/-- What a backslash and this character stand for. -/
def simpleEscape? (c : Nat) : Option Nat :=
  if c = 0x22 ∨ c = 0x5C ∨ c = 0x2F then some c
  else if c = 0x62 then some 0x08
  else if c = 0x66 then some 0x0C
  else if c = 0x6E then some 0x0A
  else if c = 0x72 then some 0x0D
  else if c = 0x74 then some 0x09
  else none

/-- The low half of a surrogate pair, escaped at the start of a text. -/
def lowSurrogate? : Text → Option Nat
  | 0x5C :: 0x75 :: rest => (codeUnit? rest).filter fun unit => 0xDC00 ≤ unit && unit ≤ 0xDFFF
  | _ => none

/-- The code point that an escape stands for and the length of the escape, given the
text behind the backslash. A high surrogate and the escape of a low one are one code
point; alone it stands for itself. -/
def escapeOf (opening position : Nat) : Text → Except StringFault (Nat × Nat)
  | [] => .error (.unterminated opening)
  | c :: rest =>
    if c = 0x75 then
      match codeUnit? rest with
      | none => .error (.unicodeEscape (position + 1))
      | some unit =>
        if 0xD800 ≤ unit ∧ unit ≤ 0xDBFF then
          match lowSurrogate? (rest.drop 4) with
          | some low => .ok (0x10000 + (unit - 0xD800) * 0x400 + (low - 0xDC00), 11)
          | none => .ok (unit, 5)
        else .ok (unit, 5)
    else match simpleEscape? c with
      | none => .error (.escape position)
      | some code => .ok (code, 1)

/-- The content of a string up to its closing quote and the position behind it. The
first `skip` code points belong to an escape that has been read. -/
def content (opening : Nat) : (skip position : Nat) → Text → Except StringFault (Text × Nat)
  | _, _, [] => .error (.unterminated opening)
  | skip + 1, position, _ :: rest => content opening skip (position + 1) rest
  | 0, position, c :: rest =>
    if c = 0x22 then .ok ([], position + 1)
    else if c = 0x5C then
      match escapeOf opening position rest with
      | .error fault => .error fault
      | .ok (code, length) => (content opening length (position + 1) rest).map fun (t, after) => (code :: t, after)
    else if c < 0x20 then .error (.control position)
    else (content opening 0 (position + 1) rest).map fun (t, after) => (c :: t, after)

/-! ## Numbers and names -/

/-- The digits of the integer part of a number: a zero, or digits that do not start with one. -/
def integerPart : Text → Text
  | 0x30 :: _ => [0x30]
  | t => t.takeWhile Text.isAsciiDigit

/-- The digits behind the point of a number. -/
def fractionPart : Text → Option Text
  | 0x2E :: rest => let ds := rest.takeWhile Text.isAsciiDigit; if ds.isEmpty then none else some ds
  | _ => none

/-- The exponent of a number and the length of its text. -/
def exponentPart : Text → Option (Int × Nat)
  | c :: rest =>
    if c = 0x65 ∨ c = 0x45 then
      let (negative, signed, body) := match rest with
        | 0x2D :: r => (true, 1, r)
        | 0x2B :: r => (false, 1, r)
        | r => (false, 0, r)
      let ds := body.takeWhile Text.isAsciiDigit
      if ds.isEmpty then none
      else some (if negative then -(Text.digitsValue ds : Int) else Text.digitsValue ds, 1 + signed + ds.length)
    else none
  | [] => none

/-- The number at the start of a text and its length. Without a point and an exponent
it is an integer. -/
def numberAt (t : Text) : Option (Token × Nat) :=
  let (negative, body) := match t with
    | 0x2D :: rest => (true, rest)
    | _ => (false, t)
  let whole := integerPart body
  if whole.isEmpty then none
  else
    let sign := if negative then 1 else 0
    let afterWhole := body.drop whole.length
    let fraction := fractionPart afterWhole
    let fractionLength := match fraction with
      | some ds => ds.length + 1
      | none => 0
    let exponent := exponentPart (afterWhole.drop fractionLength)
    match fraction, exponent with
    | none, none =>
      let value : Int := Text.digitsValue whole
      some (if Numeral.maxDigits < whole.length then .longInteger whole.length
        else .scalar (.int (if negative then -value else value)), sign + whole.length)
    | _, _ =>
      let ds := whole ++ fraction.getD []
      let e : Int := (exponent.map (·.1)).getD 0 - (fraction.getD []).length
      some (.scalar (.real (.ofDecimal negative (Text.digitsValue ds) ds.length e)),
        sign + whole.length + fractionLength + (exponent.map (·.2)).getD 0)

/-- The names of values. -/
def names : List (Text × Json) := [
  ([0x6E, 0x75, 0x6C, 0x6C], .null),
  ([0x74, 0x72, 0x75, 0x65], .bool true),
  ([0x66, 0x61, 0x6C, 0x73, 0x65], .bool false),
  ([0x4E, 0x61, 0x4E], .real .nan),
  ([0x49, 0x6E, 0x66, 0x69, 0x6E, 0x69, 0x74, 0x79], .real (.infinite false)),
  ([0x2D, 0x49, 0x6E, 0x66, 0x69, 0x6E, 0x69, 0x74, 0x79], .real (.infinite true))]

/-- The name or number at the start of a text and its length. -/
def scalarAt (t : Text) : Option (Token × Nat) :=
  match names.find? fun (name, _) => name.isPrefixOf t with
  | some (name, value) => some (.scalar value, name.length)
  | none => numberAt t

/-! ## Tokens -/

/-- White space between tokens. -/
def isSpace (c : Nat) : Bool := c == 0x20 || c == 0x09 || c == 0x0A || c == 0x0D

/-- The token that is a single character. -/
def mark? (c : Nat) : Option Token :=
  if c = 0x5B then some (.opening .array)
  else if c = 0x5D then some (.closing .array)
  else if c = 0x7B then some (.opening .object)
  else if c = 0x7D then some (.closing .object)
  else if c = 0x2C then some .comma
  else if c = 0x3A then some .colon
  else none

/-- The tokens of the text from a position on. The first `skip` code points belong to a
token that has been read. -/
def tokensFrom : (skip position : Nat) → Text → List Placed
  | _, _, [] => []
  | skip + 1, position, _ :: rest => tokensFrom skip (position + 1) rest
  | 0, position, c :: rest =>
    if isSpace c then tokensFrom 0 (position + 1) rest
    else if c = 0x22 then
      match content position 0 (position + 1) rest with
      | .ok (t, after) => ⟨position, .text t⟩ :: tokensFrom (after - position - 1) (position + 1) rest
      | .error fault => [⟨position, .faulty fault⟩]
    else match mark? c with
      | some token => ⟨position, token⟩ :: tokensFrom 0 (position + 1) rest
      | none =>
        match scalarAt (c :: rest) with
        | some (token, length) => ⟨position, token⟩ :: tokensFrom (length - 1) (position + 1) rest
        | none => [⟨position, .unknown⟩]

/-- The tokens of a text. -/
def tokens (t : Text) : List Placed := tokensFrom 0 0 t

end DecoderId.Json
