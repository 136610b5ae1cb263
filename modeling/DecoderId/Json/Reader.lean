import DecoderId.Assoc
import DecoderId.Json.Token

/-!
# Reading JSON

A text is read token by token, with the containers that are open on a stack. At each
token one thing is expected, and the first token that is something else is reported
at its position, in lines and columns that start at one. How many containers may be open
at once is up to the caller, who leaves room for them.
-/

namespace DecoderId.Json

/-- What is wrong at a position of a text. -/
inductive SyntaxFault where
  | value
  | name
  | colon
  | comma
  | extra
  | byteOrderMark
  | unterminated
  | control
  | escape
  | unicodeEscape
deriving DecidableEq, Repr

def SyntaxFault.message : SyntaxFault → String
  | .value => "Expecting value"
  | .name => "Expecting property name enclosed in double quotes"
  | .colon => "Expecting ':' delimiter"
  | .comma => "Expecting ',' delimiter"
  | .extra => "Extra data"
  | .byteOrderMark => "Unexpected UTF-8 BOM (decode using utf-8-sig)"
  | .unterminated => "Unterminated string starting at"
  | .control => "Invalid control character at"
  | .escape => "Invalid \\escape"
  | .unicodeEscape => "Invalid \\uXXXX escape"

/-- Why a text cannot be read. -/
inductive ReadError where
  | malformed (fault : SyntaxFault) (position : Nat)
  /-- An integer has more digits than a numeral may have. -/
  | longInteger (digits : Nat)
  /-- A container stands inside too many others. -/
  | tooDeep (container : Container)
deriving DecidableEq, Repr

/-- The error of a string that is not well formed. -/
def ReadError.ofString : StringFault → ReadError
  | .unterminated p => .malformed .unterminated p
  | .control p => .malformed .control p
  | .escape p => .malformed .escape p
  | .unicodeEscape p => .malformed .unicodeEscape p

/-- A container that is open and waits for a value. The items so far are in reverse. -/
inductive Frame where
  | item (before : List Json)
  | member (before : List (Text × Json)) (name : Text)

/-- What is expected next, with the containers that are open. Items are in reverse. -/
inductive Expected where
  | value (stack : List Frame)
  /-- An item or the end of an array that has just been opened. -/
  | firstItem (stack : List Frame)
  | afterItem (items : List Json) (stack : List Frame)
  /-- A name or the end of an object that has just been opened. -/
  | firstName (stack : List Frame)
  | name (members : List (Text × Json)) (stack : List Frame)
  | colon (members : List (Text × Json)) (name : Text) (stack : List Frame)
  | afterMember (members : List (Text × Json)) (stack : List Frame)
  | nothing (result : Json)

/-- A value goes to the container that waits for it. -/
def Expected.ofValue (v : Json) : List Frame → Expected
  | [] => .nothing v
  | .item before :: stack => .afterItem (v :: before) stack
  | .member before key :: stack => .afterMember (Assoc.set before key v) stack

/-- A token where a value has to stand. -/
def takeValue (room : Nat) (stack : List Frame) (p : Placed) : Except ReadError Expected :=
  match p.token with
  | .scalar v => .ok (.ofValue v stack)
  | .text t => .ok (.ofValue (.text t) stack)
  | .opening c =>
    if stack.length < room then
      .ok (match c with
        | .array => .firstItem stack
        | .object => .firstName stack)
    else .error (.tooDeep c)
  | .longInteger digits => .error (.longInteger digits)
  | .faulty fault => .error (.ofString fault)
  | _ => .error (.malformed .value p.position)

/-- A token where a name has to stand. -/
def takeName (members : List (Text × Json)) (stack : List Frame) (p : Placed) : Except ReadError Expected :=
  match p.token with
  | .text t => .ok (.colon members t stack)
  | .faulty fault => .error (.ofString fault)
  | _ => .error (.malformed .name p.position)

/-- One token. -/
def Expected.step (room : Nat) : Expected → Placed → Except ReadError Expected
  | .value stack, p => takeValue room stack p
  | .firstItem stack, p =>
    match p.token with
    | .closing .array => .ok (.ofValue (.array []) stack)
    | _ => takeValue room (.item [] :: stack) p
  | .afterItem items stack, p =>
    match p.token with
    | .comma => .ok (.value (.item items :: stack))
    | .closing .array => .ok (.ofValue (.array items.reverse) stack)
    | _ => .error (.malformed .comma p.position)
  | .firstName stack, p =>
    match p.token with
    | .closing .object => .ok (.ofValue (.object []) stack)
    | _ => takeName [] stack p
  | .name members stack, p => takeName members stack p
  | .colon members key stack, p =>
    match p.token with
    | .colon => .ok (.value (.member members key :: stack))
    | _ => .error (.malformed .colon p.position)
  | .afterMember members stack, p =>
    match p.token with
    | .comma => .ok (.name members stack)
    | .closing .object => .ok (.ofValue (.object members) stack)
    | _ => .error (.malformed .comma p.position)
  | .nothing _, p => .error (.malformed .extra p.position)

/-- The value read, at the end of the text. -/
def Expected.finish (length : Nat) : Expected → Except ReadError Json
  | .nothing v => .ok v
  | .value _ | .firstItem _ => .error (.malformed .value length)
  | .firstName _ | .name _ _ => .error (.malformed .name length)
  | .colon _ _ _ => .error (.malformed .colon length)
  | .afterItem _ _ | .afterMember _ _ => .error (.malformed .comma length)

/-- The value that a text denotes, if no more containers are open at once than there is
room for. A byte order mark in front is refused. -/
def parse (room : Nat) (t : Text) : Except ReadError Json :=
  if t.head? = some 0xFEFF then .error (.malformed .byteOrderMark 0)
  else (tokens t).foldlM (Expected.step room) (.value []) >>= Expected.finish t.length

/-- The line and the column of a position, both from one. -/
def lineColumn (t : Text) (position : Nat) : Nat × Nat :=
  let before := t.take position
  (before.count 0x0A + 1, (before.reverse.takeWhile (· ≠ 0x0A)).length + 1)

/-- What is wrong in a text, with the place in lines and columns. -/
structure Located where
  fault : SyntaxFault
  line : Nat
  column : Nat
  position : Nat
deriving DecidableEq, Repr

/-- A fault at a position of a text. -/
def SyntaxFault.locate (fault : SyntaxFault) (t : Text) (position : Nat) : Located :=
  let (line, column) := lineColumn t position
  { fault, line, column, position }

def Located.message (l : Located) : String :=
  l.fault.message ++ ": line " ++ Numeral.decimal l.line ++ " column " ++ Numeral.decimal l.column ++
    " (char " ++ Numeral.decimal l.position ++ ")"

end DecoderId.Json
