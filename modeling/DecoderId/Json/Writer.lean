import DecoderId.Json.Basic
import DecoderId.Real.Shortest
import DecoderId.Text.Quoted

/-!
# Writing JSON

A value as ASCII text: on one line, or with every item and member on a line of its
own, indented by the depth at which it stands. Characters that ASCII cannot show are
escaped in units of sixteen bits.
-/

namespace DecoderId.Json

/-- A sixteen bit unit as an escape. -/
def escapeUnit (unit : Nat) : List Char := ['\\', 'u'] ++ Text.hexPadded 4 unit

/-- A code point as it stands in a string. -/
def writeChar (c : Nat) : List Char :=
  if c = 0x22 then ['\\', '"']
  else if c = 0x5C then ['\\', '\\']
  else if c = 0x0A then ['\\', 'n']
  else if c = 0x0D then ['\\', 'r']
  else if c = 0x09 then ['\\', 't']
  else if c = 0x08 then ['\\', 'b']
  else if c = 0x0C then ['\\', 'f']
  else if 0x20 ≤ c ∧ c < 0x7F then [Char.ofNat c]
  else if c < 0x10000 then escapeUnit c
  else escapeUnit (0xD800 + (c - 0x10000) / 0x400) ++ escapeUnit (0xDC00 + (c - 0x10000) % 0x400)

/-- A text as a JSON string. -/
def writeText (t : Text) : String := String.ofList (['"'] ++ t.flatMap writeChar ++ ['"'])

/-- How many spaces a level of nesting is indented by; without one, a value stands on
one line. -/
abbrev Indent := Option Nat

/-- Numbers are written as in messages, with the names that JSON readers take for the rest. -/
def realLayout : Binary64.Layout := { Binary64.Layout.display with infinity := "Infinity", notANumber := "NaN" }

/-- The break in front of an item at a depth. -/
def Indent.lineBreak (indent : Indent) (depth : Nat) : String :=
  match indent with
  | none => ""
  | some width => String.ofList ('\n' :: List.replicate (width * depth) ' ')

/-- The text between two items at a depth. -/
def Indent.separator (indent : Indent) (depth : Nat) : String :=
  match indent with
  | none => ", "
  | some _ => "," ++ indent.lineBreak depth

/-- Items that stand at a depth, between brackets. -/
def Indent.enclose (indent : Indent) (opening closing : String) (depth : Nat) (items : List String) : String :=
  if items.isEmpty then opening ++ closing
  else opening ++ indent.lineBreak (depth + 1) ++ (indent.separator (depth + 1)).intercalate items ++
    indent.lineBreak depth ++ closing

mutual

/-- The value, at a depth. -/
def write (indent : Indent) (depth : Nat) : Json → String
  | .null => "null"
  | .bool true => "true"
  | .bool false => "false"
  | .int n => Numeral.decimal n
  | .real x => x.render realLayout
  | .text t => writeText t
  | .array items => indent.enclose "[" "]" depth (writeItems indent (depth + 1) items)
  | .object members => indent.enclose "\x7b" "\x7d" depth (writeMembers indent (depth + 1) members)

def writeItems (indent : Indent) (depth : Nat) : List Json → List String
  | [] => []
  | v :: rest => write indent depth v :: writeItems indent depth rest

def writeMembers (indent : Indent) (depth : Nat) : List (Text × Json) → List String
  | [] => []
  | (name, v) :: rest => (writeText name ++ ": " ++ write indent depth v) :: writeMembers indent depth rest

end

/-- The value as text. -/
def render (indent : Indent) (v : Json) : String := write indent 0 v

end DecoderId.Json
