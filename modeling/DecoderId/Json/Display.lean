import DecoderId.Json.Basic
import DecoderId.Real.Shortest
import DecoderId.Text.Quoted

/-!
# JSON values in messages

How a message shows a value that it complains about: texts between quotes, `None`,
`True` and `False` for the names, and the items and members of a container between
brackets, in their order.
-/

namespace DecoderId.Json

mutual

/-- The value as a message shows it. -/
def display : Json → String
  | .null => "None"
  | .bool true => "True"
  | .bool false => "False"
  | .int n => Numeral.decimal n
  | .real x => x.render .display
  | .text t => t.quoted
  | .array items => "[" ++ ", ".intercalate (displayItems items) ++ "]"
  | .object members => "\x7b" ++ ", ".intercalate (displayMembers members) ++ "\x7d"

def displayItems : List Json → List String
  | [] => []
  | v :: rest => display v :: displayItems rest

def displayMembers : List (Text × Json) → List String
  | [] => []
  | (name, v) :: rest => (name.quoted ++ ": " ++ display v) :: displayMembers rest

end

end DecoderId.Json
