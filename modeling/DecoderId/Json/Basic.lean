import DecoderId.Text.Basic
import DecoderId.Real.Binary64

/-!
# JSON values

The values that a decoder image may hold, well formed or not. An object keeps its
members in the order in which their names first came.
-/

namespace DecoderId

/-- A JSON value. Integers and other numbers are different values. -/
inductive Json where
  | null
  | bool (b : Bool)
  | int (n : Int)
  | real (x : Binary64)
  | text (t : Text)
  | array (items : List Json)
  | object (members : List (Text × Json))
deriving Inhabited

end DecoderId
