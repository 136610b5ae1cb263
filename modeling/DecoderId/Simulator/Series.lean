import DecoderId.Fault

/-!
# Series of values

What a simulated CV serves: a value on each read, in order, the last one again and
again. A series has a value at any time.
-/

namespace DecoderId

/-- The values that successive reads serve, the last of them for good. -/
structure Series where
  first : Int
  rest : List Int := []
deriving DecidableEq

namespace Series

/-- The values that are left, in order. -/
def toList (s : Series) : List Int := s.first :: s.rest

/-- The series after a read, which serves `first`. -/
def next (s : Series) : Series :=
  match s.rest with
  | [] => s
  | v :: rest => ⟨v, rest⟩

/-- A value of a CV: an integer that is a byte. -/
def checkValue (source : String) (cv : Int) (v : Json) : Except Fault Int :=
  match v with
  | .int n =>
    if 0 ≤ n ∧ n ≤ 255 then .ok n else .error (.image ⟨source, .valueOutOfRange cv n⟩)
  | v => .error (.image ⟨source, .notAnInteger cv v⟩)

/-- The series that a value describes: a byte, or a list of bytes with at least one. -/
def ofJson (source : String) (cv : Int) (raw : Json) : Except Fault Series :=
  let items := match raw with
    | .array items => items
    | v => [v]
  match items with
  | [] => .error (.image ⟨source, .noValues cv⟩)
  | v :: rest => do
    let first ← checkValue source cv v
    let rest ← rest.mapM (checkValue source cv)
    return ⟨first, rest⟩

end Series

end DecoderId
