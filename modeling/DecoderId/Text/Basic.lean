/-!
# Text

A text as the list of its code points. A lone surrogate may stand in it: a JSON
string can escape one, and two texts that differ only there must stay apart.
Everything that is read (CV numbers, assignments, images, options) is a `Text`;
everything that is written is a `String`.
-/

namespace DecoderId

/-- A text as the list of its code points. -/
abbrev Text := List Nat

namespace Text

/-- The code points of a string. -/
def ofString (s : String) : Text := s.toList.map Char.toNat

/-- The string of these code points. A code point that no character has, a lone
surrogate among them, becomes NUL. -/
def toString (t : Text) : String := String.ofList (t.map Char.ofNat)

/-- The pieces between the separators, in order: one more than there are
separators. -/
def splitOn (separator : Nat) : Text → List Text
  | [] => [[]]
  | c :: rest =>
    match splitOn separator rest with
    | [] => [[c]]
    | piece :: more => if c = separator then [] :: piece :: more else (c :: piece) :: more

/-- The text before the first separator and, if there is one, the text behind it. -/
def cut (separator : Nat) : Text → Text × Option Text
  | [] => ([], none)
  | c :: rest =>
    if c = separator then ([], some rest)
    else let (before, behind) := cut separator rest; (c :: before, behind)

theorem splitOn_ne_nil (separator : Nat) (t : Text) : splitOn separator t ≠ [] := by
  induction t with
  | nil => simp [splitOn]
  | cons c rest ih =>
    cases h : splitOn separator rest with
    | nil => exact absurd h ih
    | cons piece more => by_cases hc : c = separator <;> simp [splitOn, h, hc]

/-- A text without the separator is one piece. -/
theorem splitOn_of_not_mem {separator : Nat} {t : Text} (h : separator ∉ t) : splitOn separator t = [t] := by
  induction t with
  | nil => rfl
  | cons c rest ih =>
    simp only [List.mem_cons, not_or] at h
    simp [splitOn, ih h.2, Ne.symm h.1]

end Text

end DecoderId
