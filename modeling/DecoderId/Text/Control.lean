import DecoderId.Text.Digit

/-!
# Control sequences

What a terminal obeys and does not show: ESC, an opening bracket, any number of digits,
semicolons and question marks, and an ASCII letter. A text from outside is stripped of
them before it stands in a message of the command. What remains is not looked at again,
so a sequence may come to stand there that had another one inside.
-/

namespace DecoderId.Text

/-- Is this an ASCII letter? -/
def isAsciiLetter (c : Nat) : Bool := (0x41 ≤ c && c ≤ 0x5A) || (0x61 ≤ c && c ≤ 0x7A)

/-- Does this stand in the parameters of a control sequence? -/
def isParameter (c : Nat) : Bool := isAsciiDigit c || c == 0x3B || c == 0x3F

/-- The length of what follows the ESC of a control sequence, if the text starts with it. -/
def controlLength? : Text → Option Nat
  | 0x5B :: rest =>
    match rest.dropWhile isParameter with
    | c :: _ => if isAsciiLetter c then some ((rest.takeWhile isParameter).length + 2) else none
    | [] => none
  | _ => none

/-- The text without its control sequences. The first `skip` code points belong to one
that has been read. -/
def withoutControlsFrom : (skip : Nat) → Text → Text
  | _, [] => []
  | skip + 1, _ :: rest => withoutControlsFrom skip rest
  | 0, c :: rest =>
    match if c = 0x1B then controlLength? rest else none with
    | some length => withoutControlsFrom length rest
    | none => c :: withoutControlsFrom 0 rest

/-- The text without its control sequences. -/
def withoutControls (t : Text) : Text := withoutControlsFrom 0 t

/-- A text without an ESC stays as it is. -/
theorem withoutControls_of_not_mem {t : Text} (h : 0x1B ∉ t) : withoutControls t = t := by
  unfold withoutControls
  induction t with
  | nil => rfl
  | cons c rest ih =>
    simp only [List.mem_cons, not_or] at h
    simp [withoutControlsFrom, Ne.symm h.1, ih h.2]

end DecoderId.Text

namespace DecoderId

/-- The string without its control sequences. -/
def withoutControls (s : String) : String := (Text.ofString s).withoutControls.toString

end DecoderId
