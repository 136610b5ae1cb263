import DecoderId.Text.Basic

/-!
# White space

The white space that may stand around and inside a CV assignment: Unicode's, with
the four information separators U+001C to U+001F. A text is its white space at
the start, a core, and its white space at the end; stripping leaves the core.
-/

namespace DecoderId.Text

/-- The white space characters. -/
def isBlank (c : Nat) : Bool :=
  (9 ≤ c && c ≤ 13) || (28 ≤ c && c ≤ 32) || c == 0x85 || c == 0xA0 || c == 0x1680 ||
    (0x2000 ≤ c && c ≤ 0x200A) || c == 0x2028 || c == 0x2029 || c == 0x202F || c == 0x205F || c == 0x3000

/-- The text without the white space it starts with. -/
def stripLeft (t : Text) : Text := t.dropWhile isBlank

/-- The text without the white space it ends with. -/
def stripRight (t : Text) : Text := (t.reverse.dropWhile isBlank).reverse

/-- The text without white space at either end. -/
def strip (t : Text) : Text := stripRight (stripLeft t)

end DecoderId.Text
