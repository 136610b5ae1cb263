import DecoderId.Text.Printable

/-!
# Quoted text

A text between quotes, with what cannot be shown escaped. Single quotes stand
around it, unless it holds a single quote and no double quote.
-/

namespace DecoderId.Text

/-- The lower case hexadecimal digit of a value below sixteen. -/
def hexDigit (n : Nat) : Char := Char.ofNat (if n < 10 then 0x30 + n else 0x57 + n)

/-- The last `width` hexadecimal digits of a number. -/
def hexPadded : (width : Nat) → Nat → List Char
  | 0, _ => []
  | width + 1, n => hexPadded width (n / 16) ++ [hexDigit (n % 16)]

/-- The quote that stands around a text. -/
def quoteOf (t : Text) : Char :=
  if t.contains '\''.toNat && !t.contains '"'.toNat then '"' else '\''

/-- A code point as it stands between two such quotes. -/
def escaped (quote : Char) (c : Nat) : List Char :=
  if c = quote.toNat ∨ c = '\\'.toNat then ['\\', Char.ofNat c]
  else if c = 0x0A then ['\\', 'n']
  else if c = 0x0D then ['\\', 'r']
  else if c = 0x09 then ['\\', 't']
  else if isPrintable c then [Char.ofNat c]
  else if c < 0x100 then ['\\', 'x'] ++ hexPadded 2 c
  else if c < 0x10000 then ['\\', 'u'] ++ hexPadded 4 c
  else ['\\', 'U'] ++ hexPadded 8 c

/-- The text between quotes. -/
def quoted (t : Text) : String :=
  let quote := quoteOf t
  String.ofList (quote :: t.flatMap (escaped quote) ++ [quote])

end DecoderId.Text

namespace DecoderId

/-- The string between quotes. -/
def quoted (s : String) : String := (Text.ofString s).quoted

end DecoderId
