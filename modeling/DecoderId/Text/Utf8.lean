import DecoderId.Text.Quoted
import DecoderId.Numeral

/-!
# UTF-8

The text that a sequence of octets encodes, one octet at a time. The first octet of
a character fixes how many follow it and which the second may be; an octet that
cannot follow is reported together with those of its character before it.
-/

namespace DecoderId.Utf8

/-- Why octets encode no text. -/
inductive Reason where
  /-- No character starts with the octet. -/
  | invalidStart
  /-- The octet after those reported does not continue their character. -/
  | invalidContinuation
  /-- The octets end inside a character. -/
  | unexpectedEnd
deriving DecidableEq, Repr

/-- The octets at fault: their position, how many there are, the first of them, and why. -/
structure Error where
  position : Nat
  count : Nat
  octet : Nat
  reason : Reason
deriving DecidableEq, Repr

def Reason.message : Reason → String
  | .invalidStart => "invalid start byte"
  | .invalidContinuation => "invalid continuation byte"
  | .unexpectedEnd => "unexpected end of data"

def Error.message (e : Error) : String :=
  let octets :=
    if e.count = 1 then
      "byte 0x" ++ String.ofList (Text.hexPadded 2 e.octet) ++ " in position " ++ Numeral.decimal e.position
    else
      "bytes in position " ++ Numeral.decimal e.position ++ "-" ++ Numeral.decimal (e.position + e.count - 1 : Nat)
  "'utf-8' codec can't decode " ++ octets ++ ": " ++ e.reason.message

/-- A character that has begun: where and with which octet, its bits so far, how many
octets it still owes, and the bounds of the next one. -/
structure Pending where
  start : Nat
  first : Nat
  bits : Nat
  owed : Nat
  low : Nat := 0x80
  high : Nat := 0xBF
deriving DecidableEq, Repr

/-- The character that an octet of 0x80 or above begins, if any does. -/
def Pending.begin? (start octet : Nat) : Option Pending :=
  if 0xC2 ≤ octet ∧ octet ≤ 0xDF then some { start, first := octet, bits := octet - 0xC0, owed := 1 }
  else if octet = 0xE0 then some { start, first := octet, bits := 0, owed := 2, low := 0xA0 }
  else if octet = 0xED then some { start, first := octet, bits := octet - 0xE0, owed := 2, high := 0x9F }
  else if 0xE1 ≤ octet ∧ octet ≤ 0xEF then some { start, first := octet, bits := octet - 0xE0, owed := 2 }
  else if octet = 0xF0 then some { start, first := octet, bits := 0, owed := 3, low := 0x90 }
  else if octet = 0xF4 then some { start, first := octet, bits := octet - 0xF0, owed := 3, high := 0x8F }
  else if 0xF1 ≤ octet ∧ octet ≤ 0xF3 then some { start, first := octet, bits := octet - 0xF0, owed := 3 }
  else none

/-- The text of the octets from a position on, inside a character or between two. -/
def decodeFrom (position : Nat) : Option Pending → List Nat → Except Error Text
  | none, [] => .ok []
  | some p, [] => .error ⟨p.start, position - p.start, p.first, .unexpectedEnd⟩
  | none, octet :: rest =>
    if octet < 0x80 then (decodeFrom (position + 1) none rest).map (octet :: ·)
    else match Pending.begin? position octet with
      | some p => decodeFrom (position + 1) (some p) rest
      | none => .error ⟨position, 1, octet, .invalidStart⟩
  | some p, octet :: rest =>
    if p.low ≤ octet ∧ octet ≤ p.high then
      let bits := p.bits * 64 + (octet - 0x80)
      if p.owed = 1 then (decodeFrom (position + 1) none rest).map (bits :: ·)
      else decodeFrom (position + 1) (some { p with bits, owed := p.owed - 1, low := 0x80, high := 0xBF }) rest
    else .error ⟨p.start, position - p.start, p.first, .invalidContinuation⟩

/-- The text that octets encode. -/
def decode (octets : List Nat) : Except Error Text := decodeFrom 0 none octets

/-- ASCII octets encode themselves. -/
theorem decodeFrom_ascii (octets : List Nat) (h : ∀ o ∈ octets, o < 0x80) (position : Nat) :
    decodeFrom position none octets = .ok octets := by
  induction octets generalizing position with
  | nil => rfl
  | cons o rest ih =>
    simp only [List.mem_cons, forall_eq_or_imp] at h
    simp [decodeFrom, h.1, ih h.2, Except.map]

end DecoderId.Utf8

namespace DecoderId.Text

/-- The text with every line end, also a carriage return or one before a line feed,
written as a line feed. -/
def unifyLineEnds : Text → Text
  | 0x0D :: 0x0A :: rest => 0x0A :: unifyLineEnds rest
  | 0x0D :: rest => 0x0A :: unifyLineEnds rest
  | c :: rest => c :: unifyLineEnds rest
  | [] => []

end DecoderId.Text
