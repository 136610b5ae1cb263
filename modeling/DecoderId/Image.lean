import DecoderId.Assignment
import DecoderId.Disk
import DecoderId.Simulator

/-!
# Decoder images

A simulated decoder as a JSON object: `cvs` maps CVs to a byte or a list of bytes, and
`fail` lists the CVs that always fail. An object without `cvs` is itself such a map.
Two names of one CV are refused.
-/

namespace DecoderId.Image

/-- The CV that a name or a number in an image stands for. -/
def cvOf (source : String) (raw : Json) : Except Fault Int :=
  let parse (t : Text) : Except Fault Int :=
    match CvNumber.parse t with
    | .ok cv => .ok cv.number
    | .error f => .error (.image ⟨source, .cv f⟩)
  match raw with
  | .text t => parse t
  | .int n => parse (Numeral.ofInt n)
  | v => .error (.image ⟨source, .notACvNumber v⟩)

/-- The CVs so far with one more. -/
def addMember (source : String) (cvs : List (Int × Series)) (member : Text × Json) :
    Except Fault (List (Int × Series)) := do
  let cv ← cvOf source (.text member.1)
  if (Assoc.get? cvs cv).isSome then throw (.image ⟨source, .duplicateCv cv⟩)
  return Assoc.set cvs cv (← Series.ofJson source cv member.2)

/-- The two parts of an image: the CVs, and those that fail. -/
def parts (source : String) (data : Json) : Except Fault (List (Text × Json) × List Json) :=
  match data with
  | .object members =>
    let (cvs, failing) := match Assoc.get? members (Text.ofString "cvs") with
      | some cvs => (cvs, (Assoc.get? members (Text.ofString "fail")).getD (.array []))
      | none => (data, .array [])
    match cvs, failing with
    | .object cvs, .array failing => .ok (cvs, failing)
    | .object _, _ => .error (.image ⟨source, .failNotAList⟩)
    | _, _ => .error (.image ⟨source, .cvsNotAnObject⟩)
  | _ => .error (.image ⟨source, .notAnObject⟩)

/-- The decoder that an image describes. -/
def decode (source : String) (data : Json) : Except Fault Simulator := do
  let (members, entries) ← parts source data
  let cvs ← members.foldlM (addMember source) []
  let failing ← entries.mapM (cvOf source)
  return { source, cvs, failing }

/-- The decoder that the text of an image file describes. There is room for so many
containers inside each other. -/
def read (room : Nat) (source : String) (t : Text) : Except Fault Simulator :=
  match Json.parse room t with
  | .ok data => decode source data
  | .error (.malformed fault position) => .error (.image ⟨source, .malformed source (fault.locate t position)⟩)
  | .error (.longInteger digits) => .error (.longNumeral digits)
  | .error (.tooDeep container) => .error (.tooDeep container)

/-- The decoder that an image file describes. Any line end counts as a line feed. -/
def load (room : Nat) (disk : Disk) (path : Path) : Except Fault Simulator :=
  match disk path with
  | .error f => .error (.file f)
  | .ok octets =>
    match Utf8.decode octets with
    | .error e => .error (.file (.notUtf8 e))
    | .ok t => read room path.toString t.unifyLineEnds

end DecoderId.Image
