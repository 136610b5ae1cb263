import DecoderId.Assoc
import DecoderId.Identify
import DecoderId.Simulator.Series

/-!
# Simulated decoders

A decoder in memory: CVs with the values they serve, CVs that always fail, and a log of
the operations. A missing CV is absent for an optional read and a failure otherwise.

A write stores its value before anything else; if that is not a byte, it and every read
of the CV until the next write are a fault.
-/

namespace DecoderId

/-- An operation on a simulated decoder. The value is the one served or written. -/
structure LogEntry where
  isWrite : Bool
  address : Int
  value : Option Int
deriving DecidableEq

/-- A simulated decoder. -/
structure Simulator where
  source : String := "<memory>"
  cvs : List (Int × Series) := []
  failing : List Int := []
  log : List LogEntry := []
deriving DecidableEq

namespace Simulator

/-- How many CVs the decoder has. -/
def size (d : Simulator) : Nat := d.cvs.length

/-- The series that a CV serves. -/
def series? (d : Simulator) (address : Int) : Option Series := Assoc.get? d.cvs address

/-- Sets what a CV serves. -/
def setSeries (d : Simulator) (address : Int) (s : Series) : Simulator :=
  { d with cvs := Assoc.set d.cvs address s }

/-- Sets what a CV serves, from a byte or a list of bytes. -/
def assign (d : Simulator) (address : Int) (raw : Json) : Except Fault Simulator :=
  (Series.ofJson d.source address raw).map (d.setSeries address)

/-- A decoder with these CVs. A CV that comes again keeps its place and takes the later
value. -/
def build (source : String) (cvs : List (Int × Json)) (failing : List Int) : Except Fault Simulator := do
  let d ← (Assoc.ofList cvs).foldlM (fun (d : Simulator) (cv, raw) => d.assign cv raw) { source := source }
  return { d with failing }

/-- The note of a decoder that has been built. -/
def loaded (d : Simulator) : Note := .imageLoaded d.source d.size

/-- A byte as an outcome, or the fault of a value that is none. -/
def outcomeOf (value : Int) : Except Fault Outcome := (Byte.ofInt value).map .value

/-- Adds an operation to the log. -/
def logged (d : Simulator) (e : LogEntry) : Simulator := { d with log := d.log ++ [e] }

/-- Reads a CV. -/
def read (d : Simulator) (address : Int) (optional : Bool) : Reply Simulator :=
  let unserved := d.logged ⟨false, address, none⟩
  if address ∈ d.failing then ⟨unserved, .ok (.failure ("CV " ++ Numeral.decimal address ++ " read failed")), []⟩
  else match d.series? address with
    | none =>
      let outcome : Outcome :=
        if optional then .absent else .failure ("CV " ++ Numeral.decimal address ++ " not implemented")
      ⟨unserved, .ok outcome, []⟩
    | some s => ⟨(d.setSeries address s.next).logged ⟨false, address, some s.first⟩, outcomeOf s.first, []⟩

/-- Writes a CV. -/
def write (d : Simulator) (address value : Int) : Reply Simulator :=
  let d := d.logged ⟨true, address, some value⟩
  if address ∈ d.failing then ⟨d, .ok (.failure ("CV " ++ Numeral.decimal address ++ " write failed")), []⟩
  else ⟨d.setSeries address ⟨value, []⟩, outcomeOf value, []⟩

/-- A simulated decoder as a port. -/
def port : Port Simulator := { read, write }

end Simulator

end DecoderId
