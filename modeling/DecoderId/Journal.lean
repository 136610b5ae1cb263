import DecoderId.Register.Display

/-!
# The journal

What a run tells the outside: notes for the log, progress messages, and the identity
that it ends with. Each note has a level, the name of the part that writes it, and a
text.
-/

namespace DecoderId

/-- The severity of a note, from the least. -/
inductive Level where
  | debug
  | info
  | warning
  | error
deriving DecidableEq, Repr

namespace Level

def name : Level → String
  | debug => "DEBUG"
  | info => "INFO"
  | warning => "WARNING"
  | error => "ERROR"

/-- A level as a number. -/
def rank : Level → Nat
  | debug => 0
  | info => 1
  | warning => 2
  | error => 3

end Level

/-- Something that is noted. -/
inductive Note where
  /-- The outcome of the pending operation has come. -/
  | answered (step : Int) (outcome : Outcome) (pending : Option Operation)
  | issued (request : Request)
  | optionalAbsent (cv : CvNumber)
  | accessFailed (address : Int) (step : Int) (reason : String)
  /-- A code was looked up that no manufacturer has. -/
  | codeUnknown (code : Int)
  /-- The decoder's manufacturer has no procedure. -/
  | noProcedure (code : Int)
  /-- The manufacturer's procedure does not cover the model. -/
  | modelUnknown (manufacturer : Manufacturer) (model : Int)
  | identified (manufacturerCode modelCode productId : Option Int)
  | imageLoaded (source : String) (size : Nat)
  | connected (host : String) (port : Int)
  | readRaised (address : Int) (text : String)
  | writeRaised (address : Int) (text : String)
  | notImplemented (address : Int)
  | closeRaised (text : String)
deriving DecidableEq

namespace Note

def level : Note → Level
  | answered _ _ _ | issued _ | codeUnknown _ | imageLoaded _ _ | connected _ _ | notImplemented _ => .debug
  | optionalAbsent _ | noProcedure _ | modelUnknown _ _ | identified _ _ _ => .info
  | readRaised _ _ | writeRaised _ _ | closeRaised _ => .warning
  | accessFailed _ _ _ => .error

/-- The part of the program that writes the note. -/
def source : Note → String
  | codeUnknown _ => "pydcc_ident.protocols"
  | imageLoaded _ _ => "pydcc_ident.simulator"
  | connected _ _ | readRaised _ _ | writeRaised _ _ | notImplemented _ | closeRaised _ => "pydcc_ident.modbus_port"
  | _ => "pydcc_ident.identify"

def message : Note → String
  | answered step outcome pending =>
    "Step " ++ Numeral.decimal step ++ ": " ++ outcome.display ++ " for " ++
      (match pending with
        | none => "None"
        | some op => op.display)
  | issued (.read a optional) =>
    "Issue read CV " ++ Numeral.decimal a.number ++ " (optional=" ++ displayBool optional ++ ")"
  | issued (.write a value) =>
    "Issue write CV " ++ Numeral.decimal a.number ++ " <- " ++ Numeral.decimal value.val
  | optionalAbsent cv => "Optional CV " ++ Numeral.decimal cv.number ++ " not present, no product ID"
  | accessFailed address step reason =>
    "CV " ++ Numeral.decimal address ++ " access failed at step " ++ Numeral.decimal step ++ ": " ++ reason
  | codeUnknown code => "No product ID procedure for manufacturer code " ++ Numeral.decimal code
  | noProcedure code => "Manufacturer " ++ Numeral.decimal code ++ " has no product ID procedure"
  | modelUnknown m model => "No product ID procedure for " ++ m.capitalName ++ " model " ++ Numeral.decimal model
  | identified manufacturerCode modelCode productId =>
    "Decoder returns mfgID:" ++ displayOption manufacturerCode ++ ";modelID:" ++ displayOption modelCode ++
      ";productID:" ++ displayOption productId
  | imageLoaded source size => "SimulatedDecoder loaded from " ++ source ++ ": " ++ Numeral.decimal size ++ " CVs"
  | connected host port => "Connected to Modbus bridge " ++ host ++ ":" ++ Numeral.decimal port
  | readRaised address text => "CV " ++ Numeral.decimal address ++ " read raised: " ++ text
  | writeRaised address text => "CV " ++ Numeral.decimal address ++ " write raised: " ++ text
  | notImplemented address => "CV " ++ Numeral.decimal address ++ " not implemented by decoder"
  | closeRaised text => "Error closing Modbus client: " ++ text

end Note

/-- What a run tells the outside. -/
inductive Event where
  | note (n : Note)
  | progress (message : String)
  | completed (identity : Identity)
deriving DecidableEq

namespace Event

/-- The note of an event that is one. -/
def note? : Event → Option Note
  | note n => some n
  | _ => none

/-- The message of an event that tells of progress. -/
def progress? : Event → Option String
  | progress message => some message
  | _ => none

/-- The identity of an event that tells of the end. -/
def completed? : Event → Option Identity
  | completed identity => some identity
  | _ => none

end Event

end DecoderId
