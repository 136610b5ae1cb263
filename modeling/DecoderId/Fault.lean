import DecoderId.Json.Display
import DecoderId.Json.Reader
import DecoderId.Register.Display
import DecoderId.Text.Utf8

/-!
# Faults

Everything that can go wrong, as its cause. The wording is in the `message` functions
alone, and `Fault.kind` is the name under which a fault is reported.
-/

namespace DecoderId

/-- A register operation that ended an identification. -/
structure AccessFailure where
  address : Int
  reason : String
  step : Option Int := none
deriving DecidableEq

def AccessFailure.message (f : AccessFailure) : String :=
  "CV " ++ Numeral.decimal f.address ++ " access failed at step " ++ displayOption f.step ++ ": " ++ f.reason

/-! ## Assignments -/

/-- Why a CV number or an assignment is refused. -/
inductive AssignmentCause where
  | unspecified
  | stated (text : String)
  | emptyCv
  | malformedCv (t : Text)
  | cvOutOfRange (cv : Nat)
  | noAssignment (t : Text)
  | valueOutOfRange (cv value : Nat)
deriving DecidableEq

/-- A CV number or an assignment that is refused, as it was given. -/
structure AssignmentFault where
  raw : Text
  cause : AssignmentCause := .unspecified
deriving DecidableEq

/-- The text that a refusal is given in place of its own. An empty one is none. -/
def givenText (message : Option String) : Option String := message.filter (!·.isEmpty)

/-- A refused assignment with a text of the caller's, if there is one. -/
def AssignmentFault.withMessage (raw : Text) (message : Option String) : AssignmentFault :=
  ⟨raw, ((givenText message).map .stated).getD .unspecified⟩

def AssignmentFault.message (f : AssignmentFault) : String :=
  match f.cause with
  | .unspecified => "Invalid CV assignment: " ++ f.raw.quoted
  | .stated text => text
  | .emptyCv => "CV cannot be empty"
  | .malformedCv t => "Malformed CV: " ++ t.quoted
  | .cvOutOfRange cv => "CV number out of range 1–1024: " ++ Numeral.decimal cv
  | .noAssignment t => "Expected CV=VALUE, got " ++ t.quoted
  | .valueOutOfRange cv value =>
    "CV " ++ Numeral.decimal cv ++ " value out of range 0–255: " ++ Numeral.decimal value

/-! ## Images -/

/-- Why a decoder image is refused. -/
inductive ImageCause where
  | unspecified
  | stated (text : String)
  | malformed (path : String) (place : Json.Located)
  | notAnObject
  | cvsNotAnObject
  | failNotAList
  | notACvNumber (v : Json)
  | cv (fault : AssignmentFault)
  | duplicateCv (cv : Int)
  | noValues (cv : Int)
  | notAnInteger (cv : Int) (v : Json)
  | valueOutOfRange (cv : Int) (value : Int)

/-- A decoder image that is refused, and where it is from. -/
structure ImageFault where
  source : String
  cause : ImageCause := .unspecified

/-- A refused image with a text of the caller's, if there is one. -/
def ImageFault.withMessage (source : String) (message : Option String) : ImageFault :=
  ⟨source, ((givenText message).map .stated).getD .unspecified⟩

def ImageFault.message (f : ImageFault) : String :=
  match f.cause with
  | .unspecified => "Invalid decoder image: " ++ quoted f.source
  | .stated text => text
  | .malformed path place => "Malformed JSON in " ++ path ++ ": " ++ place.message
  | .notAnObject => "Decoder image must be a JSON object"
  | .cvsNotAnObject => "'cvs' must be a JSON object"
  | .failNotAList => "'fail' must be a list of CV numbers"
  | .notACvNumber v => "CV " ++ v.display ++ " must be a number or string"
  | .cv fault => fault.message
  | .duplicateCv cv => "Duplicate CV in image: " ++ Numeral.decimal cv
  | .noValues cv => "CV " ++ Numeral.decimal cv ++ " has an empty value list"
  | .notAnInteger cv v => "CV " ++ Numeral.decimal cv ++ " value " ++ v.display ++ " is not an integer"
  | .valueOutOfRange cv value =>
    "CV " ++ Numeral.decimal cv ++ " value " ++ Numeral.decimal value ++ " out of range 0-255"

/-! ## Files -/

/-- Why a file cannot be read. -/
inductive FileFault where
  | notFound (path : String)
  | isDirectory (path : String)
  | notADirectory (path : String)
  | nameTooLong (path : String)
  | nullInName
  | notUtf8 (error : Utf8.Error)
  /-- Any other refusal of the system, with its kind and its text. -/
  | other (kind text : String)
deriving DecidableEq

def FileFault.message : FileFault → String
  | notFound path => "Decoder image not found: " ++ path
  | isDirectory path => "[Errno 21] Is a directory: " ++ quoted path
  | notADirectory path => "[Errno 20] Not a directory: " ++ quoted path
  | nameTooLong path => "[Errno 36] File name too long: " ++ quoted path
  | nullInName => "embedded null byte"
  | notUtf8 error => error.message
  | other _ text => text

def FileFault.kind : FileFault → String
  | notFound _ => "FileNotFoundError"
  | isDirectory _ => "IsADirectoryError"
  | notADirectory _ => "NotADirectoryError"
  | nameTooLong _ => "OSError"
  | nullInName => "ValueError"
  | notUtf8 _ => "UnicodeDecodeError"
  | other kind _ => kind

/-! ## The programming-track bridge -/

/-- A bridge that cannot be reached. -/
structure BridgeFault where
  text : String
  host : Option String := none
  port : Option Int := none
deriving DecidableEq

/-- What an error that the client of a bridge raises counts as. -/
inductive ClientErrorKind where
  /-- One of the client's own errors. -/
  | modbus
  /-- Something that is looked up is not there. -/
  | notFound
  /-- Any other error of the system. -/
  | os
  | other
deriving DecidableEq, Repr

/-- Is it an error of the client itself? The other kinds pass through it. -/
def ClientErrorKind.isModbus : ClientErrorKind → Bool
  | .modbus => true
  | _ => false

/-- An error that the client of a bridge raises: what it counts as, its name, without and
with the library it is from, and its text. The client chooses all of them. -/
structure ClientError where
  kind : ClientErrorKind
  name : String
  qualifiedName : String := name
  text : String
deriving DecidableEq

/-! ## All faults -/

/-- A call that does not fit the phase of an identification. -/
inductive Misuse where
  | notStarted
  | alreadyStarted
  | alreadyComplete
  | aborted (cause : AccessFailure)
  | noProcedure
deriving DecidableEq

def Misuse.message : Misuse → String
  | notStarted => "advance() called before start()"
  | alreadyStarted => "identification already started"
  | alreadyComplete => "identification already complete"
  | aborted _ => "identification aborted"
  | noProcedure => "no manufacturer procedure in progress"

/-- Whatever can go wrong. -/
inductive Fault where
  | general (text : String)
  | notAByte (value : Int)
  | cvOutOfRange (address : Int)
  | notAProductId (id : Int)
  | offsetTooLow (offset : Int)
  | negativeRegister (address offset : Int)
  /-- A numeral of too many digits is read. -/
  | longNumeral (digits : Nat)
  /-- An integer of too many digits is written. -/
  | longInteger
  | tooDeep (container : Json.Container)
  | misuse (m : Misuse)
  /-- A model code has come before the manufacturer code. -/
  | noManufacturerCode
  | access (f : AccessFailure)
  | bridge (f : BridgeFault)
  | client (e : ClientError)
  | image (f : ImageFault)
  | assignment (f : AssignmentFault)
  | file (f : FileFault)
  /-- A listener has raised an error. -/
  | listener (text : String)

namespace Fault

def message : Fault → String
  | general text => text
  | notAByte value => "value must be a byte (0-255), got " ++ Numeral.decimal value
  | cvOutOfRange address => "CV address must be 1-1024, got " ++ Numeral.decimal address
  | notAProductId id => "product_id must be unsigned 32-bit, got " ++ Numeral.decimal id
  | offsetTooLow offset =>
    "cv_offset must be >= -1 so CV1 maps to a valid register, got " ++ Numeral.decimal offset
  | negativeRegister address offset =>
    "CV " ++ Numeral.decimal address ++ " maps to negative register offset " ++ Numeral.decimal offset
  | longNumeral digits =>
    "Exceeds the limit (4300 digits) for integer string conversion: value has " ++ Numeral.decimal digits ++
      " digits; use sys.set_int_max_str_digits() to increase the limit"
  | longInteger =>
    "Exceeds the limit (4300 digits) for integer string conversion; " ++
      "use sys.set_int_max_str_digits() to increase the limit"
  | tooDeep container =>
    "maximum recursion depth exceeded while decoding a JSON " ++
      (match container with
        | .array => "array"
        | .object => "object") ++ " from a unicode string"
  | misuse m => m.message
  | noManufacturerCode => "'<' not supported between instances of 'NoneType' and 'int'"
  | access f => f.message
  | bridge f => f.text
  | client e => e.text
  | image f => f.message
  | assignment f => f.message
  | file f => f.message
  | listener text => text

/-- The name under which a fault is reported. -/
def kind : Fault → String
  | general _ => "PyDCCIdentError"
  | notAByte _ | cvOutOfRange _ | notAProductId _ | offsetTooLow _ | negativeRegister _ _
  | longNumeral _ | longInteger | listener _ => "ValueError"
  | tooDeep _ => "RecursionError"
  | misuse _ => "RuntimeError"
  | noManufacturerCode => "TypeError"
  | access _ => "RegisterAccessFailure"
  | bridge _ => "ModbusIOError"
  | client e => e.name
  | image _ => "InvalidImageError"
  | assignment _ => "InvalidAssignmentError"
  | file f => f.kind

/-- The name under which a fault that nobody expected is reported: an error of the client
with the library it is from. -/
def qualifiedKind : Fault → String
  | client e => e.qualifiedName
  | f => f.kind

end Fault

/-- The byte with a value, or why there is none. -/
def Byte.ofInt (n : Int) : Except Fault Byte :=
  match Byte.ofInt? n with
  | some b => .ok b
  | none => .error (.notAByte n)

/-- The CV with a number, or why there is none. -/
def CvNumber.ofInt (n : Int) : Except Fault CvNumber :=
  match CvNumber.ofInt? n with
  | some cv => .ok cv
  | none => .error (.cvOutOfRange n)

/-- The identity with these codes, or why there is none. -/
def Identity.ofCodes (manufacturerCode modelCode productId : Option Int) : Except Fault Identity :=
  match Identity.ofCodes? manufacturerCode modelCode productId with
  | some i => .ok i
  | none => .error (.notAProductId (productId.getD 0))

end DecoderId
