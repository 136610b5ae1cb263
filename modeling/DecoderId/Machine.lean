import DecoderId.Fault
import DecoderId.Journal
import DecoderId.Protocol

/-!
# The identification machine

An identification reads CV 8 for the manufacturer, CV 7 for the model, and then follows
the manufacturer's procedure, one operation at a time. The machine never talks to a
decoder: `start` and `advance` take the outcome of the operation issued before and
answer with the next one, or with the identity.

Only CVs that a procedure reads as optional may be missing; then the decoder has no
product ID. Any other outcome that is not a value ends the run for good. What a call
tells the outside is a list of events, in order; nobody who hears of them can change
the machine.
-/

namespace DecoderId

/-- The CV of the manufacturer. -/
def manufacturerCv : CvNumber := { number := 8 }

/-- The CV of the model. -/
def modelCv : CvNumber := { number := 7 }

/-- The record of one identification. -/
structure Session where
  manufacturerCode : Option Byte := none
  manufacturer : Option Manufacturer := none
  modelCode : Option Byte := none
  /-- The bytes that the procedure has read. -/
  accumulator : List Byte := []
  productId : Option Int := none
  /-- How many outcomes have come, and one for the start. -/
  step : Int := 0
  /-- Is the pending operation a read of a CV that may be missing? -/
  optionalPending : Bool := false
deriving DecidableEq

/-- An identification machine. -/
structure Machine where
  session : Session := {}
  /-- What is left of the procedure; its first operation has been issued. -/
  script : Option Procedure := none
  pending : Option Operation := none
  result : Option Identity := none
  failed : Option AccessFailure := none

/-- What a call leaves behind: the machine, the answer, and what the outside is told. -/
structure Turn where
  machine : Machine
  answer : Except Fault Action
  events : List Event := []

/-- A turn that tells something else first. -/
def Turn.after (events : List Event) (t : Turn) : Turn := { t with events := events ++ t.events }

/-- The reason of a run that ends at a CV that may not be missing. -/
def unexpectedAbsence : String := "unexpected absent register"

namespace Machine

/-- The call does not fit; nothing changes. -/
def refuse (m : Machine) (misuse : Misuse) : Turn := ⟨m, .error (.misuse misuse), []⟩

/-- The progress that an operation tells of, if it has a message. -/
def progressOf (op : Operation) : List Event := if op.message.isEmpty then [] else [.progress op.message]

/-- Issues an operation. -/
def issue (m : Machine) (op : Operation) : Turn :=
  { machine := { m with session := { m.session with optionalPending := op.request.isOptional }, pending := some op }
    answer := .ok (.operate op)
    events := progressOf op ++ [.note (.issued op.request)] }

/-- Ends the run with a product ID, or without. -/
def complete (m : Machine) (productId : Option Int) : Turn :=
  let session := { m.session with productId }
  let m := { m with session, script := none, pending := none }
  let code := session.manufacturerCode.map fun b => (b.val : Int)
  let model := session.modelCode.map fun b => (b.val : Int)
  match Identity.ofCodes code model productId with
  | .error f => ⟨m, .error f, []⟩
  | .ok identity =>
    { machine := { m with result := some identity }
      answer := .ok (.complete identity)
      events := [.progress "Done", .note (.identified code model productId), .completed identity] }

/-- Goes on with what is left of a procedure. -/
def follow (m : Machine) : Procedure → Turn
  | .done productId =>
    let model := (m.session.modelCode.map fun b => (b.val : Int)).getD 0
    let unknown : List Event :=
      if m.session.step = 3 ∧ productId = none then
        [.note (.modelUnknown (m.session.manufacturer.getD .unknown) model)]
      else []
    .after unknown (m.complete productId)
  | .read address optional message next =>
    { m with script := some (.read address optional message next) }.issue ⟨.read address optional, message⟩
  | .write address value message next =>
    { m with script := some (.write address value message next) }.issue ⟨.write address value, message⟩

/-- The failure of the pending operation. -/
def failure (m : Machine) (reason : String) : AccessFailure where
  address := match m.pending with
    | some op => op.request.address.number
    | none => 0
  reason
  step := some m.session.step

/-- Ends the run at an operation that was not answered by a value. The failure names the
step; if that cannot be written, there is no failure, and the run can go on. -/
def fail (m : Machine) (reason : String) : Turn :=
  let failure := m.failure reason
  let noted : List Event := [.note (.accessFailed failure.address m.session.step reason)]
  if Numeral.isWritable m.session.step then
    { machine := { m with
        session := { m.session with optionalPending := false }, script := none, pending := none, failed := some failure }
      answer := .error (.access failure)
      events := noted }
  else ⟨m, .error .longInteger, noted⟩

/-- An outcome that is not a value: the end of the run, for better if the pending
operation may go unanswered. -/
def miss (m : Machine) (reason : String) : Turn :=
  match m.session.optionalPending, m.pending with
  | true, some ⟨.read address _, _⟩ =>
    .after [.note (.optionalAbsent address)]
      ({ m with session := { m.session with optionalPending := false } }.complete none)
  | _, _ => m.fail reason

/-- The byte of CV 8. -/
def takeManufacturer (m : Machine) (b : Byte) : Turn :=
  { m with session := { m.session with manufacturerCode := some b, manufacturer := some (.ofCode b.val) } }.issue
    ⟨.read modelCv false, "Read MFG version - CV 7"⟩

/-- The byte of CV 7: the manufacturer's procedure begins. -/
def takeModel (m : Machine) (b : Byte) : Turn :=
  let m := { m with session := { m.session with modelCode := some b } }
  match m.session.manufacturerCode with
  | none => ⟨m, .error .noManufacturerCode, []⟩
  | some code =>
    match Protocol.lookup code.val with
    | none => .after [.note (.codeUnknown code.val), .note (.noProcedure code.val)] (m.complete none)
    | some protocol => m.follow (protocol.procedure b.val)

/-- Records a byte that answers a read. -/
def record (m : Machine) (b : Byte) : Machine :=
  match m.pending with
  | some ⟨.read _ _, _⟩ => { m with session := { m.session with accumulator := m.session.accumulator ++ [b] } }
  | _ => m

/-- A byte that answers an operation of the procedure. -/
def takeByte (m : Machine) (b : Byte) : Turn :=
  let m := m.record b
  match m.script with
  | none => m.refuse .noProcedure
  | some p => m.follow (p.answer b.val)

/-- A byte answers the pending operation. -/
def take (m : Machine) (b : Byte) : Turn :=
  let m := { m with session := { m.session with optionalPending := false } }
  if m.session.step = 2 then m.takeManufacturer b
  else if m.session.step = 3 then m.takeModel b
  else m.takeByte b

/-- Starts the identification. -/
def start (m : Machine) : Turn :=
  if m.session.step ≠ 0 then m.refuse .alreadyStarted
  else { m with session := { m.session with step := 1 } }.issue ⟨.read manufacturerCv false, "Read MFG ID - CV 8"⟩

/-- Takes the outcome of the operation issued last. -/
def advance (m : Machine) (outcome : Outcome) : Turn :=
  if m.session.step = 0 then m.refuse .notStarted
  else if m.result.isSome then m.refuse .alreadyComplete
  else match m.failed with
    | some failure => m.refuse (.aborted failure)
    | none =>
      let m := { m with session := { m.session with step := m.session.step + 1 } }
      .after [.note (.answered m.session.step outcome m.pending)] <|
        match outcome with
        | .value b => m.take b
        | .absent => m.miss unexpectedAbsence
        | .failure reason => m.miss reason

/-- Sets the count of steps. -/
def setStep (m : Machine) (step : Int) : Machine := { m with session := { m.session with step } }

end Machine

end DecoderId
