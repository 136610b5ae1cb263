import DecoderId.Identify
import DecoderId.Real.Shortest

/-!
# Programming-track bridges

A bridge exposes the CVs of a decoder as holding registers over Modbus TCP: CV `n` is
register `n + offset`. The port keeps one client, which it makes and connects when it
needs one, and drops when it is closed or when the client says that it cannot connect.

What the network answers is a script, which all clients share: the answers to connection
attempts, those to requests, and what each closing comes to. Responses and errors come
with their text, which is the client's. What the clients are called with is recorded,
with the number of the client.
-/

namespace DecoderId

/-- A number of seconds. -/
inductive Seconds where
  | whole (n : Int)
  | real (x : Binary64)
deriving DecidableEq

def Seconds.text : Seconds → String
  | .whole n => Numeral.decimal n
  | .real x => x.render .display

/-- Where a bridge is and how to talk to it. -/
structure BridgeConfig where
  host : String
  port : Int := 502
  unit : Int := 1
  timeout : Seconds := .real (.ofDecimal false 3 1 0)
  retries : Int := 3
  offset : Int := -1
  /-- CV 1 has a register. -/
  offset_ge : -1 ≤ offset := by decide

/-- The configuration with an offset, unless it is too low. -/
def BridgeConfig.withOffset (c : BridgeConfig) (offset : Int) : Except Fault BridgeConfig :=
  if h : -1 ≤ offset then .ok { c with offset, offset_ge := h } else .error (.offsetTooLow offset)

/-! ## The network -/

/-- What an attempt to connect comes to. -/
inductive ConnectAnswer where
  | connected
  | refused
  | raises (e : ClientError)
deriving DecidableEq

/-- What a register request comes to. -/
inductive Response where
  /-- A good response. The registers may be missing. -/
  | registers (values : Option (List Int))
  /-- The device answers with an exception of this code, which is shown as this text. -/
  | exception (code : Int) (text : String)
  /-- The client returns an error of its own, which is shown as this text. -/
  | returned (text : String)
  | raises (e : ClientError)
deriving DecidableEq

/-- The answers of the network, in order. -/
structure NetworkScript where
  connects : List ConnectAnswer := []
  responses : List Response := []
  /-- What each closing of a client comes to: the text of the error that it raises, if it raises one. -/
  closes : List (Option String) := []
  /-- The text of the error that a request raises when no response is left. -/
  silence : String := "no reply"
deriving DecidableEq

/-- The exception code for a register that the device does not have. -/
def illegalAddress : Int := 2

/-- The answer to an attempt when none is scripted. -/
def NetworkScript.nextConnect (s : NetworkScript) : ConnectAnswer := s.connects.head?.getD .connected

/-- The answer to a request when none is scripted. -/
def NetworkScript.nextResponse (s : NetworkScript) : Response :=
  s.responses.head?.getD (.raises { kind := .modbus, name := "ModbusIOException", text := s.silence })

/-- What a closing comes to when nothing is scripted. -/
def NetworkScript.nextClose (s : NetworkScript) : Option String := s.closes.head?.join

/-- What a client is called with. -/
inductive Call where
  | new (host : String) (port : Int) (timeout : Seconds) (retries : Int)
  | connect
  | read (register count unit : Int)
  | write (register value unit : Int)
  | close
deriving DecidableEq

/-- A port to a bridge: the client that it holds, by number, the script of the network,
how many clients there have been, and what they were called with. -/
structure Bridge where
  config : BridgeConfig
  client : Option Nat := none
  script : NetworkScript := {}
  clients : Nat := 0
  calls : List (Nat × Call) := []

namespace Bridge

/-- Records a call of a client. -/
def called (b : Bridge) (client : Nat) (call : Call) : Bridge := { b with calls := b.calls ++ [(client, call)] }

/-- A step on the way to an answer: the port, what it comes to, and what is noted. -/
structure Step (α : Type) where
  bridge : Bridge
  result : Except Fault α
  notes : List Note := []

/-- The fault of a bridge that refuses the connection. -/
def notReached (c : BridgeConfig) : BridgeFault :=
  ⟨"Failed to connect to " ++ c.host ++ ":" ++ Numeral.decimal c.port, some c.host, some c.port⟩

/-- The fault of a refused connection. It names the TCP port, if that can be written. -/
def unreachable (c : BridgeConfig) : Fault :=
  if Numeral.isWritable c.port then .bridge (notReached c) else .longInteger

/-- The client of the port, made and connected if there is none. A client whose attempt
to connect raises an error is kept. -/
def getClient (b : Bridge) : Step Nat :=
  match b.client with
  | some client => ⟨b, .ok client, []⟩
  | none =>
    let c := b.config
    let client := b.clients
    let b := ({ b with client := some client, clients := client + 1 }.called client
      (.new c.host c.port c.timeout c.retries)).called client .connect
    let answer := b.script.nextConnect
    let b := { b with script := { b.script with connects := b.script.connects.tail } }
    match answer with
    | .connected => ⟨b, .ok client, [.connected c.host c.port]⟩
    | .refused => ⟨{ b with client := none }, .error (unreachable c), []⟩
    | .raises e => ⟨b, .error (.client e), []⟩

/-- The fault of a CV whose register would be negative. It names both, if they can be written. -/
def negativeRegister (address register : Int) : Fault :=
  if Numeral.isWritable address && Numeral.isWritable register then .negativeRegister address register
  else .longInteger

/-- The client and the register of a CV. -/
def prepare (b : Bridge) (address : Int) : Step (Nat × Int) :=
  let s := b.getClient
  match s.result with
  | .error f => { bridge := s.bridge, result := .error f, notes := s.notes }
  | .ok client =>
    let register := address + b.config.offset
    { bridge := s.bridge
      result := if register < 0 then .error (negativeRegister address register) else .ok (client, register)
      notes := s.notes }

/-- Sends a request and takes the answer to it. -/
def send (b : Bridge) (client : Nat) (call : Call) : Bridge × Response :=
  let b := b.called client call
  ({ b with script := { b.script with responses := b.script.responses.tail } }, b.script.nextResponse)

/-- The byte in a register. -/
def registerOutcome (address : Int) : List Int → Except Fault Outcome
  | [] => .ok (.failure "Empty register response")
  | value :: _ =>
    if 255 < value then
      .ok (.failure ("CV " ++ Numeral.decimal address ++ " value out of range: " ++ Numeral.decimal value))
    else (Byte.ofInt value).map .value

/-- What a response to a read comes to. -/
def readOutcome (address : Int) (optional : Bool) : Response → Except Fault Outcome × List Note
  | .registers values => (registerOutcome address (values.getD []), [])
  | .exception code text =>
    if optional ∧ code = illegalAddress then (.ok .absent, [.notImplemented address]) else (.ok (.failure text), [])
  | .returned text => (.ok (.failure text), [])
  | .raises e =>
    if e.kind.isModbus then (.ok (.failure e.text), [.readRaised address e.text])
    else (.error (.client e), [])

/-- What a response to a write comes to. -/
def writeOutcome (address value : Int) : Response → Except Fault Outcome × List Note
  | .registers _ => ((Byte.ofInt value).map .value, [])
  | .exception _ text | .returned text => (.ok (.failure text), [])
  | .raises e =>
    if e.kind.isModbus then (.ok (.failure e.text), [.writeRaised address e.text])
    else (.error (.client e), [])

/-- Reads a CV. -/
def read (b : Bridge) (address : Int) (optional : Bool) : Reply Bridge :=
  let s := b.prepare address
  match s.result with
  | .error f => ⟨s.bridge, .error f, s.notes⟩
  | .ok (client, register) =>
    let (b, response) := s.bridge.send client (.read register 1 b.config.unit)
    let (outcome, notes) := readOutcome address optional response
    ⟨b, outcome, s.notes ++ notes⟩

/-- Writes a CV. -/
def write (b : Bridge) (address value : Int) : Reply Bridge :=
  let s := b.prepare address
  match s.result with
  | .error f => ⟨s.bridge, .error f, s.notes⟩
  | .ok (client, register) =>
    let (b, response) := s.bridge.send client (.write register value b.config.unit)
    let (outcome, notes) := writeOutcome address value response
    ⟨b, outcome, s.notes ++ notes⟩

/-- A bridge as a port. -/
def port : Port Bridge := { read, write }

/-- Connects the port. -/
def connect (b : Bridge) : Step Unit :=
  let s := b.getClient
  { bridge := s.bridge, result := s.result.map fun _ => (), notes := s.notes }

/-- Closes the client of the port. An error that closing raises is only noted. -/
def close (b : Bridge) : Bridge × List Note :=
  match b.client with
  | none => (b, [])
  | some client =>
    ({ b.called client .close with client := none, script := { b.script with closes := b.script.closes.tail } },
      (b.script.nextClose.map Note.closeRaised).toList)

/-- Identifies the decoder, with the port connected before and closed after it. Whatever
comes of the identification, the port is closed; if it cannot be connected, that is the
answer. -/
def manage (b : Bridge) : Run Bridge :=
  let s := b.connect
  let noted := s.notes.map Event.note
  match s.result with
  | .error f => ⟨s.bridge, .error f, noted⟩
  | .ok _ =>
    let r := identify port s.bridge
    let (b, notes) := r.state.close
    ⟨b, r.answer, noted ++ r.events ++ notes.map Event.note⟩

end Bridge

end DecoderId
