import DecoderId.Bridge
import DecoderId.Command.Options
import DecoderId.Command.Report
import DecoderId.Overlay
import DecoderId.Text.Control

/-!
# Running commands

What a command prints and how it exits. A report goes to the standard output only when
the command succeeds; notes, progress and errors go to the standard error, in the order
in which they come up.
-/

namespace DecoderId.Command

/-- What a command leaves behind: its exit code, what it printed, and what the clients of
a bridge were called with. -/
structure Output where
  exit : Nat := 0
  stdout : String := ""
  stderr : String := ""
  calls : List (Nat × Call) := []

/-- Lines as text. -/
def ofLines (lines : List String) : String := String.join (lines.map (· ++ "\n"))

/-- Which lines a run prints to the standard error, and the time stamp of notes. -/
structure Verbosity where
  verbose : Bool
  progress : Bool
  stamp : String

namespace Verbosity

/-- The line of a note: of a warning or worse its level and message, and if verbose, of
every note, with the time and its source. -/
def noteLine (v : Verbosity) (n : Note) : List String :=
  if v.verbose then [v.stamp ++ " [" ++ n.level.name ++ "] " ++ n.source ++ ": " ++ n.message]
  else if Level.warning.rank ≤ n.level.rank then [n.level.name ++ ": " ++ n.message]
  else []

/-- The lines of an event. -/
def eventLines (v : Verbosity) : Event → List String
  | .note n => v.noteLine n
  | .progress message => if v.progress then [message] else []
  | .completed _ => []

end Verbosity

/-- How a fault is headed and which exit code it has. -/
def faultClass : Fault → String × Nat
  | .assignment _ | .image _ | .file (.notFound _) | .client { kind := .notFound, .. } => ("Invalid input", 2)
  | .access _ => ("Register access failed", 3)
  | .bridge _ => ("Connection/Modbus error", 3)
  | _ => ("Unexpected error", 4)

/-- The exit code of a fault that no command expects. -/
def unexpectedExit : Nat := 4

/-- The lines of a fault: its heading and message, and if verbose and unexpected, its
kind too. Only the first is a line of the command itself, so that no control sequence
stands in it. -/
def faultLines (verbose : Bool) (f : Fault) : List String :=
  let (heading, exit) := faultClass f
  ("Error: " ++ heading ++ ": " ++ withoutControls f.message) ::
    if verbose ∧ exit = unexpectedExit then
      ["Traceback", if f.message.isEmpty then f.qualifiedKind else f.qualifiedKind ++ ": " ++ f.message]
    else []

/-- The output of an identification that told this and came to this. -/
def identified (v : Verbosity) (json : Bool) (events : List Event) (answer : Except Fault Identity) : Output :=
  let told := events.flatMap v.eventLines
  match answer with
  | .ok i =>
    { stdout := if json then ofLines [(Report.identityJson i).render Report.indent] else ofLines (Report.identityLines i)
      stderr := ofLines told }
  | .error f => { exit := (faultClass f).2, stderr := ofLines (told ++ faultLines v.verbose f) }

/-- Identifies a simulated decoder. -/
def runSimulated (room : Nat) (disk : Disk) (v : Verbosity) (o : IdentifyOptions) : Output :=
  let (notes, decoder) := Overlay.build room disk (o.image.map Path.ofString) o.assignments
  let noted := notes.map Event.note
  match decoder with
  | .error f => identified v o.json noted (.error f)
  | .ok d =>
    let r := DecoderId.identify Simulator.port d
    identified v o.json (noted ++ r.events) r.answer

/-- Identifies the decoder behind a bridge. -/
def runBridged (network : NetworkScript) (v : Verbosity) (o : IdentifyOptions) (host : String) : Output :=
  let base : BridgeConfig :=
    { host, port := o.port, unit := o.unit, timeout := .real o.timeout, retries := o.retries }
  match base.withOffset o.offset with
  | .error f => identified v o.json [] (.error f)
  | .ok config =>
    let r := Bridge.manage { config, script := network }
    { identified v o.json r.events r.answer with calls := r.state.calls }

/-- Identifies a decoder, behind a bridge or simulated but not both. No host and an empty
one are the same. -/
def runIdentify (room : Nat) (disk : Disk) (network : NetworkScript) (stamp : String) (o : IdentifyOptions) : Output :=
  let v : Verbosity := { verbose := o.verbose, progress := o.progress, stamp }
  let simulated := o.image.isSome || !o.assignments.isEmpty
  match o.host.filter (!·.isEmpty), simulated with
  | some _, true => { exit := 2, stderr := ofLines ["Error: --host cannot be combined with --image/--cv"] }
  | none, false => { exit := 2, stderr := ofLines ["Error: --host, --image or --cv is required"] }
  | none, true => runSimulated room disk v o
  | some host, false => runBridged network v o host

/-- Shows rows of the protocol table. -/
def runProtocols (stamp : String) (code : Option Int) (o : ReportOptions) : Output :=
  let v : Verbosity := { verbose := o.verbose, progress := false, stamp }
  let report (rows : List Protocol) : Output :=
    { stdout :=
        if o.json then ofLines [(Json.array (rows.map Report.protocolJson)).render Report.indent]
        else ofLines (rows.flatMap Report.protocolLines) }
  match code with
  | none => report Protocol.table
  | some code =>
    match Protocol.lookup code with
    | some row => report [row]
    | none =>
      { exit := 2
        stderr := ofLines (v.noteLine (.codeUnknown code) ++
          ["Error: No product ID procedure for manufacturer code " ++ Numeral.decimal code]) }

/-- Carries out what a command line asks for. -/
def Invocation.run (room : Nat) (disk : Disk) (network : NetworkScript) (stamp : String) : Invocation → Output
  | .version => { stdout := ofLines ["pydcc-ident " ++ Report.version] }
  | .identify o => runIdentify room disk network stamp o
  | .protocols code o => runProtocols stamp code o
  | .info o =>
    { stdout := if o.json then ofLines [Report.infoJson.render Report.indent] else ofLines Report.infoLines }

end DecoderId.Command
