import DecoderId.Listener
import DecoderId.Main
import DecoderId.Proofs.Bridge.Connection
import DecoderId.Proofs.Bridge.Mirror
import DecoderId.Proofs.Bridge.Release
import DecoderId.Proofs.Command.Exit
import DecoderId.Proofs.Identify.Absence
import DecoderId.Proofs.Identify.Calls
import DecoderId.Proofs.Identify.Length
import DecoderId.Proofs.Machine.Listening
import DecoderId.Proofs.Machine.Messages
import DecoderId.Proofs.Machine.Phase
import DecoderId.Proofs.Machine.Record
import DecoderId.Proofs.Machine.Refusal
import DecoderId.Proofs.Machine.Table
import DecoderId.Proofs.Simulator.Locality
import DecoderId.Proofs.Simulator.Repetition
import DecoderId.Proofs.Text.Parts
import DecoderId.Proofs.Assignment.Grammar
import DecoderId.Proofs.Assignment.Limits
import DecoderId.Proofs.Json.Writable
import DecoderId.Proofs.Image.Parts
import DecoderId.Proofs.Image.WellFormed
import DecoderId.Proofs.Assignment.Written
import DecoderId.Proofs.Overlay.Images
import DecoderId.Proofs.Image.Load
import DecoderId.Proofs.Simulator.History
import DecoderId.Proofs.Assignment.Spelling
import DecoderId.Proofs.Machine.Answer
import DecoderId.Proofs.Procedure.Description
import DecoderId.Proofs.Procedure.Replay
import DecoderId.Proofs.Procedure.Lossless
import DecoderId.Proofs.Machine.Course
import DecoderId.Proofs.Machine.Completion
import DecoderId.Proofs.Overlay.Assignments
import DecoderId.Proofs.Bridge.Outcomes
import DecoderId.Proofs.Text.Written
import DecoderId.Proofs.Json.Written
import DecoderId.Proofs.Command.Reports
import DecoderId.Proofs.Command.Simulated
