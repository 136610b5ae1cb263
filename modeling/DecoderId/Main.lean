import DecoderId.Command.Run

/-!
# The program

Reads the arguments, the environment and the image file, runs the command, and prints
what it leaves. Notes are stamped with the milliseconds of the clock. No bridge can be
reached from here: the attempt to connect is refused.
-/

namespace DecoderId.Program

/-- The settings that the environment may hold. -/
def settings : List String := [
  "DCCIDENT_HOST", "DCCIDENT_PORT", "DCCIDENT_UNIT_ID", "DCCIDENT_TIMEOUT", "DCCIDENT_RETRIES", "DCCIDENT_CV_OFFSET"]

/-- How many containers of an image file may be open at once. The program sets this limit; the commands leave it open. -/
def room : Nat := 980

/-- The octets of a file, or why there are none. A directory can be opened and fails only
when it is read, where the path is no longer known. -/
def readOctets (path : String) : IO (Except FileFault (List Nat)) := do
  try
    let octets ← IO.FS.readBinFile path
    return .ok (octets.toList.map UInt8.toNat)
  catch
    | .noFileOrDirectory .. => return .error (.notFound path)
    | .inappropriateType none .. => return .error (.isDirectory path)
    | .inappropriateType .. => return .error (.notADirectory path)
    | .invalidArgument .. => return .error (.nameTooLong path)
    | .permissionDenied .. => return .error (.other "PermissionError" ("[Errno 13] Permission denied: " ++ quoted path))
    | e => return .error (.other "OSError" e.toString)

end DecoderId.Program

open DecoderId in
def main (args : List String) : IO UInt32 := do
  let environment ← Program.settings.filterMapM fun name => do return (← IO.getEnv name).map (name, ·)
  match Command.Invocation.read environment args with
  | none =>
    IO.eprintln "Usage: dccident [--version] identify|protocols|info [OPTIONS]"
    return 2
  | some invocation =>
    let image := match invocation with
      | .identify o => o.image
      | _ => none
    let found ← match image with
      | some path => Program.readOctets (Path.ofString path).toString
      | none => pure (.error (.notFound ""))
    let out := invocation.run Program.room (fun _ => found) { connects := [.refused] } (Numeral.decimal (← IO.monoMsNow))
    IO.print out.stdout
    IO.eprint out.stderr
    return out.exit.toUInt32
