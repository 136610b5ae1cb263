import DecoderId.Command.Arguments
import DecoderId.Numeral
import DecoderId.Real.Numeral

/-!
# The command line

The three commands and their options. A setting of the bridge that is not on the
command line is taken from the environment, unless it is empty there.
-/

namespace DecoderId.Command

/-- What `identify` is to do. -/
structure IdentifyOptions where
  host : Option String := none
  port : Int := 502
  unit : Int := 1
  timeout : Binary64 := .ofDecimal false 3 1 0
  retries : Int := 3
  offset : Int := -1
  image : Option String := none
  assignments : List Text := []
  progress : Bool := false
  verbose : Bool := false
  json : Bool := false

/-- How the other commands report. -/
structure ReportOptions where
  verbose : Bool := false
  json : Bool := false

/-- A command line that can be carried out. -/
inductive Invocation where
  | version
  | identify (options : IdentifyOptions)
  | protocols (code : Option Int) (options : ReportOptions)
  | info (options : ReportOptions)

/-- The environment: names with their values. -/
abbrev Environment := List (String × String)

/-- The options. -/
inductive Key where
  | version
  | host
  | port
  | unit
  | timeout
  | retries
  | offset
  | image
  | cv
  | progress
  | verbose
  | json
deriving DecidableEq

/-- A long option with a value, and its letter. -/
def valued (key : Key) (long : String) (short : Option Char := none) : OptionSpec Key :=
  { key, long := Text.ofString long, short := short.map Char.toNat }

/-- A long option without a value, and its letter. -/
def flag (key : Key) (long : String) (short : Option Char := none) : OptionSpec Key :=
  { key, long := Text.ofString long, short := short.map Char.toNat, takesValue := false }

/-- The options of every report. -/
def reportSpecs : List (OptionSpec Key) := [flag .verbose "verbose" (some 'v'), flag .json "json"]

/-- The options of `identify`. -/
def identifySpecs : List (OptionSpec Key) := [
  valued .host "host" (some 'h'), valued .port "port" (some 'p'), valued .unit "unit-id" (some 'u'),
  valued .timeout "timeout" (some 't'), valued .retries "retries" (some 'r'), valued .offset "cv-offset",
  valued .image "image", valued .cv "cv", flag .progress "progress"] ++ reportSpecs

/-- The value of an option: from the command line, or else from the environment. -/
def setting (a : Arguments Key) (environment : Environment) (key : Key) (name : String) : Option Text :=
  match a.last? key with
  | some value => some value
  | none =>
    match environment.find? (·.1 = name) with
    | some (_, value) => if value.isEmpty then none else some (Text.ofString value)
    | none => none

/-- A value that is read from a text, or the default if there is no text; `none` if it
cannot be read. -/
def readOr {α : Type} (default : α) (read : Text → Option α) : Option Text → Option α
  | none => some default
  | some t => read t

/-- An offset of registers: -1 or above. -/
def readOffset (t : Text) : Option Int := (Numeral.toInt? t).filter (-1 ≤ ·)

/-- The path that a text denotes; no path holds a NUL. -/
def readPath (t : Text) : Option String := if t.contains 0 then none else some t.toString

/-- The options of `identify`. -/
def IdentifyOptions.read (environment : Environment) (args : List Text) : Option IdentifyOptions := do
  let a ← Arguments.read identifySpecs true args
  if !a.words.isEmpty then none
  let setting := setting a environment
  return {
    host := (setting .host "DCCIDENT_HOST").map Text.toString
    port := ← readOr 502 Numeral.toInt? (setting .port "DCCIDENT_PORT")
    unit := ← readOr 1 Numeral.toInt? (setting .unit "DCCIDENT_UNIT_ID")
    timeout := ← readOr (.ofDecimal false 3 1 0) Binary64.ofText? (setting .timeout "DCCIDENT_TIMEOUT")
    retries := ← readOr 3 Numeral.toInt? (setting .retries "DCCIDENT_RETRIES")
    offset := ← readOr (-1) readOffset (setting .offset "DCCIDENT_CV_OFFSET")
    image := ← (a.last? .image).mapM readPath
    assignments := a.all .cv
    progress := a.has .progress
    verbose := a.has .verbose
    json := a.has .json }

/-- The options of a report and the words beside them. -/
def ReportOptions.read (args : List Text) : Option (ReportOptions × List Text) :=
  (Arguments.read reportSpecs true args).map fun a => ({ verbose := a.has .verbose, json := a.has .json }, a.words)

/-- The options in front of the command. -/
def programSpecs : List (OptionSpec Key) := [flag .version "version"]

/-- What a command and its arguments ask for. A word that is no command is looked at once
more for the options in front of one, which it may be behind `--`. -/
def Invocation.ofCommand (environment : Environment) (command : Text) (args : List Text) : Option Invocation := do
  if command = Text.ofString "identify" then return .identify (← IdentifyOptions.read environment args)
  else if command = Text.ofString "protocols" then
    match ← ReportOptions.read args with
    | (options, []) => return .protocols none options
    | (options, [code]) => return .protocols (some (← Numeral.toInt? code)) options
    | _ => none
  else if command = Text.ofString "info" then
    match ← ReportOptions.read args with
    | (options, []) => return .info options
    | _ => none
  else if (← Arguments.read programSpecs false (command :: args)).has .version then return .version
  else none

/-- What a command line asks for; `none` if it cannot be carried out. The version is told
before the command is looked at. -/
def Invocation.read (environment : Environment) (args : List String) : Option Invocation := do
  let a ← Arguments.read programSpecs false (args.map Text.ofString)
  if a.has .version then return .version
  match a.words with
  | [] => none
  | command :: args => ofCommand environment command args

end DecoderId.Command
