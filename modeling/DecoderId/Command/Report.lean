import DecoderId.Json.Writer
import DecoderId.Protocol
import DecoderId.Register.Display

/-!
# Reports

What the commands print: identities, rows of the protocol table, and the manufacturers,
as lines or as JSON.
-/

namespace DecoderId.Report

/-- The version of the program. -/
def version : String := "0.1.0"

/-- The spaces that a level of JSON is indented by. -/
def indent : Json.Indent := some 2

/-- A string as JSON. -/
def ofString (s : String) : Json := .text (Text.ofString s)

/-- An integer, or null, as JSON. -/
def ofOption : Option Int → Json
  | none => .null
  | some n => .int n

/-- A JSON object with these members. -/
def object (members : List (String × Json)) : Json := .object (members.map fun (name, v) => (Text.ofString name, v))

/-- Spaces behind a text up to a width. -/
def padRight (width : Nat) (s : String) : String := s ++ String.ofList (List.replicate (width - s.length) ' ')

/-- Spaces in front of a text up to a width. -/
def padLeft (width : Nat) (s : String) : String := String.ofList (List.replicate (width - s.length) ' ') ++ s

/-- Integers with commas between them. -/
def commaSeparated (ns : List Nat) : String := ",".intercalate (ns.map fun (n : Nat) => Numeral.decimal n)

/-! ## Identities -/

/-- A product ID in decimal and as eight hexadecimal digits. -/
def productId : Option Int → String
  | none => "none"
  | some id => Numeral.decimal id ++ " (0x" ++ Numeral.hexFilled 8 id ++ ")"

def identityLines (i : Identity) : List String := [
  "Manufacturer:  " ++ displayOption i.manufacturerCode ++ " (" ++ i.manufacturer.name ++ ")",
  "Model:         " ++ displayOption i.modelCode,
  "Product ID:    " ++ productId i.productId]

def identityJson (i : Identity) : Json := object [
  ("manufacturer_code", ofOption i.manufacturerCode),
  ("manufacturer", ofString i.manufacturer.name),
  ("model_code", ofOption i.modelCode),
  ("product_id", ofOption i.productId)]

/-! ## The protocol table -/

def protocolLines (p : Protocol) : List String :=
  let optional := if p.optional.isEmpty then "-" else commaSeparated p.optional
  [padLeft 3 (Numeral.decimal p.code) ++ "  " ++ padRight 12 p.manufacturer.name ++ " models=" ++ p.models.text,
    "     CVs:       " ++ commaSeparated p.registers ++ " (optional: " ++ optional ++ ")",
    "     Formula:   " ++ p.formula]

def protocolJson (p : Protocol) : Json := object [
  ("code", .int p.code),
  ("manufacturer", ofString p.manufacturer.name),
  ("models", ofString p.models.text),
  ("registers", .array (p.registers.map fun (n : Nat) => .int n)),
  ("optional", .array (p.optional.map fun (n : Nat) => .int n)),
  ("formula", ofString p.formula)]

/-! ## The program -/

def infoLines : List String := [
  "pydcc-ident version: " ++ version,
  "Manufacturers: " ++
    ", ".intercalate (Protocol.table.map fun p => p.manufacturer.name ++ " (" ++ Numeral.decimal p.code ++ ")")]

def infoJson : Json := object [
  ("version", ofString version),
  ("manufacturers", object (Protocol.table.map fun p => (p.manufacturer.name, .int p.code)))]

end DecoderId.Report
