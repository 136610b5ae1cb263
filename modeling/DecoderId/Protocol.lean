import DecoderId.Numeral
import DecoderId.Procedure.Catalog

/-!
# The protocol table

A row per manufacturer with a procedure: the CVs it touches, those of them that a
decoder may lack, the models it covers and the formula of the product ID, in words.
`Protocol.table` is in the order of the codes.
-/

namespace DecoderId

/-- The models that a procedure covers. -/
inductive Models where
  | any
  | only (model : Int)
  | between (first last : Int)
deriving DecidableEq

namespace Models

/-- Does the procedure cover the model? -/
def contains : Models → Int → Bool
  | any, _ => true
  | only model, m => m = model
  | between first last, m => first ≤ m && m ≤ last

/-- The models in words. -/
def text : Models → String
  | any => "any"
  | only model => Numeral.decimal model
  | between first last => Numeral.decimal first ++ "-" ++ Numeral.decimal last

end Models

/-- One row of the table. -/
structure Protocol where
  manufacturer : Manufacturer
  /-- The numbers of the CVs that the procedure touches, in the order of their first use. -/
  registers : List Nat
  /-- The numbers of the CVs that a decoder may lack. -/
  optional : List Nat := []
  models : Models := .any
  formula : String
  /-- What to do for a decoder that reports a model in CV 7. -/
  procedure : Int → Procedure

namespace Protocol

/-- The value of CV 8. -/
def code (p : Protocol) : Int := p.manufacturer.code

/-- All rows, by ascending code. -/
def table : List Protocol := [
  { manufacturer := .diy, registers := [47, 48, 49, 50],
    formula := "CV47<<24 | CV48<<16 | CV49<<8 | CV50", procedure := fun _ => .diy },
  { manufacturer := .hornby, registers := [200, 159, 158], optional := [200, 159],
    formula := "HN7000 (CV7=254): CV200<<8 | CV200; otherwise CV159, or CV158<<8 | 143 when CV159=143",
    procedure := .hornby },
  { manufacturer := .trainomatic, registers := [510, 509, 508],
    formula := "CV508 + CV509*256 + CV510*65536", procedure := fun _ => .trainomatic },
  { manufacturer := .doehler, registers := [261], optional := [261],
    formula := "CV261 (absent on pre-2020 firmware)", procedure := fun _ => .doehler },
  { manufacturer := .harman, registers := [112, 113],
    formula := "CV112<<8 | CV113", procedure := fun _ => .harman },
  { manufacturer := .qsi, registers := [49, 50, 56],
    formula := "CV56<<8 | CV56, after CV49=254 with CV50=4 (high) and CV50=5 (low)",
    procedure := fun _ => .qsi },
  { manufacturer := .dietz, registers := [128], formula := "CV128", procedure := fun _ => .dietz },
  { manufacturer := .soundtraxx, registers := [253, 256, 255],
    models := .between 70 72,
    formula := "CV256 | (CV255 & 7)<<8 | CV253<<11", procedure := .soundtraxx },
  { manufacturer := .zimo, registers := [250], formula := "CV250", procedure := fun _ => .zimo },
  { manufacturer := .esu, registers := [31, 32, 261, 262, 263, 264],
    models := .only 255,
    formula := "CV261 + CV262<<8 + CV263<<16 + CV264<<24, after CV31=0, CV32=255", procedure := .esu },
  { manufacturer := .tcs, registers := [249, 248, 111, 110],
    formula := "CV249 when < 129, else combined with CV248, CV111, CV110 by model", procedure := .tcs }]

/-- The row of a manufacturer. -/
def ofManufacturer? (m : Manufacturer) : Option Protocol := table.find? (·.manufacturer = m)

/-- The row for a value of CV 8. -/
def lookup (code : Int) : Option Protocol := ofManufacturer? (.ofCode code)

end Protocol

end DecoderId
