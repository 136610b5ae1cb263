/-!
# Manufacturers

The manufacturers with a known product ID procedure. CV 8 of a decoder holds the code
of its manufacturer; a code that none of them has stands for an unknown one.
-/

namespace DecoderId

/-- A decoder manufacturer. -/
inductive Manufacturer where
  | dietz
  | diy
  | doehler
  | esu
  | harman
  | hornby
  | qsi
  | soundtraxx
  | tcs
  | trainomatic
  | zimo
  | unknown
deriving DecidableEq, Repr

namespace Manufacturer

/-- The value of CV 8. No decoder reports the one of `unknown`. -/
def code : Manufacturer → Int
  | dietz => 115
  | diy => 13
  | doehler => 97
  | esu => 151
  | harman => 98
  | hornby => 48
  | qsi => 113
  | soundtraxx => 141
  | tcs => 153
  | trainomatic => 78
  | zimo => 145
  | unknown => -1

/-- The manufacturers that have a code. -/
def known : List Manufacturer :=
  [dietz, diy, doehler, esu, harman, hornby, qsi, soundtraxx, tcs, trainomatic, zimo]

/-- The manufacturer with a code. -/
def ofCode (code : Int) : Manufacturer := (known.find? (·.code = code)).getD unknown

/-- The name in capital letters. -/
def capitalName : Manufacturer → String
  | dietz => "DIETZ"
  | diy => "DIY"
  | doehler => "DOEHLER"
  | esu => "ESU"
  | harman => "HARMAN"
  | hornby => "HORNBY"
  | qsi => "QSI"
  | soundtraxx => "SOUNDTRAXX"
  | tcs => "TCS"
  | trainomatic => "TRAINOMATIC"
  | zimo => "ZIMO"
  | unknown => "UNKNOWN"

/-- The name in small letters. -/
def name : Manufacturer → String
  | dietz => "dietz"
  | diy => "diy"
  | doehler => "doehler"
  | esu => "esu"
  | harman => "harman"
  | hornby => "hornby"
  | qsi => "qsi"
  | soundtraxx => "soundtraxx"
  | tcs => "tcs"
  | trainomatic => "trainomatic"
  | zimo => "zimo"
  | unknown => "unknown"

theorem ofCode_code (m : Manufacturer) : ofCode m.code = m := by cases m <;> decide

end Manufacturer

end DecoderId
