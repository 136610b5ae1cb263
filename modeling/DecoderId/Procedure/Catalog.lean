import DecoderId.Procedure

/-!
# The procedures of the manufacturers

One procedure per manufacturer, as a function of the model code in CV 7. Bytes are put
together by shifts, so that a value beyond a byte spills into its neighbour: `|||`
keeps the bits of both, `+` carries.
-/

namespace DecoderId.Procedure

/-- Bytes from the highest to the lowest as one number. -/
def bigEndian (bytes : List Nat) : Nat := bytes.foldl (fun n b => (n <<< 8) ||| b) 0

/-- Bytes from the lowest to the highest as one number. -/
def littleEndian : List Nat → Nat
  | [] => 0
  | b :: rest => b + (littleEndian rest <<< 8)

/-- The product ID is in CV 128. -/
def dietz : Procedure := reading { number := 128 } "Read productID CV 128" result

/-- Four bytes, the highest first. -/
def diy : Procedure :=
  readingAll [
    ({ number := 47 }, "Read decoder product ID #1 CV 47"),
    ({ number := 48 }, "Read decoder product ID #2 CV 48"),
    ({ number := 49 }, "Read decoder product ID #3 CV 49"),
    ({ number := 50 }, "Read decoder product ID #4 CV 50")] fun bytes => result (bigEndian bytes)

/-- CV 261, which firmware from before 2020 does not have. -/
def doehler : Procedure := readingOptional { number := 261 } "Read optional decoder ID CV 261" result

/-- The model with RailCom. -/
def esuModel : Int := 255

/-- Four bytes, the lowest first, on the page that CVs 31 and 32 select. -/
def esu (model : Int) : Procedure :=
  if model ≠ esuModel then done none
  else
    writing { number := 31 } 0 "Set PI for Read productID" <|
    writing { number := 32 } 255 "Set SI for Read productID" <|
    readingAll [
      ({ number := 261 }, "Read productID Byte 1"),
      ({ number := 262 }, "Read productID Byte 2"),
      ({ number := 263 }, "Read productID Byte 3"),
      ({ number := 264 }, "Read productID Byte 4")] fun bytes => result (littleEndian bytes)

/-- Two bytes, the high one first. -/
def harman : Procedure :=
  reading { number := 112 } "Read decoder ID high CV 112" fun high =>
  reading { number := 113 } "Read decoder ID low CV 113" fun low =>
  result ((high <<< 8) ||| low)

/-- The HN7000. -/
def hornbyModel : Int := 254

/-- The ID that a high byte in CV 158 extends. -/
def hornbyExtended : Nat := 143

/-- The HN7000 has both bytes in CV 200, which it is asked for twice. The others have one
byte in CV 159, and a second in CV 158 if that one is 143. -/
def hornby (model : Int) : Procedure :=
  if model = hornbyModel then
    readingOptional { number := 200 } "Read optional decoder ID CV 200" fun low =>
    reading { number := 200 } "Read Product ID High Byte" fun high =>
    result ((high <<< 8) ||| low)
  else
    readingOptional { number := 159 } "Read optional decoder ID CV 159" fun value =>
    if value ≠ hornbyExtended then result value
    else
      reading { number := 158 } "Read Product ID High Byte" fun high =>
      result ((high <<< 8) ||| value)

/-- Two bytes in CV 56, which CVs 49 and 50 select. -/
def qsi : Procedure :=
  writing { number := 49 } 254 "Set PI for Read Product ID High Byte" <|
  writing { number := 50 } 4 "Set SI for Read Product ID High Byte" <|
  reading { number := 56 } "Read Product ID High Byte" fun high =>
  writing { number := 50 } 5 "Set SI for Read Product ID Low Byte" <|
  reading { number := 56 } "Read Product ID Low Byte" fun low =>
  result ((high <<< 8) ||| low)

/-- The first and the last of the models with a product ID: Econami, Tsunami2, Blunami. -/
def soundtraxxModels : Int × Int := (70, 72)

/-- A low byte, three bits above it, and a high byte above those. -/
def soundtraxx (model : Int) : Procedure :=
  if soundtraxxModels.1 ≤ model ∧ model ≤ soundtraxxModels.2 then
    reading { number := 253 } "Read productID high CV253" fun highest =>
    reading { number := 256 } "Read decoder productID low CV256" fun low =>
    reading { number := 255 } "Read decoder productID CV255" fun high =>
    result (low ||| ((high &&& 7) <<< 8) ||| (highest <<< 11))
  else done none

/-- Lowest bytes below this are IDs of their own. -/
def tcsMobileLimit : Nat := 129

/-- The product ID in the bytes of a TCS decoder: the lowest, the two lowest or all four
of them, depending on the model and on the two lowest. -/
def tcsProductId (model lowest low high highest : Int) : Int :=
  let two := lowest + low * 256
  let four := two + high * 65536 + highest * 16777216
  let sound : Bool := 129 ≤ lowest && lowest ≤ 135
  if (sound ∧ low = 5) ∨ 5 ≤ model then
    if lowest = 180 ∧ model = 5 then two else four
  else if (sound ∨ (170 ≤ lowest ∧ lowest ≤ 172) ∨ lowest = 180) ∧ model = 4 then two
  else lowest

/-- One byte, or up to four. -/
def tcs (model : Int) : Procedure :=
  reading { number := 249 } "Read decoder ID CV 249" fun lowest =>
  if lowest < tcsMobileLimit then result lowest
  else
    reading { number := 248 } "Read decoder sound version number" fun low =>
    reading { number := 111 } "Read decoder extended Version ID Low Byte" fun high =>
    reading { number := 110 } "Read decoder extended Version ID High Byte" fun highest =>
    done (some (tcsProductId model lowest low high highest))

/-- Three bytes, the highest first. -/
def trainomatic : Procedure :=
  reading { number := 510 } "Read productID #1 CV 510" fun high =>
  reading { number := 509 } "Read productID #2 CV 509" fun low =>
  reading { number := 508 } "Read productID #3 CV 508" fun lowest =>
  result (lowest + low * 256 + high * 65536)

/-- The product ID is in CV 250. -/
def zimo : Procedure := reading { number := 250 } "Read decoder ID CV 250" result

end DecoderId.Procedure
