import DecoderId.Manufacturer

/-!
# Registers

A decoder has configuration variables (CVs) numbered from 1 to 1024, each one byte. A
request reads or writes one of them; the programming link answers it with a byte, with
the absence of the CV, or with a failure. An identification ends with an identity.
-/

namespace DecoderId

/-- The contents of a CV. -/
abbrev Byte := Fin 256

/-- The byte with a value. -/
def Byte.ofInt? (n : Int) : Option Byte :=
  if h : 0 ≤ n ∧ n < 256 then some ⟨n.toNat, by omega⟩ else none

/-- The greatest CV number. -/
abbrev maxCv : Nat := 1024

/-- The number of a CV. -/
structure CvNumber where
  number : Nat
  one_le : 1 ≤ number := by decide
  le_max : number ≤ maxCv := by decide
deriving DecidableEq

/-- The CV with a number. -/
def CvNumber.ofInt? (n : Int) : Option CvNumber :=
  if h : 1 ≤ n ∧ n ≤ 1024 then some ⟨n.toNat, by omega, by simp only [maxCv]; omega⟩ else none

theorem Byte.ofInt?_eq_some_iff {n : Int} {b : Byte} : Byte.ofInt? n = some b ↔ (b.val : Int) = n := by
  have := b.isLt
  unfold Byte.ofInt?
  split
  · rw [Option.some.injEq, Fin.ext_iff]
    simp only
    omega
  · simp only [reduceCtorEq, false_iff]
    omega

theorem Byte.ofInt?_val (b : Byte) : Byte.ofInt? b.val = some b := Byte.ofInt?_eq_some_iff.2 rfl

/-! ## Requests and their outcomes -/

/-- What is asked of the programming link. An optional read may find no such CV. -/
inductive Request where
  | read (address : CvNumber) (optional : Bool)
  | write (address : CvNumber) (value : Byte)
deriving DecidableEq

def Request.address : Request → CvNumber
  | read a _ => a
  | write a _ => a

/-- Is this an optional read? -/
def Request.isOptional : Request → Bool
  | read _ optional => optional
  | write _ _ => false

/-- A request and the message that tells of it. -/
structure Operation where
  request : Request
  message : String := ""
deriving DecidableEq

/-- How a request ended. -/
inductive Outcome where
  /-- The byte read, or written. -/
  | value (b : Byte)
  /-- An optional read found no such CV. -/
  | absent
  | failure (reason : String)
deriving DecidableEq

/-- The reason of a failure about which nothing is known. -/
def Outcome.unknownReason : String := "unknown error"

/-! ## The result of an identification -/

/-- The product IDs. -/
def isProductId (n : Int) : Bool := 0 ≤ n && n ≤ 0xffffffff

theorem isProductId_iff {id : Int} : isProductId id = true ↔ 0 ≤ id ∧ id ≤ 0xffffffff := by
  simp [isProductId]

/-- What a decoder is. A product ID is there if the manufacturer has a procedure for it
and the decoder has the CVs. -/
structure Identity where
  manufacturerCode : Option Int
  modelCode : Option Int
  productId : Option Int
  productId_valid : ∀ id ∈ productId, isProductId id = true
deriving DecidableEq

/-- The identity with these codes, if the product ID is one. -/
def Identity.ofCodes? (manufacturerCode modelCode productId : Option Int) : Option Identity :=
  if h : ∀ id ∈ productId, isProductId id = true then some ⟨manufacturerCode, modelCode, productId, h⟩ else none

/-- The manufacturer of an identity. -/
def Identity.manufacturer (i : Identity) : Manufacturer :=
  match i.manufacturerCode with
  | none => .unknown
  | some code => .ofCode code

/-- What an identification asks for next. -/
inductive Action where
  | operate (operation : Operation)
  | complete (identity : Identity)
deriving DecidableEq

/-- Do two actions ask for the same? Messages do not matter. -/
def Action.agrees : Action → Action → Bool
  | operate a, operate b => a.request = b.request
  | complete a, complete b => a = b
  | _, _ => false

end DecoderId
