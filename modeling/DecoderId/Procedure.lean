import DecoderId.Register.Basic

/-!
# Procedures

How the product ID of a decoder is found: a tree of operations that branches on what
answers them. A procedure can be run by hand against a list of values; it ends, because
it is a tree.
-/

namespace DecoderId

/-- What is left to do to find a product ID. -/
inductive Procedure where
  | done (productId : Option Int)
  | read (address : CvNumber) (optional : Bool) (message : String) (next : Nat → Procedure)
  | write (address : CvNumber) (value : Byte) (message : String) (next : Nat → Procedure)

namespace Procedure

/-- The operation that comes first. -/
def operation? : Procedure → Option Operation
  | done _ => none
  | read address optional message _ => some ⟨.read address optional, message⟩
  | write address value message _ => some ⟨.write address value, message⟩

/-- What is left when the first operation is answered by a value. -/
def answer : Procedure → Nat → Procedure
  | done productId, _ => done productId
  | read _ _ _ next, value => next value
  | write _ _ _ next, value => next value

/-- A procedure is a child of another if it is left when that one's first operation is
answered. -/
def Child (child parent : Procedure) : Prop := parent.operation?.isSome ∧ ∃ value, child = parent.answer value

theorem acc_child (p : Procedure) : Acc Child p := by
  induction p with
  | done _ => exact ⟨_, fun _ h => by simp [Child, operation?] at h⟩
  | read _ _ _ next ih => exact ⟨_, fun _ ⟨_, value, h⟩ => h ▸ ih value⟩
  | write _ _ _ next ih => exact ⟨_, fun _ ⟨_, value, h⟩ => h ▸ ih value⟩

/-- No procedure goes on forever. -/
theorem wellFounded_child : WellFounded Child := ⟨acc_child⟩

/-! ## Running by hand -/

/-- How a run by hand ends. -/
inductive Ending where
  /-- The procedure is done, and some values are left over. -/
  | finished (productId : Option Int) (unused : Nat)
  /-- No value is left for a read. -/
  | starved
deriving DecidableEq

/-- The operations of a run by hand, and how it ends. -/
structure Trace where
  operations : List Operation
  ending : Ending
deriving DecidableEq

/-- What a write is answered with in a run by hand. -/
def writeReply : Nat := 0

/-- Answers each read with the next of the values, and each write with the same. -/
def run : Procedure → List Nat → Trace
  | done productId, values => ⟨[], .finished productId values.length⟩
  | read address optional message next, values =>
    let op : Operation := ⟨.read address optional, message⟩
    match values with
    | [] => ⟨[op], .starved⟩
    | value :: rest =>
      let t := (next value).run rest
      ⟨op :: t.operations, t.ending⟩
  | write address value message next, values =>
    let t := (next writeReply).run values
    ⟨⟨.write address value, message⟩ :: t.operations, t.ending⟩

/-! ## Building blocks -/

/-- Reads a CV and goes on with its byte. -/
def reading (address : CvNumber) (message : String) (next : Nat → Procedure) : Procedure :=
  read address false message next

/-- Reads a CV that the decoder may not have. -/
def readingOptional (address : CvNumber) (message : String) (next : Nat → Procedure) : Procedure :=
  read address true message next

/-- Writes a CV and goes on, whatever it is answered with. -/
def writing (address : CvNumber) (value : Byte) (message : String) (next : Procedure) : Procedure :=
  write address value message fun _ => next

/-- Reads CVs one after the other and goes on with their bytes in this order. -/
def readingAll : List (CvNumber × String) → (List Nat → Procedure) → Procedure
  | [], next => next []
  | (address, message) :: rest, next => reading address message fun b => readingAll rest fun bs => next (b :: bs)

/-- Ends with a product ID. -/
def result (productId : Nat) : Procedure := done (some productId)

end Procedure

end DecoderId
