import DecoderId.Numeral
import DecoderId.Register.Basic
import DecoderId.Text.Quoted

/-!
# Registers in messages

How messages show outcomes, operations and identities.
-/

namespace DecoderId

/-- A truth value as messages show it. -/
def displayBool (b : Bool) : String := if b then "True" else "False"

/-- An integer that may be missing as messages show it. -/
def displayOption : Option Int → String
  | none => "None"
  | some n => Numeral.decimal n

def Outcome.display : Outcome → String
  | .value b => "Value(value=" ++ Numeral.decimal b.val ++ ")"
  | .absent => "Absent()"
  | .failure reason => "Failure(reason=" ++ quoted reason ++ ")"

def Operation.display (op : Operation) : String :=
  match op.request with
  | .read a optional =>
    "IssueRead(address=" ++ Numeral.decimal a.number ++ ", optional=" ++ displayBool optional ++
      ", message=" ++ quoted op.message ++ ")"
  | .write a value =>
    "IssueWrite(address=" ++ Numeral.decimal a.number ++ ", value=" ++ Numeral.decimal value.val ++
      ", message=" ++ quoted op.message ++ ")"

def Identity.display (i : Identity) : String :=
  "Complete(manufacturer_code=" ++ displayOption i.manufacturerCode ++ ", model_code=" ++
    displayOption i.modelCode ++ ", product_id=" ++ displayOption i.productId ++ ")"

def Action.display : Action → String
  | .operate op => op.display
  | .complete i => i.display

end DecoderId
