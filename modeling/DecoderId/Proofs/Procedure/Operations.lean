import DecoderId.Proofs.Procedure.Reach
import Mathlib.Tactic.MkIffOfInductiveProp

/-!
# The operations of a procedure

However its reads are answered, the procedure of a row comes to an end after six operations at most.
Each of them has a message of its own, and none reads a CV that the procedure may write
(`Protocol.each_of_lookup`).
-/

namespace DecoderId

namespace Procedure

/-- The operations of the procedure are of this kind, each at its position, whatever values answer them. -/
def Each (P : Nat → Operation → Prop) : Nat → Procedure → Prop
  | _, done _ => True
  | n, read address optional message next =>
    P n ⟨.read address optional, message⟩ ∧ ∀ v, (next v).Each P (n + 1)
  | n, write address value message next => P n ⟨.write address value, message⟩ ∧ ∀ v, (next v).Each P (n + 1)

variable {P : Nat → Operation → Prop} {n : Nat} {p q : Procedure}

theorem Each.operation (h : p.Each P n) {op : Operation} (ho : p.operation? = some op) : P n op := by
  cases p with
  | done => cases ho
  | read | write =>
    cases ho
    exact h.1

theorem Each.answer (h : p.Each P n) (v : Nat) : (p.answer v).Each P (n + 1) := by
  cases p with
  | done => trivial
  | read | write => exact h.2 v

theorem Each.mono {Q : Nat → Operation → Prop} (h : p.Each P n) (hi : ∀ k op, P k op → Q k op) : p.Each Q n := by
  induction p generalizing n with
  | done => trivial
  | read _ _ _ _ ih | write _ _ _ _ ih => exact ⟨hi _ _ h.1, fun v => ih v (h.2 v)⟩

/-- What is left of a procedure begins as many positions later as operations have been answered. -/
theorem Leads.each {k : Nat} {bytes : List Byte} (hq : p.Leads k bytes q) (h : p.Each P n) : q.Each P (n + k) := by
  induction hq with
  | start => exact h
  | answer b _ _ ih => exact ih.answer b.val

@[simp] theorem each_done {productId : Option Int} : (done productId).Each P n := trivial

@[simp] theorem each_result {id : Nat} : (result id).Each P n := trivial

variable {address : CvNumber} {message : String} {next : Nat → Procedure}

@[simp] theorem each_reading :
    (reading address message next).Each P n ↔ P n ⟨.read address false, message⟩ ∧ ∀ v, (next v).Each P (n + 1) := .rfl

@[simp] theorem each_readingOptional :
    (readingOptional address message next).Each P n ↔
      P n ⟨.read address true, message⟩ ∧ ∀ v, (next v).Each P (n + 1) := .rfl

@[simp] theorem each_writing {value : Byte} {p : Procedure} :
    (writing address value message p).Each P n ↔ P n ⟨.write address value, message⟩ ∧ p.Each P (n + 1) := by
  simp [writing, Each]

end Procedure

namespace Protocol

/-- What the procedure of a row may do for a model, as its operation at a position. -/
@[mk_iff]
structure Permits (p : Protocol) (model : Int) (position : Nat) (op : Operation) : Prop where
  position_lt : position < 6
  message_ne_empty : op.message ≠ ""
  message_ne_done : op.message ≠ "Done"
  read : ∀ address optional, op.request = .read address optional → ¬ p.Writes model address.number

theorem each_of_mem {p : Protocol} (h : p ∈ table) (model : Int) : (p.procedure model).Each (p.Permits model) 0 := by
  simp only [table, List.mem_cons, List.not_mem_nil, or_false] at h
  rcases h with rfl | rfl | rfl | rfl | rfl | rfl | rfl | rfl | rfl | rfl | rfl
  · simp [Procedure.diy, Procedure.readingAll, permits_iff, Writes]
  · dsimp only
    unfold Procedure.hornby
    split
    · simp [permits_iff, Writes]
    · rw [Procedure.each_readingOptional]
      refine ⟨by simp [permits_iff, Writes], fun value => ?_⟩
      split
      · trivial
      · simp [permits_iff, Writes]
  · simp [Procedure.trainomatic, permits_iff, Writes]
  · simp [Procedure.doehler, permits_iff, Writes]
  · simp [Procedure.harman, permits_iff, Writes]
  · simp [Procedure.qsi, permits_iff, Writes]
  · simp [Procedure.dietz, permits_iff, Writes]
  · dsimp only
    unfold Procedure.soundtraxx
    split
    · simp [permits_iff, Writes]
    · trivial
  · simp [Procedure.zimo, permits_iff, Writes]
  · dsimp only
    unfold Procedure.esu
    split
    · trivial
    · simp [Procedure.readingAll, permits_iff, Writes]
  · dsimp only
    rw [Procedure.tcs, Procedure.each_reading]
    refine ⟨by simp [permits_iff, Writes], fun lowest => ?_⟩
    split
    · trivial
    · simp [permits_iff, Writes]

theorem each_of_lookup {code : Int} {p : Protocol} (h : lookup code = some p) (model : Int) :
    (p.procedure model).Each (p.Permits model) 0 :=
  each_of_mem (lookup_eq_some_iff.1 h).1 model

end Protocol

namespace Procedure

/-- An operation that is left of the procedure of a row is one that the row permits. -/
theorem Leads.permits {protocol : Protocol} {code : Int} (hl : Protocol.lookup code = some protocol) {model : Int}
    {bytes : List Byte} {q : Procedure} (hq : (protocol.procedure model).Leads n bytes q) {op : Operation}
    (ho : q.operation? = some op) : protocol.Permits model n op := by
  have heach := hq.each (Protocol.each_of_lookup hl model)
  rw [Nat.zero_add] at heach
  exact heach.operation ho

end Procedure

/-- An operation of a procedure is open at an early step. -/
theorem Remains.step_lt {code model : Byte} {step : Int} {bytes : List Byte} {q : Procedure} {op : Operation}
    (h : Remains code model step bytes q) (ho : q.operation? = some op) : step < 9 := by
  obtain ⟨protocol, n, hl, rfl, hq⟩ := h
  have := (hq.permits hl ho).position_lt
  omega

end DecoderId
