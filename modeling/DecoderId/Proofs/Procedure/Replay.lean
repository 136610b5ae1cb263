import DecoderId.Proofs.Machine.Transition
import DecoderId.Proofs.Procedure.Description

/-!
# Replaying a procedure

A procedure has gone some way when its operations have been answered, one by one. The bytes that have answered
its reads are enough to run it by hand to the same point, with the same operations (`Procedure.LeadsBy.run`).
-/

namespace DecoderId

/-- The byte that has been read, if an operation is a read and a byte has come for it. -/
def byteRead? : Operation × Outcome → Option Byte
  | (⟨.read _ _, _⟩, .value b) => some b
  | _ => none

/-- The bytes that have been read. -/
def bytesRead (exchanges : List (Operation × Outcome)) : List Byte := exchanges.filterMap byteRead?

theorem bytesRead_append_value (exchanges : List (Operation × Outcome)) (op : Operation) (b : Byte) :
    bytesRead (exchanges ++ [(op, .value b)]) = op.record (bytesRead exchanges) b := by
  obtain ⟨⟨address, optional⟩ | ⟨address, value⟩, message⟩ := op
  · simp [bytesRead, byteRead?, Operation.record]
  · simp [bytesRead, byteRead?, Operation.record]

theorem bytesRead_append_of_reason (exchanges : List (Operation × Outcome)) (op : Operation) {o : Outcome}
    {reason : String} (ho : o.reason? = some reason) : bytesRead (exchanges ++ [(op, o)]) = bytesRead exchanges := by
  cases o with
  | value b => cases ho
  | absent => simp [bytesRead, byteRead?]
  | failure reason => simp [bytesRead, byteRead?]

namespace Procedure

/-- What is left of a procedure when each of its operations so far has been answered by a byte. -/
inductive LeadsBy (p : Procedure) : List (Operation × Outcome) → Procedure → Prop
  | start : LeadsBy p [] p
  | answer {exchanges : List (Operation × Outcome)} {q : Procedure} {op : Operation} (b : Byte) :
      LeadsBy p exchanges q → q.operation? = some op → LeadsBy p (exchanges ++ [(op, .value b)]) (q.answer b.val)

variable {p q : Procedure} {exchanges : List (Operation × Outcome)}

theorem LeadsBy.leads (h : p.LeadsBy exchanges q) : p.Leads exchanges.length (bytesRead exchanges) q := by
  induction h with
  | start => exact .start
  | answer b _ ho ih =>
    rw [bytesRead_append_value, List.length_append]
    exact .answer b ih ho

/-- The exchanges come after the three steps to the first operation. -/
theorem LeadsBy.remains {code model : Byte} {protocol : Protocol} (h : (protocol.procedure model.val).LeadsBy exchanges q)
    (hl : Protocol.lookup code.val = some protocol) :
    Remains code model ((exchanges.length : Nat) + 3) (bytesRead exchanges) q :=
  ⟨protocol, exchanges.length, hl, rfl, h.leads⟩

/-- A run by hand starts with the operation that comes first, and takes a value for it if it is a read. -/
theorem run_of_operation (h : p.IgnoresReplies) {op : Operation} (ho : p.operation? = some op) (b : Byte) (rest : List Nat) :
    p.run ((op.record [] b).map (·.val) ++ rest) =
      ⟨op :: ((p.answer b.val).run rest).operations, ((p.answer b.val).run rest).ending⟩ := by
  cases p with
  | done => cases ho
  | read address optional message next =>
    cases ho
    rfl
  | write address value message next =>
    cases ho
    rw [answer, (h b.val).1]
    rfl

/-- The bytes that have been read, and any values after them: a run by hand comes to the same operations, and goes on
with what is left. -/
theorem LeadsBy.run (h : p.LeadsBy exchanges q) (hp : p.IgnoresReplies) (rest : List Nat) :
    p.run ((bytesRead exchanges).map (·.val) ++ rest) =
      ⟨exchanges.map Prod.fst ++ (q.run rest).operations, (q.run rest).ending⟩ := by
  -- On the exchanges: the byte that has been read last is the first of the values for what was left before it.
  induction h generalizing rest with
  | start => rfl
  | @answer exchanges q op b hq ho ih =>
    have hrecord : op.record (bytesRead exchanges) b = bytesRead exchanges ++ op.record [] b := by
      unfold Operation.record
      split
      · rfl
      · rw [List.append_nil]
    rw [bytesRead_append_value, hrecord, List.map_append, List.append_assoc, ih,
      run_of_operation (hq.leads.ignoresReplies hp) ho]
    simp

/-- A finished run has used up the bytes that have been read. -/
theorem LeadsBy.run_done {productId : Option Int} (h : p.LeadsBy exchanges (.done productId)) (hp : p.IgnoresReplies) :
    p.run ((bytesRead exchanges).map (·.val)) = ⟨exchanges.map Prod.fst, .finished productId 0⟩ := by
  have hrun := h.run hp []
  simpa [Procedure.run] using hrun

theorem LeadsBy.endsWithin {n : Nat} (h : p.LeadsBy exchanges q) (hp : p.EndsWithin n) :
    ∃ k, k + (bytesRead exchanges).length = n ∧ q.EndsWithin k := by
  induction h with
  | start => exact ⟨n, rfl, hp⟩
  | @answer exchanges q op b _ ho ih =>
    obtain ⟨k, hk, hq⟩ := ih
    rw [bytesRead_append_value]
    cases q with
    | done => cases ho
    | read address optional message next =>
      cases ho
      obtain ⟨hpos, hnext⟩ := hq
      refine ⟨k - 1, ?_, hnext b.val⟩
      rw [Operation.record, List.length_append, List.length_singleton]
      omega
    | write address value message next =>
      cases ho
      exact ⟨k, hk, hq b.val⟩

/-- The first operation, or none, has been answered. -/
theorem leadsBy_iff :
    p.LeadsBy exchanges q ↔
      exchanges = [] ∧ q = p ∨
        ∃ op b rest, exchanges = (op, .value b) :: rest ∧ p.operation? = some op ∧ (p.answer b.val).LeadsBy rest q := by
  constructor
  · intro h
    induction h with
    | start => exact .inl ⟨rfl, rfl⟩
    | @answer exchanges q op b _ ho ih =>
      rcases ih with ⟨rfl, rfl⟩ | ⟨first, c, rest, rfl, hfirst, hrest⟩
      · exact .inr ⟨op, b, [], rfl, ho, .start⟩
      · exact .inr ⟨first, c, rest ++ [(op, .value b)], rfl, hfirst, .answer b hrest ho⟩
  · rintro (⟨rfl, rfl⟩ | ⟨op, b, rest, rfl, ho, h⟩)
    · exact .start
    · induction h with
      | start => exact .answer b .start ho
      | answer c _ hc ih => exact .answer c ih hc

end Procedure

namespace Protocol

/-- The procedure of a row reads four bytes at most. -/
theorem length_bytesRead_le {code : Int} {p : Protocol} (hl : lookup code = some p) {model : Int}
    {exchanges : List (Operation × Outcome)} {q : Procedure} (hq : (p.procedure model).LeadsBy exchanges q) :
    (bytesRead exchanges).length ≤ 4 := by
  have h : p ∈ table := (lookup_eq_some_iff.1 hl).1
  cases hm : p.models.contains model with
  | false =>
    rw [procedure_of_not_covered h hm] at hq
    rcases Procedure.leadsBy_iff.1 hq with ⟨rfl, -⟩ | ⟨op, b, rest, -, ho, -⟩
    · exact Nat.zero_le 4
    · cases ho
  | true =>
    obtain ⟨k, hk, -⟩ := hq.endsWithin (keeps_of_mem h hm).endsWithin
    omega

end Protocol

end DecoderId
