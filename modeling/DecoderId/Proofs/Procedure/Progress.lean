import DecoderId.Proofs.Procedure.Range

/-!
# How a procedure goes on

What is left of a procedure when its operations have been answered one by one, and the bytes that have
answered its reads (`Procedure.Leads`). What answers a write makes no difference to the procedures of the
table (`Protocol.ignoresReplies_of_lookup`).
-/

namespace DecoderId

/-- The bytes read so far when a byte answers the operation. What answers a write does not count. -/
def Operation.record (op : Operation) (bytes : List Byte) (b : Byte) : List Byte :=
  match op.request with
  | .read _ _ => bytes ++ [b]
  | .write _ _ => bytes

namespace Procedure

/-- What is left of a procedure when so many of its operations have been answered, these bytes its reads. -/
inductive Leads (p : Procedure) : Nat → List Byte → Procedure → Prop
  | start : Leads p 0 [] p
  | answer {n : Nat} {bytes : List Byte} {q : Procedure} {op : Operation} (b : Byte) :
      Leads p n bytes q → q.operation? = some op → Leads p (n + 1) (op.record bytes b) (q.answer b.val)

variable {p q : Procedure} {n : Nat}

theorem Leads.inRange {bytes : List Byte} (h : p.Leads n bytes q) (hp : p.InRange) : q.InRange := by
  induction h with
  | start => exact hp
  | answer b _ _ ih => exact ih.answer b

/-! ## Replies to writes -/

/-- The procedure goes on in the same way whatever answers a write. -/
def IgnoresReplies : Procedure → Prop
  | done _ => True
  | read _ _ _ next => ∀ v, (next v).IgnoresReplies
  | write _ _ _ next => ∀ v, next v = next writeReply ∧ (next v).IgnoresReplies

theorem IgnoresReplies.answer (h : p.IgnoresReplies) (v : Nat) : (p.answer v).IgnoresReplies := by
  cases p with
  | done => trivial
  | read => exact h v
  | write => exact (h v).2

theorem Leads.ignoresReplies {bytes : List Byte} (h : p.Leads n bytes q) (hp : p.IgnoresReplies) : q.IgnoresReplies := by
  induction h with
  | start => exact hp
  | answer b _ _ ih => exact ih.answer b.val

section
variable {address : CvNumber} {message : String} {next : Nat → Procedure}

@[simp] theorem ignoresReplies_done {productId : Option Int} : (done productId).IgnoresReplies := trivial

@[simp] theorem ignoresReplies_result {id : Nat} : (result id).IgnoresReplies := trivial

@[simp] theorem ignoresReplies_reading :
    (reading address message next).IgnoresReplies ↔ ∀ v, (next v).IgnoresReplies := .rfl

@[simp] theorem ignoresReplies_readingOptional :
    (readingOptional address message next).IgnoresReplies ↔ ∀ v, (next v).IgnoresReplies := .rfl

@[simp] theorem ignoresReplies_writing {value : Byte} :
    (writing address value message p).IgnoresReplies ↔ p.IgnoresReplies := by
  simp [writing, IgnoresReplies]

@[simp] theorem ignoresReplies_readingAll {registers : List (CvNumber × String)} {next : List Nat → Procedure}
    (h : ∀ bytes, (next bytes).IgnoresReplies) : (readingAll registers next).IgnoresReplies := by
  induction registers generalizing next with
  | nil => exact h []
  | cons r rest ih => exact fun v => ih fun bytes => h (v :: bytes)

end

theorem ignoresReplies_hornby (model : Int) : (hornby model).IgnoresReplies := by
  unfold hornby
  split
  · simp
  · rw [ignoresReplies_readingOptional]
    intro value
    split <;> simp

theorem ignoresReplies_tcs (model : Int) : (tcs model).IgnoresReplies := by
  rw [tcs, ignoresReplies_reading]
  intro lowest
  split <;> simp

end Procedure

namespace Protocol

open Procedure in
theorem ignoresReplies_of_mem {p : Protocol} (h : p ∈ table) (model : Int) : (p.procedure model).IgnoresReplies := by
  simp only [table, List.mem_cons, List.not_mem_nil, or_false] at h
  rcases h with rfl | rfl | rfl | rfl | rfl | rfl | rfl | rfl | rfl | rfl | rfl
  · simp [diy]
  · exact ignoresReplies_hornby model
  · simp [trainomatic]
  · simp [doehler]
  · simp [harman]
  · simp [qsi]
  · simp [dietz]
  · dsimp only
    unfold soundtraxx
    split <;> simp
  · simp [zimo]
  · dsimp only
    unfold esu
    split <;> simp
  · exact ignoresReplies_tcs model

theorem ignoresReplies_of_lookup {code : Int} {p : Protocol} (h : lookup code = some p) (model : Int) :
    (p.procedure model).IgnoresReplies :=
  ignoresReplies_of_mem (lookup_eq_some_iff.1 h).1 model

end Protocol

/-! ## The procedure for a decoder -/

/-- What is left, at a step, of the procedure for a decoder with these codes, when bytes have answered its
reads. Three steps come before its first operation is answered. -/
def Remains (code model : Byte) (step : Int) (bytes : List Byte) (q : Procedure) : Prop :=
  ∃ protocol n, Protocol.lookup code.val = some protocol ∧ step = (n : Nat) + 3 ∧
    (protocol.procedure model.val).Leads n bytes q

variable {code model : Byte} {step : Int} {bytes : List Byte} {q : Procedure}

theorem Remains.inRange (h : Remains code model step bytes q) : q.InRange := by
  obtain ⟨protocol, n, hl, -, hq⟩ := h
  exact hq.inRange (Protocol.inRange_of_lookup hl _)

theorem Remains.ignoresReplies (h : Remains code model step bytes q) : q.IgnoresReplies := by
  obtain ⟨protocol, n, hl, -, hq⟩ := h
  exact hq.ignoresReplies (Protocol.ignoresReplies_of_lookup hl _)

theorem Remains.step_ge (h : Remains code model step bytes q) : 3 ≤ step := by
  obtain ⟨protocol, n, -, rfl, -⟩ := h
  omega

theorem Remains.start {protocol : Protocol} (h : Protocol.lookup code.val = some protocol) (model : Byte) :
    Remains code model 3 [] (protocol.procedure model.val) :=
  ⟨protocol, 0, h, rfl, .start⟩

theorem Remains.answer {op : Operation} (h : Remains code model step bytes q) (ho : q.operation? = some op) (b : Byte) :
    Remains code model (step + 1) (op.record bytes b) (q.answer b.val) := by
  obtain ⟨protocol, n, hl, rfl, hq⟩ := h
  exact ⟨protocol, n + 1, hl, by omega, .answer b hq ho⟩

end DecoderId
