import DecoderId.Proofs.Procedure.Progress

/-!
# The CVs that a procedure comes to

Whatever bytes answer it, the procedure of a row reads none but the CVs of the row, and it
writes only the page that an ESU decoder with RailCom or a QSI decoder has to select
(`Protocol.every_of_lookup`).
-/

namespace DecoderId

/-- The request is for one of these CVs, and if it writes, for one that may be written. -/
def Request.Within (registers : List Nat) (writable : Nat → Prop) : Request → Prop
  | read address _ => address.number ∈ registers
  | write address _ => address.number ∈ registers ∧ writable address.number

theorem Request.Within.mem_registers {registers : List Nat} {writable : Nat → Prop} {request : Request}
    (h : request.Within registers writable) : request.address.number ∈ registers := by
  cases request with
  | read => exact h
  | write => exact h.1

namespace Procedure

/-- The procedure makes only requests of this kind, whatever values answer them. -/
def Every (P : Request → Prop) : Procedure → Prop
  | done _ => True
  | read address optional _ next => P (.read address optional) ∧ ∀ v, (next v).Every P
  | write address value _ next => P (.write address value) ∧ ∀ v, (next v).Every P

variable {P : Request → Prop} {p q : Procedure}

theorem Every.answer (h : p.Every P) (v : Nat) : (p.answer v).Every P := by
  cases p with
  | done => trivial
  | read | write => exact h.2 v

theorem Every.operation (h : p.Every P) {op : Operation} (ho : p.operation? = some op) : P op.request := by
  cases p with
  | done => cases ho
  | read | write =>
    cases ho
    exact h.1

/-- What is left of a procedure makes no other requests. -/
theorem Leads.every {n : Nat} {bytes : List Byte} (hq : p.Leads n bytes q) (h : p.Every P) : q.Every P := by
  induction hq with
  | start => exact h
  | answer b _ _ ih => exact ih.answer b

@[simp] theorem every_done {productId : Option Int} : (done productId).Every P := trivial

@[simp] theorem every_result {n : Nat} : (result n).Every P := trivial

variable {address : CvNumber} {message : String} {next : Nat → Procedure}

@[simp] theorem every_reading :
    (reading address message next).Every P ↔ P (.read address false) ∧ ∀ v, (next v).Every P := .rfl

@[simp] theorem every_readingOptional :
    (readingOptional address message next).Every P ↔ P (.read address true) ∧ ∀ v, (next v).Every P := .rfl

@[simp] theorem every_writing {value : Byte} {p : Procedure} :
    (writing address value message p).Every P ↔ P (.write address value) ∧ p.Every P := by
  simp [writing, Every]

theorem every_readingAll {registers : List (CvNumber × String)} {next : List Nat → Procedure}
    (hr : ∀ r ∈ registers, P (.read r.1 false)) (hn : ∀ bytes, (next bytes).Every P) :
    (readingAll registers next).Every P := by
  induction registers generalizing next with
  | nil => exact hn []
  | cons r rest ih =>
    have hrest : ∀ r ∈ rest, P (.read r.1 false) := fun r h => hr r (List.mem_cons_of_mem _ h)
    exact ⟨hr r List.mem_cons_self, fun v => ih hrest fun bytes => hn (v :: bytes)⟩

/-! ## The procedures -/

variable {writable : Nat → Prop}

theorem every_diy : diy.Every (Request.Within [47, 48, 49, 50] writable) :=
  every_readingAll (by simp [Request.Within]) (by simp)

theorem every_esu (model : Int) (h : model = esuModel → writable 31 ∧ writable 32) :
    (esu model).Every (Request.Within [31, 32, 261, 262, 263, 264] writable) := by
  unfold esu
  split
  · trivial
  · rename_i hmodel
    obtain ⟨h31, h32⟩ := h (Decidable.not_not.1 hmodel)
    rw [every_writing, every_writing]
    exact ⟨⟨by simp, h31⟩, ⟨by simp, h32⟩, every_readingAll (by simp [Request.Within]) (by simp)⟩

theorem every_hornby (model : Int) : (hornby model).Every (Request.Within [200, 159, 158] writable) := by
  unfold hornby
  split
  · simp [Request.Within]
  · rw [every_readingOptional]
    refine ⟨by simp [Request.Within], fun value => ?_⟩
    split
    · trivial
    · simp [Request.Within]

theorem every_qsi (h49 : writable 49) (h50 : writable 50) : qsi.Every (Request.Within [49, 50, 56] writable) := by
  simp [qsi, Request.Within, h49, h50]

theorem every_soundtraxx (model : Int) : (soundtraxx model).Every (Request.Within [253, 256, 255] writable) := by
  unfold soundtraxx
  split
  · simp [Request.Within]
  · trivial

theorem every_tcs (model : Int) : (tcs model).Every (Request.Within [249, 248, 111, 110] writable) := by
  rw [tcs, every_reading]
  refine ⟨by simp [Request.Within], fun lowest => ?_⟩
  split
  · trivial
  · simp [Request.Within]

end Procedure

/-! ## The rows -/

namespace Protocol

/-- The CVs that the procedure of a row may write: those that select a page, for the models that have one. -/
def Writes (p : Protocol) (model : Int) (cv : Nat) : Prop :=
  p.manufacturer = .esu ∧ model = 255 ∧ (cv = 31 ∨ cv = 32) ∨ p.manufacturer = .qsi ∧ (cv = 49 ∨ cv = 50)

theorem every_of_mem {p : Protocol} (h : p ∈ table) (model : Int) :
    (p.procedure model).Every (Request.Within p.registers (p.Writes model)) := by
  simp only [table, List.mem_cons, List.not_mem_nil, or_false] at h
  rcases h with rfl | rfl | rfl | rfl | rfl | rfl | rfl | rfl | rfl | rfl | rfl
  · exact Procedure.every_diy
  · exact Procedure.every_hornby model
  · simp [Procedure.trainomatic, Request.Within]
  · simp [Procedure.doehler, Request.Within]
  · simp [Procedure.harman, Request.Within]
  · exact Procedure.every_qsi (.inr ⟨rfl, .inl rfl⟩) (.inr ⟨rfl, .inr rfl⟩)
  · simp [Procedure.dietz, Request.Within]
  · exact Procedure.every_soundtraxx model
  · simp [Procedure.zimo, Request.Within]
  · refine Procedure.every_esu model fun hmodel => ?_
    exact ⟨.inl ⟨rfl, hmodel, .inl rfl⟩, .inl ⟨rfl, hmodel, .inr rfl⟩⟩
  · exact Procedure.every_tcs model

theorem every_of_lookup {code : Int} {p : Protocol} (h : lookup code = some p) (model : Int) :
    (p.procedure model).Every (Request.Within p.registers (p.Writes model)) :=
  every_of_mem (lookup_eq_some_iff.1 h).1 model

end Protocol

end DecoderId
