import DecoderId.Listener
import DecoderId.Proofs.Numeral
import DecoderId.Proofs.Procedure.Operations

/-!
# What a call does to a machine

A machine that calls lead to is of one of six kinds (`Machine.Stage`): new, waiting for
CV 8, for CV 7 or for an operation of a procedure, finished, or aborted. For each kind
we compute what `start` and `advance` do to it and what they answer, so that nothing
else has to look at the code again.
-/

namespace DecoderId

@[simp] theorem Turn.after_machine (events : List Event) (t : Turn) : (t.after events).machine = t.machine := rfl

@[simp] theorem Turn.after_answer (events : List Event) (t : Turn) : (t.after events).answer = t.answer := rfl

/-- The turns differ at most in what they tell. -/
structure Turn.Like (t u : Turn) : Prop where
  machine : t.machine = u.machine
  answer : t.answer = u.answer

/-- Why an outcome that is not a value is none. -/
def Outcome.reason? : Outcome → Option String
  | value _ => none
  | absent => some unexpectedAbsence
  | failure reason => some reason

theorem Outcome.value_or_reason (o : Outcome) : (∃ b, o = .value b) ∨ ∃ reason, o.reason? = some reason := by
  cases o with
  | value b => exact .inl ⟨b, rfl⟩
  | absent => exact .inr ⟨_, rfl⟩
  | failure reason => exact .inr ⟨_, rfl⟩

/-- The identity of a decoder with these codes. -/
def Identity.ofBytes (code model : Byte) (productId : Option Int) (h : ∀ id ∈ productId, isProductId id = true) :
    Identity :=
  ⟨some code.val, some model.val, productId, h⟩

theorem Identity.ofCodes_known {code model : Byte} {productId : Option Int}
    (h : ∀ id ∈ productId, isProductId id = true) :
    Identity.ofCodes (some code.val) (some model.val) productId = .ok (.ofBytes code model productId h) := by
  unfold Identity.ofCodes Identity.ofCodes?
  rw [dif_pos h]
  rfl

/-- The record of a run that has read both codes, and these bytes after them. -/
def Session.known (code model : Byte) (bytes : List Byte) (step : Int) : Session where
  manufacturerCode := some code
  manufacturer := some (.ofCode code.val)
  modelCode := some model
  accumulator := bytes
  step := step

namespace Machine

/-! ## The kinds of machine -/

/-- The first operation. -/
def askManufacturer : Operation := ⟨.read manufacturerCv false, "Read MFG ID - CV 8"⟩

/-- The second operation. -/
def askModel : Operation := ⟨.read modelCv false, "Read MFG version - CV 7"⟩

/-- Waiting for CV 8. -/
def askingManufacturer : Machine where
  session := { step := 1 }
  pending := some askManufacturer

/-- Waiting for CV 7. -/
def askingModel (code : Byte) : Machine where
  session := { manufacturerCode := some code, manufacturer := some (.ofCode code.val), step := 2 }
  pending := some askModel

/-- Waiting for the first operation of what is left of a procedure. -/
def following (code model : Byte) (bytes : List Byte) (step : Int) (p : Procedure) (op : Operation) : Machine where
  session := { Session.known code model bytes step with optionalPending := op.request.isOptional }
  script := some p
  pending := some op

/-- Done, with an identity. -/
def finished (session : Session) (identity : Identity) : Machine where
  session := session
  result := some identity

/-- Ended by a failure. -/
def aborted (session : Session) (failure : AccessFailure) : Machine where
  session := session
  failed := some failure

/-- The machines that calls lead to. -/
inductive Stage : Machine → Prop
  | new : Stage {}
  | manufacturer : Stage askingManufacturer
  | model (code : Byte) : Stage (askingModel code)
  | procedure {code model : Byte} {bytes : List Byte} {step : Int} {p : Procedure} {op : Operation} :
      p.operation? = some op → Remains code model step bytes p → Stage (following code model bytes step p op)
  | done {code model : Byte} {bytes : List Byte} {step : Int} {productId : Option Int}
      (h : ∀ id ∈ productId, isProductId id = true) :
      3 ≤ step → (productId ≠ none → Remains code model step bytes (.done productId)) →
      Stage (finished { Session.known code model bytes step with productId } (.ofBytes code model productId h))
  | failed {session : Session} {failure : AccessFailure} :
      2 ≤ session.step → session.manufacturer = session.manufacturerCode.map (fun code => .ofCode code.val) →
      session.productId = none → session.optionalPending = false → Stage (aborted session failure)

/-! ## One lemma per helper -/

variable {m : Machine} {op : Operation} {code model : Byte} {bytes : List Byte} {step : Int}

theorem start_of_started (h : m.session.step ≠ 0) : m.start = m.refuse .alreadyStarted := if_pos h

theorem advance_of_result (hs : m.session.step ≠ 0) (hr : m.result.isSome = true) (o : Outcome) :
    m.advance o = m.refuse .alreadyComplete := by
  unfold advance
  rw [if_neg hs, if_pos hr]

theorem advance_of_failed (hs : m.session.step ≠ 0) (hr : m.result = none) {failure : AccessFailure}
    (hf : m.failed = some failure) (o : Outcome) : m.advance o = m.refuse (.aborted failure) := by
  unfold advance
  rw [if_neg hs, if_neg (by simp [hr])]
  split
  · rename_i f he
    rw [hf, Option.some.injEq] at he
    rw [he]
  · rename_i he
    rw [hf] at he
    cases he

theorem follow_of_operation {p : Procedure} (h : p.operation? = some op) :
    m.follow p = { m with script := some p }.issue op := by
  cases p with
  | done productId => cases h
  | read address optional message next => cases h; rfl
  | write address value message next => cases h; rfl

theorem follow_done (m : Machine) (productId : Option Int) : (m.follow (.done productId)).Like (m.complete productId) :=
  ⟨rfl, rfl⟩

/-- Both codes are known and no operation is open. -/
structure Informed (m : Machine) (code model : Byte) (bytes : List Byte) (step : Int) : Prop where
  session : m.session = Session.known code model bytes step
  result : m.result = none
  failed : m.failed = none

theorem complete_of_informed (hm : m.Informed code model bytes step) {productId : Option Int}
    (h : ∀ id ∈ productId, isProductId id = true) :
    (m.complete productId).machine =
        finished { Session.known code model bytes step with productId } (.ofBytes code model productId h) ∧
      (m.complete productId).answer = .ok (.complete (.ofBytes code model productId h)) := by
  obtain ⟨session, script, pending, result, failed⟩ := m
  obtain ⟨rfl, rfl, rfl⟩ := hm
  constructor
  · simp only [complete, Session.known, Option.map_some, Identity.ofCodes_known h]
    rfl
  · simp only [complete, Session.known, Option.map_some, Identity.ofCodes_known h]

theorem follow_of_informed (hm : m.Informed code model bytes step) {p : Procedure} (h : p.operation? = some op) :
    (m.follow p).machine = following code model bytes step p op ∧ (m.follow p).answer = .ok (.operate op) := by
  rw [follow_of_operation h]
  obtain ⟨session, script, pending, result, failed⟩ := m
  obtain ⟨rfl, rfl, rfl⟩ := hm
  exact ⟨rfl, rfl⟩

/-! ## Outcomes -/

/-- A machine that waits for an operation. It does so at few steps only. -/
structure Waiting (m : Machine) (op : Operation) : Prop where
  step_pos : 0 < m.session.step
  step_lt : m.session.step < 9
  pending : m.pending = some op
  optional : m.session.optionalPending = op.request.isOptional
  result : m.result = none
  failed : m.failed = none

theorem Waiting.started (h : m.Waiting op) : m.session.step ≠ 0 := by
  have := h.step_pos
  omega

/-- A failure can name the step. -/
theorem Waiting.isWritable (h : m.Waiting op) : Numeral.isWritable (m.session.step + 1) = true := by
  have := h.step_pos
  have := h.step_lt
  exact Numeral.isWritable_of_lt (by omega)

theorem fail_of_isWritable (h : Numeral.isWritable m.session.step = true) (reason : String) :
    m.fail reason =
      { machine := { m with
          session := { m.session with optionalPending := false }
          script := none
          pending := none
          failed := some (m.failure reason) }
        answer := .error (.access (m.failure reason))
        events := [.note (.accessFailed (m.failure reason).address m.session.step reason)] } :=
  if_pos h

/-- Without a failure only the note is left. -/
theorem fail_of_not_isWritable (h : Numeral.isWritable m.session.step = false) (reason : String) :
    m.fail reason =
      ⟨m, .error .longInteger, [.note (.accessFailed (m.failure reason).address m.session.step reason)]⟩ :=
  if_neg (Bool.eq_false_iff.1 h)

/-- A run that is on counts the outcome and goes by it. -/
theorem advance_of_running (hs : m.session.step ≠ 0) (hr : m.result = none) (hf : m.failed = none) (o : Outcome) :
    (m.advance o).Like
      (match o with
        | .value b => (m.setStep (m.session.step + 1)).take b
        | .absent => (m.setStep (m.session.step + 1)).miss unexpectedAbsence
        | .failure reason => (m.setStep (m.session.step + 1)).miss reason) := by
  unfold advance
  rw [if_neg hs, if_neg (by simp [hr])]
  split
  · rename_i failure hfailed
    rw [hf] at hfailed
    cases hfailed
  · exact ⟨rfl, rfl⟩

theorem advance_value (h : m.Waiting op) (b : Byte) :
    (m.advance (.value b)).Like ((m.setStep (m.session.step + 1)).take b) :=
  advance_of_running h.started h.result h.failed (.value b)

/-- Outcomes that are no value differ in the reason only. -/
theorem advance_of_reason (hs : m.session.step ≠ 0) (hr : m.result = none) (hf : m.failed = none) {o : Outcome}
    {reason : String} (ho : o.reason? = some reason) :
    (m.advance o).Like ((m.setStep (m.session.step + 1)).miss reason) := by
  have h := advance_of_running hs hr hf o
  cases o with
  | value b => cases ho
  | absent => cases ho; exact h
  | failure r => cases ho; exact h

theorem miss_of_required (h : m.session.optionalPending = false) (reason : String) : m.miss reason = m.fail reason := by
  unfold miss
  rw [h]

/-- With a count of steps that cannot be written, there is no failure to tell: the count is all that is new, and the
run goes on. -/
theorem advance_of_not_isWritable (hs : m.session.step ≠ 0) (hr : m.result = none) (hf : m.failed = none)
    (hrequired : m.session.optionalPending = false) (hw : Numeral.isWritable (m.session.step + 1) = false)
    {o : Outcome} {reason : String} (ho : o.reason? = some reason) :
    (m.advance o).machine = m.setStep (m.session.step + 1) ∧ (m.advance o).answer = .error .longInteger := by
  obtain ⟨hm, ha⟩ := advance_of_reason hs hr hf ho
  have hmiss := miss_of_required (m := m.setStep (m.session.step + 1)) hrequired reason
  have hfail := fail_of_not_isWritable (m := m.setStep (m.session.step + 1)) hw reason
  rw [hm, ha, hmiss, hfail]
  exact ⟨rfl, rfl⟩

/-- A CV that may be missing ends the run without a product ID. -/
theorem advance_optional (h : m.Waiting op) (hop : op.request.isOptional = true) {o : Outcome} {reason : String}
    (ho : o.reason? = some reason) :
    (m.advance o).Like
      ({ m with session := { m.session with step := m.session.step + 1, optionalPending := false } }.complete none) := by
  obtain ⟨hm, ha⟩ := advance_of_reason h.started h.result h.failed ho
  obtain ⟨⟨address, optional⟩ | _, message⟩ := op
  · have hp : (m.setStep (m.session.step + 1)).pending = _ := h.pending
    have ho' : (m.setStep (m.session.step + 1)).session.optionalPending = true := h.optional.trans hop
    unfold miss at hm ha
    rw [ho', hp] at hm ha
    exact ⟨hm, ha⟩
  · cases hop

/-- Nothing else may go unanswered. -/
theorem advance_required (h : m.Waiting op) (hop : op.request.isOptional = false) {o : Outcome} {reason : String}
    (ho : o.reason? = some reason) :
    (m.advance o).machine =
        aborted { m.session with step := m.session.step + 1, optionalPending := false }
          ⟨op.request.address.number, reason, some (m.session.step + 1)⟩ ∧
      (m.advance o).answer =
        .error (.access ⟨op.request.address.number, reason, some (m.session.step + 1)⟩) := by
  obtain ⟨hm, ha⟩ := advance_of_reason h.started h.result h.failed ho
  have hp : (m.setStep (m.session.step + 1)).pending = _ := h.pending
  have hmiss := miss_of_required (m := m.setStep (m.session.step + 1)) (h.optional.trans hop) reason
  have hfail := fail_of_isWritable (m := m.setStep (m.session.step + 1)) h.isWritable reason
  rw [hm, ha, hmiss, hfail, failure, hp, show m = ⟨m.session, m.script, m.pending, m.result, m.failed⟩ from rfl, h.result]
  exact ⟨rfl, rfl⟩

/-! ## One lemma per kind -/

theorem waiting_askingManufacturer : askingManufacturer.Waiting askManufacturer :=
  ⟨by decide, by decide, rfl, rfl, rfl, rfl⟩

theorem waiting_askingModel (code : Byte) : (askingModel code).Waiting askModel :=
  ⟨by simp [askingModel], by simp [askingModel], rfl, rfl, rfl, rfl⟩

theorem waiting_following {p : Procedure} (h : Remains code model step bytes p) (hop : p.operation? = some op) :
    (following code model bytes step p op).Waiting op :=
  ⟨Int.lt_of_lt_of_le (by decide) h.step_ge, h.step_lt hop, rfl, rfl, rfl, rfl⟩

theorem start_new : (start {}).machine = askingManufacturer ∧ (start {}).answer = .ok (.operate askManufacturer) :=
  ⟨rfl, rfl⟩

theorem advance_askingManufacturer (b : Byte) :
    (askingManufacturer.advance (.value b)).machine = askingModel b ∧
      (askingManufacturer.advance (.value b)).answer = .ok (.operate askModel) := by
  obtain ⟨hm, ha⟩ := advance_value waiting_askingManufacturer b
  rw [hm, ha]
  exact ⟨rfl, rfl⟩

/-- A manufacturer without a procedure ends the run. -/
theorem advance_askingModel_of_none {code : Byte} (h : Protocol.lookup code.val = none) (b : Byte) :
    ∃ m : Machine, m.Informed code b [] 3 ∧ ((askingModel code).advance (.value b)).Like (m.complete none) := by
  refine ⟨{ session := Session.known code b [] 3, pending := some askModel }, ⟨rfl, rfl, rfl⟩, ?_⟩
  obtain ⟨hm, ha⟩ := advance_value (waiting_askingModel code) b
  constructor
  · rw [hm]; simp [take, takeModel, setStep, askingModel, Session.known, h]
  · rw [ha]; simp [take, takeModel, setStep, askingModel, Session.known, h]

/-- The manufacturer's procedure begins. -/
theorem advance_askingModel_of_some {code : Byte} {protocol : Protocol} (h : Protocol.lookup code.val = some protocol)
    (b : Byte) :
    ∃ m : Machine, m.Informed code b [] 3 ∧
      ((askingModel code).advance (.value b)).Like (m.follow (protocol.procedure b.val)) := by
  refine ⟨{ session := Session.known code b [] 3, pending := some askModel }, ⟨rfl, rfl, rfl⟩, ?_⟩
  obtain ⟨hm, ha⟩ := advance_value (waiting_askingModel code) b
  constructor
  · rw [hm]; simp [take, takeModel, setStep, askingModel, Session.known, h]
  · rw [ha]; simp [take, takeModel, setStep, askingModel, Session.known, h]

/-- A byte goes to the record if it answers a read, and the procedure goes on. -/
theorem advance_following {p : Procedure} (h : Remains code model step bytes p) (hop : p.operation? = some op) (b : Byte) :
    ∃ m : Machine, m.Informed code model (op.record bytes b) (step + 1) ∧
      ((following code model bytes step p op).advance (.value b)).Like (m.follow (p.answer b.val)) := by
  refine ⟨{ session := Session.known code model (op.record bytes b) (step + 1), script := some p, pending := some op },
    ⟨rfl, rfl, rfl⟩, ?_⟩
  obtain ⟨hm, ha⟩ := advance_value (waiting_following h hop) b
  have hstep := h.step_ge
  have h2 : step + 1 ≠ 2 := by omega
  have h3 : step + 1 ≠ 3 := by omega
  clear hop
  -- Only a read is recorded, so the kind of the operation matters.
  obtain ⟨⟨address, optional⟩ | ⟨address, value⟩, message⟩ := op
  all_goals
    constructor
    · rw [hm]; simp [take, takeByte, record, following, setStep, Session.known, Operation.record, h2, h3]
    · rw [ha]; simp [take, takeByte, record, following, setStep, Session.known, Operation.record, h2, h3]

/-- A CV that may be missing has no byte: the run ends with what is known. -/
theorem advance_following_optional {p : Procedure} (h : Remains code model step bytes p) (hop : p.operation? = some op)
    (hoptional : op.request.isOptional = true) {o : Outcome} {reason : String} (ho : o.reason? = some reason) :
    ∃ m : Machine, m.Informed code model bytes (step + 1) ∧
      ((following code model bytes step p op).advance o).Like (m.complete none) := by
  exact ⟨{ session := Session.known code model bytes (step + 1), script := some p, pending := some op },
    ⟨rfl, rfl, rfl⟩, advance_optional (waiting_following h hop) hoptional ho⟩

end Machine

end DecoderId
