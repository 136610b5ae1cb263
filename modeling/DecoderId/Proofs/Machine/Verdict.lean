import DecoderId.Proofs.Machine.Calls

/-!
# What a call comes to

A call that does not fit the phase of a machine is refused and changes nothing. Any other
call issues an operation and waits for it, finds the identity and keeps it, or fails and
keeps the failure (`Machine.Stage.call_cases`). A machine that keeps an identity or a
failure refuses all that is called afterwards (`Machine.Ended`).
-/

namespace DecoderId

/-- The operation that the turn issues. -/
def Turn.operation? (t : Turn) : Option Operation :=
  match t.answer with
  | .ok (.operate op) => some op
  | _ => none

theorem Turn.operation?_of_operate {t : Turn} {op : Operation} (h : t.answer = .ok (.operate op)) :
    t.operation? = some op := by
  unfold Turn.operation?
  rw [h]

theorem Turn.operation?_of_ne {t : Turn} (h : ∀ op, t.answer ≠ .ok (.operate op)) : t.operation? = none := by
  unfold Turn.operation?
  split
  · rename_i op ha
    exact absurd ha (h op)
  · rfl

namespace Machine

variable {m : Machine} {op : Operation} {code model : Byte} {bytes : List Byte} {step : Int}

/-! ## Calls that fit -/

/-- The call issues an operation, finds the identity, or fails, and the machine is left as the answer says. -/
inductive Decides (t : Turn) : Prop
  | issues (op : Operation) : t.answer = .ok (.operate op) → t.machine.Waiting op → Decides t
  | completes (identity : Identity) :
      t.answer = .ok (.complete identity) → t.machine.result = some identity → Decides t
  | fails (failure : AccessFailure) :
      t.answer = .error (.access failure) → t.machine.failed = some failure → Decides t

theorem Decides.of_like {t u : Turn} (h : t.Like u) (hu : Decides u) : Decides t := by
  obtain ⟨hm, ha⟩ := h
  cases hu with
  | issues op ho hw => exact .issues op (ha.trans ho) (hm ▸ hw)
  | completes identity hi hr => exact .completes identity (ha.trans hi) (hm ▸ hr)
  | fails failure hf hk => exact .fails failure (ha.trans hf) (hm ▸ hk)

/-- The only fault of a call that fits is a failure. -/
theorem Decides.access_of_error {t : Turn} (h : Decides t) {f : Fault} (hf : t.answer = .error f) :
    ∃ failure, f = .access failure := by
  cases h with
  | issues op ha => simp [ha] at hf
  | completes identity ha => simp [ha] at hf
  | fails failure ha =>
    rw [ha] at hf
    cases hf
    exact ⟨failure, rfl⟩

theorem Decides.answer_ne_misuse {t : Turn} (h : Decides t) (misuse : Misuse) : t.answer ≠ .error (.misuse misuse) := by
  intro hf
  obtain ⟨failure, he⟩ := h.access_of_error hf
  cases he

/-- An operation that a call issues is open afterwards. -/
theorem Decides.pending {t : Turn} (h : Decides t) (ho : t.answer = .ok (.operate op)) : t.machine.pending = some op := by
  cases h with
  | issues op' ha hw =>
    rw [ha] at ho
    cases ho
    exact hw.pending
  | completes identity ha => simp [ha] at ho
  | fails failure ha => simp [ha] at ho

/-- The verdict of a call is kept. -/
theorem Decides.result {t : Turn} (h : Decides t) {identity : Identity} (hi : t.answer = .ok (.complete identity)) :
    t.machine.result = some identity := by
  cases h with
  | issues op ha => simp [ha] at hi
  | completes identity' ha hr =>
    rw [ha] at hi
    cases hi
    exact hr
  | fails failure ha => simp [ha] at hi

theorem Decides.failed {t : Turn} (h : Decides t) {failure : AccessFailure} (hf : t.answer = .error (.access failure)) :
    t.machine.failed = some failure := by
  cases h with
  | issues op ha => simp [ha] at hf
  | completes identity ha => simp [ha] at hf
  | fails failure' ha hk =>
    rw [ha] at hf
    cases hf
    exact hk

theorem decides_complete (hm : m.Informed code model bytes step) {productId : Option Int}
    (h : ∀ id ∈ productId, isProductId id = true) : Decides (m.complete productId) := by
  obtain ⟨hmachine, hanswer⟩ := complete_of_informed hm h
  exact .completes _ hanswer (by rw [hmachine]; rfl)

theorem decides_follow (hm : m.Informed code model bytes step) {p : Procedure} (hr : Remains code model step bytes p) :
    Decides (m.follow p) := by
  cases ho : p.operation? with
  | none =>
    cases p with
    | done productId => exact .of_like (follow_done m productId) (decides_complete hm hr.inRange)
    | read | write => cases ho
  | some op =>
    obtain ⟨hmachine, hanswer⟩ := follow_of_informed hm ho
    refine .issues op hanswer ?_
    rw [hmachine]
    exact waiting_following hr ho

/-- An open operation is waited for. -/
theorem Stage.waiting (h : Stage m) (hp : m.pending = some op) : m.Waiting op := by
  cases h with
  | new => cases hp
  | manufacturer =>
    cases hp
    exact waiting_askingManufacturer
  | model code =>
    cases hp
    exact waiting_askingModel code
  | procedure hop hr =>
    cases hp
    exact waiting_following hr hop
  | done => cases hp
  | failed => cases hp

theorem decides_start : Decides (start {}) :=
  .issues askManufacturer start_new.2 (start_new.1 ▸ waiting_askingManufacturer)

/-- Whatever the outcome of an open operation is, the machine goes on with it. -/
theorem Stage.decides_advance (h : Stage m) (hp : m.pending = some op) (o : Outcome) : Decides (m.advance o) := by
  have hw : m.Waiting op := h.waiting hp
  rcases o.value_or_reason with ⟨b, rfl⟩ | ⟨reason, ho⟩
  · cases h with
    | new | done | failed => cases hp
    | manufacturer =>
      obtain ⟨hmachine, hanswer⟩ := advance_askingManufacturer b
      exact .issues askModel hanswer (hmachine ▸ waiting_askingModel b)
    | model code =>
      cases hl : Protocol.lookup code.val with
      | none =>
        obtain ⟨m, hm, hlike⟩ := advance_askingModel_of_none hl b
        exact .of_like hlike (decides_complete hm (by simp))
      | some protocol =>
        obtain ⟨m, hm, hlike⟩ := advance_askingModel_of_some hl b
        exact .of_like hlike (decides_follow hm (.start hl b))
    | procedure hop hr =>
      obtain ⟨m, hm, hlike⟩ := advance_following hr hop b
      exact .of_like hlike (decides_follow hm (hr.answer hop b))
  · cases hopt : op.request.isOptional with
    | false =>
      obtain ⟨hmachine, hanswer⟩ := advance_required hw hopt ho
      exact .fails _ hanswer (by rw [hmachine]; rfl)
    | true =>
      cases h with
      | new | done | failed => cases hp
      | manufacturer | model =>
        cases hp
        cases hopt
      | procedure hop hr =>
        cases hp
        obtain ⟨m, hm, hlike⟩ := advance_following_optional hr hop hopt ho
        exact .of_like hlike (decides_complete hm (by simp))

/-! ## Outcomes and answers -/

theorem follow_answer (hm : m.Informed code model bytes step) {p : Procedure} (hp : p.InRange) :
    ∃ action, (m.follow p).answer = .ok action := by
  cases ho : p.operation? with
  | some op => exact ⟨_, (follow_of_informed hm ho).2⟩
  | none =>
    cases p with
    | read | write => cases ho
    | done productId => exact ⟨_, (follow_done m productId).answer.trans (complete_of_informed hm hp).2⟩

/-- No byte ends a run in a failure. -/
theorem Stage.advance_of_value (h : Stage m) (hp : m.pending = some op) (b : Byte) :
    ∃ action, (m.advance (.value b)).answer = .ok action := by
  cases h with
  | new | done | failed => cases hp
  | manufacturer => exact ⟨_, (advance_askingManufacturer b).2⟩
  | model code =>
    cases hl : Protocol.lookup code.val with
    | none =>
      obtain ⟨m, hm, hlike⟩ := advance_askingModel_of_none hl b
      exact ⟨_, hlike.answer.trans (complete_of_informed hm (by simp)).2⟩
    | some protocol =>
      obtain ⟨m, hm, hlike⟩ := advance_askingModel_of_some hl b
      rw [hlike.answer]
      exact follow_answer hm (Protocol.inRange_of_lookup hl _)
  | procedure hop hr =>
    obtain ⟨m, hm, hlike⟩ := advance_following hr hop b
    rw [hlike.answer]
    exact follow_answer hm (hr.inRange.answer b)

/-- Without a byte, a read of a CV that may be missing ends the run without a product ID. -/
theorem Stage.advance_of_optional (h : Stage m) (hp : m.pending = some op) (hopt : op.request.isOptional = true)
    {o : Outcome} {reason : String} (ho : o.reason? = some reason) :
    ∃ identity, (m.advance o).answer = .ok (.complete identity) ∧ identity.productId = none := by
  cases h with
  | new | done | failed => cases hp
  | manufacturer | model =>
    cases hp
    cases hopt
  | procedure hop hr =>
    cases hp
    obtain ⟨m, hm, hlike⟩ := advance_following_optional hr hop hopt ho
    exact ⟨_, hlike.answer.trans (complete_of_informed hm (by simp)).2, rfl⟩

/-- A failure tells of the open operation, and why that has no byte. -/
theorem Stage.failure_of_answer (h : Stage m) (hp : m.pending = some op) {o : Outcome} {f : AccessFailure}
    (ha : (m.advance o).answer = .error (.access f)) :
    ∃ reason, o.reason? = some reason ∧ op.request.isOptional = false ∧
      f = ⟨op.request.address.number, reason, some (m.session.step + 1)⟩ := by
  rcases o.value_or_reason with ⟨b, rfl⟩ | ⟨reason, ho⟩
  · obtain ⟨action, hok⟩ := h.advance_of_value hp b
    rw [hok] at ha
    cases ha
  · cases hopt : op.request.isOptional with
    | true =>
      obtain ⟨identity, hok, -⟩ := h.advance_of_optional hp hopt ho
      rw [hok] at ha
      cases ha
    | false =>
      rw [(advance_required (h.waiting hp) hopt ho).2] at ha
      cases ha
      exact ⟨reason, ho, rfl, rfl⟩

/-! ## Operations that are issued -/

/-- Only a byte makes a machine issue an operation. -/
theorem Stage.value_of_operate (h : Stage m) {pending : Operation} (hp : m.pending = some pending) {o : Outcome}
    (ha : (m.advance o).answer = .ok (.operate op)) : ∃ b, o = .value b := by
  rcases o.value_or_reason with ⟨b, rfl⟩ | ⟨reason, ho⟩
  · exact ⟨b, rfl⟩
  · cases hopt : pending.request.isOptional with
    | true =>
      obtain ⟨identity, hok, -⟩ := h.advance_of_optional hp hopt ho
      rw [hok] at ha
      cases ha
    | false =>
      rw [(advance_required (h.waiting hp) hopt ho).2] at ha
      cases ha

theorem operation_of_follow (hm : m.Informed code model bytes step) {p : Procedure} (hp : p.InRange)
    (ha : (m.follow p).answer = .ok (.operate op)) :
    p.operation? = some op ∧ (m.follow p).machine = following code model bytes step p op := by
  cases ho : p.operation? with
  | some next =>
    obtain ⟨hmachine, hanswer⟩ := follow_of_informed hm ho
    rw [hanswer] at ha
    cases ha
    exact ⟨rfl, hmachine⟩
  | none =>
    cases p with
    | read | write => cases ho
    | done productId =>
      rw [(follow_done m productId).answer, (complete_of_informed hm hp).2] at ha
      cases ha

/-- After CV 7 comes the first operation of the manufacturer's procedure. -/
theorem operation_of_askingModel {b : Byte}
    (ha : ((askingModel code).advance (.value b)).answer = .ok (.operate op)) :
    ∃ protocol, Protocol.lookup code.val = some protocol ∧ (protocol.procedure b.val).operation? = some op ∧
      ((askingModel code).advance (.value b)).machine = following code b [] 3 (protocol.procedure b.val) op := by
  cases hl : Protocol.lookup code.val with
  | none =>
    obtain ⟨m, hm, hlike⟩ := advance_askingModel_of_none hl b
    rw [hlike.answer, (complete_of_informed hm (by simp)).2] at ha
    cases ha
  | some protocol =>
    obtain ⟨m, hm, hlike⟩ := advance_askingModel_of_some hl b
    rw [hlike.answer] at ha
    obtain ⟨hop, hmachine⟩ := operation_of_follow hm (Protocol.inRange_of_lookup hl _) ha
    exact ⟨protocol, rfl, hop, hlike.machine.trans hmachine⟩

/-- After an operation of the procedure comes the first one of what is left. -/
theorem operation_of_following {b : Byte} {p : Procedure} {next : Operation} (hop : p.operation? = some op)
    (hr : Remains code model step bytes p)
    (ha : ((following code model bytes step p op).advance (.value b)).answer = .ok (.operate next)) :
    (p.answer b.val).operation? = some next ∧ Remains code model (step + 1) (op.record bytes b) (p.answer b.val) ∧
      ((following code model bytes step p op).advance (.value b)).machine =
        following code model (op.record bytes b) (step + 1) (p.answer b.val) next := by
  obtain ⟨m, hm, hlike⟩ := advance_following hr hop b
  rw [hlike.answer] at ha
  obtain ⟨hnext, hmachine⟩ := operation_of_follow hm (hr.inRange.answer b) ha
  exact ⟨hnext, hr.answer hop b, hlike.machine.trans hmachine⟩

/-! ## Calls that do not fit -/

/-- The run is over: it has started, and an identity or a failure is kept. -/
structure Ended (m : Machine) : Prop where
  started : m.session.step ≠ 0
  verdict : m.result.isSome ∨ m.failed.isSome

/-- The call starts a machine again, or asks it to go on before the start or after the end. -/
def Refuses (m : Machine) : Input → Prop
  | .start => m.session.step ≠ 0
  | .advance _ => m.session.step = 0 ∨ m.result.isSome ∨ m.failed.isSome

/-- A machine is new, waits for an operation, or has ended. -/
theorem Stage.new_or_pending_or_ended (h : Stage m) : m = {} ∨ (∃ op, m.pending = some op) ∨ m.Ended := by
  cases h with
  | new => exact .inl rfl
  | manufacturer => exact .inr (.inl ⟨_, rfl⟩)
  | model code => exact .inr (.inl ⟨_, rfl⟩)
  | procedure => exact .inr (.inl ⟨_, rfl⟩)
  | done _ h3 => exact .inr (.inr ⟨by simp only [finished, Session.known]; omega, .inl rfl⟩)
  | failed h2 => exact .inr (.inr ⟨by simp only [aborted]; omega, .inr rfl⟩)

theorem Stage.ended (h : Stage m) (hv : m.result.isSome ∨ m.failed.isSome) : m.Ended := by
  rcases h.new_or_started with rfl | hs
  · simp at hv
  · exact ⟨hs, hv⟩

theorem Stage.result_of_failed (h : Stage m) {failure : AccessFailure} (hf : m.failed = some failure) :
    m.result = none := by
  cases h with
  | done => cases hf
  | _ => rfl

/-- A call that does not fit is refused before anything else. A procedure is not missed there. -/
theorem call_of_refuses {input : Input} (h : m.Refuses input) :
    ∃ misuse, misuse ≠ .noProcedure ∧ m.call input = m.refuse misuse := by
  cases input with
  | start => exact ⟨.alreadyStarted, by simp, start_of_started h⟩
  | advance o =>
    by_cases hs : m.session.step = 0
    · exact ⟨.notStarted, by simp, if_pos hs⟩
    cases hr : m.result with
    | some identity => exact ⟨.alreadyComplete, by simp, advance_of_result hs (by simp [hr]) o⟩
    | none =>
      have hv : m.failed.isSome := by simpa [Refuses, hs, hr] using h
      obtain ⟨failure, hf⟩ := Option.isSome_iff_exists.1 hv
      exact ⟨.aborted failure, by simp, advance_of_failed hs hr hf o⟩

theorem Ended.refuses (h : m.Ended) : (input : Input) → m.Refuses input
  | .start => h.started
  | .advance _ => .inr h.verdict

/-- The end of a run is final. -/
theorem Ended.call (h : m.Ended) (input : Input) : ∃ misuse, m.call input = m.refuse misuse :=
  (call_of_refuses (h.refuses input)).imp fun _ => And.right

/-- A call is refused and changes nothing, or the machine goes on. -/
theorem Stage.call_cases (h : Stage m) (input : Input) :
    (m.Refuses input ∧ ∃ misuse, m.call input = m.refuse misuse) ∨ (¬ m.Refuses input ∧ Decides (m.call input)) := by
  rcases h.new_or_pending_or_ended with rfl | ⟨op, hp⟩ | he
  · cases input with
    | start => exact .inr ⟨by simp [Refuses], decides_start⟩
    | advance o => exact .inl ⟨.inl rfl, _, rfl⟩
  · have hw : m.Waiting op := h.waiting hp
    cases input with
    | start => exact .inl ⟨hw.started, _, start_of_started hw.started⟩
    | advance o => exact .inr ⟨by simp [Refuses, hw.started, hw.result, hw.failed], h.decides_advance hp o⟩
  · exact .inl ⟨he.refuses input, he.call input⟩

/-- No fault of the machine is that of a listener. -/
theorem Stage.answer_ne_listener (h : Stage m) (input : Input) (text : String) :
    (m.call input).answer ≠ .error (.listener text) := by
  rcases h.call_cases input with ⟨-, misuse, hc⟩ | ⟨-, hd⟩
  · rw [hc]
    simp [refuse]
  · intro hf
    obtain ⟨failure, he⟩ := hd.access_of_error hf
    cases he

end Machine

end DecoderId
