import DecoderId.Proofs.Machine.Transition

/-!
# Calls lead from kind to kind

Calls lead a machine from one kind of `Machine.Stage` to another, and never out of them
(`Machine.stage_call`).
-/

namespace DecoderId

namespace Machine

/-- What is called on a machine. -/
inductive Input where
  | start
  | advance (outcome : Outcome)

/-- Calls the machine. -/
def call (m : Machine) : Input → Turn
  | .start => m.start
  | .advance outcome => m.advance outcome

variable {m : Machine} {op : Operation} {code model : Byte} {bytes : List Byte} {step : Int}

theorem stage_complete (hm : m.Informed code model bytes step) (h3 : 3 ≤ step) {productId : Option Int}
    (h : ∀ id ∈ productId, isProductId id = true) (hr : productId ≠ none → Remains code model step bytes (.done productId)) :
    Stage (m.complete productId).machine := by
  rw [(complete_of_informed hm h).1]
  exact .done h h3 hr

theorem stage_follow (hm : m.Informed code model bytes step) {p : Procedure} (hr : Remains code model step bytes p) :
    Stage (m.follow p).machine := by
  cases p with
  | done productId =>
    rw [(follow_done m productId).machine]
    exact stage_complete hm hr.step_ge hr.inRange fun _ => hr
  | read address optional message next =>
    rw [(follow_of_informed hm rfl).1]
    exact .procedure rfl hr
  | write address value message next =>
    rw [(follow_of_informed hm rfl).1]
    exact .procedure rfl hr

/-- Only a new machine has not started. -/
theorem Stage.new_or_started (h : Stage m) : m = {} ∨ m.session.step ≠ 0 := by
  cases h with
  | new => exact .inl rfl
  | manufacturer => exact .inr waiting_askingManufacturer.started
  | model code => exact .inr (waiting_askingModel code).started
  | procedure hop hr => exact .inr (waiting_following hr hop).started
  | done _ h3 =>
    right
    simp only [finished, Session.known]
    omega
  | failed h2 =>
    right
    simp only [aborted]
    omega

theorem stage_start (h : Stage m) : Stage m.start.machine := by
  rcases h.new_or_started with rfl | hs
  · rw [start_new.1]
    exact .manufacturer
  · rw [start_of_started hs]
    exact h

theorem stage_advance (h : Stage m) (o : Outcome) : Stage (m.advance o).machine := by
  cases h with
  | new => exact .new
  | manufacturer =>
    rcases o.value_or_reason with ⟨b, rfl⟩ | ⟨reason, ho⟩
    · rw [(advance_askingManufacturer b).1]
      exact .model b
    · rw [(advance_required waiting_askingManufacturer rfl ho).1]
      exact .failed (by decide) rfl rfl rfl
  | model code =>
    rcases o.value_or_reason with ⟨b, rfl⟩ | ⟨reason, ho⟩
    · cases hl : Protocol.lookup code.val with
      | none =>
        obtain ⟨m, hm, hlike⟩ := advance_askingModel_of_none hl b
        rw [hlike.machine]
        exact stage_complete hm (by decide) (by simp) fun hn => absurd rfl hn
      | some protocol =>
        obtain ⟨m, hm, hlike⟩ := advance_askingModel_of_some hl b
        rw [hlike.machine]
        exact stage_follow hm (.start hl b)
    · rw [(advance_required (waiting_askingModel code) rfl ho).1]
      exact .failed (by simp [askingModel]) rfl rfl rfl
  | @procedure code model bytes step p op hop hr =>
    have h3 := hr.step_ge
    -- A byte goes on with the procedure; what is no byte ends the run, as the operation lets it.
    rcases o.value_or_reason with ⟨b, rfl⟩ | ⟨reason, ho⟩
    · obtain ⟨m, hm, hlike⟩ := advance_following hr hop b
      rw [hlike.machine]
      exact stage_follow hm (hr.answer hop b)
    · cases hopt : op.request.isOptional with
      | true =>
        obtain ⟨m, hm, hlike⟩ := advance_following_optional hr hop hopt ho
        rw [hlike.machine]
        exact stage_complete hm (by omega) (by simp) fun hn => absurd rfl hn
      | false =>
        rw [(advance_required (waiting_following hr hop) hopt ho).1]
        exact .failed (by simp only [following, Session.known]; omega) rfl rfl rfl
  | done hid h3 hr =>
    rw [advance_of_result (by simp only [finished, Session.known]; omega) rfl]
    exact .done hid h3 hr
  | failed h2 hmf hp ho =>
    rw [advance_of_failed (by simp only [aborted]; omega) rfl rfl]
    exact .failed h2 hmf hp ho

theorem stage_call (h : Stage m) : (input : Input) → Stage (m.call input).machine
  | .start => stage_start h
  | .advance o => stage_advance h o

end Machine

end DecoderId
