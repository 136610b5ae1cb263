import DecoderId.Proofs.Machine.Phase

/-!
# The record is written once

A call that is not refused takes the run one step further. The bytes of CVs 8 and 7 are taken
in steps 2 and 3, and from step 4 on a byte may be added to those read before. Nothing that is
known is ever changed (`Machine.record_written_once`).
-/

namespace DecoderId

/-! ## What an outcome adds to the record -/

/-- The record after one more outcome. Each code is taken in its own step, and any other byte is added at the end. -/
inductive Session.Advances (s : Session) : Outcome → Session → Prop
  | kept (o : Outcome) (productId : Option Int) (optionalPending : Bool) :
      Advances s o { s with step := s.step + 1, productId, optionalPending }
  | manufacturer (code : Byte) (productId : Option Int) (optionalPending : Bool) :
      s.step = 1 → s.manufacturerCode = none → s.manufacturer = none →
      Advances s (.value code)
        { s with
          step := s.step + 1, manufacturerCode := some code, manufacturer := some (.ofCode code.val)
          productId, optionalPending }
  | model (code : Byte) (productId : Option Int) (optionalPending : Bool) :
      s.step = 2 → s.modelCode = none →
      Advances s (.value code) { s with step := s.step + 1, modelCode := some code, productId, optionalPending }
  | byte (b : Byte) (productId : Option Int) (optionalPending : Bool) :
      3 ≤ s.step →
      Advances s (.value b)
        { s with step := s.step + 1, accumulator := s.accumulator ++ [b], productId, optionalPending }

/-- What is known in the one record is known in the other, which may hold more. -/
structure Session.Extends (s s' : Session) : Prop where
  step : s.step ≤ s'.step
  manufacturerCode : ∀ code ∈ s.manufacturerCode, s'.manufacturerCode = some code
  manufacturer : ∀ manufacturer ∈ s.manufacturer, s'.manufacturer = some manufacturer
  modelCode : ∀ code ∈ s.modelCode, s'.modelCode = some code
  accumulator : s.accumulator <+: s'.accumulator
  productId : ∀ id ∈ s.productId, s'.productId = some id

theorem Session.Extends.refl (s : Session) : s.Extends s where
  step := Int.le_refl _
  manufacturerCode _ h := h
  manufacturer _ h := h
  modelCode _ h := h
  accumulator := List.prefix_refl _
  productId _ h := h

theorem Session.Extends.trans {s s' s'' : Session} (h : s.Extends s') (h' : s'.Extends s'') : s.Extends s'' where
  step := Int.le_trans h.step h'.step
  manufacturerCode code hc := h'.manufacturerCode code (h.manufacturerCode code hc)
  manufacturer manufacturer hm := h'.manufacturer manufacturer (h.manufacturer manufacturer hm)
  modelCode code hc := h'.modelCode code (h.modelCode code hc)
  accumulator := h.accumulator.trans h'.accumulator
  productId id hi := h'.productId id (h.productId id hi)

theorem Session.Advances.step {s s' : Session} {o : Outcome} (h : s.Advances o s') : s'.step = s.step + 1 := by
  cases h <;> rfl

/-- The code of the manufacturer and the manufacturer come in the second step. -/
theorem Session.Advances.manufacturer_step {s s' : Session} {o : Outcome} (h : s.Advances o s')
    (hne : s'.manufacturerCode ≠ s.manufacturerCode ∨ s'.manufacturer ≠ s.manufacturer) :
    s.step = 1 ∧ s'.step = 2 := by
  cases h with
  | manufacturer code productId optionalPending h1 =>
    refine ⟨h1, ?_⟩
    simp only
    omega
  | _ => simp at hne

theorem Session.Advances.model_step {s s' : Session} {o : Outcome} (h : s.Advances o s')
    (hne : s'.modelCode ≠ s.modelCode) : s.step = 2 ∧ s'.step = 3 := by
  cases h with
  | model code productId optionalPending h2 =>
    refine ⟨h2, ?_⟩
    simp only
    omega
  | _ => exact absurd rfl hne

theorem Session.Advances.accumulator {s s' : Session} {o : Outcome} (h : s.Advances o s') :
    s'.accumulator = s.accumulator ∨
      ∃ b, o = .value b ∧ 4 ≤ s'.step ∧ s'.accumulator = s.accumulator ++ [b] := by
  cases h with
  | byte b productId optionalPending h3 =>
    refine .inr ⟨b, rfl, ?_, rfl⟩
    simp only
    omega
  | _ => exact .inl rfl

/-- Before there is a product ID, an outcome takes nothing back. -/
theorem Session.Advances.extends {s s' : Session} {o : Outcome} (h : s.Advances o s') (hid : s.productId = none) :
    s.Extends s' := by
  have hstep : s.step ≤ s.step + 1 := by omega
  have hproduct : ∀ productId : Option Int, ∀ id ∈ s.productId, productId = some id := by simp [hid]
  cases h with
  | kept o productId optionalPending => exact { Extends.refl s with step := hstep, productId := hproduct productId }
  | manufacturer code productId optionalPending h1 hcode hmanufacturer =>
    refine { Extends.refl s with step := hstep, manufacturerCode := ?_, manufacturer := ?_, productId := hproduct productId }
    · simp [hcode]
    · simp [hmanufacturer]
  | model code productId optionalPending h2 hcode =>
    refine { Extends.refl s with step := hstep, modelCode := ?_, productId := hproduct productId }
    simp [hcode]
  | byte b productId optionalPending =>
    exact { Extends.refl s with
      step := hstep, accumulator := List.prefix_append _ _, productId := hproduct productId }

namespace Machine

variable {m m' m'' : Machine} {op : Operation} {code model : Byte} {bytes : List Byte} {step : Int}

/-- Going on with a procedure adds no bytes to what is known. -/
theorem follow_session (hm : m.Informed code model bytes step) {p : Procedure} (hp : p.InRange) :
    ∃ productId optionalPending,
      (m.follow p).machine.session = { Session.known code model bytes step with productId, optionalPending } := by
  cases ho : p.operation? with
  | some op =>
    rw [(follow_of_informed hm ho).1]
    exact ⟨none, op.request.isOptional, rfl⟩
  | none =>
    cases p with
    | read | write => cases ho
    | done productId =>
      rw [(follow_done m productId).machine, (complete_of_informed hm hp).1]
      exact ⟨productId, false, rfl⟩

/-- With a procedure or without one, the byte of CV 7 is all that is new. -/
theorem advance_askingModel_session (code b : Byte) :
    ∃ productId optionalPending, ((askingModel code).advance (.value b)).machine.session =
      { Session.known code b [] 3 with productId, optionalPending } := by
  cases hl : Protocol.lookup code.val with
  | none =>
    obtain ⟨m, hm, hlike⟩ := advance_askingModel_of_none hl b
    rw [hlike.machine, (complete_of_informed hm (by simp)).1]
    exact ⟨none, false, rfl⟩
  | some protocol =>
    obtain ⟨m, hm, hlike⟩ := advance_askingModel_of_some hl b
    rw [hlike.machine]
    exact follow_session hm (Protocol.inRange_of_lookup hl _)

theorem Stage.advances_value (h : Stage m) (hp : m.pending = some op) (b : Byte) :
    m.session.Advances (.value b) (m.advance (.value b)).machine.session := by
  cases h with
  | new | done | failed => cases hp
  | manufacturer =>
    rw [(advance_askingManufacturer b).1]
    exact .manufacturer b none false rfl rfl rfl
  | model code =>
    obtain ⟨productId, optionalPending, hs⟩ := advance_askingModel_session code b
    rw [hs]
    exact .model b productId optionalPending rfl rfl
  | @procedure code model bytes step p op' hop hr =>
    obtain ⟨m, hm, hlike⟩ := advance_following hr hop b
    obtain ⟨productId, optionalPending, hs⟩ := follow_session hm (hr.inRange.answer b)
    rw [hlike.machine, hs]
    obtain ⟨⟨address, optional⟩ | ⟨address, value⟩, message⟩ := op'
    · exact .byte b productId optionalPending hr.step_ge
    · exact .kept (.value b) productId optionalPending

theorem Stage.advances_miss (h : Stage m) (hp : m.pending = some op) {o : Outcome} {reason : String}
    (ho : o.reason? = some reason) : m.session.Advances o (m.advance o).machine.session := by
  cases hopt : op.request.isOptional with
  | false =>
    rw [(advance_required (h.waiting hp) hopt ho).1]
    exact .kept o m.session.productId false
  | true =>
    cases h with
    | new | done | failed => cases hp
    | manufacturer | model =>
      cases hp
      cases hopt
    | procedure hop hr =>
      cases hp
      obtain ⟨m, hm, hlike⟩ := advance_following_optional hr hop hopt ho
      rw [hlike.machine, (complete_of_informed hm (by simp)).1]
      exact .kept o none false

/-- An outcome of the open operation adds to the record what such an outcome may add. -/
theorem Stage.advances (h : Stage m) (hp : m.pending = some op) (o : Outcome) :
    m.session.Advances o (m.advance o).machine.session := by
  rcases o.value_or_reason with ⟨b, rfl⟩ | ⟨reason, ho⟩
  · exact h.advances_value hp b
  · exact h.advances_miss hp ho

/-! ## One call -/

/-- What is known in the one machine is known in the other, which may have come further. -/
structure Extends (m m' : Machine) : Prop where
  session : m.session.Extends m'.session
  result : ∀ identity ∈ m.result, m'.result = some identity
  failed : ∀ failure ∈ m.failed, m'.failed = some failure

theorem Extends.refl (m : Machine) : m.Extends m := ⟨.refl _, fun _ h => h, fun _ h => h⟩

theorem Extends.trans (h : m.Extends m') (h' : m'.Extends m'') : m.Extends m'' where
  session := h.session.trans h'.session
  result identity hi := h'.result identity (h.result identity hi)
  failed failure hf := h'.failed failure (h.failed failure hf)

/-- What a call does to the record of a machine. -/
structure Steps (m : Machine) (input : Input) (m' : Machine) : Prop where
  refused : m.Refuses input → m' = m
  started : input = .start → ¬ m.Refuses input → m.session.step = 0 ∧ m'.session.step = 1
  advanced : ∀ o, input = .advance o → ¬ m.Refuses input → m'.session.step = m.session.step + 1
  manufacturerCode : m'.session.manufacturerCode ≠ m.session.manufacturerCode →
    m.session.step = 1 ∧ m'.session.step = 2
  manufacturer : m'.session.manufacturer ≠ m.session.manufacturer → m.session.step = 1 ∧ m'.session.step = 2
  modelCode : m'.session.modelCode ≠ m.session.modelCode → m.session.step = 2 ∧ m'.session.step = 3
  accumulator : m'.session.accumulator = m.session.accumulator ∨
    ∃ b, input = .advance (.value b) ∧ ¬ m.Refuses input ∧ 4 ≤ m'.session.step ∧
      m'.session.accumulator = m.session.accumulator ++ [b]
  grows : m.Extends m'

theorem steps_refused {input : Input} (hr : m.Refuses input) : m.Steps input m where
  refused _ := rfl
  started _ hn := absurd hr hn
  advanced _ _ hn := absurd hr hn
  manufacturerCode hne := absurd rfl hne
  manufacturer hne := absurd rfl hne
  modelCode hne := absurd rfl hne
  accumulator := .inl rfl
  grows := .refl m

theorem steps_start : Steps {} .start (start {}).machine where
  refused hr := absurd rfl hr
  started _ _ := ⟨rfl, rfl⟩
  advanced _ he := nomatch he
  manufacturerCode hne := absurd rfl hne
  manufacturer hne := absurd rfl hne
  modelCode hne := absurd rfl hne
  accumulator := .inl rfl
  grows := ⟨⟨by decide, nofun, nofun, nofun, List.prefix_refl _, nofun⟩, nofun, nofun⟩

/-- A machine that waits for an operation has no verdict yet, so that there is only the record to keep. -/
theorem Stage.steps_advance (h : Stage m) (hp : m.pending = some op) (o : Outcome) :
    m.Steps (.advance o) (m.advance o).machine := by
  have hw : m.Waiting op := h.waiting hp
  have hn : ¬ m.Refuses (.advance o) := by simp [Refuses, hw.started, hw.result, hw.failed]
  have hid : m.session.productId = none := by
    apply h.productId_eq
    intro hd
    have hresult := hd.1
    rw [hw.result] at hresult
    cases hresult
  have ha : m.session.Advances o (m.advance o).machine.session := h.advances hp o
  have hgrows : m.Extends (m.advance o).machine :=
    ⟨ha.extends hid, by simp [hw.result], by simp [hw.failed]⟩
  refine ⟨fun hr => absurd hr hn, fun he _ => ?_, fun _ _ _ => ha.step, ?_, ?_, ha.model_step, ?_, hgrows⟩
  · cases he
  · exact fun hne => ha.manufacturer_step (.inl hne)
  · exact fun hne => ha.manufacturer_step (.inr hne)
  · rcases ha.accumulator with hkept | ⟨b, rfl, h4, hadded⟩
    · exact .inl hkept
    · exact .inr ⟨b, rfl, hn, h4, hadded⟩

theorem Stage.steps_call (h : Stage m) (input : Input) : m.Steps input (m.call input).machine := by
  rcases h.call_cases input with ⟨hr, misuse, hc⟩ | ⟨hn, -⟩
  · rw [hc]
    exact steps_refused hr
  · rcases h.new_or_pending_or_ended with rfl | ⟨op, hp⟩ | he
    · cases input with
      | start => exact steps_start
      | advance o => exact absurd (.inl rfl) hn
    · cases input with
      | start => exact absurd (h.waiting hp).started hn
      | advance o => exact h.steps_advance hp o
    · exact absurd (he.refuses input) hn

theorem Stage.steps_perform (h : Stage m) (input : Input) (l : Listener) : m.Steps input (m.perform input l).machine := by
  rw [perform_machine]
  exact h.steps_call input

/-! ## Runs -/

theorem Stage.extends_performed (h : Stage m) (later : List (Input × Listener)) : m.Extends (m.performed later) := by
  induction later generalizing m with
  | nil => exact .refl m
  | cons c later ih =>
    have hfirst : m.Extends (m.perform c.1 c.2).machine := (h.steps_perform c.1 c.2).grows
    exact hfirst.trans (ih (stage_perform h c.1 c.2))

/-- After any calls, with whoever listening: one more call takes the record further as it may, step by
step, and what is known by then is still known after any later calls. -/
theorem record_written_once (calls : List (Input × Listener)) :
    let m := performed {} calls
    (∀ input l, m.Steps input (m.perform input l).machine) ∧ ∀ later, m.Extends (m.performed later) := by
  intro m
  have h : Stage m := stage_performed calls
  exact ⟨h.steps_perform, h.extends_performed⟩

end Machine

end DecoderId
