import DecoderId.Proofs.Bridge.Exchange
import DecoderId.Proofs.Identify.Rounds
import DecoderId.Simulator

/-!
# Absent CVs

A port may answer that a CV is absent to an optional read only. Both ports keep to that
(`Port.KeepsContract`), and so the machine always expects an absence when it comes: the run
ends with an identity without a product ID, and the failure for an unexpected absence is
never made (`absences_expected`).
-/

namespace DecoderId

variable {σ : Type} {port : Port σ}

structure Port.KeepsContract (port : Port σ) : Prop where
  read : ∀ s address optional, (port.read s address optional).outcome = .ok .absent → optional = true
  write : ∀ s address value, (port.write s address value).outcome ≠ .ok .absent

/-- A failure to access a CV is an outcome that the port answers with, never a fault of its own. -/
def Port.TellsFailures (port : Port σ) : Prop := ∀ s request f, (port.perform s request).outcome ≠ .error (.access f)

/-! ## The two ports -/

theorem map_value_ne_absent (x : Except Fault Byte) : x.map Outcome.value ≠ .ok .absent := by
  cases x with
  | error f => simp [Except.map]
  | ok b => simp [Except.map]

theorem Simulator.keepsContract : Simulator.port.KeepsContract where
  read d address optional h := by
    simp only [Simulator.port, Simulator.read] at h
    split at h
    · simp at h
    split at h
    · cases optional with
      | true => rfl
      | false => simp at h
    · exact absurd h (map_value_ne_absent _)
  write d address value := by
    intro h
    simp only [Simulator.port, Simulator.write] at h
    split at h
    · simp at h
    · exact absurd h (map_value_ne_absent _)

theorem Simulator.outcomeOf_ne_access (value : Int) (f : AccessFailure) : outcomeOf value ≠ .error (.access f) := by
  intro h
  unfold outcomeOf Byte.ofInt at h
  cases hv : Byte.ofInt? value with
  | some b =>
    rw [hv] at h
    cases h
  | none =>
    rw [hv] at h
    cases h

theorem Simulator.tellsFailures : Simulator.port.TellsFailures := by
  intro d request f h
  cases request with
  | read address optional =>
    simp only [Port.perform, Simulator.port, Simulator.read] at h
    split at h
    · cases h
    split at h
    · cases h
    · exact outcomeOf_ne_access _ f h
  | write address value =>
    simp only [Port.perform, Simulator.port, Simulator.write] at h
    split at h
    · cases h
    · dsimp only at h
      exact outcomeOf_ne_access value.val f h

namespace Bridge

theorem registerOutcome_ne_absent (address : Int) (values : List Int) : registerOutcome address values ≠ .ok .absent := by
  unfold registerOutcome
  split
  · simp
  split
  · simp
  · exact map_value_ne_absent _

theorem optional_of_readOutcome {address : Int} {optional : Bool} {response : Response}
    (h : (readOutcome address optional response).1 = .ok .absent) : optional = true := by
  cases response with
  | registers values => exact absurd h (registerOutcome_ne_absent _ _)
  | exception code =>
    cases optional with
    | true => rfl
    | false => simp [readOutcome] at h
  | returned text => simp [readOutcome] at h
  | raises e =>
    simp only [readOutcome] at h
    split at h <;> simp at h

theorem writeOutcome_ne_absent (address value : Int) (response : Response) :
    (writeOutcome address value response).1 ≠ .ok .absent := by
  cases response with
  | registers values => exact map_value_ne_absent _
  | exception code => simp [writeOutcome]
  | returned text => simp [writeOutcome]
  | raises e =>
    simp only [writeOutcome]
    split <;> simp

theorem keepsContract : Bridge.port.KeepsContract where
  read b address optional h := by
    simp only [port, read] at h
    split at h
    · simp at h
    · exact optional_of_readOutcome h
  write b address value := by
    intro h
    simp only [port, write] at h
    split at h
    · simp at h
    · exact writeOutcome_ne_absent _ _ _ h

theorem unreachable_ne_access (c : BridgeConfig) (f : AccessFailure) : unreachable c ≠ .access f := by
  unfold unreachable
  split <;> simp

theorem tellsFailures : Bridge.port.TellsFailures := by
  intro b request f h
  rcases perform_fault h with ⟨-, -, hf⟩ | ⟨e, hf⟩ | ⟨v, hf⟩
  · exact unreachable_ne_access b.config f hf.symm
  · cases hf
  · cases hf

end Bridge

/-! ## Runs -/

theorem Port.KeepsContract.isOptional (h : port.KeepsContract) {s : σ} {request : Request}
    (ho : (port.perform s request).outcome = .ok .absent) : request.isOptional = true := by
  cases request with
  | read address optional => exact h.read s address.number optional ho
  | write address value => exact absurd ho (h.write s address.number value.val)

/-- In every round in which the port answers that a CV is absent, the machine has its flag set and
ends the run, with an identity without a product ID. Any failure is that of an operation that the
port has answered with a failure, for the reason that it gave. -/
def Port.ExpectsAbsences (port : Port σ) (s : σ) : Prop :=
  (∀ r, port.Reaches s r → (r.reply port).outcome = .ok .absent →
    r.machine.session.optionalPending = true ∧
      ∃ identity, (r.machine.advance .absent).answer = .ok (.complete identity) ∧ identity.productId = none ∧
        (identify port s).answer = .ok identity) ∧
  ∀ f, (identify port s).answer = .error (.access f) → ∃ r, port.Reaches s r ∧
    (r.reply port).outcome = .ok (.failure f.reason) ∧ f.address = r.operation.request.address.number

theorem Port.KeepsContract.expectsAbsences (h : port.KeepsContract) (ht : port.TellsFailures) (s : σ) :
    port.ExpectsAbsences s := by
  constructor
  · intro r hr ho
    have hopt : r.operation.request.isOptional = true := h.isOptional ho
    obtain ⟨hstage, hp⟩ := hr.opened
    obtain ⟨identity, ha, hnone⟩ := hstage.advance_of_optional hp hopt (o := .absent) rfl
    have hflag : r.machine.session.optionalPending = true := (hstage.waiting hp).optional.trans hopt
    exact ⟨hflag, identity, ha, hnone, (hr.identify (.completed ho ha)).1⟩
  · intro f hf
    obtain ⟨r, hr, hends, -⟩ := port.exists_last s
    rw [hf] at hends
    cases hends with
    | raised ho => exact absurd ho (ht r.state r.operation.request f)
    | @failed o _ ho ha =>
      obtain ⟨hstage, hp⟩ := hr.opened
      obtain ⟨reason, hreason, hrequired, rfl⟩ := hstage.failure_of_answer hp ha
      refine ⟨r, hr, ?_, rfl⟩
      cases o with
      | value b => cases hreason
      | absent =>
        -- Only an optional read is answered so, and that does not fail.
        rw [h.isOptional ho] at hrequired
        cases hrequired
      | failure text =>
        cases hreason
        exact ho

/-- Both ports keep to the contract, and every run over either expects the absences that it meets. -/
theorem absences_expected :
    Simulator.port.KeepsContract ∧ (∀ d, Simulator.port.ExpectsAbsences d) ∧
      Bridge.port.KeepsContract ∧ (∀ b, Bridge.port.ExpectsAbsences b) :=
  ⟨Simulator.keepsContract, Simulator.keepsContract.expectsAbsences Simulator.tellsFailures,
    Bridge.keepsContract, Bridge.keepsContract.expectsAbsences Bridge.tellsFailures⟩

/-- A decoder without CV 261, which its procedure reads as optional. -/
def oldDecoder : Simulator := { cvs := [(8, ⟨97, []⟩), (7, ⟨4, []⟩)] }

theorem absences_expected_oldDecoder :
    ∃ r, Simulator.port.Reaches oldDecoder r ∧ (r.reply Simulator.port).outcome = .ok .absent ∧
      r.machine.session.optionalPending = true ∧
      ∃ identity, (identify Simulator.port oldDecoder).answer = .ok identity ∧ identity.productId = none := by
  have model : Simulator.port.Next (.first oldDecoder) _ := .intro (o := .value 97) rfl rfl
  have reached : Simulator.port.Reaches oldDecoder _ :=
    (Relation.ReflTransGen.single model).tail (.intro (o := .value 4) rfl rfl)
  obtain ⟨hflag, identity, -, hnone, hanswer⟩ := (absences_expected.2.1 oldDecoder).1 _ reached rfl
  exact ⟨_, reached, rfl, hflag, identity, hanswer, hnone⟩

end DecoderId
