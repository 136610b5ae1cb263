import DecoderId.Proofs.Machine.Listening
import Mathlib.Logic.ExistsUnique

/-!
# The phases of a machine

Whatever is called, and whoever listens, a machine is of one of the kinds of
`Machine.Stage`. So it is always in exactly one of four phases, and what it keeps fits
the phase (`Machine.phases_after_calls`).
-/

namespace DecoderId

namespace Machine

variable {m : Machine}

/-- How far a run has come. -/
inductive Phase where
  | idle
  | awaiting
  | done
  | failed

/-- Is the machine in the phase? -/
def Phase.Holds (m : Machine) : Phase → Prop
  | idle => m.session = {} ∧ m.pending = none ∧ m.script = none ∧ m.result = none ∧ m.failed = none
  | awaiting => m.pending.isSome ∧ m.result = none ∧ m.failed = none
  | done => m.result.isSome ∧ m.failed = none ∧ m.pending = none ∧ m.script = none
  | failed => m.failed.isSome ∧ m.result = none ∧ m.pending = none ∧ m.script = none

theorem phase_unique {p q : Phase} (hp : p.Holds m) (hq : q.Holds m) : p = q := by
  cases p <;> cases q <;> simp_all [Phase.Holds]

theorem Stage.exists_phase (h : Stage m) : ∃ p : Phase, p.Holds m := by
  cases h with
  | new => exact ⟨.idle, rfl, rfl, rfl, rfl, rfl⟩
  | manufacturer => exact ⟨.awaiting, rfl, rfl, rfl⟩
  | model code => exact ⟨.awaiting, rfl, rfl, rfl⟩
  | procedure => exact ⟨.awaiting, rfl, rfl, rfl⟩
  | done => exact ⟨.done, rfl, rfl, rfl, rfl⟩
  | failed => exact ⟨.failed, rfl, rfl, rfl, rfl⟩

/-- The flag says that the open operation is a read of a CV that may be missing. -/
theorem Stage.optionalPending_iff (h : Stage m) :
    m.session.optionalPending = true ↔
      Phase.awaiting.Holds m ∧ ∃ address message, m.pending = some ⟨.read address true, message⟩ := by
  cases h with
  | new => simp [Phase.Holds]
  | manufacturer => simp [Phase.Holds, askingManufacturer, askManufacturer]
  | model code => simp [Phase.Holds, askingModel, askModel]
  | @procedure code model bytes step p op =>
    obtain ⟨⟨address, optional⟩ | ⟨address, value⟩, message⟩ := op
    · simp [Phase.Holds, following, Request.isOptional]
    · simp [Phase.Holds, following, Request.isOptional]
  | done => simp [Phase.Holds, finished, Session.known]
  | failed _ _ _ ho => simp [Phase.Holds, aborted, ho]

/-- A procedure is kept as long as one of its operations is open. -/
theorem Stage.script_iff (h : Stage m) : m.script.isSome ↔ Phase.awaiting.Holds m ∧ 3 ≤ m.session.step := by
  cases h with
  | new => simp [Phase.Holds]
  | manufacturer => simp [Phase.Holds, askingManufacturer]
  | model code => simp [Phase.Holds, askingModel]
  | procedure _ hr => simp [Phase.Holds, following, Session.known, hr.step_ge]
  | done => simp [Phase.Holds, finished]
  | failed => simp [Phase.Holds, aborted]

theorem Stage.manufacturer_eq (h : Stage m) :
    m.session.manufacturer = m.session.manufacturerCode.map fun code => .ofCode code.val := by
  cases h with
  | failed _ hm => exact hm
  | _ => rfl

/-- The result is what the record says. -/
theorem Stage.result_eq (h : Stage m) (hd : Phase.done.Holds m) :
    ∃ identity, m.result = some identity ∧
      identity.manufacturerCode = m.session.manufacturerCode.map (fun code => (code.val : Int)) ∧
      identity.modelCode = m.session.modelCode.map (fun model => (model.val : Int)) ∧
      identity.productId = m.session.productId := by
  cases h with
  | done => exact ⟨_, rfl, rfl, rfl, rfl⟩
  | _ => exact absurd hd.1 Bool.false_ne_true

theorem Stage.productId_eq (h : Stage m) (hd : ¬ Phase.done.Holds m) : m.session.productId = none := by
  cases h with
  | done => exact absurd ⟨rfl, rfl, rfl, rfl⟩ hd
  | failed _ _ hp => exact hp
  | _ => rfl

/-- Whatever calls came, in any order, and whoever objected to what in the middle of them: the machine
is in exactly one phase, and its record, its flag and its procedure fit the phase. -/
theorem phases_after_calls (calls : List (Input × Listener)) :
    let m := performed {} calls
    (∃! p : Phase, p.Holds m) ∧
      (m.session.optionalPending = true ↔
        Phase.awaiting.Holds m ∧ ∃ address message, m.pending = some ⟨.read address true, message⟩) ∧
      (m.script.isSome ↔ Phase.awaiting.Holds m ∧ 3 ≤ m.session.step) ∧
      m.session.manufacturer = m.session.manufacturerCode.map (fun code => .ofCode code.val) ∧
      (Phase.done.Holds m → ∃ identity, m.result = some identity ∧
        identity.manufacturerCode = m.session.manufacturerCode.map (fun code => (code.val : Int)) ∧
        identity.modelCode = m.session.modelCode.map (fun model => (model.val : Int)) ∧
        identity.productId = m.session.productId) ∧
      (¬ Phase.done.Holds m → m.session.productId = none) := by
  intro m
  have h : Stage m := stage_performed calls
  obtain ⟨p, hp⟩ := h.exists_phase
  exact ⟨⟨p, hp, fun _ hq => phase_unique hq hp⟩, h.optionalPending_iff, h.script_iff, h.manufacturer_eq,
    h.result_eq, h.productId_eq⟩

end Machine

end DecoderId
