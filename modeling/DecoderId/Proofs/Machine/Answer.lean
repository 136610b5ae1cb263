import DecoderId.Proofs.Machine.Record
import DecoderId.Proofs.Machine.Refusal

/-!
# Answers to an outcome

With nobody objecting, an outcome that is taken is answered by an action, or by the failure of the
open operation when there is no byte and one is needed (`Machine.advance_answers`). A failure tells
how many outcomes have been taken by then, and leaves what is known of the decoder as it was.
-/

namespace DecoderId

/-- The listener never objects. -/
structure Listener.Silent (l : Listener) : Prop where
  progress : ∀ message, l.onProgress message = none
  completed : ∀ identity, l.onCompleted identity = none

theorem Turn.heardBy_of_silent {l : Listener} (hl : l.Silent) (t : Turn) : t.heardBy l = t := by
  have hevents : ∀ e ∈ t.events, l.objection e = none := by
    intro e _
    cases e with
    | note => rfl
    | progress message => exact hl.progress message
    | completed identity => exact hl.completed identity
  simp only [heardBy, Listener.hear_of_silent hevents]

/-- The CVs, bytes and product IDs of an action are in range. -/
def Action.InBounds : Action → Prop
  | .operate op =>
    1 ≤ op.request.address.number ∧ op.request.address.number ≤ 1024 ∧
      ∀ address value, op.request = .write address value → value.val ≤ 255
  | .complete identity => ∀ id ∈ identity.productId, 0 ≤ id ∧ id ≤ 0xFFFFFFFF

theorem Action.inBounds : (action : Action) → action.InBounds
  | .operate op => ⟨op.request.address.one_le, op.request.address.le_max, fun _ value _ => Nat.le_of_lt_succ value.isLt⟩
  | .complete identity => fun id hid => isProductId_iff.1 (identity.productId_valid id hid)

namespace Machine

variable {m : Machine} {op : Operation} {o : Outcome} {l : Listener} {k : Nat}

theorem perform_of_silent (hl : l.Silent) (m : Machine) (input : Input) : m.perform input l = m.call input := by
  rw [perform_eq, Turn.heardBy_of_silent hl]

theorem Stage.productId_inRange (h : Stage m) : ∀ id ∈ m.session.productId, 0 ≤ id ∧ id ≤ 0xFFFFFFFF := by
  cases h with
  | done hid => exact fun id h => isProductId_iff.1 (hid id h)
  | failed _ _ hnone => exact fun id h => absurd (hnone.symm.trans h) (by simp)
  | _ => exact fun _ h => nomatch h

/-! ## Outcomes that are taken -/

/-- Does the call take an outcome? A call with one does, unless the machine refuses it. -/
def takes (m : Machine) : Input → Listener → Bool
  | .start, _ => false
  | .advance o, l =>
    match (m.perform (.advance o) l).answer with
    | .error (.misuse _) => false
    | _ => true

/-- How many outcomes the machine takes in the course of calls. -/
def taken (m : Machine) : List (Input × Listener) → Nat
  | [] => 0
  | (input, l) :: calls => (m.takes input l).toNat + (m.perform input l).machine.taken calls

theorem Stage.takes_iff (h : Stage m) (o : Outcome) (l : Listener) :
    m.takes (.advance o) l = true ↔ ¬ m.Refuses (.advance o) := by
  rw [← h.perform_misuse_iff (.advance o) l]
  unfold takes
  dsimp only
  split
  · rename_i misuse ha
    simp [ha]
  · rename_i hne
    simpa using hne

/-- The step of a machine that has taken this many outcomes: it is not started yet, or one step ahead. -/
def Counts (m : Machine) (k : Nat) : Prop := (m.session.step = 0 ∧ k = 0) ∨ m.session.step = k + 1

theorem Stage.counts_perform (h : Stage m) (hc : m.Counts k) (input : Input) (l : Listener) :
    (m.perform input l).machine.Counts (k + (m.takes input l).toNat) := by
  have hsteps : m.Steps input (m.perform input l).machine := h.steps_perform input l
  unfold Counts at hc ⊢
  by_cases hr : m.Refuses input
  · have htakes : m.takes input l = false := by
      cases input with
      | start => rfl
      | advance o => simpa [hr] using h.takes_iff o l
    rw [hsteps.refused hr, htakes]
    exact hc
  · cases input with
    | start =>
      obtain ⟨hzero, hone⟩ := hsteps.started rfl hr
      have htakes : m.takes .start l = false := rfl
      rw [htakes, Bool.toNat_false]
      omega
    | advance o =>
      have hstep : (m.perform (.advance o) l).machine.session.step = m.session.step + 1 := hsteps.advanced o rfl hr
      have hstarted : m.session.step ≠ 0 := fun hzero => hr (.inl hzero)
      rw [(h.takes_iff o l).2 hr, Bool.toNat_true]
      omega

theorem Stage.counts_performed (h : Stage m) (hc : m.Counts k) (calls : List (Input × Listener)) :
    (m.performed calls).Counts (k + m.taken calls) := by
  induction calls generalizing m k with
  | nil => exact hc
  | cons c calls ih =>
    rw [taken, ← Nat.add_assoc]
    exact ih (stage_perform h c.1 c.2) (h.counts_perform hc c.1 c.2)

/-! ## What an outcome is answered with -/

theorem Stage.exists_pending (h : Stage m) (hs : m.session.step ≠ 0) (hr : m.result = none) (hf : m.failed = none) :
    ∃ op, m.pending = some op := by
  rcases h.new_or_pending_or_ended with rfl | hp | he
  · exact absurd rfl hs
  · exact hp
  · simpa [hr, hf] using he.verdict

/-- The machine fails without a byte that it needs. -/
theorem Stage.access_iff (h : Stage m) (hp : m.pending = some op) (o : Outcome) :
    (∃ f, (m.advance o).answer = .error (.access f)) ↔ (∀ b, o ≠ .value b) ∧ op.request.isOptional = false := by
  constructor
  · rintro ⟨f, hf⟩
    obtain ⟨reason, ho, hopt, -⟩ := h.failure_of_answer hp hf
    refine ⟨?_, hopt⟩
    rintro b rfl
    cases ho
  · rintro ⟨hne, hopt⟩
    rcases o.value_or_reason with ⟨b, rfl⟩ | ⟨reason, ho⟩
    · exact absurd rfl (hne b)
    · exact ⟨_, (advance_required (h.waiting hp) hopt ho).2⟩

theorem Stage.exists_action (h : Stage m) (hp : m.pending = some op)
    (hn : ¬ ((∀ b, o ≠ .value b) ∧ op.request.isOptional = false)) : ∃ action, (m.advance o).answer = .ok action := by
  rcases o.value_or_reason with ⟨b, rfl⟩ | ⟨reason, ho⟩
  · exact h.advance_of_value hp b
  · have hne : ∀ b, o ≠ .value b := by
      rintro b rfl
      cases ho
    have hopt : op.request.isOptional = true := by simpa [hne] using hn
    obtain ⟨identity, ha, -⟩ := h.advance_of_optional hp hopt ho
    exact ⟨_, ha⟩

/-- A failure ends the run, and is all that is new. -/
theorem Stage.machine_of_access (h : Stage m) (hp : m.pending = some op) {f : AccessFailure}
    (hf : (m.advance o).answer = .error (.access f)) :
    (m.advance o).machine = aborted { m.session with step := m.session.step + 1, optionalPending := false } f := by
  obtain ⟨reason, ho, hopt, rfl⟩ := h.failure_of_answer hp hf
  exact (advance_required (h.waiting hp) hopt ho).1

theorem Stage.answer_ne_noProcedure (h : Stage m) (input : Input) (l : Listener) :
    (m.perform input l).answer ≠ .error (.misuse .noProcedure) := by
  intro ha
  have hr : m.Refuses input := (h.perform_misuse_iff input l).1 ⟨_, ha⟩
  obtain ⟨misuse, hne, hc⟩ := call_of_refuses hr
  rw [perform_of_call hc] at ha
  cases ha
  exact hne rfl

/-- After any calls, with nobody objecting to the next one. When the run is on, there is an open operation, and an
outcome fails exactly if it is no byte and the operation is no read of a CV that may be missing. The failure names
the CV, the reason and the step, and nothing else is new but that the run is over. Any other outcome is answered by
an action. No call misses a procedure, and all that is issued or found is in range. -/
theorem advance_answers (calls : List (Input × Listener)) (o : Outcome) (hl : l.Silent) :
    let m := performed {} calls
    let t := m.perform (.advance o) l
    (m.session.step ≠ 0 → m.result = none → m.failed = none →
      ∃ op, m.pending = some op ∧
        ((∃ f, t.answer = .error (.access f)) ↔ (∀ b, o ≠ .value b) ∧ op.request.isOptional = false) ∧
        (∀ f, t.answer = .error (.access f) →
          f.address = op.request.address.number ∧ o.reason? = some f.reason ∧
          f.step = some (taken {} (calls ++ [(.advance o, l)]) + 1 : Nat) ∧
          t.machine.failed = some f ∧
          t.machine.session = { m.session with step := m.session.step + 1, optionalPending := false }) ∧
        (¬ ((∀ b, o ≠ .value b) ∧ op.request.isOptional = false) → ∃ action, t.answer = .ok action)) ∧
    (∀ input l', (m.perform input l').answer ≠ .error (.misuse .noProcedure)) ∧
    (∀ input l' action, (m.perform input l').answer = .ok action → action.InBounds) ∧
    ∀ id ∈ t.machine.session.productId, 0 ≤ id ∧ id ≤ 0xFFFFFFFF := by
  intro m t
  have h : Stage m := stage_performed calls
  have ht : t = m.advance o := perform_of_silent hl m (.advance o)
  have hlast : performed {} (calls ++ [(.advance o, l)]) = t.machine := List.foldl_append
  refine ⟨fun hs hr hf => ?_, h.answer_ne_noProcedure, fun _ _ action _ => action.inBounds, ?_⟩
  · obtain ⟨op, hp⟩ := h.exists_pending hs hr hf
    rw [ht]
    refine ⟨op, hp, h.access_iff hp o, fun f ha => ?_, h.exists_action hp⟩
    have hmachine := h.machine_of_access hp ha
    obtain ⟨reason, ho, -, rfl⟩ := h.failure_of_answer hp ha
    refine ⟨rfl, ho, congrArg some ?_, by rw [hmachine]; rfl, by rw [hmachine]; rfl⟩
    have hbefore : m.Counts (0 + taken {} calls) := Stage.new.counts_performed (.inl ⟨rfl, rfl⟩) calls
    have hafter : t.machine.Counts (0 + taken {} (calls ++ [(.advance o, l)])) :=
      hlast ▸ Stage.new.counts_performed (.inl ⟨rfl, rfl⟩) _
    have hstep : t.machine.session.step = m.session.step + 1 := by rw [ht, hmachine]; rfl
    unfold Counts at hbefore hafter
    omega
  · rw [← hlast]
    exact (stage_performed _).productId_inRange

theorem advance_answers_start :
    Listener.Silent {} ∧
      (perform (performed {} [(.start, {})]) (.advance .absent) {}).answer =
        .error (.access ⟨8, "unexpected absent register", some 2⟩) := by
  have hl : Listener.Silent {} := ⟨fun _ => rfl, fun _ => rfl⟩
  obtain ⟨op, hp, hfails, hfailure, -⟩ := (advance_answers [(.start, {})] .absent hl).1 (by decide) rfl rfl
  obtain rfl : askManufacturer = op := Option.some.inj hp
  obtain ⟨f, ha⟩ := hfails.2 ⟨by simp, rfl⟩
  obtain ⟨haddress, hreason, hstep, -⟩ := hfailure f ha
  obtain ⟨address, reason, step⟩ := f
  obtain rfl : address = 8 := haddress
  obtain rfl : unexpectedAbsence = reason := Option.some.inj hreason
  have htaken : taken {} [(.start, ({} : Listener)), (.advance .absent, {})] = 1 := by decide +kernel
  rw [List.singleton_append, htaken] at hstep
  obtain rfl : step = some 2 := hstep
  exact ⟨hl, ha⟩

end Machine

end DecoderId
