import DecoderId.Machine

/-!
# Progress of the machine

Every operation that the machine issues takes it closer to the end
(`Machine.rank_advance`): while fewer than three steps are done there is one step less
to the procedure, and from then on the procedure left is a child of the one before.
-/

namespace DecoderId

instance : WellFoundedRelation Procedure := ⟨Procedure.Child, Procedure.wellFounded_child⟩

namespace Machine

variable {m : Machine} {op : Operation} {b : Byte}

/-- How many steps are left before the procedure begins, and what is left of it. -/
def rank (m : Machine) : Nat × Procedure := ((3 - m.session.step).toNat, m.script.getD (.done none))

theorem complete_ne_operate (productId : Option Int) : (m.complete productId).answer ≠ .ok (.operate op) := by
  unfold complete
  simp only
  split <;> simp

theorem fail_ne_operate (reason : String) : (m.fail reason).answer ≠ .ok (.operate op) := by
  unfold fail
  simp only
  split <;> simp

theorem miss_ne_operate (reason : String) : (m.miss reason).answer ≠ .ok (.operate op) := by
  unfold miss
  split
  · exact complete_ne_operate none
  · exact fail_ne_operate reason

/-- Following a procedure issues its first operation, or none. -/
theorem follow_operate {p : Procedure} (h : (m.follow p).answer = .ok (.operate op)) :
    p.operation? = some op ∧ (m.follow p).machine.script = some p ∧
      (m.follow p).machine.session.step = m.session.step := by
  cases p with
  | done productId => exact absurd h (complete_ne_operate productId)
  | read a o msg next => simp_all [follow, issue, Procedure.operation?]
  | write a v msg next => simp_all [follow, issue, Procedure.operation?]

theorem takeModel_operate (h : (m.takeModel b).answer = .ok (.operate op)) :
    (m.takeModel b).machine.session.step = m.session.step := by
  unfold takeModel at h ⊢
  simp only at h ⊢
  cases hc : m.session.manufacturerCode with
  | none => simp [hc] at h
  | some code =>
    simp only [hc] at h ⊢
    cases hl : Protocol.lookup (code.val : Int) with
    | none =>
      simp only [hl, Turn.after] at h
      exact absurd h (complete_ne_operate none)
    | some protocol =>
      simp only [hl] at h ⊢
      exact (follow_operate h).2.2

/-- Recording a byte leaves the procedure and the count of steps alone. -/
theorem record_script (m : Machine) (b : Byte) :
    (m.record b).script = m.script ∧ (m.record b).session.step = m.session.step := by
  unfold record
  split <;> exact ⟨rfl, rfl⟩

theorem takeByte_operate (h : (m.takeByte b).answer = .ok (.operate op)) :
    (m.takeByte b).machine.session.step = m.session.step ∧
      ∃ p, m.script = some p ∧ (m.takeByte b).machine.script = some (p.answer b.val) ∧ p.operation?.isSome := by
  have hs := record_script m b
  unfold takeByte at h ⊢
  simp only at h ⊢
  cases hp : (m.record b).script with
  | none => simp [hp, refuse] at h
  | some p =>
    simp only [hp] at h ⊢
    obtain ⟨h1, h2, h3⟩ := follow_operate h
    refine ⟨h3.trans hs.2, p, hs.1.symm.trans hp, h2, ?_⟩
    cases p with
    | done productId => simp [Procedure.answer, Procedure.operation?] at h1
    | read | write => rfl

/-- Each issued operation takes the machine closer to the end. -/
theorem rank_advance {outcome : Outcome} (h : (m.advance outcome).answer = .ok (.operate op)) :
    Prod.Lex (· < ·) Procedure.Child (m.advance outcome).machine.rank m.rank := by
  unfold advance at h ⊢
  by_cases h0 : m.session.step = 0
  · simp [h0, refuse] at h
  by_cases hr : m.result.isSome = true
  · simp [h0, hr, refuse] at h
  rw [if_neg h0, if_neg hr] at h ⊢
  cases hf : m.failed with
  | some f => simp [hf, refuse] at h
  | none =>
    simp only [hf, Turn.after] at h ⊢
    cases outcome with
    | absent => exact absurd h (miss_ne_operate _)
    | failure reason => exact absurd h (miss_ne_operate _)
    | value b =>
      simp only [take] at h ⊢
      by_cases h2 : m.session.step + 1 = 2
      · rw [if_pos h2]
        exact .left _ _ (by simp only [takeManufacturer, issue]; omega)
      rw [if_neg h2] at h ⊢
      by_cases h3 : m.session.step + 1 = 3
      · rw [if_pos h3] at h ⊢
        have hs := takeModel_operate h
        exact .left _ _ (by rw [hs]; simp only; omega)
      rw [if_neg h3] at h ⊢
      obtain ⟨hs, p, hp, hp', hop⟩ := takeByte_operate h
      simp only at hs hp
      by_cases hlow : m.session.step < 3
      · exact .left _ _ (by rw [hs]; omega)
      · have e1 : (3 - (m.session.step + 1)).toNat = 0 := by omega
        have e2 : (3 - m.session.step).toNat = 0 := by omega
        rw [rank, rank, hs, hp', hp, e1, e2]
        exact .right _ ⟨hop, _, rfl⟩

end Machine

end DecoderId
