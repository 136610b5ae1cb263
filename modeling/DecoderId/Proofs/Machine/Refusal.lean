import DecoderId.Proofs.Machine.Listening

/-!
# Refused calls and ended runs

A refused call changes nothing and is heard of by nobody, and a run that has ended stays
ended with the same verdict, whatever is called and whoever listens
(`Machine.refused_and_ended`).
-/

namespace DecoderId

/-- An answer that is no objection is the machine's own. -/
theorem Turn.answer_of_heardBy {t : Turn} {l : Listener} {answer : Except Fault Action}
    (h : (t.heardBy l).answer = answer) (hne : ∀ text, answer ≠ .error (.listener text)) : t.answer = answer := by
  cases t.heard_heardBy l with
  | answered _ ha => exact ha.symm.trans h
  | @objected before e text _ _ _ ha => exact absurd (h.symm.trans ha) (hne text)

namespace Machine

variable {m : Machine}

/-- Nothing is told of a refused call, so that nobody can object. -/
theorem refuse_heardBy (m : Machine) (misuse : Misuse) (l : Listener) :
    (m.refuse misuse).heardBy l = m.refuse misuse := rfl

theorem perform_of_call {input : Input} {misuse : Misuse} (h : m.call input = m.refuse misuse) (l : Listener) :
    m.perform input l = m.refuse misuse := by
  rw [perform_eq, h, refuse_heardBy]

/-! ## Refused calls -/

/-- The machine refuses just the calls that do not fit. -/
theorem Stage.perform_misuse_iff (h : Stage m) (input : Input) (l : Listener) :
    (∃ misuse, (m.perform input l).answer = .error (.misuse misuse)) ↔ m.Refuses input := by
  rcases h.call_cases input with ⟨hr, misuse, hc⟩ | ⟨hn, hd⟩
  · rw [perform_of_call hc]
    exact ⟨fun _ => hr, fun _ => ⟨misuse, rfl⟩⟩
  · refine ⟨?_, fun hr => absurd hr hn⟩
    rintro ⟨misuse, ha⟩
    rw [perform_eq] at ha
    exact absurd (Turn.answer_of_heardBy ha (by simp)) (hd.answer_ne_misuse misuse)

theorem Stage.perform_eq_refuse (h : Stage m) {input : Input} {l : Listener} {misuse : Misuse}
    (ha : (m.perform input l).answer = .error (.misuse misuse)) : m.perform input l = m.refuse misuse := by
  rcases h.call_cases input with ⟨-, misuse', hc⟩ | ⟨hn, -⟩
  · rw [perform_of_call hc] at ha ⊢
    cases ha
    rfl
  · exact absurd ((h.perform_misuse_iff input l).1 ⟨misuse, ha⟩) hn

/-! ## Verdicts -/

/-- What a call answers with at the end of a run is kept. -/
theorem Stage.perform_keeps (h : Stage m) (input : Input) (l : Listener) :
    (∀ identity, (m.perform input l).answer = .ok (.complete identity) →
      (m.perform input l).machine.result = some identity) ∧
    (∀ failure, (m.perform input l).answer = .error (.access failure) →
      (m.perform input l).machine.failed = some failure) := by
  rcases h.call_cases input with ⟨-, misuse, hc⟩ | ⟨-, hd⟩
  · rw [perform_of_call hc]
    simp [refuse]
  · rw [perform_eq]
    refine ⟨fun identity ha => ?_, fun failure ha => ?_⟩
    · exact hd.result (Turn.answer_of_heardBy ha (by simp))
    · exact hd.failed (Turn.answer_of_heardBy ha (by simp))

theorem Ended.performed (h : m.Ended) (later : List (Input × Listener)) : m.performed later = m := by
  induction later with
  | nil => rfl
  | cons c later ih =>
    obtain ⟨misuse, hc⟩ := h.call c.1
    have hm : (m.perform c.1 c.2).machine = m := by rw [perform_of_call hc]; rfl
    simp only [Machine.performed, List.foldl_cons, hm] at ih ⊢
    exact ih

/-- After any calls, with whoever listening: the machine refuses just the calls that do not fit, and
such a call leaves it as it is and tells nobody anything. What it answers with at the end of a run
is kept. Once there is an identity or a failure, no call changes the machine, and each is refused,
one that brings an outcome after a failure with that failure as the cause. -/
theorem refused_and_ended (calls : List (Input × Listener)) :
    let m := performed {} calls
    (∀ input l,
      ((∃ misuse, (m.perform input l).answer = .error (.misuse misuse)) ↔ m.Refuses input) ∧
      (∀ misuse, (m.perform input l).answer = .error (.misuse misuse) →
        m.perform input l = { machine := m, answer := .error (.misuse misuse), events := [] }) ∧
      (∀ identity, (m.perform input l).answer = .ok (.complete identity) →
        (m.perform input l).machine.result = some identity) ∧
      (∀ failure, (m.perform input l).answer = .error (.access failure) →
        (m.perform input l).machine.failed = some failure)) ∧
    (m.result.isSome ∨ m.failed.isSome → ∀ later l o,
      m.performed later = m ∧
      m.perform .start l = m.refuse .alreadyStarted ∧
      (∀ identity, m.result = some identity → m.perform (.advance o) l = m.refuse .alreadyComplete) ∧
      (∀ failure, m.failed = some failure → m.perform (.advance o) l = m.refuse (.aborted failure))) := by
  intro m
  have h : Stage m := stage_performed calls
  refine ⟨fun input l => ⟨h.perform_misuse_iff input l, fun misuse => h.perform_eq_refuse, h.perform_keeps input l⟩, ?_⟩
  intro hv later l o
  have he : m.Ended := h.ended hv
  have hstart : m.call .start = m.refuse .alreadyStarted := start_of_started he.started
  refine ⟨he.performed later, perform_of_call hstart l, fun identity hi => ?_, fun failure hf => ?_⟩
  · have hc : m.call (.advance o) = m.refuse .alreadyComplete := advance_of_result he.started (by simp [hi]) o
    exact perform_of_call hc l
  · have hc : m.call (.advance o) = m.refuse (.aborted failure) :=
      advance_of_failed he.started (h.result_of_failed hf) hf o
    exact perform_of_call hc l

end Machine

end DecoderId
