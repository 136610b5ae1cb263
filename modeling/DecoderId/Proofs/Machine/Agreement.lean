import DecoderId.Proofs.Machine.Verdict
import Mathlib.Data.List.Forall2

/-!
# Which outcomes matter

Two runs go the same way if their outcomes agree, one by one, on whether there is a byte
and on the bytes that answer reads (`Machine.turns_match`). What answers a write does not
matter, nor does why there is no byte: that is told as the reason of a failure, and nothing
else hangs on it.
-/

namespace DecoderId

/-! ## Outcomes that agree -/

def Request.isWrite : Request → Bool
  | .read _ _ => false
  | .write _ _ => true

namespace Outcome

def byte? : Outcome → Option Byte
  | value b => some b
  | absent | failure _ => none

/-- As answers to the request: both have a byte or none has, and it is the same unless it answers a write. -/
def Agree (request : Request) (o o' : Outcome) : Prop :=
  o.byte?.isSome = o'.byte?.isSome ∧ (request.isWrite = false → o.byte? = o'.byte?)

instance (request : Request) (o o' : Outcome) : Decidable (Agree request o o') :=
  inferInstanceAs (Decidable (_ ∧ _))

/-- The same byte, bytes that answer a write, or none. -/
theorem Agree.cases {request : Request} {o o' : Outcome} (h : Agree request o o') :
    (∃ b, o = .value b ∧ o' = .value b) ∨ (request.isWrite = true ∧ ∃ b b', o = .value b ∧ o' = .value b') ∨
      ∃ reason reason', o.reason? = some reason ∧ o'.reason? = some reason' := by
  obtain ⟨hsome, hbyte⟩ := h
  cases o with
  | value b =>
    cases o' with
    | value b' =>
      cases hw : request.isWrite with
      | true => exact .inr (.inl ⟨rfl, b, b', rfl, rfl⟩)
      | false =>
        cases hbyte hw
        exact .inl ⟨b, rfl, rfl⟩
    | absent | failure => cases hsome
  | absent | failure =>
    cases o' with
    | value => cases hsome
    | absent | failure => exact .inr (.inr ⟨_, _, rfl, rfl⟩)

end Outcome

/-! ## Turns that match -/

/-- Where a run has failed, and when. -/
def AccessFailure.place (f : AccessFailure) : Int × Option Int := (f.address, f.step)

/-- The answers differ at most in the reason of a failure. -/
inductive AnswersMatch : Except Fault Action → Except Fault Action → Prop
  | same (answer : Except Fault Action) : AnswersMatch answer answer
  | failed {f f' : AccessFailure} :
      f.place = f'.place → AnswersMatch (.error (.access f)) (.error (.access f'))
  | aborted {f f' : AccessFailure} :
      f.place = f'.place → AnswersMatch (.error (.misuse (.aborted f))) (.error (.misuse (.aborted f')))

theorem AnswersMatch.ok {answer answer' : Except Fault Action} (h : AnswersMatch answer answer') {action : Action}
    (ha : answer = .ok action) : answer' = .ok action := by
  cases h with
  | same => exact ha
  | failed | aborted => cases ha

theorem AnswersMatch.access {answer answer' : Except Fault Action} (h : AnswersMatch answer answer') {f : AccessFailure}
    (ha : answer = .error (.access f)) : ∃ f', answer' = .error (.access f') ∧ f.place = f'.place := by
  cases h with
  | same => exact ⟨f, ha, rfl⟩
  | failed hplace =>
    cases ha
    exact ⟨_, rfl, hplace⟩
  | aborted => cases ha

/-- The machines differ at most in the reason of a failure. -/
structure Machine.Matches (m m' : Machine) : Prop where
  session : m.session = m'.session
  script : m.script = m'.script
  pending : m.pending = m'.pending
  result : m.result = m'.result
  failed : m.failed.map AccessFailure.place = m'.failed.map AccessFailure.place

/-- The turns differ at most in the reason of a failure, and in what they tell. -/
structure Turn.Matches (t t' : Turn) : Prop where
  machine : t.machine.Matches t'.machine
  answer : AnswersMatch t.answer t'.answer

variable {m m' : Machine} {op : Operation} {code model : Byte} {bytes : List Byte} {step : Int}

namespace Machine

theorem Matches.refl (m : Machine) : m.Matches m := ⟨rfl, rfl, rfl, rfl, rfl⟩

theorem Matches.eq_of_failed (h : m.Matches m') (hf : m.failed = none) : m = m' := by
  obtain ⟨session, script, pending, result, failed⟩ := m
  obtain ⟨session', script', pending', result', failed'⟩ := m'
  obtain ⟨rfl, rfl, rfl, rfl, h⟩ := h
  cases hf
  rw [Option.map_none, eq_comm, Option.map_eq_none_iff] at h
  cases h
  rfl

end Machine

theorem Turn.Like.matches {t u t' u' : Turn} (h : t.Like u) (h' : t'.Like u') (hu : u.Matches u') : t.Matches t' := by
  refine ⟨?_, ?_⟩
  · rw [h.machine, h'.machine]
    exact hu.machine
  · rw [h.answer, h'.answer]
    exact hu.answer

theorem Turn.Matches.of_eq {t t' : Turn} (hm : t.machine = t'.machine) (ha : t.answer = t'.answer) : t.Matches t' := by
  refine ⟨?_, ?_⟩
  · rw [hm]
    exact .refl _
  · rw [ha]
    exact .same _

theorem Turn.Matches.refl (t : Turn) : t.Matches t := .of_eq rfl rfl

namespace Machine

/-! ## Steps -/

/-- Going on does not hang on the operation that was open before. -/
theorem follow_matches (hm : m.Informed code model bytes step) (hm' : m'.Informed code model bytes step) {p : Procedure}
    (hp : p.InRange) : (m.follow p).Matches (m'.follow p) := by
  cases ho : p.operation? with
  | none =>
    cases p with
    | read | write => cases ho
    | done productId =>
      obtain ⟨h, ha⟩ := complete_of_informed hm hp
      obtain ⟨h', ha'⟩ := complete_of_informed hm' hp
      have hc : (m.complete productId).Matches (m'.complete productId) := .of_eq (h.trans h'.symm) (ha.trans ha'.symm)
      exact (follow_done m productId).matches (follow_done m' productId) hc
  | some op =>
    obtain ⟨h, ha⟩ := follow_of_informed hm ho
    obtain ⟨h', ha'⟩ := follow_of_informed hm' ho
    exact .of_eq (h.trans h'.symm) (ha.trans ha'.symm)

theorem answer_of_write {p : Procedure} (hp : p.IgnoresReplies) (h : p.operation? = some op)
    (hw : op.request.isWrite = true) (v v' : Nat) : p.answer v = p.answer v' := by
  cases p with
  | done => cases h
  | read =>
    cases h
    cases hw
  | write => exact (hp v).1.trans (hp v').1.symm

theorem record_of_write (hw : op.request.isWrite = true) (bytes : List Byte) (b : Byte) : op.record bytes b = bytes := by
  obtain ⟨⟨address, optional⟩ | ⟨address, value⟩, message⟩ := op
  · cases hw
  · rfl

theorem Stage.advance_write (h : Stage m) (hp : m.pending = some op) (hw : op.request.isWrite = true) (b b' : Byte) :
    (m.advance (.value b)).Matches (m.advance (.value b')) := by
  cases h with
  | new | done | failed => cases hp
  | manufacturer | model =>
    cases hp
    cases hw
  | procedure ho hr =>
    cases hp
    obtain ⟨m₁, hm₁, h₁⟩ := advance_following hr ho b
    obtain ⟨m₂, hm₂, h₂⟩ := advance_following hr ho b'
    rw [record_of_write hw] at hm₁ hm₂
    rw [answer_of_write hr.ignoresReplies ho hw b'.val b.val] at h₂
    exact h₁.matches h₂ (follow_matches hm₁ hm₂ (hr.inRange.answer b))

/-- Why there is no byte goes into the reason of a failure only. -/
theorem advance_miss_matches (hw : m.Waiting op) {o o' : Outcome} {reason reason' : String}
    (ho : o.reason? = some reason) (ho' : o'.reason? = some reason') : (m.advance o).Matches (m.advance o') := by
  cases hopt : op.request.isOptional with
  | true => exact (advance_optional hw hopt ho).matches (advance_optional hw hopt ho') (.refl _)
  | false =>
    obtain ⟨h, ha⟩ := advance_required hw hopt ho
    obtain ⟨h', ha'⟩ := advance_required hw hopt ho'
    refine ⟨?_, ?_⟩
    · rw [h, h']
      exact ⟨rfl, rfl, rfl, rfl, rfl⟩
    · rw [ha, ha']
      exact .failed rfl

/-- Outcomes that agree lead to turns that match. -/
theorem Stage.advance_matches (h : Stage m) (hp : m.pending = some op) {o o' : Outcome} (ho : o.Agree op.request o') :
    (m.advance o).Matches (m.advance o') := by
  rcases ho.cases with ⟨b, rfl, rfl⟩ | ⟨hw, b, b', rfl, rfl⟩ | ⟨reason, reason', hr, hr'⟩
  · exact .refl _
  · exact h.advance_write hp hw b b'
  · exact advance_miss_matches (h.waiting hp) hr hr'

/-- Machines that match and that have nothing open refuse any outcome in the same way. -/
theorem Stage.advance_matches_of_idle (h : Stage m) (hm : m.Matches m') (hp : m.pending = none) (o o' : Outcome) :
    (m.advance o).Matches (m'.advance o') := by
  rcases h.new_or_pending_or_ended with rfl | ⟨op, ho⟩ | he
  · obtain rfl := hm.eq_of_failed rfl
    exact .refl _
  · rw [hp] at ho
    cases ho
  · have hs : m'.session.step ≠ 0 := hm.session ▸ he.started
    cases hf : m.failed with
    | none =>
      obtain rfl := hm.eq_of_failed hf
      have hr : m.result.isSome := he.verdict.resolve_right (by simp [hf])
      rw [advance_of_result he.started hr, advance_of_result he.started hr]
      exact .refl _
    | some failure =>
      have hr : m.result = none := h.result_of_failed hf
      have hplace := hm.failed
      rw [hf, Option.map_some, eq_comm, Option.map_eq_some_iff] at hplace
      obtain ⟨failure', hf', he'⟩ := hplace
      rw [advance_of_failed he.started hr hf, advance_of_failed hs (hm.result ▸ hr) hf']
      exact ⟨hm, .aborted he'.symm⟩

/-! ## Runs -/

/-- The turns that outcomes lead to, one by one. -/
def feed (m : Machine) : List Outcome → List Turn
  | [] => []
  | o :: rest => m.advance o :: feed (m.advance o).machine rest

/-- The outcomes agree, one by one, as answers to what the machine asks for when the first ones are fed to it. -/
def AgreeAlong (m : Machine) : List Outcome → List Outcome → Prop
  | [], [] => True
  | o :: rest, o' :: rest' =>
    (∀ op ∈ m.pending, o.Agree op.request o') ∧ AgreeAlong (m.advance o).machine rest rest'
  | _, _ => False

theorem feed_matches (h : Stage m) (hm : m.Matches m') {os os' : List Outcome} (ho : m.AgreeAlong os os') :
    List.Forall₂ Turn.Matches (m.feed os) (m'.feed os') := by
  induction os generalizing m m' os' with
  | nil =>
    cases os' with
    | nil => exact .nil
    | cons => cases ho
  | cons o rest ih =>
    cases os' with
    | nil => cases ho
    | cons o' rest' =>
      obtain ⟨hfirst, hrest⟩ := ho
      have ht : (m.advance o).Matches (m'.advance o') := by
        cases hp : m.pending with
        | none => exact h.advance_matches_of_idle hm hp o o'
        | some op =>
          obtain rfl := hm.eq_of_failed (h.waiting hp).failed
          exact h.advance_matches hp (hfirst op hp)
      exact .cons ht (ih (stage_advance h o) ht.machine hrest)

instance decidableAgreeAlong (m : Machine) : (os os' : List Outcome) → Decidable (m.AgreeAlong os os')
  | [], [] => .isTrue trivial
  | [], _ :: _ | _ :: _, [] => .isFalse id
  | o :: rest, o' :: rest' =>
    have := decidableAgreeAlong (m.advance o).machine rest rest'
    inferInstanceAs (Decidable ((∀ op ∈ m.pending, o.Agree op.request o') ∧ _))

/-- The turns of a run: that of the start, and one for each outcome. -/
def turns (outcomes : List Outcome) : List Turn := start {} :: (start {}).machine.feed outcomes

/-- Two runs whose outcomes agree on whether there is a byte and on the bytes that answer reads: turn
by turn they ask for the same, with the same record, and they end with the same identity, or with a
failure at the same CV and step. -/
theorem turns_match {outcomes outcomes' : List Outcome} (h : (start {}).machine.AgreeAlong outcomes outcomes') :
    List.Forall₂ Turn.Matches (turns outcomes) (turns outcomes') :=
  .cons (.refl _) (feed_matches (stage_start .new) (.refl _) h)

/-- A run that writes and reads in turn, and fails at its last write. -/
theorem turns_match_failing_write :
    (start {}).machine.AgreeAlong
        [.value 113, .value 1, .value 254, .value 4, .value 7, .failure "no acknowledgement"]
        [.value 113, .value 1, .value 0, .value 99, .value 7, .absent] ∧
      List.Forall₂ Turn.Matches
        (turns [.value 113, .value 1, .value 254, .value 4, .value 7, .failure "no acknowledgement"])
        (turns [.value 113, .value 1, .value 0, .value 99, .value 7, .absent]) :=
  have agree : (start {}).machine.AgreeAlong
      [.value 113, .value 1, .value 254, .value 4, .value 7, .failure "no acknowledgement"]
      [.value 113, .value 1, .value 0, .value 99, .value 7, .absent] := by decide
  ⟨agree, turns_match agree⟩

end Machine

end DecoderId
