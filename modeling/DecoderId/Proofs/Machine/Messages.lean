import DecoderId.Proofs.Machine.Agreement
import DecoderId.Proofs.Procedure.Operations

/-!
# Progress of a run

A call tells of progress once if it issues an operation, with the message of that operation, and once if
it ends the run with an identity. Otherwise it tells nothing (`Machine.tells_advance`). No operation
that a machine issues is without a message (`Machine.Stage.message_of_operate`).
-/

namespace DecoderId

/-- The progress that a turn tells of. -/
def Turn.messages (t : Turn) : List String := t.events.filterMap Event.progress?

/-- The progress that comes with an answer. -/
def progressWith : Except Fault Action → List String
  | .ok (.operate op) => if op.message.isEmpty then [] else [op.message]
  | .ok (.complete _) => ["Done"]
  | .error _ => []

/-- The turn tells of the progress that comes with its answer, and of no other. -/
def Turn.Tells (t : Turn) : Prop := t.messages = progressWith t.answer

theorem Turn.Tells.of_operate {t : Turn} (h : t.Tells) {op : Operation} (ha : t.answer = .ok (.operate op))
    (hne : op.message ≠ "") : t.messages = [op.message] := by
  have hempty : op.message.isEmpty = false := by simpa using hne
  rw [h, ha, progressWith, hempty]
  rfl

theorem Turn.Tells.after_notes {t : Turn} (h : t.Tells) {events : List Event}
    (he : events.filterMap Event.progress? = []) : (t.after events).Tells := by
  unfold Turn.Tells Turn.messages Turn.after
  rw [List.filterMap_append, he]
  exact h

theorem progress?_notes (notes : List Note) : (notes.map Event.note).filterMap Event.progress? = [] := by
  simp [Event.progress?]

namespace Machine

/-! ## One lemma per helper -/

theorem tells_refuse (m : Machine) (misuse : Misuse) : (m.refuse misuse).Tells := rfl

theorem tells_issue (m : Machine) (op : Operation) : (m.issue op).Tells := by
  unfold Turn.Tells Turn.messages issue progressOf progressWith
  cases h : op.message.isEmpty with
  | true => simp [h, Event.progress?]
  | false => simp [h, Event.progress?]

theorem tells_complete (m : Machine) (productId : Option Int) : (m.complete productId).Tells := by
  unfold complete
  dsimp only
  split
  · rfl
  · rfl

theorem tells_follow (m : Machine) (p : Procedure) : (m.follow p).Tells := by
  cases p with
  | done productId =>
    refine (tells_complete m productId).after_notes ?_
    split
    · rfl
    · rfl
  | read address optional message next => exact tells_issue _ _
  | write address value message next => exact tells_issue _ _

theorem tells_fail (m : Machine) (reason : String) : (m.fail reason).Tells := by
  unfold fail
  dsimp only
  split
  · rfl
  · rfl

theorem tells_miss (m : Machine) (reason : String) : (m.miss reason).Tells := by
  unfold miss
  split
  · exact (tells_complete _ none).after_notes rfl
  · exact tells_fail m reason

theorem tells_takeModel (m : Machine) (b : Byte) : (m.takeModel b).Tells := by
  unfold takeModel
  dsimp only
  split
  · rfl
  split
  · exact (tells_complete _ none).after_notes rfl
  · exact tells_follow _ _

theorem tells_takeByte (m : Machine) (b : Byte) : (m.takeByte b).Tells := by
  unfold takeByte
  dsimp only
  split
  · exact tells_refuse _ _
  · exact tells_follow _ _

theorem tells_take (m : Machine) (b : Byte) : (m.take b).Tells := by
  unfold take
  dsimp only
  split
  · exact tells_issue _ _
  split
  · exact tells_takeModel _ b
  · exact tells_takeByte _ b

theorem tells_start (m : Machine) : m.start.Tells := by
  unfold start
  split
  · exact tells_refuse m _
  · exact tells_issue _ _

theorem tells_advance (m : Machine) (o : Outcome) : (m.advance o).Tells := by
  unfold advance
  split
  · exact tells_refuse m _
  split
  · exact tells_refuse m _
  split
  · exact tells_refuse m _
  refine Turn.Tells.after_notes ?_ rfl
  cases o with
  | value b => exact tells_take _ b
  | absent => exact tells_miss _ _
  | failure reason => exact tells_miss _ reason

/-! ## Messages of operations -/

variable {m : Machine} {op : Operation}

/-- The operation that is open has a message, and not the one that tells of the end. -/
theorem Stage.message_of_pending (h : Stage m) (hp : m.pending = some op) : op.message ≠ "" ∧ op.message ≠ "Done" := by
  cases h with
  | new | done | failed => cases hp
  | manufacturer | model =>
    cases hp
    decide
  | procedure hop hr =>
    cases hp
    obtain ⟨protocol, n, hl, -, hq⟩ := hr
    have hpermits := hq.permits hl hop
    exact ⟨hpermits.message_ne_empty, hpermits.message_ne_done⟩

theorem Stage.message_of_operate (h : Stage m) {o : Outcome} (ha : (m.advance o).answer = .ok (.operate op)) :
    op.message ≠ "" ∧ op.message ≠ "Done" := by
  have hs : Stage (m.advance o).machine := stage_advance h o
  rcases h.call_cases (.advance o) with ⟨-, misuse, hc⟩ | ⟨-, hd⟩
  · have hanswer : (m.advance o).answer = .error (.misuse misuse) := congrArg Turn.answer hc
    rw [hanswer] at ha
    cases ha
  · exact hs.message_of_pending (hd.pending ha)

/-! ## Runs -/

theorem Stage.exists_of_mem_feed (h : Stage m) {outcomes : List Outcome} {t : Turn} (ht : t ∈ m.feed outcomes) :
    ∃ m' o, Stage m' ∧ t = m'.advance o := by
  induction outcomes generalizing m with
  | nil => cases ht
  | cons o rest ih =>
    rcases List.mem_cons.1 ht with rfl | ht
    · exact ⟨m, o, h, rfl⟩
    · exact ih (stage_advance h o) ht

/-- Every turn of a run tells of the progress that comes with its answer, and no operation is without a message. -/
theorem tells_of_mem_turns {outcomes : List Outcome} {t : Turn} (ht : t ∈ turns outcomes) :
    t.Tells ∧ ∀ op, t.answer = .ok (.operate op) → op.message ≠ "" ∧ op.message ≠ "Done" := by
  rcases List.mem_cons.1 ht with rfl | ht
  · refine ⟨tells_start {}, fun op ha => ?_⟩
    exact (stage_start .new).message_of_pending (decides_start.pending ha)
  · obtain ⟨m, o, hm, rfl⟩ := (stage_start .new).exists_of_mem_feed ht
    exact ⟨tells_advance m o, fun op => hm.message_of_operate⟩

end Machine

end DecoderId
