import DecoderId.Machine

/-!
# Listeners

A listener hears of progress and of the end, and may object with an error. An objection
ends what the call tells, and is its answer; the machine has moved on all the same.
-/

namespace DecoderId

/-- Who hears of progress and of the end: the text of the objection, if there is one. -/
structure Listener where
  onProgress : String → Option String := fun _ => none
  onCompleted : Identity → Option String := fun _ => none

namespace Listener

/-- What the listener objects to an event. Notes are for the log. -/
def objection (l : Listener) : Event → Option String
  | .note _ => none
  | .progress message => l.onProgress message
  | .completed identity => l.onCompleted identity

/-- The events up to the first objection, which are those that are told, and the
objection. -/
def hear (l : Listener) : List Event → List Event × Option String
  | [] => ([], none)
  | e :: rest =>
    match l.objection e with
    | some text => ([e], some text)
    | none => let (told, text) := l.hear rest; (e :: told, text)

end Listener

/-- The turn as it is when a listener hears of it. -/
def Turn.heardBy (t : Turn) (l : Listener) : Turn :=
  let (told, objection) := l.hear t.events
  { machine := t.machine
    answer := match objection with
      | some text => .error (.listener text)
      | none => t.answer
    events := told }

/-- A listener does not change what a turn does to the machine. -/
theorem Turn.heardBy_machine (t : Turn) (l : Listener) : (t.heardBy l).machine = t.machine := rfl

/-- A listener that never objects hears everything. -/
theorem Listener.hear_of_silent {l : Listener} {events : List Event} (h : ∀ e ∈ events, l.objection e = none) :
    l.hear events = (events, none) := by
  induction events with
  | nil => rfl
  | cons e rest ih =>
    simp only [List.mem_cons, forall_eq_or_imp] at h
    simp [Listener.hear, h.1, ih h.2]

end DecoderId
