import DecoderId.Proofs.Identify.Asks
import DecoderId.Proofs.Machine.Messages

/-!
# The calls of an identification

A port with a record shows what an identification asks it for. The machine alone, fed with the outcomes of the
record, issues just these operations, and the run ends with it: no call is made twice, left out or made
afterwards, and between two calls the outside is told of the turn of the machine (`identify_disciplined`).
-/

namespace DecoderId

variable {σ : Type}

/-! ## Ports with a record -/

/-- What a port may be asked for. -/
inductive Port.Query where
  | read (address : Int) (optional : Bool)
  | write (address value : Int)
deriving DecidableEq

/-- A call of a port, and how it came back. -/
structure Port.Entry where
  query : Port.Query
  outcome : Except Fault Outcome
  notes : List Note

/-- The outcomes that calls came back with. One that raised a fault has none. -/
def Port.outcomes : List Port.Entry → List Outcome
  | [] => []
  | ⟨_, .error _, _⟩ :: record => outcomes record
  | ⟨_, .ok o, _⟩ :: record => o :: outcomes record

/-- The port, with a record of its calls. -/
def Port.recorded (port : Port σ) : Port (σ × List Port.Entry) where
  read s address optional :=
    let r := port.read s.1 address optional
    ⟨(r.state, s.2 ++ [⟨.read address optional, r.outcome, r.notes⟩]), r.outcome, r.notes⟩
  write s address value :=
    let r := port.write s.1 address value
    ⟨(r.state, s.2 ++ [⟨.write address value, r.outcome, r.notes⟩]), r.outcome, r.notes⟩

/-- How a port is asked for what is requested. -/
def Request.query : Request → Port.Query
  | read address optional => .read address.number optional
  | write address value => .write address.number value.val

variable {port : Port σ} {s : σ} {record : List Port.Entry}

theorem Port.recorded_perform (port : Port σ) (s : σ) (record : List Port.Entry) (request : Request) :
    port.recorded.perform (s, record) request =
      let r := port.perform s request
      ⟨(r.state, record ++ [⟨request.query, r.outcome, r.notes⟩]), r.outcome, r.notes⟩ := by
  cases request with
  | read address optional => rfl
  | write address value => rfl

/-! ## Runs with a record -/

/-- From a turn of the machine on, these calls are made, these events are told, and the run ends like this. -/
inductive Turn.Conducts : Turn → List Port.Entry → List Event → Except Fault Identity → Prop
  | failed {t : Turn} {f : Fault} : t.answer = .error f → Conducts t [] t.events (.error f)
  | completed {t : Turn} {identity : Identity} :
      t.answer = .ok (.complete identity) → Conducts t [] t.events (.ok identity)
  | raised {t : Turn} {op : Operation} {f : Fault} {notes : List Note} :
      t.answer = .ok (.operate op) →
      Conducts t [⟨op.request.query, .error f, notes⟩] (t.events ++ notes.map .note) (.error f)
  | next {t : Turn} {op : Operation} {o : Outcome} {notes : List Note} {record : List Port.Entry} {events : List Event}
      {answer : Except Fault Identity} :
      t.answer = .ok (.operate op) → Conducts (t.machine.advance o) record events answer →
      Conducts t (⟨op.request.query, .ok o, notes⟩ :: record) (t.events ++ (notes.map .note ++ events)) answer

/-- What is left of an identification after a turn of the machine. -/
def Turn.runOver (t : Turn) (port : Port σ) (s : σ) : Run σ :=
  match t.answer with
  | .error f => ⟨s, .error f, t.events⟩
  | .ok (.complete identity) => ⟨s, .ok identity, t.events⟩
  | .ok (.operate op) => .after t.events (drive port s t.machine op)

theorem identify_eq_runOver (port : Port σ) (s : σ) : identify port s = (Machine.start {}).runOver port s := rfl

theorem Turn.runOver_of_error {t : Turn} {f : Fault} (h : t.answer = .error f) (port : Port σ) (s : σ) :
    t.runOver port s = ⟨s, .error f, t.events⟩ := by
  unfold Turn.runOver
  rw [h]

theorem Turn.runOver_of_complete {t : Turn} {identity : Identity} (h : t.answer = .ok (.complete identity))
    (port : Port σ) (s : σ) : t.runOver port s = ⟨s, .ok identity, t.events⟩ := by
  unfold Turn.runOver
  rw [h]

theorem Turn.runOver_of_operate {t : Turn} {op : Operation} (h : t.answer = .ok (.operate op)) (port : Port σ) (s : σ) :
    t.runOver port s = .after t.events (drive port s t.machine op) := by
  unfold Turn.runOver
  rw [h]

theorem drive_eq_runOver {m : Machine} {op : Operation} {o : Outcome} (ho : (port.perform s op.request).outcome = .ok o) :
    drive port s m op =
      .after ((port.perform s op.request).notes.map .note) ((m.advance o).runOver port (port.perform s op.request).state) := by
  rw [drive_of_ok ho]
  unfold Port.told
  cases ha : (m.advance o).answer with
  | error f =>
    rw [Turn.runOver_of_error ha]
    rfl
  | ok action =>
    cases action with
    | complete identity =>
      rw [Turn.runOver_of_complete ha]
      rfl
    | operate next =>
      rw [Turn.runOver_of_operate ha]
      simp only [Run.after, List.append_assoc]

/-- The run is the same with a record, which holds what the machine issues on its own. -/
structure Turn.Recorded (t : Turn) (port : Port σ) (s : σ) (record entries : List Port.Entry) : Prop where
  same : t.runOver port.recorded (s, record) =
    { state := ((t.runOver port s).state, record ++ entries)
      answer := (t.runOver port s).answer
      events := (t.runOver port s).events }
  conducts : t.Conducts entries (t.runOver port s).events (t.runOver port s).answer

/-- A turn that issues nothing ends the run. -/
theorem Turn.recorded_of_end {t : Turn} (h : ∀ op, t.answer ≠ .ok (.operate op)) (port : Port σ) (s : σ)
    (record : List Port.Entry) : t.Recorded port s record [] := by
  cases ha : t.answer with
  | error f =>
    constructor
    · rw [t.runOver_of_error ha, t.runOver_of_error ha, List.append_nil]
    · rw [t.runOver_of_error ha]
      exact .failed ha
  | ok action =>
    cases action with
    | operate op => exact absurd ha (h op)
    | complete identity =>
      constructor
      · rw [t.runOver_of_complete ha, t.runOver_of_complete ha, List.append_nil]
      · rw [t.runOver_of_complete ha]
        exact .completed ha

theorem Turn.exists_recorded (port : Port σ) (s : σ) (record : List Port.Entry) {t : Turn} {op : Operation}
    (ha : t.answer = .ok (.operate op)) : ∃ entries, t.Recorded port s record entries := by
  have hr := port.recorded_perform s record op.request
  dsimp only at hr
  cases ho : (port.perform s op.request).outcome with
  | error f =>
    have ho' : (port.recorded.perform (s, record) op.request).outcome = .error f := by rw [hr]; exact ho
    refine ⟨[⟨op.request.query, .error f, (port.perform s op.request).notes⟩], ?_, ?_⟩
    · rw [t.runOver_of_operate ha, t.runOver_of_operate ha, drive_of_error ho, drive_of_error ho', hr, ho]
      rfl
    · rw [t.runOver_of_operate ha, drive_of_error ho]
      exact .raised ha
  | ok o =>
    have ho' : (port.recorded.perform (s, record) op.request).outcome = .ok o := by rw [hr]; exact ho
    have hrest : ∃ entries, (t.machine.advance o).Recorded port (port.perform s op.request).state
        (record ++ [⟨op.request.query, .ok o, (port.perform s op.request).notes⟩]) entries := by
      cases hu : (t.machine.advance o).answer with
      | error f => exact ⟨[], recorded_of_end (by simp [hu]) port _ _⟩
      | ok action =>
        cases action with
        | complete identity => exact ⟨[], recorded_of_end (by simp [hu]) port _ _⟩
        | operate next => exact exists_recorded port _ _ hu
    obtain ⟨entries, hsame, hconducts⟩ := hrest
    refine ⟨⟨op.request.query, .ok o, (port.perform s op.request).notes⟩ :: entries, ?_, ?_⟩
    · rw [t.runOver_of_operate ha, t.runOver_of_operate ha, drive_eq_runOver ho, drive_eq_runOver ho', hr]
      dsimp only
      rw [ho, hsame]
      simp [Run.after]
    · rw [t.runOver_of_operate ha, drive_eq_runOver ho]
      exact .next ha hconducts
termination_by t.machine.rank
decreasing_by exact Machine.rank_advance hu

/-! ## The machine alone -/

/-- The operations that turns issue. -/
def issued (turns : List Turn) : List Operation := turns.filterMap Turn.operation?

/-- The turn, and those that outcomes lead to afterwards. -/
def Turn.course (t : Turn) (outcomes : List Outcome) : List Turn := t :: t.machine.feed outcomes

/-- The events of each turn, and behind them what the port notes of the call that the turn leads to. -/
def interleave : List Turn → List Port.Entry → List Event
  | [], _ => []
  | t :: _, [] => t.events
  | t :: turns, e :: record => t.events ++ (e.notes.map .note ++ interleave turns record)

/-- How a run ends: the last call raises a fault, which is the answer as it is, or all calls come back with an
outcome and the last turn of the machine says how. -/
inductive Closes (turns : List Turn) (record : List Port.Entry) : Except Fault Identity → Prop
  | raised {before : List Port.Entry} {e : Port.Entry} {f : Fault} :
      record = before ++ [e] → (∀ e' ∈ before, ∃ o, e'.outcome = .ok o) → e.outcome = .error f →
      Closes turns record (.error f)
  | failed {before : List Turn} {t : Turn} {f : AccessFailure} :
      (∀ e ∈ record, ∃ o, e.outcome = .ok o) → turns = before ++ [t] → t.answer = .error (.access f) →
      Closes turns record (.error (.access f))
  | completed {before : List Turn} {t : Turn} {identity : Identity} :
      (∀ e ∈ record, ∃ o, e.outcome = .ok o) → turns = before ++ [t] → t.answer = .ok (.complete identity) →
      Closes turns record (.ok identity)

theorem Closes.cons {turns : List Turn} {record : List Port.Entry} {answer : Except Fault Identity}
    (h : Closes turns record answer) (t : Turn) {e : Port.Entry} {o : Outcome} (he : e.outcome = .ok o) :
    Closes (t :: turns) (e :: record) answer := by
  have came_back : ∀ {record : List Port.Entry}, (∀ e' ∈ record, ∃ o, e'.outcome = .ok o) →
      ∀ e' ∈ e :: record, ∃ o, e'.outcome = .ok o := by
    intro record hr e' he'
    rcases List.mem_cons.1 he' with rfl | he'
    · exact ⟨o, he⟩
    · exact hr e' he'
  cases h with
  | @raised before last f hrecord hbefore hlast =>
    have hrecord' : e :: record = (e :: before) ++ [last] := congrArg (e :: ·) hrecord
    exact .raised hrecord' (came_back hbefore) hlast
  | @failed before last f hr hturns hlast =>
    have hturns' : t :: turns = (t :: before) ++ [last] := congrArg (t :: ·) hturns
    exact .failed (came_back hr) hturns' hlast
  | @completed before last identity hr hturns hlast =>
    have hturns' : t :: turns = (t :: before) ++ [last] := congrArg (t :: ·) hturns
    exact .completed (came_back hr) hturns' hlast

theorem issued_of_operate {t : Turn} {op : Operation} (h : t.answer = .ok (.operate op)) (turns : List Turn) :
    issued (t :: turns) = op :: issued turns :=
  List.filterMap_cons_some (Turn.operation?_of_operate h)

theorem issued_of_ne {t : Turn} (h : ∀ op, t.answer ≠ .ok (.operate op)) (turns : List Turn) :
    issued (t :: turns) = issued turns :=
  List.filterMap_cons_none (Turn.operation?_of_ne h)

@[simp] theorem Turn.course_nil (t : Turn) : t.course [] = [t] := rfl

@[simp] theorem Turn.course_cons (t : Turn) (o : Outcome) (rest : List Outcome) :
    t.course (o :: rest) = t :: (t.machine.advance o).course rest := rfl

namespace Turn.Conducts

variable {t : Turn} {record : List Port.Entry} {events : List Event} {answer : Except Fault Identity}

/-- The calls are for what the machine issues. -/
theorem calls (h : t.Conducts record events answer) :
    record.map Port.Entry.query = (issued (t.course (Port.outcomes record))).map fun op => op.request.query := by
  induction h with
  | failed ha =>
    rw [Port.outcomes, course_nil, issued_of_ne (by simp [ha])]
    rfl
  | completed ha =>
    rw [Port.outcomes, course_nil, issued_of_ne (by simp [ha])]
    rfl
  | raised ha =>
    rw [Port.outcomes, Port.outcomes, course_nil, issued_of_operate ha]
    rfl
  | next ha _ ih =>
    rw [Port.outcomes, course_cons, issued_of_operate ha, List.map_cons, List.map_cons, ih]

theorem told (h : t.Conducts record events answer) :
    events = interleave (t.course (Port.outcomes record)) record := by
  induction h with
  | failed => rfl
  | completed => rfl
  | raised => simp [Port.outcomes, interleave]
  | next _ _ ih => rw [Port.outcomes, course_cons, interleave, ← ih]

/-- Only the last turn may issue nothing. -/
theorem goesOn (h : t.Conducts record events answer) :
    ∀ u ∈ (t.course (Port.outcomes record)).dropLast, ∃ op, u.answer = .ok (.operate op) := by
  induction h with
  | failed | completed | raised => simp [Port.outcomes]
  | @next t op o notes record events answer ha _ ih =>
    have hne : (t.machine.advance o).course (Port.outcomes record) ≠ [] := List.cons_ne_nil _ _
    rw [Port.outcomes, course_cons, List.dropLast_cons_of_ne_nil hne]
    intro u hu
    rcases List.mem_cons.1 hu with rfl | hu
    · exact ⟨op, ha⟩
    · exact ih u hu

/-- There is progress for each operation, and at the end if the run comes to an identity. -/
theorem progress (h : t.Conducts record events answer)
    (ht : ∀ u ∈ t.course (Port.outcomes record), u.Tells ∧
      ∀ op, u.answer = .ok (.operate op) → op.message ≠ "") :
    events.filterMap Event.progress? =
      (issued (t.course (Port.outcomes record))).map Operation.message ++
        if answer.isOk then ["Done"] else [] := by
  induction h with
  | @failed t f ha =>
    obtain ⟨htells, -⟩ := ht t List.mem_cons_self
    rw [Turn.Tells, ha] at htells
    rw [Port.outcomes, course_nil, issued_of_ne (by simp [ha])]
    exact htells
  | @completed t identity ha =>
    obtain ⟨htells, -⟩ := ht t List.mem_cons_self
    rw [Turn.Tells, ha] at htells
    rw [Port.outcomes, course_nil, issued_of_ne (by simp [ha])]
    exact htells
  | @raised t op f notes ha =>
    obtain ⟨htells, hne⟩ := ht t List.mem_cons_self
    have hmessages : t.events.filterMap Event.progress? = [op.message] := htells.of_operate ha (hne op ha)
    rw [Port.outcomes, Port.outcomes, course_nil, issued_of_operate ha, List.filterMap_append, hmessages,
      progress?_notes]
    rfl
  | @next t op o notes record events answer ha hrest ih =>
    obtain ⟨htells, hne⟩ := ht t List.mem_cons_self
    have hmessages : t.events.filterMap Event.progress? = [op.message] := htells.of_operate ha (hne op ha)
    have hevents := ih fun u hu => ht u (List.mem_cons_of_mem _ hu)
    rw [Port.outcomes, course_cons, issued_of_operate ha, List.filterMap_append, List.filterMap_append, hmessages,
      progress?_notes, hevents]
    rfl

/-- The last turn is one that goes on, as the machine sees it, or the port has raised a fault. -/
theorem closes (h : t.Conducts record events answer) (hs : Machine.Stage t.machine) (hd : Machine.Decides t) :
    Closes (t.course (Port.outcomes record)) record answer := by
  induction h with
  | @failed t f ha =>
    obtain ⟨failure, rfl⟩ := hd.access_of_error ha
    exact .failed (by simp) (show _ = [] ++ [t] from rfl) ha
  | @completed t identity ha => exact .completed (by simp) (show _ = [] ++ [t] from rfl) ha
  | raised ha => exact .raised (List.nil_append _).symm (by simp) rfl
  | @next t op o notes record events answer ha hrest ih =>
    have hp : t.machine.pending = some op := hd.pending ha
    have hclose := ih (Machine.stage_advance hs o) (hs.decides_advance hp o)
    rw [Port.outcomes, course_cons]
    exact hclose.cons t rfl

end Turn.Conducts

/-! ## Discipline -/

/-- What a run over a port does, by the record of the port and the turns of the machine: the port is asked for what the
machine issues and for nothing else, the outside hears of each operation before the port is asked for it, and the
end is that of the machine, or the fault of the last call. -/
structure Disciplined (record : List Port.Entry) (turns : List Turn) (run : Run σ) : Prop where
  calls : record.map Port.Entry.query = (issued turns).map fun op => op.request.query
  goesOn : ∀ t ∈ turns.dropLast, ∃ op, t.answer = .ok (.operate op)
  told : run.events = interleave turns record
  tells : ∀ t ∈ turns, t.messages = progressWith t.answer
  named : ∀ op ∈ issued turns, op.message ≠ "" ∧ op.message ≠ "Done"
  progress : run.events.filterMap Event.progress? =
    (issued turns).map Operation.message ++ if run.answer.isOk then ["Done"] else []
  closes : Closes turns record run.answer

theorem exists_of_mem_issued {turns : List Turn} {op : Operation} (h : op ∈ issued turns) :
    ∃ t ∈ turns, t.answer = .ok (.operate op) := by
  obtain ⟨t, ht, hop⟩ := List.mem_filterMap.1 h
  refine ⟨t, ht, ?_⟩
  unfold Turn.operation? at hop
  split at hop
  · rename_i ha
    cases hop
    exact ha
  · cases hop

/-- The identification is the same with a record, and conducts what the machine issues. -/
theorem identify_recorded (port : Port σ) (s : σ) :
    ∃ record, identify port.recorded (s, []) =
        { state := ((identify port s).state, record), answer := (identify port s).answer, events := (identify port s).events } ∧
      (Machine.start {}).Conducts record (identify port s).events (identify port s).answer := by
  obtain ⟨record, hsame, hconducts⟩ := Turn.exists_recorded port s [] Machine.start_new.2
  rw [identify_eq_runOver, identify_eq_runOver]
  exact ⟨record, hsame, hconducts⟩

/-- Over any port, an identification makes the calls that the machine on its own issues for the outcomes they come back
with. A record of the calls changes nothing. -/
theorem identify_disciplined (port : Port σ) (s : σ) :
    let run := identify port.recorded (s, [])
    let record := run.state.2
    ({ state := run.state.1, answer := run.answer, events := run.events } : Run σ) = identify port s ∧
      Disciplined record (Machine.turns (Port.outcomes record)) (identify port s) := by
  intro run record
  obtain ⟨record', hsame, hconducts⟩ := identify_recorded port s
  have hrun : run = _ := hsame
  have hrecord : record = record' := congrArg (·.state.2) hrun
  have hspeaks : ∀ t ∈ Machine.turns (Port.outcomes record'), t.Tells ∧
      ∀ op, t.answer = .ok (.operate op) → op.message ≠ "" ∧ op.message ≠ "Done" :=
    fun t ht => Machine.tells_of_mem_turns ht
  refine ⟨by rw [hrun], ?_⟩
  rw [hrecord]
  refine ⟨hconducts.calls, hconducts.goesOn, hconducts.told, fun t ht => (hspeaks t ht).1, fun op hop => ?_, ?_, ?_⟩
  · obtain ⟨t, ht, ha⟩ := exists_of_mem_issued hop
    exact (hspeaks t ht).2 op ha
  · exact hconducts.progress fun t ht => ⟨(hspeaks t ht).1, fun op ha => ((hspeaks t ht).2 op ha).1⟩
  · exact hconducts.closes (Machine.stage_start .new) Machine.decides_start

end DecoderId
