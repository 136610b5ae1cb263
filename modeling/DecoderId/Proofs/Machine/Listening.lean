import DecoderId.Proofs.Machine.Verdict

/-!
# Who listens does not matter

A turn has what it tells in one list, next to the machine that it leaves. Here a call is
written as it goes: it changes the machine field by field and tells of progress in
between, and a listener that objects ends it right there. Nothing is changed after
something that a listener may object to, so that the call comes to the turn as the
listener hears it (`Machine.perform_eq`), and the machine goes the same way whoever
listens (`Machine.listeners_agree`).
-/

namespace DecoderId

theorem Turn.heardBy_after_singleton (t : Turn) (e : Event) (l : Listener) :
    (t.after [e]).heardBy l =
      match l.objection e with
      | some text => ⟨t.machine, .error (.listener text), [e]⟩
      | none => (t.heardBy l).after [e] := by
  cases h : l.objection e with
  | some text => simp [heardBy, after, Listener.hear, h]
  | none => simp [heardBy, after, Listener.hear, h]

/-- What is heard of a call that has an answer: the answer without an objection, or the objection to
the last thing that is told. -/
inductive Turn.Heard (l : Listener) (answer : Except Fault Action) (t : Turn) : Prop
  | answered : (∀ e ∈ t.events, l.objection e = none) → t.answer = answer → Heard l answer t
  | objected {before : List Event} {e : Event} {text : String} :
      t.events = before ++ [e] → (∀ e ∈ before, l.objection e = none) → l.objection e = some text →
      t.answer = .error (.listener text) → Heard l answer t

theorem Listener.hear_cases (l : Listener) (events : List Event) :
    (l.hear events = (events, none) ∧ ∀ e ∈ events, l.objection e = none) ∨
      ∃ before e text, l.hear events = (before ++ [e], some text) ∧ (∀ e ∈ before, l.objection e = none) ∧
        l.objection e = some text := by
  induction events with
  | nil => exact .inl ⟨rfl, by simp⟩
  | cons e rest ih =>
    unfold hear
    cases he : l.objection e with
    | some text => exact .inr ⟨[], e, text, rfl, by simp, he⟩
    | none =>
      rcases ih with ⟨hh, hall⟩ | ⟨before, last, text, hh, hall, hlast⟩
      · rw [hh]
        exact .inl ⟨rfl, by simpa [he] using hall⟩
      · rw [hh]
        exact .inr ⟨e :: before, last, text, rfl, by simpa [he] using hall, hlast⟩

theorem Turn.heard_heardBy (t : Turn) (l : Listener) : (t.heardBy l).Heard l t.answer := by
  unfold heardBy
  rcases l.hear_cases t.events with ⟨hh, hall⟩ | ⟨before, e, text, hh, hall, he⟩
  · rw [hh]
    exact .answered hall rfl
  · rw [hh]
    exact .objected rfl hall he rfl

/-- A machine in the middle of a call, and what the call has told so far. -/
structure Midway where
  machine : Machine
  told : List Event := []

/-- Part of a call. It may end the call with a fault, which takes nothing back. -/
abbrev CallM := ReaderT Listener (ExceptT Fault (StateM Midway))

namespace CallM

/-! ## Calls as they go -/

def current : CallM Machine := return (← get).machine

def change (f : Machine → Machine) : CallM Unit := modify fun s => { s with machine := f s.machine }

/-- Changes the record of the machine. -/
def changeSession (f : Session → Session) : CallM Unit := change fun m => { m with session := f m.session }

/-- Tells of an event. An objection ends the call. -/
def tell (e : Event) : CallM Unit := do
  modify fun s => { s with told := s.told ++ [e] }
  match (← read).objection e with
  | some text => throw (.listener text)
  | none => return ()

def tellAll : List Event → CallM Unit
  | [] => return ()
  | e :: rest => do
    tell e
    tellAll rest

def issue (op : Operation) : CallM Action := do
  changeSession fun s => { s with optionalPending := op.request.isOptional }
  change fun m => { m with pending := some op }
  tellAll (Machine.progressOf op)
  tell (.note (.issued op.request))
  return .operate op

def complete (productId : Option Int) : CallM Action := do
  changeSession fun s => { s with productId }
  change fun m => { m with script := none }
  change fun m => { m with pending := none }
  let m ← current
  let code := m.session.manufacturerCode.map fun b => (b.val : Int)
  let model := m.session.modelCode.map fun b => (b.val : Int)
  match Identity.ofCodes code model productId with
  | .error f => throw f
  | .ok identity =>
    change fun m => { m with result := some identity }
    tell (.progress "Done")
    tell (.note (.identified code model productId))
    tell (.completed identity)
    return .complete identity

/-- Tells that the manufacturer's procedure does not cover the model, if the run ends where it began. -/
def completeProcedure (productId : Option Int) : CallM Action := do
  let m ← current
  if m.session.step = 3 ∧ productId = none then
    tell (.note (.modelUnknown (m.session.manufacturer.getD .unknown)
      ((m.session.modelCode.map fun b => (b.val : Int)).getD 0)))
    complete productId
  else complete productId

def follow (p : Procedure) : CallM Action :=
  match p with
  | .done productId => completeProcedure productId
  | .read address optional message _ => do
    change fun m => { m with script := some p }
    issue ⟨.read address optional, message⟩
  | .write address value message _ => do
    change fun m => { m with script := some p }
    issue ⟨.write address value, message⟩

def fail (reason : String) : CallM Action := do
  let m ← current
  let failure := m.failure reason
  tell (.note (.accessFailed failure.address m.session.step reason))
  -- The failure is made first, and its text names the step.
  if Numeral.isWritable m.session.step then
    change fun m => { m with failed := some failure }
    change fun m => { m with script := none }
    change fun m => { m with pending := none }
    changeSession fun s => { s with optionalPending := false }
    throw (.access failure)
  else throw .longInteger

def miss (reason : String) : CallM Action := do
  let m ← current
  match m.session.optionalPending, m.pending with
  | true, some ⟨.read address _, _⟩ =>
    tell (.note (.optionalAbsent address))
    changeSession fun s => { s with optionalPending := false }
    complete none
  | _, _ => fail reason

def takeManufacturer (b : Byte) : CallM Action := do
  changeSession fun s => { s with manufacturerCode := some b }
  changeSession fun s => { s with manufacturer := some (.ofCode b.val) }
  issue ⟨.read modelCv false, "Read MFG version - CV 7"⟩

def takeModel (b : Byte) : CallM Action := do
  changeSession fun s => { s with modelCode := some b }
  let m ← current
  match m.session.manufacturerCode with
  | none => throw .noManufacturerCode
  | some code =>
    match Protocol.lookup code.val with
    | none =>
      tell (.note (.codeUnknown code.val))
      tell (.note (.noProcedure code.val))
      complete none
    | some protocol => follow (protocol.procedure b.val)

def takeByte (b : Byte) : CallM Action := do
  change fun m => m.record b
  let m ← current
  match m.script with
  | none => throw (.misuse .noProcedure)
  | some p => follow (p.answer b.val)

def take (b : Byte) : CallM Action := do
  changeSession fun s => { s with optionalPending := false }
  let m ← current
  if m.session.step = 2 then takeManufacturer b
  else if m.session.step = 3 then takeModel b
  else takeByte b

def start : CallM Action := do
  let m ← current
  if m.session.step ≠ 0 then throw (.misuse .alreadyStarted)
  else
    changeSession fun s => { s with step := 1 }
    issue ⟨.read manufacturerCv false, "Read MFG ID - CV 8"⟩

def advance (outcome : Outcome) : CallM Action := do
  let m ← current
  if m.session.step = 0 then throw (.misuse .notStarted)
  else if m.result.isSome then throw (.misuse .alreadyComplete)
  else match m.failed with
    | some failure => throw (.misuse (.aborted failure))
    | none =>
      changeSession fun s => { s with step := s.step + 1 }
      tell (.note (.answered (m.session.step + 1) outcome m.pending))
      match outcome with
      | .value b => take b
      | .absent => miss unexpectedAbsence
      | .failure reason => miss reason

/-- The call, from a machine on, with a listener. -/
def turn (c : CallM Action) (m : Machine) (l : Listener) : Turn :=
  let (answer, s) := ((c.run l).run.run ⟨m, []⟩ : Except Fault Action × Midway)
  { machine := s.machine, answer, events := s.told }

/-! ## A call comes to its turn -/

/-- From the machine on, the call comes to the turn, as any listener hears it. -/
def ComesTo (c : CallM Action) (m : Machine) (t : Turn) : Prop :=
  ∀ (l : Listener) (told : List Event),
    ((c.run l).run.run ⟨m, told⟩ : Except Fault Action × Midway) =
      ((t.heardBy l).answer, { machine := t.machine, told := told ++ (t.heardBy l).events })

variable {m : Machine} {t : Turn} {c : CallM Action}

theorem comesTo_throw (m : Machine) (f : Fault) : ComesTo (throw f) m ⟨m, .error f, []⟩ := by
  intro l told
  simp only [Turn.heardBy, Listener.hear, List.append_nil]
  rfl

theorem comesTo_return (m : Machine) (a : Action) : ComesTo (return a) m ⟨m, .ok a, []⟩ := by
  intro l told
  simp only [Turn.heardBy, Listener.hear, List.append_nil]
  rfl

theorem ComesTo.current {d : Machine → CallM Action} (h : ComesTo (d m) m t) : ComesTo (current >>= d) m t := h

theorem ComesTo.change {f : Machine → Machine} (h : ComesTo c (f m) t) :
    ComesTo (change f >>= fun _ => c) m t := h

theorem run_tell (e : Event) (c : CallM Action) (l : Listener) (s : Midway) :
    (((tell e >>= fun _ => c).run l).run.run s : Except Fault Action × Midway) =
      match l.objection e with
      | some text => (.error (.listener text), { s with told := s.told ++ [e] })
      | none => (c.run l).run.run { s with told := s.told ++ [e] } := by
  have h : (((tell e >>= fun _ => c).run l).run.run s : Except Fault Action × Midway) =
    (((((match l.objection e with
      | some text => throw (.listener text)
      | none => return ()) : CallM Unit) >>= fun _ => c).run l).run.run { s with told := s.told ++ [e] } :) := rfl
  rw [h]
  cases l.objection e with
  | some text => rfl
  | none => rfl

/-- A note may come at any time. -/
theorem ComesTo.note (n : Note) (h : ComesTo c m t) :
    ComesTo (tell (.note n) >>= fun _ => c) m (t.after [.note n]) := by
  intro l told
  rw [run_tell, Turn.heardBy_after_singleton]
  simp only [Listener.objection, h l, Turn.after, List.append_assoc]

/-- Anything else comes when the machine is as the call leaves it. -/
theorem ComesTo.tell (e : Event) (h : ComesTo c m t) (hm : t.machine = m) :
    ComesTo (tell e >>= fun _ => c) m (t.after [e]) := by
  intro l told
  rw [run_tell, Turn.heardBy_after_singleton]
  cases l.objection e with
  | some text => simp only [Turn.after, hm]
  | none => simp only [h l, Turn.after, List.append_assoc]

theorem comesTo_tellAll (events : List Event) (h : ComesTo c m t) (hm : t.machine = m) :
    ComesTo (tellAll events >>= fun _ => c) m (t.after events) := by
  induction events with
  | nil => exact h
  | cons e rest ih =>
    have hb : (tellAll (e :: rest) >>= fun _ => c) = tell e >>= fun _ => tellAll rest >>= fun _ => c := by
      simp only [tellAll, bind_assoc]
    rw [hb]
    exact .tell e ih hm

theorem comesTo_issue (m : Machine) (op : Operation) : ComesTo (issue op) m (m.issue op) :=
  .change (.change (comesTo_tellAll _ (.note _ (comesTo_return _ _)) rfl))

theorem comesTo_complete (m : Machine) (productId : Option Int) :
    ComesTo (complete productId) m (m.complete productId) := by
  refine .change (.change (.change (.current ?_)))
  unfold Machine.complete
  dsimp only
  cases Identity.ofCodes (m.session.manufacturerCode.map fun b => (b.val : Int))
    (m.session.modelCode.map fun b => (b.val : Int)) productId with
  | error f => exact comesTo_throw _ f
  | ok identity => exact .change (.tell _ (.note _ (.tell _ (comesTo_return _ _) rfl)) rfl)

theorem comesTo_completeProcedure (m : Machine) (productId : Option Int) :
    ComesTo (completeProcedure productId) m (m.follow (.done productId)) := by
  refine .current ?_
  unfold Machine.follow
  dsimp only
  split
  · exact .note _ (comesTo_complete m productId)
  · exact comesTo_complete m productId

theorem comesTo_follow (m : Machine) (p : Procedure) : ComesTo (follow p) m (m.follow p) := by
  cases p with
  | done productId => exact comesTo_completeProcedure m productId
  | read address optional message next => exact .change (comesTo_issue _ _)
  | write address value message next => exact .change (comesTo_issue _ _)

theorem comesTo_fail (m : Machine) (reason : String) : ComesTo (fail reason) m (m.fail reason) := by
  refine .current ?_
  cases h : Numeral.isWritable m.session.step with
  | true =>
    rw [Machine.fail_of_isWritable h]
    dsimp only
    rw [if_pos rfl]
    exact .note _ (.change (.change (.change (.change (comesTo_throw _ _)))))
  | false =>
    rw [Machine.fail_of_not_isWritable h]
    dsimp only
    rw [if_neg Bool.false_ne_true]
    exact .note _ (comesTo_throw _ _)

theorem comesTo_miss (m : Machine) (reason : String) : ComesTo (miss reason) m (m.miss reason) := by
  refine .current ?_
  unfold Machine.miss
  cases m.session.optionalPending with
  | false => exact comesTo_fail m reason
  | true =>
    rcases m.pending with _ | ⟨⟨address, optional⟩ | ⟨address, value⟩, message⟩
    · exact comesTo_fail m reason
    · exact .note _ (.change (comesTo_complete _ none))
    · exact comesTo_fail m reason

theorem comesTo_takeManufacturer (m : Machine) (b : Byte) :
    ComesTo (takeManufacturer b) m (m.takeManufacturer b) :=
  .change (.change (comesTo_issue _ _))

theorem comesTo_takeModel (m : Machine) (b : Byte) : ComesTo (takeModel b) m (m.takeModel b) := by
  refine .change (.current ?_)
  unfold Machine.takeModel
  dsimp only
  cases m.session.manufacturerCode with
  | none => exact comesTo_throw _ _
  | some code =>
    dsimp only
    cases Protocol.lookup code.val with
    | none => exact .note _ (.note _ (comesTo_complete _ none))
    | some protocol => exact comesTo_follow _ _

theorem comesTo_takeByte (m : Machine) (b : Byte) : ComesTo (takeByte b) m (m.takeByte b) := by
  refine .change (.current ?_)
  unfold Machine.takeByte
  dsimp only
  cases (m.record b).script with
  | none => exact comesTo_throw _ _
  | some p => exact comesTo_follow _ _

theorem comesTo_take (m : Machine) (b : Byte) : ComesTo (take b) m (m.take b) := by
  refine .change (.current ?_)
  unfold Machine.take
  dsimp only
  split
  · exact comesTo_takeManufacturer _ b
  · split
    · exact comesTo_takeModel _ b
    · exact comesTo_takeByte _ b

theorem comesTo_start (m : Machine) : ComesTo start m m.start := by
  refine .current ?_
  unfold Machine.start
  split
  · exact comesTo_throw m _
  · exact .change (comesTo_issue _ _)

theorem comesTo_advance (m : Machine) (o : Outcome) : ComesTo (advance o) m (m.advance o) := by
  obtain ⟨session, script, pending, result, failed⟩ := m
  refine .current ?_
  unfold Machine.advance
  split
  · exact comesTo_throw _ _
  split
  · exact comesTo_throw _ _
  cases failed with
  | some failure => exact comesTo_throw _ _
  | none =>
    refine .change (.note _ ?_)
    cases o with
    | value b => exact comesTo_take _ b
    | absent => exact comesTo_miss _ _
    | failure reason => exact comesTo_miss _ reason

end CallM

namespace Machine

variable {m : Machine}

/-! ## Runs -/

/-- What the machine is called with. -/
def callM : Input → CallM Action
  | .start => CallM.start
  | .advance outcome => CallM.advance outcome

/-- A call with a listener, as it goes. -/
def perform (m : Machine) (input : Input) (l : Listener) : Turn := (callM input).turn m l

/-- The machine after calls as they go, each with who listens to it. -/
def performed (m : Machine) (calls : List (Input × Listener)) : Machine :=
  calls.foldl (fun m c => (m.perform c.1 c.2).machine) m

/-- A call comes to its turn, as the listener hears it. -/
theorem perform_eq (m : Machine) (input : Input) (l : Listener) : m.perform input l = (m.call input).heardBy l := by
  have h : CallM.ComesTo (callM input) m (m.call input) := by
    cases input with
    | start => exact CallM.comesTo_start m
    | advance outcome => exact CallM.comesTo_advance m outcome
  unfold perform CallM.turn
  rw [h l []]
  rfl

theorem perform_machine (m : Machine) (input : Input) (l : Listener) :
    (m.perform input l).machine = (m.call input).machine := by
  rw [perform_eq, Turn.heardBy_machine]

theorem stage_perform (h : Stage m) (input : Input) (l : Listener) : Stage (m.perform input l).machine := by
  rw [perform_machine]
  exact stage_call h input

theorem stage_performed (calls : List (Input × Listener)) : Stage (performed {} calls) := by
  unfold performed
  exact List.foldlRecOn calls _ Stage.new fun _ h c _ => stage_perform h c.1 c.2

/-- The machine goes by what it is called with, not by who listens. -/
theorem performed_eq_foldl (m : Machine) (calls : List (Input × Listener)) :
    m.performed calls = (calls.map Prod.fst).foldl (fun m input => (m.call input).machine) m := by
  simp only [performed, perform_machine, List.foldl_map]

/-- Two runs of the same calls with any two lots of listeners, who may object to anything: the
machine is the same after each call, and each call has the same answer of the machine in both runs,
except that it answers with the objection if a listener objects. -/
theorem listeners_agree (calls : List (Input × Listener × Listener)) (input : Input) (l l' : Listener) :
    let m := performed {} (calls.map fun c => (c.1, c.2.1))
    let m' := performed {} (calls.map fun c => (c.1, c.2.2))
    m = m' ∧ (m.perform input l).machine = (m'.perform input l').machine ∧
      ∃ answer, (∀ text, answer ≠ .error (.listener text)) ∧
        (m.perform input l).Heard l answer ∧ (m'.perform input l').Heard l' answer := by
  intro m m'
  have hm : m = m' := by
    simp only [m, m', performed_eq_foldl, List.map_map, Function.comp_def]
  have hs : Stage m := stage_performed _
  refine ⟨hm, ?_, (m.call input).answer, hs.answer_ne_listener input, ?_, ?_⟩
  · rw [← hm, perform_machine, perform_machine]
  · rw [perform_eq]
    exact Turn.heard_heardBy _ l
  · rw [← hm, perform_eq]
    exact Turn.heard_heardBy _ l'

end Machine

end DecoderId
