import DecoderId.Machine.Rank
import DecoderId.Proofs.Machine.Listening
import DecoderId.Proofs.Procedure.Operations

/-!
# The end is told once

The count of steps can be set from outside to anything, which leads to machines that no run comes to. Whatever has been
done to a machine, it tells its listener of the identity once at most, when it finds it, and keeps that identity for
good (`Machine.completion_told_once`). The one reason not to be told is to have objected to the progress that comes just
before.
-/

namespace DecoderId

/-! ## What a turn tells of the end -/

/-- No operation of the procedure has the message that tells of the end. -/
def Procedure.Discreet (p : Procedure) : Prop := ∃ n, p.Each (fun _ op => op.message ≠ "Done") n

theorem Procedure.Discreet.answer {p : Procedure} (h : p.Discreet) (v : Nat) : (p.answer v).Discreet := by
  obtain ⟨n, hn⟩ := h
  exact ⟨n + 1, hn.answer v⟩

theorem Protocol.discreet_of_lookup {code : Int} {p : Protocol} (h : lookup code = some p) (model : Int) :
    (p.procedure model).Discreet :=
  ⟨0, (each_of_lookup h model).mono fun _ _ hp => hp.message_ne_done⟩

/-- The event does not tell of the end. -/
def Event.Quiet (e : Event) : Prop := e ≠ .progress "Done" ∧ e.completed? = none

theorem Event.quiet_note (n : Note) : (note n).Quiet := ⟨by simp, rfl⟩

/-- What is left of the procedure does not tell of the end. -/
def Machine.Discreet (m : Machine) : Prop := ∀ p ∈ m.script, p.Discreet

/-- What a turn may do about the result that was there before it. Either it leaves it alone, does not tell of the end and
does not answer with it, or there was none, and it finds one, tells of the end last, and answers with it. -/
inductive Turn.Passes (result : Option Identity) (t : Turn) : Prop
  | goesOn : t.machine.Discreet → t.machine.result = result → (∀ e ∈ t.events, e.Quiet) →
      (∀ identity, t.answer ≠ .ok (.complete identity)) → Passes result t
  | completes (notes : List Note) {n : Note} {identity : Identity} :
      t.machine.Discreet → result = none → t.machine.result = some identity → t.answer = .ok (.complete identity) →
      t.events = notes.map .note ++ [.progress "Done", .note n, .completed identity] → Passes result t

theorem Turn.Passes.discreet {result : Option Identity} {t : Turn} (h : t.Passes result) : t.machine.Discreet := by
  cases h with
  | goesOn hd | completes _ hd => exact hd

theorem Turn.Passes.after_notes {result : Option Identity} {t : Turn} (notes : List Note) (h : t.Passes result) :
    (t.after (notes.map .note)).Passes result := by
  cases h with
  | goesOn hd hr hq hne =>
    refine .goesOn hd hr (fun e he => ?_) hne
    rcases List.mem_append.1 he with he | he
    · obtain ⟨n, -, rfl⟩ := List.mem_map.1 he
      exact Event.quiet_note n
    · exact hq e he
  | completes later hd hn hr ha he =>
    have hevents := congrArg (notes.map Event.note ++ ·) he
    simp only [← List.append_assoc, ← List.map_append] at hevents
    exact .completes (notes ++ later) hd hn hr ha hevents

namespace Machine

variable {m : Machine} {result : Option Identity} {op : Operation}

/-! ## One lemma per helper -/

theorem discreet_of_script (h : m.script = none) : m.Discreet := by
  intro p hp
  rw [h] at hp
  cases hp

theorem passes_refuse (misuse : Misuse) (hd : m.Discreet) (hr : m.result = result) : (m.refuse misuse).Passes result :=
  .goesOn hd hr (by simp [refuse]) (by simp [refuse])

theorem passes_issue (hd : m.Discreet) (hr : m.result = result) (hop : op.message ≠ "Done") :
    (m.issue op).Passes result := by
  refine .goesOn hd hr (fun e he => ?_) (by simp [issue])
  rcases List.mem_append.1 he with he | he
  · unfold progressOf at he
    split at he
    · cases he
    · rw [List.mem_singleton.1 he]
      exact ⟨by simpa using hop, rfl⟩
  · rw [List.mem_singleton.1 he]
    exact Event.quiet_note _

theorem passes_complete (productId : Option Int) (hr : m.result = none) : (m.complete productId).Passes none := by
  unfold complete
  dsimp only
  split
  · exact .goesOn (discreet_of_script rfl) hr (by simp) (by simp)
  · exact .completes [] (discreet_of_script rfl) rfl rfl rfl rfl

theorem passes_follow {p : Procedure} (hp : p.Discreet) (hr : m.result = none) : (m.follow p).Passes none := by
  have hscript : Discreet { m with script := some p } := by
    rintro q ⟨⟩
    exact hp
  obtain ⟨n, hn⟩ := hp
  cases p with
  | done productId =>
    unfold follow
    dsimp only
    split
    · exact .after_notes [_] (passes_complete productId hr)
    · exact .after_notes [] (passes_complete productId hr)
  | read address optional message next => exact passes_issue hscript hr (hn.operation rfl)
  | write address value message next => exact passes_issue hscript hr (hn.operation rfl)

/-- A failure that cannot be told leaves the procedure as it is. -/
theorem passes_fail (reason : String) (hd : m.Discreet) (hr : m.result = result) : (m.fail reason).Passes result := by
  cases h : Numeral.isWritable m.session.step with
  | true =>
    rw [fail_of_isWritable h]
    exact .goesOn (discreet_of_script rfl) hr (by simp [Event.quiet_note]) (by simp)
  | false =>
    rw [fail_of_not_isWritable h]
    exact .goesOn hd hr (by simp [Event.quiet_note]) (by simp)

theorem passes_miss (reason : String) (hd : m.Discreet) (hr : m.result = none) : (m.miss reason).Passes none := by
  unfold miss
  split
  · exact .after_notes [_] (passes_complete none hr)
  · exact passes_fail reason hd hr

theorem passes_takeModel (b : Byte) (hd : m.Discreet) (hr : m.result = none) : (m.takeModel b).Passes none := by
  unfold takeModel
  dsimp only
  split
  · exact .goesOn hd hr (by simp) (by simp)
  split
  · exact .after_notes [_, _] (passes_complete none hr)
  · rename_i protocol hl
    exact passes_follow (Protocol.discreet_of_lookup hl b.val) hr

theorem passes_takeByte (b : Byte) (hd : m.Discreet) (hr : m.result = none) : (m.takeByte b).Passes none := by
  have hresult : (m.record b).result = none := by
    unfold record
    split <;> exact hr
  have hdiscreet : (m.record b).Discreet := by
    unfold Discreet
    rwa [(record_script m b).1]
  unfold takeByte
  dsimp only
  split
  · exact passes_refuse _ hdiscreet hresult
  · rename_i p hp
    exact passes_follow ((hdiscreet p hp).answer b.val) hresult

theorem passes_take (b : Byte) (hd : m.Discreet) (hr : m.result = none) : (m.take b).Passes none := by
  unfold take
  dsimp only
  split
  · exact passes_issue hd hr (by simp)
  split
  · exact passes_takeModel b hd hr
  · exact passes_takeByte b hd hr

theorem passes_start (hd : m.Discreet) (hr : m.result = result) : m.start.Passes result := by
  unfold start
  split
  · exact passes_refuse _ hd hr
  · exact passes_issue hd hr (by simp)

theorem passes_advance (o : Outcome) (hd : m.Discreet) (hr : m.result = result) : (m.advance o).Passes result := by
  unfold advance
  split
  · exact passes_refuse _ hd hr
  split
  · exact passes_refuse _ hd hr
  rename_i hnone
  split
  · exact passes_refuse _ hd hr
  have hn : m.result = none := by simpa using hnone
  obtain rfl : none = result := hn.symm.trans hr
  refine .after_notes [_] ?_
  cases o with
  | value b => exact passes_take b hd hn
  | absent => exact passes_miss _ hd hn
  | failure reason => exact passes_miss reason hd hn

theorem passes_call (hd : m.Discreet) : (input : Input) → (m.call input).Passes m.result
  | .start => passes_start hd rfl
  | .advance o => passes_advance o hd rfl

end Machine

/-! ## What is heard of the end -/

namespace Listener

theorem mem_of_mem_hear {l : Listener} {events : List Event} {e : Event} (h : e ∈ (l.hear events).1) : e ∈ events := by
  induction events with
  | nil => exact h
  | cons first rest ih =>
    unfold hear at h
    split at h
    · rw [List.mem_singleton.1 h]
      exact List.mem_cons_self
    · rcases List.mem_cons.1 h with rfl | h
      · exact List.mem_cons_self
      · exact List.mem_cons_of_mem _ (ih h)

theorem hear_notes_append (l : Listener) (notes : List Note) (events : List Event) :
    (l.hear (notes.map .note ++ events)).1 = notes.map .note ++ (l.hear events).1 := by
  induction notes with
  | nil => rfl
  | cons n notes ih => simp [hear, objection, ih]

/-- Events, each with what the listener objects to it. -/
def objections (l : Listener) (events : List Event) : List (Event × Option String) := events.map fun e => (e, l.objection e)

theorem objections_append (l : Listener) (events more : List Event) :
    l.objections (events ++ more) = l.objections events ++ l.objections more := List.map_append

end Listener

/-- The identities among what has been told. -/
def completions (told : List (Event × Option String)) : List Identity := told.filterMap fun t => t.1.completed?

/-- A listener has objected to the progress that tells of the end. -/
def ObjectsToEnd (told : List (Event × Option String)) : Prop := ∃ text, (.progress "Done", some text) ∈ told

/-- How a result goes with what has been told so far: nothing of the end while there is none, and then the identity, but
for an objection. -/
inductive Accords : Option Identity → List (Event × Option String) → Prop
  | quiet {told : List (Event × Option String)} : (∀ t ∈ told, t.1.Quiet) → Accords none told
  | completed {identity : Identity} {told : List (Event × Option String)} :
      ¬ ObjectsToEnd told → completions told = [identity] → Accords (some identity) told
  | objected {identity : Identity} {told : List (Event × Option String)} :
      ObjectsToEnd told → completions told = [] → Accords (some identity) told

section
variable {told more : List (Event × Option String)} {result : Option Identity}

theorem completions_append (told more : List (Event × Option String)) :
    completions (told ++ more) = completions told ++ completions more := List.filterMap_append

theorem completions_of_quiet (h : ∀ t ∈ told, t.1.Quiet) : completions told = [] :=
  List.filterMap_eq_nil_iff.2 fun t ht => (h t ht).2

theorem not_objectsToEnd_of_quiet (h : ∀ t ∈ told, t.1.Quiet) : ¬ ObjectsToEnd told := by
  rintro ⟨text, ht⟩
  exact (h _ ht).1 rfl

theorem objectsToEnd_append : ObjectsToEnd (told ++ more) ↔ ObjectsToEnd told ∨ ObjectsToEnd more := by
  simp [ObjectsToEnd, exists_or]

/-- What does not tell of the end changes nothing. -/
theorem Accords.append_quiet (h : Accords result told) (hq : ∀ t ∈ more, t.1.Quiet) : Accords result (told ++ more) := by
  have hcompletions : completions (told ++ more) = completions told := by
    rw [completions_append, completions_of_quiet hq, List.append_nil]
  have hobjects : ObjectsToEnd (told ++ more) ↔ ObjectsToEnd told := by
    simp [objectsToEnd_append, not_objectsToEnd_of_quiet hq]
  cases h with
  | quiet hall =>
    refine .quiet fun t ht => ?_
    rcases List.mem_append.1 ht with ht | ht
    · exact hall t ht
    · exact hq t ht
  | completed hn hc => exact .completed (fun ho => hn (hobjects.1 ho)) (hcompletions.trans hc)
  | objected ho hc => exact .objected (hobjects.2 ho) (hcompletions.trans hc)

theorem Accords.length_le (h : Accords result told) : (completions told).length ≤ 1 := by
  cases h with
  | quiet hq => simp [completions_of_quiet hq]
  | completed _ hc | objected _ hc => simp [hc]

theorem Accords.result_of_mem (h : Accords result told) {identity : Identity} (hi : identity ∈ completions told) :
    result = some identity := by
  cases h with
  | quiet hq =>
    rw [completions_of_quiet hq] at hi
    cases hi
  | completed _ hc =>
    rw [hc, List.mem_singleton] at hi
    rw [hi]
  | objected _ hc =>
    rw [hc] at hi
    cases hi

theorem Accords.completions_of_none (h : Accords none told) : completions told = [] ∧ ¬ ObjectsToEnd told := by
  obtain ⟨hq⟩ := h
  exact ⟨completions_of_quiet hq, not_objectsToEnd_of_quiet hq⟩

theorem Accords.completions_of_some {identity : Identity} (h : Accords (some identity) told) :
    (¬ ObjectsToEnd told → completions told = [identity]) ∧ (ObjectsToEnd told → completions told = []) := by
  cases h with
  | completed hn hc => exact ⟨fun _ => hc, fun ho => absurd ho hn⟩
  | objected ho hc => exact ⟨fun hn => absurd ho hn, fun _ => hc⟩

/-- The end is told of when it is found, if there is no objection to the progress before it. -/
theorem Accords.append_end (h : Accords none told) (l : Listener) (n : Note) (identity : Identity) :
    Accords (some identity)
      (told ++ l.objections (l.hear [.progress "Done", .note n, .completed identity]).1) := by
  obtain ⟨hnone, hnot⟩ := h.completions_of_none
  cases ho : l.onProgress "Done" with
  | some text =>
    have htold : l.objections (l.hear [.progress "Done", .note n, .completed identity]).1 =
        [(.progress "Done", some text)] := by
      simp [Listener.objections, Listener.hear, Listener.objection, ho]
    rw [htold]
    refine .objected ⟨text, List.mem_append_right _ List.mem_cons_self⟩ ?_
    rw [completions_append, hnone]
    rfl
  | none =>
    have htold : l.objections (l.hear [.progress "Done", .note n, .completed identity]).1 =
        [(.progress "Done", none), (.note n, none), (.completed identity, l.onCompleted identity)] := by
      cases hc : l.onCompleted identity <;> simp [Listener.objections, Listener.hear, Listener.objection, ho, hc]
    rw [htold]
    refine .completed ?_ ?_
    · rw [objectsToEnd_append, not_or]
      exact ⟨hnot, by simp [ObjectsToEnd]⟩
    · rw [completions_append, hnone]
      rfl

end

namespace Machine

/-! ## Anything that is done to a machine -/

/-- What is done to a machine: it is called while somebody listens, or its count of steps is set. -/
inductive Move where
  | call (input : Input) (l : Listener)
  | setStep (step : Int)

/-- The machine that a move leaves. -/
def move (m : Machine) : Move → Machine
  | .call input l => (m.perform input l).machine
  | .setStep step => m.setStep step

/-- What a move tells. -/
def told (m : Machine) : Move → List (Event × Option String)
  | .call input l => l.objections (m.perform input l).events
  | .setStep _ => []

/-- The machine that moves leave, one after the other. -/
def moved (m : Machine) : List Move → Machine
  | [] => m
  | a :: rest => (m.move a).moved rest

/-- What moves tell, one after the other. -/
def story (m : Machine) : List Move → List (Event × Option String)
  | [] => []
  | a :: rest => m.told a ++ (m.move a).story rest

variable {m : Machine} {told : List (Event × Option String)}

theorem move_call (m : Machine) (input : Input) (l : Listener) : m.move (.call input l) = (m.call input).machine :=
  perform_machine m input l

theorem Discreet.move (h : m.Discreet) (a : Move) : (m.move a).Discreet := by
  cases a with
  | call input l =>
    rw [move_call]
    exact (passes_call h input).discreet
  | setStep step => exact h

theorem Discreet.moved (h : m.Discreet) (moves : List Move) : (m.moved moves).Discreet := by
  induction moves generalizing m with
  | nil => exact h
  | cons a rest ih => exact ih (h.move a)

/-- A result is kept, whatever is done. -/
theorem Discreet.result_move (h : m.Discreet) {identity : Identity} (hr : m.result = some identity) (a : Move) :
    (m.move a).result = some identity := by
  cases a with
  | call input l =>
    rw [move_call]
    cases passes_call h input with
    | goesOn _ hsame => exact hsame.trans hr
    | completes _ _ hnone =>
      rw [hr] at hnone
      cases hnone
  | setStep step => exact hr

theorem Discreet.result_moved (h : m.Discreet) {identity : Identity} (hr : m.result = some identity)
    (moves : List Move) : (m.moved moves).result = some identity := by
  induction moves generalizing m with
  | nil => exact hr
  | cons a rest ih => exact ih (h.move a) (h.result_move hr a)

theorem accords_move (h : m.Discreet) (ha : Accords m.result told) (a : Move) :
    Accords (m.move a).result (told ++ m.told a) := by
  cases a with
  | setStep step =>
    have htold : m.told (.setStep step) = [] := rfl
    rw [htold, List.append_nil]
    exact ha
  | call input l =>
    have htold : m.told (.call input l) = l.objections (l.hear (m.call input).events).1 :=
      congrArg (fun t : Turn => l.objections t.events) (perform_eq m input l)
    rw [move_call, htold]
    cases passes_call h input with
    | goesOn _ hsame hq =>
      rw [hsame]
      refine ha.append_quiet fun t ht => ?_
      obtain ⟨e, he, rfl⟩ := List.mem_map.1 ht
      exact hq e (Listener.mem_of_mem_hear he)
    | @completes notes n identity _ hnone hresult _ hevents =>
      rw [hnone] at ha
      have hnotes : ∀ t ∈ l.objections (notes.map .note), t.1.Quiet := by
        simp [Listener.objections, Event.quiet_note]
      rw [hresult, hevents, Listener.hear_notes_append, Listener.objections_append, ← List.append_assoc]
      exact (ha.append_quiet hnotes).append_end l n identity

theorem accords_moved (h : m.Discreet) (ha : Accords m.result told) (moves : List Move) :
    Accords (m.moved moves).result (told ++ m.story moves) := by
  induction moves generalizing m told with
  | nil =>
    rw [story, List.append_nil]
    exact ha
  | cons a rest ih =>
    rw [story, ← List.append_assoc]
    exact ih (h.move a) (accords_move h ha a)

/-- The identity that a call tells of has just been found: it is the result when it is told of, which is what a listener
who objects right then leaves behind. -/
theorem Discreet.result_of_told (h : m.Discreet) {input : Input} {l : Listener} {identity : Identity}
    (ht : .completed identity ∈ (m.perform input l).events) (text : String) :
    m.result = none ∧
      (m.perform input { l with onCompleted := fun _ => some text }).machine.result = some identity := by
  rw [perform_eq] at ht
  have he : .completed identity ∈ (m.call input).events := Listener.mem_of_mem_hear ht
  rw [perform_machine]
  cases passes_call h input with
  | goesOn _ _ hq => cases (hq _ he).2
  | completes notes _ hnone hresult _ hevents =>
    rw [hevents] at he
    obtain rfl : identity = _ := by simpa using he
    exact ⟨hnone, hresult⟩

/-- A call that answers with an identity has just found it, and has told of it. -/
theorem Discreet.told_of_answer (h : m.Discreet) {input : Input} {l : Listener} {identity : Identity}
    (ha : (m.perform input l).answer = .ok (.complete identity)) :
    m.result = none ∧ (m.perform input l).machine.result = some identity ∧
      .completed identity ∈ (m.perform input l).events := by
  rw [perform_machine]
  rw [perform_eq] at ha ⊢
  unfold Turn.heardBy at ha ⊢
  -- An objection would be the answer.
  rcases l.hear_cases (m.call input).events with ⟨hheard, -⟩ | ⟨before, e, text, hheard, -⟩
  · rw [hheard] at ha ⊢
    dsimp only at ha ⊢
    cases passes_call h input with
    | goesOn _ _ _ hne => exact absurd ha (hne identity)
    | completes notes _ hnone hresult ha' hevents =>
      obtain rfl : _ = identity := by simpa [ha'] using ha
      exact ⟨hnone, hresult, by simp [hevents]⟩
  · rw [hheard] at ha
    cases ha

/-- Whatever has been done to a new machine, listeners have been told of an identity once at most. That identity is the
result of the machine when they are told, and from then on. They have been told of it exactly once if there is a result,
but for a listener who has objected to the progress that comes before; and not at all if there is none. A call that
answers with an identity has just found it and told of it. -/
theorem completion_told_once (moves : List Move) :
    let m := moved {} moves
    let told := story {} moves
    (completions told).length ≤ 1 ∧
      (∀ identity ∈ completions told, ∀ later, (m.moved later).result = some identity) ∧
      (m.result = none → completions told = [] ∧ ¬ ObjectsToEnd told) ∧
      (∀ identity, m.result = some identity →
        (¬ ObjectsToEnd told → completions told = [identity]) ∧ (ObjectsToEnd told → completions told = [])) ∧
      (∀ (input : Input) (l : Listener) (identity : Identity) (text : String),
        .completed identity ∈ (m.perform input l).events →
          m.result = none ∧
            (m.perform input { l with onCompleted := fun _ => some text }).machine.result = some identity) ∧
      ∀ (input : Input) (l : Listener) (identity : Identity), (m.perform input l).answer = .ok (.complete identity) →
        m.result = none ∧ (m.perform input l).machine.result = some identity ∧
          .completed identity ∈ (m.perform input l).events := by
  intro m told
  have hnew : Discreet {} := discreet_of_script rfl
  have hnothing : Accords none [] := .quiet (by simp)
  have hd : m.Discreet := hnew.moved moves
  have ha : Accords m.result told := by simpa using accords_moved hnew hnothing moves
  refine ⟨ha.length_le, fun identity hi => hd.result_moved (ha.result_of_mem hi), fun hr => ?_, fun identity hr => ?_,
    fun _ _ _ text ht => hd.result_of_told ht text, fun _ _ _ ha => hd.told_of_answer ha⟩
  · rw [hr] at ha
    exact ha.completions_of_none
  · rw [hr] at ha
    exact ha.completions_of_some

/-- With its count of steps set back, a machine that has ended can be started again, but there is no second end. -/
example :
    (completions (story {} [.call .start {}, .call (.advance (.value 0)) {}, .call (.advance (.value 0)) {}, .setStep 0,
      .call .start {}, .call (.advance (.value 0)) {}])).length = 1 := by
  decide

end Machine

end DecoderId
