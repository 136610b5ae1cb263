import DecoderId.Identify

/-!
# What an identification does to a port

It makes requests, one at least, and makes none after one that raised a fault. What
requests keep, an identification keeps (`Port.Asks`).

A round of it is a request and the call of the machine that takes the outcome. The answer
of the machine ends the run or leads to the next round.
-/

namespace DecoderId

variable {σ : Type} {port : Port σ}

/-- A state of the port leads to another by requests, of which only the last may raise a fault. -/
inductive Port.Asks (port : Port σ) : σ → σ → Prop
  | once (s : σ) (request : Request) : Asks port s (port.perform s request).state
  | again {s s' : σ} {request : Request} {outcome : Outcome} :
      (port.perform s request).outcome = .ok outcome → Asks port (port.perform s request).state s' → Asks port s s'

theorem Port.asks_drive (s : σ) (m : Machine) (op : Operation) : port.Asks s (drive port s m op).state := by
  -- The port raises a fault, the machine does, the machine is done, or it goes on.
  fun_induction drive port s m op with
  | case1 s m op => exact .once s op.request
  | case2 s m op => exact .once s op.request
  | case3 s m op => exact .once s op.request
  | case4 s m op r noted outcome ho t next ha ih => exact .again ho ih

theorem Port.asks_identify (s : σ) : port.Asks s (identify port s).state := port.asks_drive s _ _

/-! ## Rounds -/

variable {s : σ} {op : Operation} {o : Outcome}

/-- What the outside is told in a round. -/
def Port.told (port : Port σ) (s : σ) (op : Operation) (t : Turn) : List Event :=
  (port.perform s op.request).notes.map Event.note ++ t.events

/-- A round in which the port raises a fault is the last one. -/
theorem drive_of_error {f : Fault} (ho : (port.perform s op.request).outcome = .error f) (m : Machine) :
    drive port s m op =
      ⟨(port.perform s op.request).state, .error f, (port.perform s op.request).notes.map Event.note⟩ := by
  rw [drive.eq_def]
  dsimp only
  rw [ho]

/-- A round in which the port raises no fault. -/
theorem drive_of_ok (ho : (port.perform s op.request).outcome = .ok o) (m : Machine) :
    drive port s m op =
      match (m.advance o).answer with
      | .error f => ⟨(port.perform s op.request).state, .error f, port.told s op (m.advance o)⟩
      | .ok (.complete identity) =>
        ⟨(port.perform s op.request).state, .ok identity, port.told s op (m.advance o)⟩
      | .ok (.operate next) =>
        .after (port.told s op (m.advance o))
          (drive port (port.perform s op.request).state (m.advance o).machine next) := by
  rw [drive.eq_def]
  dsimp only
  rw [ho]
  dsimp only
  -- The rounds of `drive` carry the answer of the machine as a proof, those here do not.
  split
  · rename_i f ha
    rw [ha]
    rfl
  · rename_i identity ha
    rw [ha]
    rfl
  · rename_i next ha
    rw [ha]
    rfl

/-- A round that leads to the next one. -/
theorem drive_of_operate (ho : (port.perform s op.request).outcome = .ok o) {m : Machine} {next : Operation}
    (ha : (m.advance o).answer = .ok (.operate next)) :
    drive port s m op =
      .after (port.told s op (m.advance o))
        (drive port (port.perform s op.request).state (m.advance o).machine next) := by
  rw [drive_of_ok ho, ha]

end DecoderId
