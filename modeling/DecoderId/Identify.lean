import DecoderId.Machine.Rank

/-!
# Identification over a port

A port gives access to the CVs of a decoder. `identify` asks it for what a fresh
machine issues, one request at a time, until the machine is done, the run fails, or
the port itself raises a fault. The loop ends for every port, because the rank of the
machine falls.
-/

namespace DecoderId

/-- What a port answers: its new state, the outcome or a fault of its own, and what it
notes. -/
structure Reply (σ : Type) where
  state : σ
  outcome : Except Fault Outcome
  notes : List Note := []

/-- Access to the CVs of a decoder. Addresses and values may be any integers. -/
structure Port (σ : Type) where
  read : σ → (address : Int) → (optional : Bool) → Reply σ
  write : σ → (address value : Int) → Reply σ

/-- Asks the port for what is requested. -/
def Port.perform {σ : Type} (port : Port σ) (s : σ) : Request → Reply σ
  | .read address optional => port.read s address.number optional
  | .write address value => port.write s address.number value.val

/-- How an identification ended: the state of the port, the identity or the fault, and
what the outside was told. -/
structure Run (σ : Type) where
  state : σ
  answer : Except Fault Identity
  events : List Event := []

/-- A run that tells something else first. -/
def Run.after {σ : Type} (events : List Event) (r : Run σ) : Run σ := { r with events := events ++ r.events }

variable {σ : Type}

/-- Asks the port for an operation that the machine has issued, and for all that follow. -/
def drive (port : Port σ) (s : σ) (m : Machine) (op : Operation) : Run σ :=
  let r := port.perform s op.request
  let noted := r.notes.map Event.note
  match r.outcome with
  | .error f => ⟨r.state, .error f, noted⟩
  | .ok outcome =>
    let t := m.advance outcome
    match _h : t.answer with
    | .error f => ⟨r.state, .error f, noted ++ t.events⟩
    | .ok (.complete identity) => ⟨r.state, .ok identity, noted ++ t.events⟩
    | .ok (.operate next) => .after (noted ++ t.events) (drive port r.state t.machine next)
termination_by m.rank
decreasing_by exact Machine.rank_advance _h

/-- Identifies the decoder behind a port. -/
def identify (port : Port σ) (s : σ) : Run σ :=
  let t := Machine.start {}
  match t.answer with
  | .error f => ⟨s, .error f, t.events⟩
  | .ok (.complete identity) => ⟨s, .ok identity, t.events⟩
  | .ok (.operate op) => .after t.events (drive port s t.machine op)

end DecoderId
