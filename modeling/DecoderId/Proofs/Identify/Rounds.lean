import DecoderId.Proofs.Identify.Asks
import DecoderId.Proofs.Machine.Verdict
import Mathlib.Logic.Relation

/-!
# Rounds of an identification

An identification is a row of rounds: the port is asked for an operation, and the machine
takes the outcome and asks for the next one. What a round leads to (`Port.Next`) and how the
last one ends the run (`Round.Ends`) say all that an identification does, so that what holds
of it is shown along the rounds (`Port.exists_last`).
-/

namespace DecoderId

/-- What a run has come to when the port is about to be asked for an operation. -/
structure Round (σ : Type) where
  state : σ
  machine : Machine
  operation : Operation

variable {σ : Type} {port : Port σ} {s : σ} {r r' : Round σ} {answer : Except Fault Identity}

namespace Round

def first (s : σ) : Round σ := ⟨s, .askingManufacturer, Machine.askManufacturer⟩

def reply (port : Port σ) (r : Round σ) : Reply σ := port.perform r.state r.operation.request

/-- The rest of the run. -/
def run (port : Port σ) (r : Round σ) : Run σ := drive port r.state r.machine r.operation

/-- The machine waits for the operation of the round. -/
structure Open (r : Round σ) : Prop where
  stage : Machine.Stage r.machine
  pending : r.machine.pending = some r.operation

/-- The round is the last one, and this is what the run comes to. -/
inductive Ends (port : Port σ) (r : Round σ) : Except Fault Identity → Prop
  | raised {f : Fault} : (r.reply port).outcome = .error f → Ends port r (.error f)
  | failed {o : Outcome} {f : AccessFailure} :
      (r.reply port).outcome = .ok o → (r.machine.advance o).answer = .error (.access f) → Ends port r (.error (.access f))
  | completed {o : Outcome} {identity : Identity} :
      (r.reply port).outcome = .ok o → (r.machine.advance o).answer = .ok (.complete identity) →
      Ends port r (.ok identity)

theorem Ends.run (h : r.Ends port answer) :
    (r.run port).answer = answer ∧ (r.run port).state = (r.reply port).state := by
  unfold Round.run
  cases h with
  | raised ho =>
    rw [drive_of_error ho]
    exact ⟨rfl, rfl⟩
  | failed ho ha =>
    rw [drive_of_ok ho, ha]
    exact ⟨rfl, rfl⟩
  | completed ho ha =>
    rw [drive_of_ok ho, ha]
    exact ⟨rfl, rfl⟩

end Round

/-! ## From round to round -/

/-- The outcome of a round makes the machine ask for the operation of the next one. -/
inductive Port.Next (port : Port σ) : Round σ → Round σ → Prop
  | intro {r : Round σ} {o : Outcome} {op : Operation} :
      (r.reply port).outcome = .ok o → (r.machine.advance o).answer = .ok (.operate op) →
      Next port r ⟨(r.reply port).state, (r.machine.advance o).machine, op⟩

/-- The round is one of the identification that begins with this state of the port. -/
def Port.Reaches (port : Port σ) (s : σ) (r : Round σ) : Prop := Relation.ReflTransGen port.Next (.first s) r

theorem Port.Next.run (h : port.Next r r') :
    (r.run port).answer = (r'.run port).answer ∧ (r.run port).state = (r'.run port).state := by
  cases h with
  | intro ho ha =>
    unfold Round.run
    rw [drive_of_operate ho ha]
    exact ⟨rfl, rfl⟩

theorem Port.Next.opened (h : port.Next r r') (hr : r.Open) : r'.Open := by
  cases h with
  | @intro o op ho ha =>
    exact ⟨Machine.stage_advance hr.stage o, (hr.stage.decides_advance hr.pending o).pending ha⟩

theorem Round.opened_first (s : σ) : (first s).Open := ⟨.manufacturer, rfl⟩

theorem Port.Reaches.opened (h : port.Reaches s r) : r.Open := by
  induction h with
  | refl => exact Round.opened_first s
  | tail _ hnext ih => exact hnext.opened ih

theorem Port.Reaches.run (h : port.Reaches s r) :
    (identify port s).answer = (r.run port).answer ∧ (identify port s).state = (r.run port).state := by
  induction h with
  | refl => exact ⟨rfl, rfl⟩
  | tail _ hnext ih => exact ⟨ih.1.trans hnext.run.1, ih.2.trans hnext.run.2⟩

/-- The last round says how the identification ends. -/
theorem Port.Reaches.identify (h : port.Reaches s r) (he : r.Ends port answer) :
    (identify port s).answer = answer ∧ (identify port s).state = (r.reply port).state :=
  ⟨h.run.1.trans he.run.1, h.run.2.trans he.run.2⟩

/-- An operation that needs a byte and gets none is the last one. -/
theorem Port.Reaches.identify_of_reason (h : port.Reaches s r) {o : Outcome} {reason : String}
    (ho : (r.reply port).outcome = .ok o) (hreason : o.reason? = some reason)
    (hrequired : r.operation.request.isOptional = false) :
    (DecoderId.identify port s).answer =
        .error (.access ⟨r.operation.request.address.number, reason, some (r.machine.session.step + 1)⟩) ∧
      (DecoderId.identify port s).state = (r.reply port).state := by
  obtain ⟨hstage, hp⟩ := h.opened
  have ha := (Machine.advance_required (hstage.waiting hp) hrequired hreason).2
  exact h.identify (.failed ho ha)

/-! ## The last round -/

theorem Round.exists_last (port : Port σ) (r : Round σ) (hr : r.Open) :
    ∃ last, Relation.ReflTransGen port.Next r last ∧ last.Ends port (r.run port).answer ∧
      (r.run port).state = (last.reply port).state := by
  have last_of_ends : ∀ {answer}, r.Ends port answer → ∃ last, Relation.ReflTransGen port.Next r last ∧
      last.Ends port (r.run port).answer ∧ (r.run port).state = (last.reply port).state :=
    fun he => ⟨r, .refl, he.run.1 ▸ he, he.run.2⟩
  cases ho : (r.reply port).outcome with
  | error f => exact last_of_ends (.raised ho)
  | ok o =>
    cases hr.stage.decides_advance hr.pending o with
    | completes identity ha => exact last_of_ends (.completed ho ha)
    | fails failure ha => exact last_of_ends (.failed ho ha)
    | issues op ha =>
      have hnext : port.Next r ⟨(r.reply port).state, (r.machine.advance o).machine, op⟩ := .intro ho ha
      -- The next round has a last one, by recursion on the rank of the machine.
      obtain ⟨last, hl, he, hs⟩ := exists_last port _ (hnext.opened hr)
      refine ⟨last, hl.head hnext, ?_, hnext.run.2.trans hs⟩
      rw [hnext.run.1]
      exact he
termination_by r.machine.rank
decreasing_by exact Machine.rank_advance ha

/-- An identification goes from round to round and ends with the last one. -/
theorem Port.exists_last (port : Port σ) (s : σ) :
    ∃ r, port.Reaches s r ∧ r.Ends port (identify port s).answer ∧
      (identify port s).state = (r.reply port).state :=
  Round.exists_last port _ (Round.opened_first s)

/-! ## Two runs -/

/-- A state from which the port answers every round of a run in the same way leads to the same end. What
relates the two states is kept from round to round. -/
theorem Port.identify_alike {R : σ → σ → Prop} {s' : σ} (hs : R s s')
    (hstep : ∀ r, port.Reaches s r → ∀ t, R r.state t →
      (port.perform t r.operation.request).outcome = (r.reply port).outcome ∧
        R (r.reply port).state (port.perform t r.operation.request).state) :
    (identify port s').answer = (identify port s).answer ∧ R (identify port s).state (identify port s').state := by
  -- The second run comes to the same rounds, each in a state that is related to that of the first.
  have reaches : ∀ r, port.Reaches s r → ∃ t, port.Reaches s' ⟨t, r.machine, r.operation⟩ ∧ R r.state t := by
    intro r hr
    induction hr with
    | refl => exact ⟨s', .refl, hs⟩
    | @tail r _ hr hnext ih =>
      obtain ⟨t, ht, hR⟩ := ih
      obtain ⟨houtcome, hR'⟩ := hstep r hr t hR
      cases hnext with
      | @intro o op ho ha => exact ⟨_, ht.tail (.intro (houtcome.trans ho) ha), hR'⟩
  obtain ⟨r, hr, hends, hstate⟩ := port.exists_last s
  obtain ⟨t, ht, hR⟩ := reaches r hr
  obtain ⟨houtcome, hR'⟩ := hstep r hr t hR
  have hends' : Round.Ends port ⟨t, r.machine, r.operation⟩ (identify port s).answer := by
    generalize (identify port s).answer = answer at hends
    cases hends with
    | raised ho => exact .raised (houtcome.trans ho)
    | failed ho ha => exact .failed (houtcome.trans ho) ha
    | completed ho ha => exact .completed (houtcome.trans ho) ha
  obtain ⟨ha, hstate'⟩ := ht.identify hends'
  rw [hstate, hstate']
  exact ⟨ha, hR'⟩

end DecoderId
