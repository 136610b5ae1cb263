import DecoderId.Proofs.Identify.Calls
import DecoderId.Proofs.Identify.Rounds

/-!
# The length of an identification

A machine issues eight operations at most, whatever the outcomes: those for CVs 8 and 7, and the six that the longest
procedure has. So an identification over a port that answers comes to its end after eight calls
(`identify_within_eight`).
-/

namespace DecoderId

namespace Machine

variable {m : Machine} {op : Operation}

/-! ## What is still issued -/

theorem Ended.issued_feed (h : m.Ended) (outcomes : List Outcome) : issued (m.feed outcomes) = [] := by
  induction outcomes with
  | nil => rfl
  | cons o rest ih =>
    obtain ⟨misuse, hc⟩ := h.call (.advance o)
    have ha : m.advance o = m.refuse misuse := hc
    have hmachine : (m.advance o).machine = m := by rw [ha]; rfl
    rw [feed, issued_of_ne (by simp [ha, refuse]), hmachine, ih]

/-- An outcome that makes a machine issue nothing ends its run. -/
theorem Stage.issued_feed_of_ne (h : Stage m) (hp : m.pending = some op) {o : Outcome}
    (hne : ∀ next, (m.advance o).answer ≠ .ok (.operate next)) (rest : List Outcome) :
    issued (m.feed (o :: rest)) = [] := by
  have hs : Stage (m.advance o).machine := stage_advance h o
  have hverdict : (m.advance o).machine.result.isSome ∨ (m.advance o).machine.failed.isSome := by
    cases h.decides_advance hp o with
    | issues next ha => exact absurd ha (hne next)
    | completes identity _ hr => exact .inl (by simp [hr])
    | fails failure _ hf => exact .inr (by simp [hf])
  rw [feed, issued_of_ne hne]
  exact (hs.ended hverdict).issued_feed rest

/-- What an open operation leads to is no more than `n` operations, if an outcome that makes the machine issue the next one
leaves less than that. -/
theorem Stage.issued_feed_le (h : Stage m) (hp : m.pending = some op) {n : Nat}
    (hnext : ∀ b next rest, (m.advance (.value b)).answer = .ok (.operate next) →
      (issued ((m.advance (.value b)).machine.feed rest)).length < n)
    (outcomes : List Outcome) : (issued (m.feed outcomes)).length ≤ n := by
  cases outcomes with
  | nil => exact Nat.zero_le n
  | cons o rest =>
    by_cases ha : ∃ next, (m.advance o).answer = .ok (.operate next)
    · obtain ⟨next, ha⟩ := ha
      obtain ⟨b, rfl⟩ := h.value_of_operate hp ha
      rw [feed, issued_of_operate ha]
      exact hnext b next rest ha
    · rw [h.issued_feed_of_ne hp (fun next hn => ha ⟨next, hn⟩)]
      exact Nat.zero_le n

/-- The operations that are left when one of a procedure is open. -/
theorem issued_feed_following {code model : Byte} {bytes : List Byte} {step : Int} {p : Procedure} {op : Operation}
    (hop : p.operation? = some op) (hr : Remains code model step bytes p) (outcomes : List Outcome) :
    (issued ((following code model bytes step p op).feed outcomes)).length ≤ (8 - step).toNat := by
  have hlt := hr.step_lt hop
  have hs : Stage (following code model bytes step p op) := .procedure hop hr
  refine hs.issued_feed_le rfl (fun b next rest ha => ?_) outcomes
  obtain ⟨hnext, hr', hmachine⟩ := operation_of_following hop hr ha
  have hlt' := hr'.step_lt hnext
  -- The next operation is one step further, so that there are fewer left.
  have hrest := issued_feed_following hnext hr' rest
  rw [hmachine]
  omega
termination_by (9 - step).toNat

theorem issued_feed_askingModel (code : Byte) (outcomes : List Outcome) :
    (issued ((askingModel code).feed outcomes)).length ≤ 6 := by
  refine (Stage.model code).issued_feed_le rfl (fun b next rest ha => ?_) outcomes
  obtain ⟨protocol, hl, hop, hmachine⟩ := operation_of_askingModel ha
  have hrest := issued_feed_following hop (.start hl b) rest
  rw [hmachine]
  omega

theorem issued_feed_askingManufacturer (outcomes : List Outcome) :
    (issued (askingManufacturer.feed outcomes)).length ≤ 7 := by
  refine Stage.manufacturer.issued_feed_le rfl (fun b next rest ha => ?_) outcomes
  have hrest := issued_feed_askingModel b rest
  rw [(advance_askingManufacturer b).1]
  omega

theorem issued_turns (outcomes : List Outcome) :
    issued (turns outcomes) = askManufacturer :: issued (askingManufacturer.feed outcomes) :=
  issued_of_operate start_new.2 _

/-- A fresh machine issues one operation at least, and no more than eight. -/
theorem issued_turns_length (outcomes : List Outcome) :
    1 ≤ (issued (turns outcomes)).length ∧ (issued (turns outcomes)).length ≤ 8 := by
  have hrest := issued_feed_askingManufacturer outcomes
  rw [issued_turns, List.length_cons]
  omega

end Machine

/-! ## Runs over a port -/

variable {σ : Type} {port : Port σ}

/-- The port raises no fault of its own. -/
def Port.Answers (port : Port σ) : Prop := ∀ s request, ∃ o, (port.perform s request).outcome = .ok o

theorem Port.Answers.identify (h : port.Answers) (s : σ) :
    (∃ identity, (identify port s).answer = .ok identity) ∨ ∃ f, (DecoderId.identify port s).answer = .error (.access f) := by
  obtain ⟨r, hr, hends, -⟩ := port.exists_last s
  generalize (DecoderId.identify port s).answer = answer at hends
  cases hends with
  | raised ho =>
    obtain ⟨o, ho'⟩ := h r.state r.operation.request
    rw [Round.reply, ho'] at ho
    cases ho
  | failed => exact .inr ⟨_, rfl⟩
  | completed => exact .inl ⟨_, rfl⟩

/-- An identification over a port that answers ends after eight calls at the latest, with an identity or a failure. No
sequence of outcomes makes a machine issue more. -/
theorem identify_within_eight (h : port.Answers) (s : σ) :
    let record := (identify port.recorded (s, [])).state.2
    (1 ≤ record.length ∧ record.length ≤ 8) ∧
      ((∃ identity, (identify port s).answer = .ok identity) ∨ ∃ f, (identify port s).answer = .error (.access f)) ∧
      ∀ outcomes, (issued (Machine.turns outcomes)).length ≤ 8 := by
  intro record
  obtain ⟨record', hsame, hconducts⟩ := identify_recorded port s
  have hrecord : record = record' := congrArg (·.state.2) hsame
  have hlength : record.length = (issued (Machine.turns (Port.outcomes record'))).length := by
    have hcalls := congrArg List.length hconducts.calls
    rw [List.length_map, List.length_map] at hcalls
    rw [hrecord]
    exact hcalls
  refine ⟨?_, h.identify s, fun outcomes => (Machine.issued_turns_length outcomes).2⟩
  rw [hlength]
  exact Machine.issued_turns_length _

/-- A port to a decoder that answers every read, as one of those with the longest procedure. -/
def tirelessPort : Port Unit where
  read s address _ := ⟨s, (Byte.ofInt (if address = 8 then 151 else 255)).map .value, []⟩
  write s _ _ := ⟨s, (Byte.ofInt 0).map .value, []⟩

/-- All eight operations are needed. -/
theorem identify_within_eight_tirelessPort :
    tirelessPort.Answers ∧
      (let record := (identify tirelessPort.recorded ((), [])).state.2
      (1 ≤ record.length ∧ record.length ≤ 8) ∧
        ((∃ identity, (identify tirelessPort ()).answer = .ok identity) ∨
          ∃ f, (identify tirelessPort ()).answer = .error (.access f)) ∧
        ∀ outcomes, (issued (Machine.turns outcomes)).length ≤ 8) ∧
      (issued (Machine.turns (.value 151 :: List.replicate 7 (.value 255)))).length = 8 := by
  have answers : tirelessPort.Answers := by
    intro s request
    cases request with
    | read address optional =>
      simp only [Port.perform, tirelessPort]
      split
      · exact ⟨_, rfl⟩
      · exact ⟨_, rfl⟩
    | write address value => exact ⟨_, rfl⟩
  exact ⟨answers, identify_within_eight answers (), by decide⟩

end DecoderId
