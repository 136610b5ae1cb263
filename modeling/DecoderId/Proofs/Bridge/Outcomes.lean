import DecoderId.Proofs.Bridge.Escape
import DecoderId.Proofs.Bridge.Mirror

/-!
# Outcomes of a bridge

What each response of a bridge means to a request is told by `Request.Means`, which knows neither the
port nor its client. A port that has a client comes to the outcome that the next response means; the
request is one call of that client, and nothing else changes (`Bridge.perform_answers`).
-/

namespace DecoderId

/-- What a response to a request means. -/
inductive Request.Means : Request → Response → Outcome → Prop
  /-- The client gives up, or gives an error of its own back. -/
  | raised {request : Request} {e : ClientError} :
      e.kind.isModbus = true → Means request (.raises e) (.failure e.text)
  | returned {request : Request} {text : String} : Means request (.returned text) (.failure text)
  /-- The device refuses. Only a CV that may be missing is missing, and only by one code. -/
  | missing {address : CvNumber} {text : String} : Means (.read address true) (.exception illegalAddress text) .absent
  | readRefused {address : CvNumber} {optional : Bool} {code : Int} {text : String} :
      (optional = true → code ≠ illegalAddress) →
      Means (.read address optional) (.exception code text) (.failure text)
  | writeRefused {address : CvNumber} {value : Byte} {code : Int} {text : String} :
      Means (.write address value) (.exception code text) (.failure text)
  /-- The registers tell of a CV by the first of them. -/
  | noRegisters {address : CvNumber} {optional : Bool} {values : Option (List Int)} :
      values.getD [] = [] → Means (.read address optional) (.registers values) (.failure "Empty register response")
  | noByte {address : CvNumber} {optional : Bool} {value : Int} {values : List Int} :
      255 < value → Means (.read address optional) (.registers (some (value :: values)))
        (.failure ("CV " ++ Numeral.decimal address.number ++ " value out of range: " ++ Numeral.decimal value))
  | byte {address : CvNumber} {optional : Bool} {b : Byte} {values : List Int} :
      Means (.read address optional) (.registers (some (b.val :: values))) (.value b)
  /-- Any registers tell that the byte has been written. -/
  | written {address : CvNumber} {value : Byte} {values : Option (List Int)} :
      Means (.write address value) (.registers values) (.value value)

namespace Bridge

variable {b : Bridge} {client : Nat} {request : Request} {response : Response} {o : Outcome}

/-! ## What a response means -/

theorem outcome_of_means (h : request.Means response o) : request.outcome response = .ok o := by
  cases h with
  | raised hk => cases request <;> simp [Request.outcome, readOutcome, writeOutcome, hk]
  | returned => cases request <;> rfl
  | missing => exact readOutcome_of_illegal ..
  | @readRefused address optional code text hc =>
    simp only [Request.outcome, readOutcome]
    rw [if_neg fun h => hc h.1 h.2]
  | writeRefused => rfl
  | noRegisters hv =>
    simp only [Request.outcome, readOutcome, hv]
    rfl
  | noByte hv =>
    simp only [Request.outcome, readOutcome, Option.getD_some, registerOutcome]
    rw [if_pos hv]
  | @byte address _ v values => exact registerOutcome_of_byte address.number v values
  | written => exact writeOutcome_of_registers ..

/-- Every response without an error that gets out means something. -/
theorem exists_means (hu : response.Unsigned) (he : response.escape? = none) (request : Request) :
    ∃ o, request.Means response o := by
  cases response with
  | raises e =>
    cases hk : e.kind.isModbus with
    | true => exact ⟨_, .raised hk⟩
    | false => simp [Response.escape?, hk] at he
  | returned text => exact ⟨_, .returned⟩
  | exception code text =>
    cases request with
    | write address value => exact ⟨_, .writeRefused⟩
    | read address optional =>
      by_cases hc : optional = true ∧ code = illegalAddress
      · obtain ⟨rfl, rfl⟩ := hc
        exact ⟨_, .missing⟩
      · exact ⟨_, .readRefused fun ho hcode => hc ⟨ho, hcode⟩⟩
  | registers values =>
    cases request with
    | write address value => exact ⟨_, .written⟩
    | read address optional =>
      rcases values with _ | _ | ⟨value, rest⟩
      · exact ⟨_, .noRegisters rfl⟩
      · exact ⟨_, .noRegisters rfl⟩
      by_cases hv : 255 < value
      · exact ⟨_, .noByte hv⟩
      · have hnonneg := (hu value List.mem_cons_self).1
        obtain ⟨v, hbyte⟩ : ∃ v : Byte, (v.val : Int) = value := ⟨⟨value.toNat, by omega⟩, by simp; omega⟩
        exact ⟨.value v, hbyte ▸ .byte⟩

theorem outcome_eq_ok_iff (hu : response.Unsigned) : request.outcome response = .ok o ↔ request.Means response o := by
  refine ⟨fun h => ?_, outcome_of_means⟩
  rcases outcome_of_escape request hu with ⟨-, hnone⟩ | ⟨e, he, -⟩
  · obtain ⟨o', ho'⟩ := exists_means hu hnone request
    have := (outcome_of_means ho').symm.trans h
    cases this
    exact ho'
  · rw [he] at h
    cases h

theorem outcome_eq_error_iff (hu : response.Unsigned) {f : Fault} :
    request.outcome response = .error f ↔ ∃ e, response = .raises e ∧ e.kind.isModbus = false ∧ f = .client e := by
  constructor
  · intro h
    rcases outcome_fault h with he | ⟨values, v, rfl, hv, hneg, -⟩
    · exact he
    · have := (hu v hv).1
      omega
  · rintro ⟨e, rfl, hk, rfl⟩
    cases request <;> simp [Request.outcome, readOutcome, writeOutcome, hk]

theorem means_absent_iff :
    request.Means response .absent ↔
      (∃ address, request = .read address true) ∧ ∃ text, response = .exception illegalAddress text := by
  constructor
  · rintro (_ | _)
    exact ⟨⟨_, rfl⟩, _, rfl⟩
  · rintro ⟨⟨address, rfl⟩, text, rfl⟩
    exact .missing

/-! ## Requests of a port -/

theorem state_perform (hc : b.client = some client) (request : Request) :
    (port.perform b request).state =
      { b with
        calls := b.calls ++ [(client, request.call b.config)]
        script := { b.script with responses := b.script.responses.tail } } := by
  have hg : b.getClient = ⟨b, .ok client, []⟩ := getClient_of_some hc
  have hr : b.getClient.result = .ok client := by rw [hg]
  cases request <;>
    simp only [Port.perform, port, read, write, prepare_of_client hr, hg, send, called, Request.call]

/-- A port that has a client answers a request with what the next response means. Only an error that is none
of the client's library gets out. Whatever the answer, that client has been called once more, for the
register of the CV, which is never negative, and the port is as before but for the response that is used up. -/
theorem perform_answers (hc : b.client = some client) (hu : b.script.nextResponse.Unsigned) (request : Request) :
    (∀ o, (port.perform b request).outcome = .ok o ↔ request.Means b.script.nextResponse o) ∧
      (∀ f, (port.perform b request).outcome = .error f ↔
        ∃ e, b.script.nextResponse = .raises e ∧ e.kind.isModbus = false ∧ f = .client e) ∧
      ((port.perform b request).outcome = .ok .absent ↔
        (∃ address, request = .read address true) ∧ ∃ text, b.script.nextResponse = .exception illegalAddress text) ∧
      0 ≤ (request.address.number : Int) + b.config.offset ∧
      (port.perform b request).state =
        { b with
          calls := b.calls ++ [(client, request.call b.config)]
          script := { b.script with responses := b.script.responses.tail } } := by
  have hr : b.getClient.result = .ok client := by rw [getClient_of_some hc]
  rw [(perform_of_client hr request).1]
  exact ⟨fun o => outcome_eq_ok_iff hu, fun f => outcome_eq_error_iff hu, (outcome_eq_ok_iff hu).trans means_absent_iff,
    register_nonneg b.config request.address, state_perform hc request⟩

/-- A port with its third client, behind which a CV is missing. -/
def thirdClient : Bridge where
  config := { host := "bridge", unit := 7, offset := 99 }
  client := some 2
  script := { responses := [.exception 2 "illegal data address", .exception 4 "device failure", .registers (some [4, 1])] }

theorem perform_answers_thirdClient :
    (port.perform thirdClient (.read { number := 261 } true)).outcome = .ok .absent ∧
      (port.perform thirdClient (.read { number := 261 } true)).state =
        { thirdClient with
          calls := [(2, .read 360 1 7)]
          script := { responses := [.exception 4 "device failure", .registers (some [4, 1])] } } := by
  have hclient : thirdClient.client = some 2 := rfl
  obtain ⟨-, -, habsent, -, hstate⟩ := perform_answers hclient trivial (.read { number := 261 } true)
  exact ⟨habsent.2 ⟨⟨_, rfl⟩, _, rfl⟩, hstate⟩

end Bridge

end DecoderId
