import DecoderId.Proofs.Bridge.Use

/-!
# Requests to a bridge

A port that has a client, or can make one, answers a request of an identification with what
becomes of the next response, and nothing changes but the responses that are left and the
calls of that client (`Bridge.perform_of_client`). A port that gets no client answers with
what the attempt to connect came to.
-/

namespace DecoderId

/-- What a request of an identification calls a client with. -/
def Request.call (c : BridgeConfig) : Request → Call
  | read address _ => .read (address.number + c.offset) 1 c.unit
  | write address value => .write (address.number + c.offset) value.val c.unit

/-- What a response to a request of an identification comes to. -/
def Request.outcome (response : Response) : Request → Except Fault Outcome
  | read address optional => (Bridge.readOutcome address.number optional response).1
  | write address value => (Bridge.writeOutcome address.number value.val response).1

namespace Bridge

variable {b : Bridge} {client : Nat}

/-! ## With a client -/

/-- The ports before and after a request: the client has sent it and taken a response. -/
structure Exchange (b : Bridge) (client : Nat) (call : Call) (b' : Bridge) : Prop where
  held : b'.client = some client
  config : b'.config = b.config
  responses : b'.script.responses = b.script.responses.tail
  calls : b'.calls = b.getClient.bridge.calls ++ [(client, call)]

/-- The client that there is, or a new one, and nothing else but what making it needs. -/
theorem getClient_keeps (h : b.getClient.result = .ok client) :
    b.getClient.bridge.client = some client ∧ b.getClient.bridge.config = b.config ∧
      b.getClient.bridge.script.responses = b.script.responses ∧
      b.getClient.bridge.script.silence = b.script.silence := by
  cases hc : b.client with
  | some held =>
    rw [getClient_of_some hc] at h ⊢
    cases h
    exact ⟨hc, rfl, rfl, rfl⟩
  | none =>
    rcases getClient_result hc with ⟨hr, hconnect⟩ | ⟨⟨f, hr⟩, -⟩
    · rw [hr] at h
      cases h
      rw [getClient_bridge hc]
      exact ⟨by simp [hconnect], rfl, rfl, rfl⟩
    · rw [hr] at h
      cases h

/-- Every CV of an identification has a register. -/
theorem register_nonneg (c : BridgeConfig) (address : CvNumber) : 0 ≤ (address.number : Int) + c.offset := by
  have := address.one_le
  have := c.offset_ge
  omega

theorem prepare_of_client (h : b.getClient.result = .ok client) (address : CvNumber) :
    b.prepare address.number =
      ⟨b.getClient.bridge, .ok (client, address.number + b.config.offset), b.getClient.notes⟩ := by
  have := register_nonneg b.config address
  unfold prepare
  dsimp only
  rw [h]
  dsimp only
  rw [if_neg (by omega)]

/-- With a client, a request is one call of it and takes one response. -/
theorem perform_of_client (h : b.getClient.result = .ok client) (request : Request) :
    (port.perform b request).outcome = request.outcome b.script.nextResponse ∧
      b.Exchange client (request.call b.config) (port.perform b request).state := by
  obtain ⟨hclient, hconfig, hresponses, hsilence⟩ := getClient_keeps h
  have hnext : b.getClient.bridge.script.nextResponse = b.script.nextResponse := by
    simp only [NetworkScript.nextResponse, hresponses, hsilence]
  cases request with
  | read address optional =>
    simp only [Port.perform, port, read, prepare_of_client h, send, called, hnext]
    exact ⟨rfl, hclient, hconfig, congrArg List.tail hresponses, rfl⟩
  | write address value =>
    simp only [Port.perform, port, write, prepare_of_client h, send, called, hnext]
    exact ⟨rfl, hclient, hconfig, congrArg List.tail hresponses, rfl⟩

theorem Exchange.getClient {call : Call} {b' : Bridge} (h : b.Exchange client call b') :
    b'.getClient = ⟨b', .ok client, []⟩ :=
  getClient_of_some h.held

/-! ## Managed uses -/

theorem manage_of_error {f : Fault} (h : b.getClient.result = .error f) :
    b.manage.answer = .error f ∧ b.manage.state = b.getClient.bridge := by
  unfold manage connect
  dsimp only
  rw [h]
  exact ⟨rfl, rfl⟩

theorem manage_of_client (h : b.getClient.result = .ok client) :
    b.manage.answer = (identify port b.getClient.bridge).answer ∧
      b.manage.state = (identify port b.getClient.bridge).state.close.1 := by
  unfold manage connect
  dsimp only
  rw [h]
  exact ⟨rfl, rfl⟩

/-! ## Faults of a request -/

theorem registerOutcome_fault {address : Int} {values : List Int} {f : Fault}
    (h : registerOutcome address values = .error f) : ∃ v ∈ values, v < 0 ∧ f = .notAByte v := by
  cases values with
  | nil => simp [registerOutcome] at h
  | cons v values =>
    simp only [registerOutcome] at h
    split at h
    · simp at h
    refine ⟨v, List.mem_cons_self, ?_⟩
    unfold Byte.ofInt at h
    cases hv : Byte.ofInt? v with
    | some b => simp [hv, Except.map] at h
    | none =>
      rw [hv] at h
      cases h
      have : ¬ (0 ≤ v ∧ v < 256) := by
        intro hb
        simp [Byte.ofInt?, hb] at hv
      exact ⟨by omega, rfl⟩

/-- A request raises an error of the client that is none of its own library, or refuses a register
that holds a negative number. -/
theorem outcome_fault {request : Request} {response : Response} {f : Fault} (h : request.outcome response = .error f) :
    (∃ e, response = .raises e ∧ e.kind.isModbus = false ∧ f = .client e) ∨
      ∃ values v, response = .registers (some values) ∧ v ∈ values ∧ v < 0 ∧ f = .notAByte v := by
  cases request with
  | read address optional =>
    cases response with
    | registers values =>
      obtain ⟨v, hv, hneg, rfl⟩ := registerOutcome_fault h
      cases values with
      | none => cases hv
      | some values => exact .inr ⟨values, v, rfl, hv, hneg, rfl⟩
    | exception code text =>
      simp only [Request.outcome, readOutcome] at h
      split at h <;> cases h
    | returned text => cases h
    | raises e =>
      simp only [Request.outcome, readOutcome] at h
      split at h
      · cases h
      · rename_i hk
        cases h
        exact .inl ⟨e, rfl, by simpa using hk, rfl⟩
  | write address value =>
    cases response with
    | registers values =>
      simp [Request.outcome, writeOutcome, Byte.ofInt, Byte.ofInt?_val, Except.map] at h
    | exception code text => cases h
    | returned text => cases h
    | raises e =>
      simp only [Request.outcome, writeOutcome] at h
      split at h
      · cases h
      · rename_i hk
        cases h
        exact .inl ⟨e, rfl, by simpa using hk, rfl⟩

/-- A request fails to come to an outcome because of the bridge, the client, or a register. -/
theorem perform_fault {request : Request} {f : Fault} (h : (port.perform b request).outcome = .error f) :
    (b.client = none ∧ b.script.nextConnect = .refused ∧ f = unreachable b.config) ∨
      (∃ e, f = .client e) ∨ ∃ v, f = .notAByte v := by
  cases hr : b.getClient.result with
  | ok client =>
    rw [(perform_of_client hr request).1] at h
    rcases outcome_fault h with ⟨e, -, -, hf⟩ | ⟨values, v, -, -, -, hf⟩
    · exact .inr (.inl ⟨e, hf⟩)
    · exact .inr (.inr ⟨v, hf⟩)
  | error f' =>
    rw [perform_of_error hr] at h
    cases h
    cases hc : b.client with
    | some client =>
      rw [getClient_of_some hc] at hr
      cases hr
    | none =>
      cases hn : b.script.nextConnect with
      | connected => simp [getClient_of_connected hc hn] at hr
      | refused =>
        rw [getClient_of_refused hc hn] at hr
        exact .inl ⟨rfl, rfl, (Except.error.inj hr).symm⟩
      | raises e =>
        rw [getClient_of_raises hc hn] at hr
        cases hr
        exact .inr (.inl ⟨e, rfl⟩)

end Bridge

end DecoderId
