import DecoderId.Bridge
import DecoderId.Proofs.Identify.Asks

/-!
# Uses of a port to a bridge

What the uses of a port call its clients with: a new client is made and connected first if
there is none, and an access to a CV ends in one request at most.
-/

namespace DecoderId

/-- The calls that ask for a register. -/
def Call.isRequest : Call → Bool
  | .read _ _ _ | .write _ _ _ => true
  | .new _ _ _ _ | .connect | .close => false

namespace Bridge

/-! ## The uses of a port -/

inductive Use where
  | connect
  | read (address : Int) (optional : Bool)
  | write (address value : Int)
  | identify
  | manage
  | close

/-- The port after a use, whatever the answer. -/
def use (b : Bridge) : Use → Bridge
  | .connect => b.connect.bridge
  | .read address optional => (b.read address optional).state
  | .write address value => (b.write address value).state
  | .identify => (DecoderId.identify port b).state
  | .manage => b.manage.state
  | .close => b.close.1

/-- The port after some uses. -/
def uses (b : Bridge) (us : List Use) : Bridge := us.foldl use b

/-- The use asks for a register once there is a client. -/
def Use.asks (offset : Int) : Use → Bool
  | .read address _ | .write address _ => 0 ≤ address + offset
  | .identify | .manage => true
  | .connect | .close => false

variable {b : Bridge}

/-! ## Getting a client -/

/-- The calls of a new client. -/
def opening (b : Bridge) : List (Nat × Call) :=
  [(b.clients, .new b.config.host b.config.port b.config.timeout b.config.retries), (b.clients, .connect)]

theorem append_opening (b : Bridge) :
    b.calls ++ b.opening =
      b.calls ++ [(b.clients, .new b.config.host b.config.port b.config.timeout b.config.retries)] ++
        [(b.clients, .connect)] := by
  simp [opening]

theorem getClient_of_some {client : Nat} (h : b.client = some client) : b.getClient = ⟨b, .ok client, []⟩ := by
  unfold getClient
  rw [h]

/-- A new client is held unless it is refused. -/
theorem getClient_bridge (h : b.client = none) :
    b.getClient.bridge =
      { b with
        client := if b.script.nextConnect = .refused then none else some b.clients
        clients := b.clients + 1
        calls := b.calls ++ b.opening
        script := { b.script with connects := b.script.connects.tail } } := by
  unfold getClient
  rw [h]
  simp only [called, opening, List.append_assoc, List.cons_append, List.nil_append]
  split
  · rename_i he
    simp [show b.script.nextConnect = _ from he]
  · rename_i he
    simp [show b.script.nextConnect = _ from he]
  · rename_i e he
    simp [show b.script.nextConnect = _ from he]

theorem getClient_of_connected (h : b.client = none) (hc : b.script.nextConnect = .connected) :
    b.getClient.result = .ok b.clients := by
  unfold getClient
  rw [h]
  simp only [called, hc]

theorem getClient_of_refused (h : b.client = none) (hc : b.script.nextConnect = .refused) :
    b.getClient.result = .error (unreachable b.config) := by
  unfold getClient
  rw [h]
  simp only [called, hc]

theorem getClient_of_raises (h : b.client = none) {e : ClientError} (hc : b.script.nextConnect = .raises e) :
    b.getClient.result = .error (.client e) := by
  unfold getClient
  rw [h]
  simp only [called, hc]

theorem getClient_result (h : b.client = none) :
    b.getClient.result = .ok b.clients ∧ b.script.nextConnect = .connected ∨
      (∃ f, b.getClient.result = .error f) ∧ b.script.nextConnect ≠ .connected := by
  cases hc : b.script.nextConnect with
  | connected => exact .inl ⟨getClient_of_connected h hc, rfl⟩
  | refused => exact .inr ⟨⟨_, getClient_of_refused h hc⟩, by simp⟩
  | raises e => exact .inr ⟨⟨_, getClient_of_raises h hc⟩, by simp⟩

/-! ## Accesses -/

theorem prepare_bridge (b : Bridge) (address : Int) : (b.prepare address).bridge = b.getClient.bridge := by
  unfold prepare
  dsimp only
  split <;> rfl

theorem getClient_of_prepare {address : Int} {client : Nat} {register : Int}
    (h : (b.prepare address).result = .ok (client, register)) : b.getClient.result = .ok client := by
  unfold prepare at h
  dsimp only at h
  split at h
  · cases h
  · rename_i c hc
    dsimp only at h
    split at h
    · cases h
    · cases h
      exact hc

/-- The port after an access to a CV: a request, if there are a client and a register for it. -/
def reach (b : Bridge) (address : Int) (call : Int → Call) : Bridge :=
  match (b.prepare address).result with
  | .error _ => (b.prepare address).bridge
  | .ok (client, register) => ((b.prepare address).bridge.send client (call register)).1

theorem read_state (b : Bridge) (address : Int) (optional : Bool) :
    (b.read address optional).state = b.reach address (.read · 1 b.config.unit) := by
  unfold read reach
  dsimp only
  cases (b.prepare address).result <;> rfl

theorem write_state (b : Bridge) (address value : Int) :
    (b.write address value).state = b.reach address (.write · value b.config.unit) := by
  unfold write reach
  dsimp only
  cases (b.prepare address).result <;> rfl

/-- A request of an identification is an access. -/
theorem perform_state (b : Bridge) (request : Request) :
    ∃ call : Int → Call, (∀ register, (call register).isRequest = true) ∧
      (port.perform b request).state = b.reach request.address.number call := by
  cases request with
  | read address optional => exact ⟨_, fun _ => rfl, read_state b address.number optional⟩
  | write address value => exact ⟨_, fun _ => rfl, write_state b address.number value.val⟩

theorem perform_of_error {f : Fault} (h : b.getClient.result = .error f) (request : Request) :
    (port.perform b request).outcome = .error f := by
  cases request with
  | read address optional => simp [Port.perform, port, read, prepare, h]
  | write address value => simp [Port.perform, port, write, prepare, h]

theorem getClient_of_perform {request : Request} {outcome : Outcome}
    (h : (port.perform b request).outcome = .ok outcome) : ∃ client, b.getClient.result = .ok client := by
  cases hr : b.getClient.result with
  | ok client => exact ⟨client, rfl⟩
  | error f =>
    rw [perform_of_error hr] at h
    cases h

/-! ## The record grows -/

/-- What a port is called with is only added to. -/
theorem calls_getClient (b : Bridge) : b.calls <+: b.getClient.bridge.calls := by
  cases hc : b.client with
  | some client =>
    have hcalls : b.getClient.bridge.calls = b.calls := by rw [getClient_of_some hc]
    exact hcalls ▸ List.prefix_rfl
  | none =>
    rw [getClient_bridge hc]
    exact List.prefix_append ..

theorem calls_reach (b : Bridge) (address : Int) (call : Int → Call) :
    b.getClient.bridge.calls <+: (b.reach address call).calls := by
  have hp := prepare_bridge b address
  unfold reach
  split
  · exact hp ▸ List.prefix_rfl
  · exact hp ▸ List.prefix_append ..

theorem calls_asks {b b' : Bridge} (h : port.Asks b b') : b.getClient.bridge.calls <+: b'.calls := by
  induction h with
  | once b request =>
    obtain ⟨call, -, hs⟩ := perform_state b request
    rw [hs]
    exact calls_reach b _ call
  | @again b b' request outcome ho _ ih =>
    obtain ⟨call, -, hs⟩ := perform_state b request
    rw [hs] at ih
    exact ((calls_reach b _ call).trans (calls_getClient _)).trans ih

theorem calls_close (b : Bridge) : b.calls <+: b.close.1.calls := by
  unfold close
  split
  · exact List.prefix_rfl
  · exact List.prefix_append ..

/-- Every use but closing gets the port a client first. -/
theorem calls_use (b : Bridge) {u : Use} (hu : u ≠ .close) : b.getClient.bridge.calls <+: (b.use u).calls := by
  cases u with
  | connect => exact List.prefix_rfl
  | read address optional =>
    rw [use, read_state]
    exact calls_reach ..
  | write address value =>
    rw [use, write_state]
    exact calls_reach ..
  | identify => exact calls_asks (port.asks_identify b)
  | manage =>
    simp only [use, manage, connect]
    split
    · exact List.prefix_rfl
    · exact (calls_getClient _).trans ((calls_asks (port.asks_identify _)).trans (calls_close _))
  | close => exact absurd rfl hu

end Bridge

end DecoderId
