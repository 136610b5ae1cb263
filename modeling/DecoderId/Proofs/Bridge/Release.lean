import DecoderId.Proofs.Bridge.Connection
import DecoderId.Proofs.Bridge.Exchange
import DecoderId.Proofs.Identify.Rounds

/-!
# Clients are released

All that the uses of a port do to it are three moves: a new client is made when there is
none, the client is sent a request, and the client is closed (`Bridge.moves_use`). What they
keep (`Bridge.Tidy`) makes closing a port, and every managed use that gets a client, release
the client for good (`Bridge.clients_released`).
-/

namespace DecoderId

/-! ## What the record says -/

/-- The client has connected and has not been closed since. -/
def IsOpen (script : NetworkScript) (calls : List (Nat × Call)) (client : Nat) : Prop :=
  (Watch.ofCalls script client calls).answer = some .connected

/-- At any moment of the record one client is open at most. -/
def OneOpen (script : NetworkScript) (calls : List (Nat × Call)) : Prop :=
  ∀ before, before <+: calls → ∀ c c', IsOpen script before c → IsOpen script before c' → c = c'

/-- No client is called after it has been closed. -/
def QuietAfterClose (calls : List (Nat × Call)) : Prop :=
  calls.Pairwise fun e e' => e.2 = .close → e'.1 ≠ e.1

variable {script : NetworkScript} {calls : List (Nat × Call)} {client : Nat} {call : Call}

/-- Only connecting opens a client. -/
theorem isOpen_of_concat {c : Nat} (h : IsOpen script (calls ++ [(client, call)]) c) :
    IsOpen script calls c ∧ (call = .close → c ≠ client) ∨ c = client ∧ call = .connect := by
  unfold IsOpen at h ⊢
  rw [Watch.ofCalls_concat] at h
  cases call with
  | new | read | write => exact .inl ⟨h, by simp⟩
  | connect =>
    by_cases hc : client = c
    · exact .inr ⟨hc.symm, rfl⟩
    · simp only [Watch.hear, if_neg hc] at h
      exact .inl ⟨h, by simp⟩
  | close =>
    by_cases hc : client = c
    · simp [Watch.hear, hc] at h
    · simp only [Watch.hear, if_neg hc] at h
      exact .inl ⟨h, fun _ => Ne.symm hc⟩

theorem oneOpen_concat {e : Nat × Call} (h : OneOpen script calls)
    (hlast : ∀ c c', IsOpen script (calls ++ [e]) c → IsOpen script (calls ++ [e]) c' → c = c') :
    OneOpen script (calls ++ [e]) := by
  intro before hb
  rcases List.prefix_concat_iff.1 hb with rfl | hb
  · exact hlast
  · exact h before hb

theorem quietAfterClose_concat :
    QuietAfterClose (calls ++ [(client, call)]) ↔ QuietAfterClose calls ∧ (client, .close) ∉ calls := by
  unfold QuietAfterClose
  rw [List.pairwise_append]
  constructor
  · rintro ⟨h, -, hlast⟩
    refine ⟨h, fun hc => ?_⟩
    exact hlast _ hc (client, call) List.mem_cons_self rfl rfl
  · rintro ⟨h, hc⟩
    refine ⟨h, List.pairwise_singleton _ _, ?_⟩
    rintro ⟨c, call'⟩ he e' he' rfl heq
    rw [List.mem_singleton.1 he'] at heq
    cases heq
    exact hc he

/-- A client is closed once at most. -/
theorem QuietAfterClose.count_le (h : QuietAfterClose calls) (client : Nat) : calls.count (client, .close) ≤ 1 := by
  induction h with
  | nil => simp
  | @cons e calls he _ ih =>
    by_cases hc : e = (client, .close)
    · have hrest : calls.count (client, .close) = 0 := by
        refine List.count_eq_zero.2 fun hm => ?_
        exact he _ hm (by rw [hc]) (by rw [hc])
      simp [hc, hrest]
    · rw [List.count_cons_of_ne hc]
      exact ih

namespace Bridge

/-! ## Moves -/

/-- What a port can do to its client. -/
inductive Move : Bridge → Bridge → Prop
  | opened {b : Bridge} : b.client = none → Move b b.getClient.bridge
  | sent {b : Bridge} {client : Nat} {call : Call} :
      b.client = some client → call.isRequest = true → Move b (b.send client call).1
  | closed {b : Bridge} {client : Nat} : b.client = some client → Move b b.close.1

/-- Some moves lead from the first port to the second. -/
abbrev Moves : Bridge → Bridge → Prop := Relation.ReflTransGen Move

variable {b b' : Bridge}

theorem moves_getClient (b : Bridge) : Moves b b.getClient.bridge := by
  cases hc : b.client with
  | some client =>
    rw [getClient_of_some hc]
  | none => exact .single (.opened hc)

theorem moves_reach (b : Bridge) (address : Int) {call : Int → Call}
    (hcall : ∀ register, (call register).isRequest = true) :
    Moves b (b.reach address call) := by
  unfold reach
  cases hr : (b.prepare address).result with
  | error f =>
    dsimp only
    rw [prepare_bridge]
    exact moves_getClient b
  | ok got =>
    obtain ⟨client, register⟩ := got
    dsimp only
    rw [prepare_bridge]
    exact (moves_getClient b).tail (.sent (getClient_keeps (getClient_of_prepare hr)).1 (hcall register))

theorem moves_asks (h : port.Asks b b') : Moves b b' := by
  induction h with
  | once b request =>
    obtain ⟨call, hcall, hs⟩ := perform_state b request
    rw [hs]
    exact moves_reach b _ hcall
  | @again b b' request outcome ho _ ih =>
    obtain ⟨call, hcall, hs⟩ := perform_state b request
    rw [hs] at ih
    exact (moves_reach b _ hcall).trans ih

theorem moves_close (b : Bridge) : Moves b b.close.1 := by
  cases hc : b.client with
  | some client => exact .single (.closed hc)
  | none =>
    unfold close
    rw [hc]

theorem moves_manage (b : Bridge) : Moves b b.manage.state := by
  cases hr : b.getClient.result with
  | error f =>
    rw [(manage_of_error hr).2]
    exact moves_getClient b
  | ok client =>
    rw [(manage_of_client hr).2]
    exact ((moves_getClient b).trans (moves_asks (port.asks_identify _))).trans (moves_close _)

theorem moves_use (b : Bridge) (u : Use) : Moves b (b.use u) := by
  cases u with
  | connect => exact moves_getClient b
  | read address optional =>
    rw [use, read_state]
    exact moves_reach b address fun _ => rfl
  | write address value =>
    rw [use, write_state]
    exact moves_reach b address fun _ => rfl
  | identify => exact moves_asks (port.asks_identify b)
  | manage => exact moves_manage b
  | close => exact moves_close b

theorem moves_uses (b : Bridge) (us : List Use) : Moves b (b.uses us) := by
  induction us generalizing b with
  | nil => exact .refl
  | cons u us ih => exact (moves_use b u).trans (ih (b.use u))

/-! ## What moves keep -/

/-- The record of the port is in order, and the only client that may be open is the one that the port holds. -/
structure Tidy (config : BridgeConfig) (script : NetworkScript) (b : Bridge) : Prop where
  tracks : ∃ l, Tracks config script b l
  one : OneOpen script b.calls
  quiet : QuietAfterClose b.calls
  holds : ∀ c, IsOpen script b.calls c → b.client = some c
  unclosed : ∀ c ∈ b.client, (c, .close) ∉ b.calls

variable {config : BridgeConfig}

theorem tidy_new (config : BridgeConfig) (script : NetworkScript) : Tidy config script { config, script } where
  tracks := ⟨_, tracks_new config script⟩
  one := by
    intro before hb c c' hc
    rw [List.prefix_nil.1 hb] at hc
    cases hc
  quiet := List.Pairwise.nil
  holds c hc := by cases hc
  unclosed := by simp

/-- The number of the next client is new. -/
theorem Tidy.not_mem_clients (h : Tidy config script b) {e : Nat × Call} (he : e ∈ b.calls) : e.1 ≠ b.clients := by
  obtain ⟨l, hl⟩ := h.tracks
  exact Nat.ne_of_lt (hl.numbers e he)

theorem Tidy.opened (h : Tidy config script b) (hc : b.client = none) : Tidy config script b.getClient.bridge := by
  obtain ⟨l, hl⟩ := h.tracks
  -- Without a client none is open, and of those called since, only connecting opens one.
  have vacant : ∀ c, ¬ IsOpen script b.calls c := by
    intro c ho
    rw [h.holds c ho] at hc
    cases hc
  have vacant' : ∀ c, ¬ IsOpen script (b.calls ++
      [(b.clients, .new b.config.host b.config.port b.config.timeout b.config.retries)]) c := by
    intro c ho
    rcases isOpen_of_concat ho with ⟨ho, -⟩ | ⟨-, hcall⟩
    · exact vacant c ho
    · cases hcall
  have fresh : ∀ call, (b.clients, call) ∉ b.calls := fun call he => h.not_mem_clients he rfl
  refine ⟨⟨_, tracks_getClient hl⟩, ?_, ?_, ?_, ?_⟩
  all_goals rw [getClient_bridge hc]
  · rw [append_opening]
    refine oneOpen_concat (oneOpen_concat h.one fun c c' ho => absurd ho (vacant' c)) fun c c' ho ho' => ?_
    rcases isOpen_of_concat ho with ⟨ho, -⟩ | ⟨rfl, -⟩
    · exact absurd ho (vacant' c)
    rcases isOpen_of_concat ho' with ⟨ho', -⟩ | ⟨rfl, -⟩
    · exact absurd ho' (vacant' c')
    · rfl
  · rw [append_opening, quietAfterClose_concat, quietAfterClose_concat]
    exact ⟨⟨h.quiet, fresh _⟩, by simp [fresh]⟩
  · intro c ho
    unfold IsOpen at ho
    rw [watch_opening hl] at ho
    dsimp only at ho
    split at ho
    · rename_i heq
      have hnext : b.script.nextConnect = .connected := by
        rw [NetworkScript.nextConnect, hl.answers]
        exact Option.some.inj ho
      simp [hnext, heq]
    · exact absurd ho (vacant c)
  · intro c hclient
    split at hclient
    · cases hclient
    · cases hclient
      rw [append_opening]
      simp [fresh]

theorem Tidy.sent (h : Tidy config script b) (hc : b.client = some client) (hr : call.isRequest = true) :
    Tidy config script (b.send client call).1 := by
  obtain ⟨l, hl⟩ := h.tracks
  have same : ∀ c, IsOpen script (b.calls ++ [(client, call)]) c → b.client = some c := by
    intro c ho
    rcases isOpen_of_concat ho with ⟨ho, -⟩ | ⟨-, rfl⟩
    · exact h.holds c ho
    · cases hr
  refine ⟨⟨l, (tracks_send hl hc hr).1⟩, ?_, ?_, same, ?_⟩
  · refine oneOpen_concat h.one fun c c' ho ho' => ?_
    exact Option.some.inj ((same c ho).symm.trans (same c' ho'))
  · exact quietAfterClose_concat.2 ⟨h.quiet, h.unclosed client hc⟩
  · intro c hclient hm
    rcases List.mem_append.1 hm with hm | hm
    · exact h.unclosed c hclient hm
    · cases List.mem_singleton.1 hm
      cases hr

theorem close_of_some (hc : b.client = some client) :
    b.close.1 =
      { b with
        client := none
        calls := b.calls ++ [(client, .close)]
        script := { b.script with closes := b.script.closes.tail } } := by
  unfold close
  rw [hc]
  rfl

theorem Tidy.closed (h : Tidy config script b) (hc : b.client = some client) : Tidy config script b.close.1 := by
  obtain ⟨l, hl⟩ := h.tracks
  have vacant : ∀ c, ¬ IsOpen script (b.calls ++ [(client, .close)]) c := by
    intro c ho
    rcases isOpen_of_concat ho with ⟨ho, hne⟩ | ⟨-, hcall⟩
    · have := h.holds c ho
      rw [hc] at this
      exact hne rfl (Option.some.inj this).symm
    · cases hcall
  refine ⟨⟨_, (tracks_close hl).1⟩, ?_, ?_, ?_, ?_⟩
  all_goals rw [close_of_some hc]
  · exact oneOpen_concat h.one fun c c' ho => absurd ho (vacant c)
  · exact quietAfterClose_concat.2 ⟨h.quiet, h.unclosed client hc⟩
  · exact fun c ho => absurd ho (vacant c)
  · simp

theorem Tidy.move (h : Tidy config script b) (hm : Move b b') : Tidy config script b' := by
  cases hm with
  | opened hc => exact h.opened hc
  | sent hc hr => exact h.sent hc hr
  | closed hc => exact h.closed hc

theorem Tidy.moves (h : Tidy config script b) (hm : Moves b b') : Tidy config script b' := by
  induction hm with
  | refl => exact h
  | tail _ hm ih => exact ih.move hm

/-! ## Errors of closing -/

/-- How often clients have been closed. -/
def closings (calls : List (Nat × Call)) : Nat := calls.countP (·.2 = .close)

@[simp] theorem closings_append (calls calls' : List (Nat × Call)) :
    closings (calls ++ calls') = closings calls + closings calls' := List.countP_append

/-- The same port, but what its closings come to is this, those so far included. -/
def closing (closes : List (Option String)) (b : Bridge) : Bridge :=
  { b with script := { b.script with closes := closes.drop (closings b.calls) } }

variable (closes : List (Option String))

theorem called_closing (b : Bridge) (client : Nat) (h : call ≠ .close) :
    (b.closing closes).called client call = (b.called client call).closing closes := by
  simp [called, closing, closings, h]

theorem getClient_closing (b : Bridge) :
    (b.closing closes).getClient = ⟨b.getClient.bridge.closing closes, b.getClient.result, b.getClient.notes⟩ := by
  obtain ⟨config, held, ⟨connects, responses, taken, silence⟩, clients, calls⟩ := b
  cases held with
  | some client => rfl
  | none =>
    rcases connects with _ | ⟨_ | _ | e, connects⟩ <;>
      simp [getClient, closing, called, closings, NetworkScript.nextConnect]

theorem prepare_closing (b : Bridge) (address : Int) :
    (b.closing closes).prepare address =
      ⟨(b.prepare address).bridge.closing closes, (b.prepare address).result, (b.prepare address).notes⟩ := by
  unfold prepare
  rw [getClient_closing]
  dsimp only
  split <;> rfl

theorem send_closing (b : Bridge) (client : Nat) (h : call ≠ .close) :
    (b.closing closes).send client call = ((b.send client call).1.closing closes, (b.send client call).2) := by
  unfold send
  rw [called_closing closes b client h]
  rfl

theorem read_closing (b : Bridge) (address : Int) (optional : Bool) :
    (b.closing closes).read address optional =
      ⟨(b.read address optional).state.closing closes, (b.read address optional).outcome,
        (b.read address optional).notes⟩ := by
  unfold read
  rw [prepare_closing]
  dsimp only
  split
  · rfl
  · rw [send_closing closes _ _ (by simp)]
    rfl

theorem write_closing (b : Bridge) (address value : Int) :
    (b.closing closes).write address value =
      ⟨(b.write address value).state.closing closes, (b.write address value).outcome,
        (b.write address value).notes⟩ := by
  unfold write
  rw [prepare_closing]
  dsimp only
  split
  · rfl
  · rw [send_closing closes _ _ (by simp)]
    rfl

theorem perform_closing (b : Bridge) (request : Request) :
    (port.perform (b.closing closes) request).outcome = (port.perform b request).outcome ∧
      (port.perform (b.closing closes) request).state = (port.perform b request).state.closing closes := by
  cases request with
  | read address optional => simp only [Port.perform, port, read_closing, and_self]
  | write address value => simp only [Port.perform, port, write_closing, and_self]

theorem identify_closing (b : Bridge) :
    (identify port (b.closing closes)).answer = (identify port b).answer ∧
      (identify port (b.closing closes)).state = (identify port b).state.closing closes := by
  refine port.identify_alike (R := fun b b' => b' = b.closing closes) rfl ?_
  rintro r - _ rfl
  exact perform_closing closes r.state r.operation.request

/-- A closing takes what it comes to, so that as many are left as have not been taken. -/
theorem close_closing (b : Bridge) : (b.closing closes).close.1 = b.close.1.closing closes := by
  cases hc : b.client with
  | none =>
    have hc' : (b.closing closes).client = none := hc
    unfold close
    rw [hc, hc']
  | some client =>
    have hc' : (b.closing closes).client = some client := hc
    rw [close_of_some hc, close_of_some hc']
    simp [closing, closings, List.tail_drop]

theorem manage_closing (b : Bridge) :
    (b.closing closes).manage.answer = b.manage.answer ∧
      (b.closing closes).manage.state = b.manage.state.closing closes := by
  have hg := getClient_closing closes b
  cases hr : b.getClient.result with
  | error f =>
    have hr' : (b.closing closes).getClient.result = .error f := by rw [hg, hr]
    rw [(manage_of_error hr).1, (manage_of_error hr).2, (manage_of_error hr').1, (manage_of_error hr').2, hg]
    exact ⟨rfl, rfl⟩
  | ok client =>
    have hr' : (b.closing closes).getClient.result = .ok client := by rw [hg, hr]
    obtain ⟨ha, hs⟩ := identify_closing closes b.getClient.bridge
    rw [(manage_of_client hr).1, (manage_of_client hr).2, (manage_of_client hr').1, (manage_of_client hr').2, hg]
    exact ⟨ha, by rw [hs, close_closing]⟩

theorem use_closing (b : Bridge) (u : Use) : (b.closing closes).use u = (b.use u).closing closes := by
  cases u with
  | connect => simp only [use, connect, getClient_closing]
  | read address optional => simp only [use, read_closing]
  | write address value => simp only [use, write_closing]
  | identify => exact (identify_closing closes b).2
  | manage => exact (manage_closing closes b).2
  | close => exact close_closing closes b

/-- Whatever the closings come to, the port is used and left in the same way. -/
theorem uses_closing (b : Bridge) (us : List Use) : (b.closing closes).uses us = (b.uses us).closing closes := by
  induction us generalizing b with
  | nil => rfl
  | cons u us ih =>
    simp only [uses, List.foldl_cons, use_closing]
    exact ih (b.use u)

/-! ## Release -/

/-- Requests keep the client. -/
theorem held_asks (h : port.Asks b b') (hc : b.client = some client) : b'.client = some client := by
  have held : ∀ {b : Bridge}, b.client = some client → ∀ request, (port.perform b request).state.client = some client := by
    intro b hc request
    have hr : b.getClient.result = .ok client := by rw [getClient_of_some hc]
    exact (perform_of_client hr request).2.held
  induction h with
  | once b request => exact held hc request
  | again _ _ ih => exact ih (held hc _)

theorem Tidy.released (h : Tidy config script b) (hc : b.client = some client) :
    b.close.1.client = none ∧ b.close.1.calls.count (client, .close) = 1 := by
  rw [close_of_some hc]
  refine ⟨rfl, ?_⟩
  have hnone : b.calls.count (client, .close) = 0 := List.count_eq_zero.2 (h.unclosed client hc)
  simp [hnone]

theorem close_client (b : Bridge) : b.close.1.client = none := by
  unfold close
  split
  · assumption
  · rfl

/-- Along every run, one client is open at most, and a client that has been closed is closed once and is
never called again. Closing the port, or a managed use that gets a client, whatever its answer, closes the
client that the port has, and the port is left without one; then the next use makes and connects a new one.
Nothing else depends on what each closing raises. -/
theorem clients_released (config : BridgeConfig) (script : NetworkScript) (us : List Use) :
    let b := uses { config, script } us
    OneOpen script b.calls ∧ QuietAfterClose b.calls ∧ (∀ c, b.calls.count (c, .close) ≤ 1) ∧
    ((b.use .close).client = none ∧ ∀ c ∈ b.client, (b.use .close).calls.count (c, .close) = 1) ∧
    (∀ c, b.getClient.result = .ok c → (b.use .manage).client = none ∧
      (b.use .manage).calls.count (c, .close) = 1 ∧ b.manage.answer = (identify port b.getClient.bridge).answer) ∧
    (∀ closes, uses { config, script := { script with closes } } us = b.closing closes ∧
      (b.closing closes).manage.answer = b.manage.answer) ∧
    (b.client = none → ∀ u ≠ Use.close,
      b.calls ++ b.opening <+: (b.use u).calls ∧ ∀ e ∈ b.calls, e.1 ≠ b.clients) := by
  intro b
  have tidy : Tidy config script b := (tidy_new config script).moves (moves_uses _ us)
  refine ⟨tidy.one, tidy.quiet, tidy.quiet.count_le, ⟨close_client b, ?_⟩, ?_, ?_, ?_⟩
  · exact fun c hc => (tidy.released hc).2
  · intro c hc
    obtain ⟨ha, hs⟩ := manage_of_client hc
    have hasks := port.asks_identify b.getClient.bridge
    -- The identification keeps the client, so that it is this one that is closed.
    have held : (identify port b.getClient.bridge).state.client = some c := held_asks hasks (getClient_keeps hc).1
    have tidy' : Tidy config script (identify port b.getClient.bridge).state :=
      tidy.moves ((moves_getClient b).trans (moves_asks hasks))
    obtain ⟨hclient, hcount⟩ := tidy'.released held
    exact ⟨by rw [use, hs, hclient], by rw [use, hs, hcount], ha⟩
  · exact fun closes => ⟨uses_closing closes { config, script } us, (manage_closing closes b).1⟩
  · intro hc u hu
    refine ⟨?_, fun e he => tidy.not_mem_clients he⟩
    have h := calls_use b hu
    rwa [getClient_bridge hc] at h

/-- A managed use of a port that is connected already, where closing raises an error. -/
theorem clients_released_connected :
    let b := uses { config := { host := "bridge" }, script := { closes := [some "broken pipe"] } } [.connect]
    b.getClient.result = .ok 0 ∧ (b.use .manage).client = none ∧ (b.use .manage).calls.count (0, .close) = 1 ∧
      b.manage.answer = (identify port b.getClient.bridge).answer := by
  obtain ⟨-, -, -, -, hmanage, -⟩ :=
    clients_released { host := "bridge" } { closes := [some "broken pipe"] } [.connect]
  exact ⟨rfl, hmanage 0 rfl⟩

end Bridge

end DecoderId
