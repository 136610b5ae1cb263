import DecoderId.Proofs.Bridge.Use

/-!
# Requests go to connected clients

What the record of a port says of its clients, and the line between a port and its bridge,
as the answers to its attempts to connect make it. A request goes to a client that has
connected and that has not been closed since, unless the attempt of that client raised an
error: such a client is kept (`Bridge.requests_connected_iff`).
-/

namespace DecoderId

/-! ## What the record says of a client -/

/-- What is known of a client, after some calls of all clients. -/
structure Watch where
  /-- How many attempts to connect there have been. -/
  attempts : Nat := 0
  /-- What the client's own attempt came to, unless it has been closed since. -/
  answer : Option ConnectAnswer := none

namespace Watch

/-- The attempts get the scripted answers in order. -/
def hear (script : NetworkScript) (client : Nat) (w : Watch) : Nat × Call → Watch
  | (n, .connect) =>
    { attempts := w.attempts + 1
      answer := if n = client then some (script.connects[w.attempts]?.getD .connected) else w.answer }
  | (n, .close) => { w with answer := if n = client then none else w.answer }
  | (_, .new _ _ _ _) | (_, .read _ _ _) | (_, .write _ _ _) => w

def ofCalls (script : NetworkScript) (client : Nat) (calls : List (Nat × Call)) : Watch :=
  calls.foldl (hear script client) {}

theorem ofCalls_concat (script : NetworkScript) (client : Nat) (calls : List (Nat × Call)) (e : Nat × Call) :
    ofCalls script client (calls ++ [e]) = (ofCalls script client calls).hear script client e := by
  simp [ofCalls]

theorem hear_request (script : NetworkScript) (client n : Nat) (w : Watch) {call : Call} (h : call.isRequest = true) :
    w.hear script client (n, call) = w := by
  cases call with
  | read | write => rfl
  | new | connect | close => cases h

end Watch

/-- Each request of the record goes to a client that has connected and that has not been closed since. -/
def AllConnected (script : NetworkScript) (calls : List (Nat × Call)) : Prop :=
  ∀ before client call after, calls = before ++ (client, call) :: after → call.isRequest = true →
    (Watch.ofCalls script client before).answer = some .connected

theorem allConnected_nil (script : NetworkScript) : AllConnected script [] := by
  intro before client call after h
  simp at h

theorem split_concat {α : Type} {xs before after : List α} {x y : α} (h : xs ++ [y] = before ++ x :: after) :
    (∃ rest, xs = before ++ x :: rest) ∨ (xs = before ∧ y = x) := by
  rcases List.eq_nil_or_concat after with rfl | ⟨rest, z, rfl⟩
  · obtain ⟨rfl, hy⟩ := List.append_inj' h rfl
    exact .inr ⟨rfl, List.cons.inj hy |>.1⟩
  · rw [List.concat_eq_append, ← List.cons_append, ← List.append_assoc] at h
    exact .inl ⟨rest, (List.append_inj' h rfl).1⟩

theorem allConnected_concat {script : NetworkScript} {calls : List (Nat × Call)} {client : Nat} {call : Call} :
    AllConnected script (calls ++ [(client, call)]) ↔ AllConnected script calls ∧
      (call.isRequest = true → (Watch.ofCalls script client calls).answer = some .connected) := by
  constructor
  · intro h
    refine ⟨fun before c call' after he hr => h before c call' (after ++ [(client, call)]) (by simp [he]) hr, ?_⟩
    exact h calls client call [] rfl
  · rintro ⟨h, hlast⟩ before c call' after he hr
    rcases split_concat he with ⟨rest, hs⟩ | ⟨rfl, hs⟩
    · exact h before c call' rest hs hr
    · cases hs
      exact hlast hr

namespace Bridge

/-! ## The line to the bridge -/

/-- How a port stands. -/
inductive Link where
  /-- Without a client. -/
  | down
  /-- With a client that has connected. -/
  | up
  /-- With a client whose attempt to connect raised an error. -/
  | broken
deriving DecidableEq

def Link.ofAnswer : ConnectAnswer → Link
  | .connected => .up
  | .refused => .down
  | .raises _ => .broken

theorem Link.ofAnswer_ne_down {answer : ConnectAnswer} (h : answer ≠ .refused) : ofAnswer answer ≠ .down := by
  cases answer with
  | connected | raises => rintro ⟨⟩
  | refused => exact absurd rfl h

theorem Link.ofAnswer_ne_broken_iff {answer : ConnectAnswer} (h : answer ≠ .refused) :
    ofAnswer answer ≠ .broken ↔ answer = .connected := by
  cases answer with
  | connected | raises => simp [ofAnswer]
  | refused => exact absurd rfl h

/-- The link of a port and the answers to its attempts to connect that are left. -/
structure Line where
  link : Link := .down
  answers : List ConnectAnswer

namespace Line

/-- An attempt to connect, if the link is down. -/
def establish (l : Line) : Line :=
  match l.link with
  | .down => ⟨.ofAnswer (l.answers.head?.getD .connected), l.answers.tail⟩
  | .up | .broken => l

def close (l : Line) : Line := { l with link := .down }

/-- The line after a use. It stays broken when a managed use breaks it, as there is nothing to close then. -/
def use (l : Line) : Use → Line
  | .connect | .read _ _ | .write _ _ | .identify => l.establish
  | .manage => if l.link = .down ∧ l.establish.link = .broken then l.establish else l.establish.close
  | .close => l.close

def uses (l : Line) (us : List Use) : Line := us.foldl use l

theorem establish_of_ne_down {l : Line} (h : l.link ≠ .down) : l.establish = l := by
  obtain ⟨_ | _ | _, answers⟩ := l
  · cases h rfl
  · rfl
  · rfl

theorem establish_establish {l : Line} (h : l.establish.link ≠ .down) : l.establish.establish = l.establish :=
  establish_of_ne_down h

theorem close_of_down {l : Line} (h : l.link = .down) : l.close = l := by
  obtain ⟨link, answers⟩ := l
  cases h
  rfl

/-- The port gets a client. -/
def Serves (l : Line) : Prop := l.link = .down → l.establish.link = .up

theorem Serves.link_ne_down {l : Line} (h : l.Serves) : l.establish.link ≠ .down := by
  by_cases hl : l.link = .down
  · rw [h hl]
    decide
  · rwa [establish_of_ne_down hl]

theorem Serves.ne_broken_iff {l : Line} (h : l.Serves) : l.establish.link ≠ .broken ↔ l.link ≠ .broken := by
  by_cases hl : l.link = .down
  · simp [h hl, hl]
  · rw [establish_of_ne_down hl]

end Line

/-! ## The port and the line -/

/-- The port stands as the line says. -/
structure Tracks (config : BridgeConfig) (script : NetworkScript) (b : Bridge) (l : Line) : Prop where
  config : b.config = config
  answers : b.script.connects = l.answers
  /-- The answers that are left are those after as many as there have been attempts. -/
  attempts : ∀ client, script.connects.drop (Watch.ofCalls script client b.calls).attempts = l.answers
  vacant : b.client = none → l.link = .down
  /-- The link is what the attempt of the client has made of it. -/
  holds : ∀ client ∈ b.client, ∃ answer, answer ≠ .refused ∧ l.link = .ofAnswer answer ∧
    (Watch.ofCalls script client b.calls).answer = some answer
  /-- The numbers of clients run up to their count. -/
  numbers : ∀ e ∈ b.calls, e.1 < b.clients
  held : ∀ client ∈ b.client, client < b.clients

variable {config : BridgeConfig} {script : NetworkScript} {b : Bridge} {l : Line}

theorem tracks_new (config : BridgeConfig) (script : NetworkScript) :
    Tracks config script { config, script } { answers := script.connects } where
  config := rfl
  answers := rfl
  attempts _ := rfl
  vacant _ := rfl
  holds := by simp
  numbers := by simp
  held := by simp

theorem Tracks.link_ne_down (h : Tracks config script b l) {client : Nat} (hc : b.client = some client) :
    l.link ≠ .down := by
  obtain ⟨answer, hne, hl, -⟩ := h.holds client hc
  rw [hl]
  exact Link.ofAnswer_ne_down hne

theorem Tracks.client_eq_none_iff (h : Tracks config script b l) : b.client = none ↔ l.link = .down := by
  refine ⟨h.vacant, fun hl => ?_⟩
  cases hc : b.client with
  | none => rfl
  | some client => exact absurd hl (h.link_ne_down hc)

/-- Calls of the client that the port holds keep to the numbers of clients. -/
theorem Tracks.numbers_concat (h : Tracks config script b l) {client : Nat} (hc : b.client = some client) (call : Call) :
    ∀ e ∈ b.calls ++ [(client, call)], e.1 < b.clients := by
  intro e he
  rcases List.mem_append.1 he with he | he
  · exact h.numbers e he
  · rw [List.mem_singleton] at he
    rw [he]
    exact h.held client hc

/-! ## One lemma per operation -/

theorem Tracks.establish_of_none (h : Tracks config script b l) (hc : b.client = none) :
    l.establish = ⟨.ofAnswer b.script.nextConnect, l.answers.tail⟩ := by
  simp only [Line.establish, h.vacant hc, NetworkScript.nextConnect, h.answers]

/-- An attempt of a new client: the next answer is that of this client, and one fewer is left. -/
theorem watch_opening (h : Tracks config script b l) (client : Nat) :
    Watch.ofCalls script client (b.calls ++ b.opening) =
      { attempts := (Watch.ofCalls script client b.calls).attempts + 1
        answer := if b.clients = client then some (l.answers.head?.getD .connected)
          else (Watch.ofCalls script client b.calls).answer } := by
  have hhead : script.connects[(Watch.ofCalls script client b.calls).attempts]? = l.answers.head? := by
    rw [← h.attempts client, List.head?_drop]
  rw [append_opening, Watch.ofCalls_concat, Watch.ofCalls_concat]
  simp only [Watch.hear, hhead]

theorem tracks_getClient (h : Tracks config script b l) : Tracks config script b.getClient.bridge l.establish := by
  cases hc : b.client with
  | some client =>
    rw [getClient_of_some hc, Line.establish_of_ne_down (h.link_ne_down hc)]
    exact h
  | none =>
    rw [getClient_bridge hc, h.establish_of_none hc]
    refine ⟨h.config, congrArg List.tail h.answers, fun client => ?_, ?_, ?_, ?_, ?_⟩
    · simp only [watch_opening h, ← List.tail_drop, h.attempts]
    · intro hnone
      split at hnone
      · rename_i he
        rw [he]
        rfl
      · cases hnone
    · intro client hclient
      split at hclient
      · cases hclient
      · rename_i he
        cases hclient
        -- The attempt of the new client is the last one, whatever the record says of its number.
        refine ⟨b.script.nextConnect, he, rfl, ?_⟩
        rw [watch_opening h, if_pos rfl, NetworkScript.nextConnect, h.answers]
    · intro e he
      simp only [List.mem_append, opening, List.mem_cons, List.not_mem_nil, or_false] at he
      rcases he with he | rfl | rfl
      · exact Nat.lt_succ_of_lt (h.numbers e he)
      · exact Nat.lt_succ_self _
      · exact Nat.lt_succ_self _
    · intro client hclient
      split at hclient
      · cases hclient
      · cases hclient
        exact Nat.lt_succ_self _

theorem allConnected_getClient : AllConnected script b.getClient.bridge.calls ↔ AllConnected script b.calls := by
  cases hc : b.client with
  | some client => rw [getClient_of_some hc]
  | none =>
    rw [getClient_bridge hc, append_opening, allConnected_concat, allConnected_concat]
    simp [Call.isRequest]

/-- The port gets a client when the line can be established, and then holds it. -/
theorem getClient_answer (h : Tracks config script b l) :
    (∃ client, b.getClient.result = .ok client ∧ b.getClient.bridge.client = some client) ∧ l.Serves ∨
      (∃ f, b.getClient.result = .error f) ∧ l.link = .down ∧ l.establish.link ≠ .up := by
  cases hc : b.client with
  | some client =>
    rw [getClient_of_some hc]
    exact .inl ⟨⟨client, rfl, hc⟩, fun hl => absurd hl (h.link_ne_down hc)⟩
  | none =>
    rw [h.establish_of_none hc]
    rcases getClient_result hc with ⟨hr, he⟩ | ⟨hr, he⟩
    · refine .inl ⟨⟨b.clients, hr, by simp [getClient_bridge hc, he]⟩, fun _ => ?_⟩
      rw [h.establish_of_none hc, he]
      rfl
    · refine .inr ⟨hr, h.vacant hc, ?_⟩
      cases hn : b.script.nextConnect with
      | connected => exact absurd hn he
      | refused | raises => rintro ⟨⟩

/-- A request goes to the client that the port holds. -/
theorem tracks_send (h : Tracks config script b l) {client : Nat} (hc : b.client = some client) {call : Call}
    (hr : call.isRequest = true) :
    Tracks config script (b.send client call).1 l ∧
      (AllConnected script (b.send client call).1.calls ↔ AllConnected script b.calls ∧ l.link ≠ .broken) := by
  have hcalls : (b.send client call).1.calls = b.calls ++ [(client, call)] := rfl
  have hwatch : ∀ c, Watch.ofCalls script c (b.calls ++ [(client, call)]) = Watch.ofCalls script c b.calls := by
    intro c
    rw [Watch.ofCalls_concat, Watch.hear_request script c client _ hr]
  constructor
  · refine ⟨h.config, h.answers, ?_, h.vacant, ?_, ?_, h.held⟩
    · intro c
      rw [hcalls, hwatch, h.attempts]
    · intro c hclient
      rw [hcalls, hwatch]
      exact h.holds c hclient
    · exact h.numbers_concat hc call
  · obtain ⟨answer, hne, hl, ha⟩ := h.holds client hc
    rw [hcalls, allConnected_concat, ha, hl, Link.ofAnswer_ne_broken_iff hne]
    simp only [hr, true_implies, Option.some.injEq]

/-- A request is made if the port gets a client and the register is not negative. It goes to a
connected client unless the line has been broken before. -/
theorem tracks_reach (h : Tracks config script b l) (address : Int) (call : Int → Call)
    (hr : ∀ register, (call register).isRequest = true) :
    Tracks config script (b.reach address call) l.establish ∧
      (AllConnected script (b.reach address call).calls ↔ AllConnected script b.calls ∧
        (l.link = .broken → ¬ 0 ≤ address + config.offset)) := by
  have hg : Tracks config script b.getClient.bridge l.establish := tracks_getClient h
  unfold reach prepare
  rcases getClient_answer h with ⟨⟨client, hok, hc⟩, hs⟩ | ⟨⟨f, hf⟩, hl, -⟩
  · simp only [hok]
    rw [h.config]
    by_cases hn : address + config.offset < 0
    · simp only [if_pos hn]
      exact ⟨hg, by rw [allConnected_getClient]; simp [Int.not_le.2 hn]⟩
    · simp only [if_neg hn]
      obtain ⟨ht, ha⟩ := tracks_send hg hc (hr (address + config.offset))
      refine ⟨ht, ha.trans ?_⟩
      rw [allConnected_getClient, hs.ne_broken_iff]
      simp only [Int.not_lt.1 hn, not_true, imp_false, ne_eq]
  · simp only [hf]
    exact ⟨hg, by rw [allConnected_getClient]; simp [hl]⟩

/-- The registers of a decoder's CVs are not negative. -/
theorem tracks_perform (h : Tracks config script b l) (request : Request) :
    Tracks config script (port.perform b request).state l.establish ∧
      (AllConnected script (port.perform b request).state.calls ↔
        AllConnected script b.calls ∧ l.link ≠ .broken) := by
  obtain ⟨call, hr, hs⟩ := perform_state b request
  have hregister : 0 ≤ request.address.number + config.offset := by
    have hone := request.address.one_le
    have hoffset := config.offset_ge
    omega
  obtain ⟨ht, ha⟩ := tracks_reach h request.address.number call hr
  rw [hs]
  exact ⟨ht, ha.trans (and_congr_right fun _ => by simp only [hregister, not_true, imp_false, ne_eq])⟩

theorem tracks_asks {b' : Bridge} (hb : port.Asks b b') (h : Tracks config script b l) :
    Tracks config script b' l.establish ∧
      (AllConnected script b'.calls ↔ AllConnected script b.calls ∧ l.link ≠ .broken) := by
  induction hb generalizing l with
  | once b request => exact tracks_perform h request
  | @again b b' request outcome ho _ ih =>
    obtain ⟨ht, ha⟩ := tracks_perform h request
    -- A request that has been answered had a client, so the line is not down for the next one.
    obtain ⟨client, hc⟩ := getClient_of_perform ho
    rcases getClient_answer h with ⟨-, hs⟩ | ⟨⟨f, hf⟩, -⟩
    · obtain ⟨ht', ha'⟩ := ih ht
      rw [Line.establish_establish hs.link_ne_down] at ht'
      refine ⟨ht', ?_⟩
      rw [ha', ha, hs.ne_broken_iff, and_assoc, and_self_iff]
    · rw [hf] at hc
      cases hc

theorem tracks_close (h : Tracks config script b l) :
    Tracks config script b.close.1 l.close ∧
      (AllConnected script b.close.1.calls ↔ AllConnected script b.calls) := by
  unfold close
  cases hc : b.client with
  | none =>
    rw [Line.close_of_down (h.client_eq_none_iff.1 hc)]
    exact ⟨h, .rfl⟩
  | some client =>
    have hattempts : ∀ c, (Watch.ofCalls script c (b.calls ++ [(client, .close)])).attempts =
        (Watch.ofCalls script c b.calls).attempts := by
      intro c
      rw [Watch.ofCalls_concat]
      rfl
    constructor
    · refine ⟨h.config, h.answers, ?_, fun _ => rfl, by simp, h.numbers_concat hc .close, by simp⟩
      intro c
      exact (congrArg script.connects.drop (hattempts c)).trans (h.attempts c)
    · exact allConnected_concat.trans (by simp [Call.isRequest])

theorem tracks_manage (h : Tracks config script b l) :
    Tracks config script b.manage.state (l.use .manage) ∧
      (AllConnected script b.manage.state.calls ↔ AllConnected script b.calls ∧ l.link ≠ .broken) := by
  have hg : Tracks config script b.getClient.bridge l.establish := tracks_getClient h
  unfold manage connect Line.use
  rcases getClient_answer h with ⟨⟨client, hok, hc⟩, hs⟩ | ⟨⟨f, hf⟩, hl, hup⟩
  -- Connected: the port is identified and closed. Not connected: it is left as it is.
  · have hline : ¬ (l.link = .down ∧ l.establish.link = .broken) := by
      rintro ⟨hl, hb⟩
      rw [hs hl] at hb
      cases hb
    obtain ⟨ht, ha⟩ := tracks_asks (port.asks_identify _) hg
    rw [Line.establish_establish hs.link_ne_down] at ht
    obtain ⟨htc, hac⟩ := tracks_close ht
    simp only [hok, Except.map, if_neg hline]
    refine ⟨htc, hac.trans (ha.trans ?_)⟩
    rw [allConnected_getClient, hs.ne_broken_iff]
  · have hstay : (if l.link = .down ∧ l.establish.link = .broken then l.establish else l.establish.close) =
        l.establish := by
      cases he : l.establish.link with
      | down => simp [Line.close_of_down he]
      | up => exact absurd he hup
      | broken => simp [hl]
    simp only [hf, Except.map, hstay]
    refine ⟨hg, ?_⟩
    rw [allConnected_getClient]
    simp [hl]

/-- A use keeps port and line in step, and sends requests to a connected client unless the line is broken. -/
theorem tracks_use (h : Tracks config script b l) (u : Use) :
    Tracks config script (b.use u) (l.use u) ∧
      (AllConnected script (b.use u).calls ↔ AllConnected script b.calls ∧
        (l.link = .broken → u.asks config.offset = false)) := by
  cases u with
  | connect => exact ⟨tracks_getClient h, allConnected_getClient.trans (by simp [Use.asks])⟩
  | read address optional =>
    obtain ⟨ht, ha⟩ := tracks_reach h address (.read · 1 b.config.unit) fun _ => rfl
    simp only [use, read_state]
    exact ⟨ht, ha.trans (by simp only [Use.asks, decide_eq_false_iff_not])⟩
  | write address value =>
    obtain ⟨ht, ha⟩ := tracks_reach h address (.write · value b.config.unit) fun _ => rfl
    simp only [use, write_state]
    exact ⟨ht, ha.trans (by simp only [Use.asks, decide_eq_false_iff_not])⟩
  | identify =>
    obtain ⟨ht, ha⟩ := tracks_asks (port.asks_identify b) h
    exact ⟨ht, ha.trans (by simp [Use.asks])⟩
  | manage =>
    obtain ⟨ht, ha⟩ := tracks_manage h
    exact ⟨ht, ha.trans (by simp [Use.asks])⟩
  | close =>
    obtain ⟨ht, ha⟩ := tracks_close h
    exact ⟨ht, ha.trans (by simp [Use.asks])⟩

/-! ## Runs -/

/-- Along a run, each use keeps port and line in step. -/
theorem tracks_uses (h : Tracks config script b l) (us : List Use) :
    Tracks config script (b.uses us) (l.uses us) ∧
      (AllConnected script (b.uses us).calls ↔ AllConnected script b.calls ∧
        ∀ before u after, us = before ++ u :: after → (l.uses before).link = .broken →
          u.asks config.offset = false) := by
  -- On the first use: what comes after it is a run of the port that it leaves.
  induction us generalizing b l with
  | nil => exact ⟨h, by simp [uses]⟩
  | cons u us ih =>
    obtain ⟨hu, hau⟩ := tracks_use h u
    obtain ⟨ht, ha⟩ := ih hu
    refine ⟨ht, ha.trans ?_⟩
    rw [hau, and_assoc]
    refine and_congr_right fun _ => ?_
    constructor
    · rintro ⟨hfirst, hrest⟩ before v after he hb
      cases before with
      | nil =>
        obtain ⟨rfl, -⟩ := List.cons.inj he
        exact hfirst hb
      | cons w before =>
        obtain ⟨rfl, hus⟩ := List.cons.inj he
        exact hrest before v after hus hb
    · intro hall
      exact ⟨hall [] u us rfl, fun before v after he hb => hall (u :: before) v after (by rw [he]; rfl) hb⟩

/-- All requests of a run go to connected clients exactly when no use asks for a register while the
line is broken, that is, while the port has a client whose attempt to connect raised an error. The
port has no client exactly when the line is down, and then the next use makes and connects a new one. -/
theorem requests_connected_iff (config : BridgeConfig) (script : NetworkScript) (us : List Use) :
    (AllConnected script (uses { config, script } us).calls ↔ ∀ before u after, us = before ++ u :: after →
      (Line.uses { answers := script.connects } before).link = .broken → u.asks config.offset = false) ∧
    ((uses { config, script } us).client = none ↔ (Line.uses { answers := script.connects } us).link = .down) ∧
    ((uses { config, script } us).client = none → ∀ u ≠ Use.close,
      (uses { config, script } us).calls ++ (uses { config, script } us).opening <+:
          ((uses { config, script } us).use u).calls ∧
        ∀ e ∈ (uses { config, script } us).calls, e.1 ≠ (uses { config, script } us).clients) := by
  obtain ⟨ht, ha⟩ := tracks_uses (tracks_new config script) us
  refine ⟨ha.trans (by simp [allConnected_nil]), ht.client_eq_none_iff, fun hc u hu => ⟨?_, ?_⟩⟩
  · have h := calls_use (uses { config, script } us) hu
    rwa [getClient_bridge hc] at h
  · exact fun e he => Nat.ne_of_lt (ht.numbers e he)

/-- An attempt that raises an error leaves a client behind, and a read goes to it. -/
theorem request_not_connected :
    ¬ ∀ (config : BridgeConfig) (script : NetworkScript) (us : List Use),
      AllConnected script (uses { config, script } us).calls := by
  intro h
  have hread := h { host := "bridge" }
    { connects := [.raises { kind := .os, name := "OSError", text := "refused" }], responses := [.registers (some [4])] }
    [.connect, .read 8 false] [(0, .new "bridge" 502 (.real (.ofDecimal false 3 1 0)) 3), (0, .connect)]
    0 (.read 7 1 1) [] rfl rfl
  cases hread

end Bridge

end DecoderId
