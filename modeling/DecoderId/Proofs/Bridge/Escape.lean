import DecoderId.Proofs.Bridge.Exchange
import DecoderId.Proofs.Identify.Rounds

/-!
# Errors that escape

An identification over a bridge ends with an identity, with a failure to access a CV, or
with the fault of a bridge that cannot be reached, unless an error of the client gets out,
or the TCP port of the bridge cannot be written. Only two points let an error out: an
attempt to connect lets out whatever it raises, and a request what is none of the client's
library. The first such error that is met is the answer (`Bridge.settles_manage`).
-/

namespace DecoderId

/-! ## What gets out -/

/-- The error that gets out of an attempt to connect: any. -/
def ConnectAnswer.escape? : ConnectAnswer → Option ClientError
  | .connected | .refused => none
  | .raises e => some e

/-- The error that gets out of a request: one that the client does not raise itself. -/
def Response.escape? : Response → Option ClientError
  | .registers _ | .exception _ _ | .returned _ => none
  | .raises e => if e.kind.isModbus then none else some e

/-- The registers hold unsigned numbers of 16 bits. -/
def Response.Unsigned : Response → Prop
  | .registers (some values) => ∀ v ∈ values, 0 ≤ v ∧ v < 65536
  | .registers none | .exception _ _ | .returned _ | .raises _ => True

namespace NetworkScript

def Unsigned (s : NetworkScript) : Prop := ∀ response ∈ s.responses, response.Unsigned

/-- The first error that gets out when a port connects and asks for `n` registers. -/
def escape? (s : NetworkScript) (n : Nat) : Option ClientError :=
  s.nextConnect.escape?.or ((s.responses.take n).findSome? Response.escape?)

end NetworkScript

/-- How many registers have been asked for. -/
def asked (calls : List (Nat × Call)) : Nat := calls.countP (·.2.isRequest)

@[simp] theorem asked_append (calls calls' : List (Nat × Call)) : asked (calls ++ calls') = asked calls + asked calls' :=
  List.countP_append

/-- An answer that a caller of an identification over this bridge expects. -/
inductive Reported (c : BridgeConfig) : Except Fault Identity → Prop
  | identified (identity : Identity) : Reported c (.ok identity)
  | failed (f : AccessFailure) : Reported c (.error (.access f))
  | unreachable : Reported c (.error (.bridge (Bridge.notReached c)))

theorem not_reported_longInteger (c : BridgeConfig) : ¬ Reported c (.error .longInteger) := by
  intro h
  cases h

theorem not_reported_client (c : BridgeConfig) (e : ClientError) : ¬ Reported c (.error (.client e)) := by
  intro h
  cases h

namespace NetworkScript

variable {s : NetworkScript} {n : Nat}

/-- Without a scripted response a request gets an error of the client's library, which does not get out. -/
theorem escape?_nextResponse (s : NetworkScript) : s.nextResponse.escape? = s.responses.head?.bind Response.escape? := by
  unfold nextResponse
  cases s.responses with
  | nil => rfl
  | cons response responses => rfl

theorem escape?_succ (hc : s.nextConnect.escape? = none) (h : s.escape? n = none) :
    s.escape? (n + 1) = (s.responses.drop n).head?.bind Response.escape? := by
  unfold escape? at h ⊢
  rw [hc, Option.none_or] at h ⊢
  rw [List.take_add_one, List.findSome?_append, h, Option.none_or, List.head?_drop]
  cases s.responses[n]? <;> simp

theorem Unsigned.nextResponse (h : s.Unsigned) : s.nextResponse.Unsigned := by
  unfold NetworkScript.nextResponse
  cases hr : s.responses with
  | nil => trivial
  | cons response responses => exact h response (by simp [hr])

end NetworkScript

namespace Bridge

variable {config : BridgeConfig} {script : NetworkScript} {b : Bridge} {n : Nat}

/-! ## One request -/

/-- What a request comes to when its response lets no error out, and when it does. -/
theorem outcome_of_escape (request : Request) {response : Response} (hu : response.Unsigned) :
    (∃ o, request.outcome response = .ok o) ∧ response.escape? = none ∨
      ∃ e, request.outcome response = .error (.client e) ∧ response.escape? = some e := by
  cases ho : request.outcome response with
  | error f =>
    rcases outcome_fault ho with ⟨e, rfl, hk, rfl⟩ | ⟨values, v, rfl, hv, hneg, -⟩
    · exact .inr ⟨e, rfl, by simp [Response.escape?, hk]⟩
    · have := (hu v hv).1
      omega
  | ok o =>
    refine .inl ⟨⟨o, rfl⟩, ?_⟩
    cases response with
    | registers | exception | returned => rfl
    | raises e =>
      cases hk : e.kind.isModbus with
      | true => simp [Response.escape?, hk]
      | false => cases request <;> simp [Request.outcome, readOutcome, writeOutcome, hk] at ho

/-- The port has a client and has heard the first `n` responses, each to a request. -/
structure Heard (script : NetworkScript) (n : Nat) (b : Bridge) : Prop where
  client : ∃ client, b.client = some client
  responses : b.script.responses = script.responses.drop n
  count : asked b.calls = n

/-- A request hears one more. -/
theorem Heard.perform (h : Heard script n b) (request : Request) :
    (port.perform b request).outcome = request.outcome b.script.nextResponse ∧
      Heard script (n + 1) (port.perform b request).state := by
  obtain ⟨client, hc⟩ := h.client
  have hg : b.getClient = ⟨b, .ok client, []⟩ := getClient_of_some hc
  have hr : b.getClient.result = .ok client := by rw [hg]
  obtain ⟨ho, he⟩ := perform_of_client hr request
  refine ⟨ho, ⟨client, he.held⟩, ?_, ?_⟩
  · rw [he.responses, h.responses, List.tail_drop]
  · have hcall : (request.call b.config).isRequest = true := by cases request <;> rfl
    rw [he.calls, hg, asked_append, h.count]
    simp [asked, hcall]

/-- The next response lets an error out exactly when the script does after one more. -/
theorem Heard.escape?_succ (h : Heard script n b) (hc : script.nextConnect = .connected)
    (hn : script.escape? n = none) : script.escape? (n + 1) = b.script.nextResponse.escape? := by
  rw [NetworkScript.escape?_succ (by rw [hc]; rfl) hn, NetworkScript.escape?_nextResponse, h.responses]

theorem Heard.unsigned (h : Heard script n b) (hs : script.Unsigned) : b.script.nextResponse.Unsigned :=
  NetworkScript.Unsigned.nextResponse fun response hr => hs response (List.mem_of_mem_drop (h.responses ▸ hr))

/-! ## Runs -/

/-- What a run that has asked for `n` registers comes to. -/
inductive Settles (config : BridgeConfig) (script : NetworkScript) : Except Fault Identity → Nat → Prop
  | identified {n : Nat} (identity : Identity) :
      script.nextConnect = .connected → script.escape? n = none → Settles config script (.ok identity) n
  | failed {n : Nat} (f : AccessFailure) :
      script.nextConnect = .connected → script.escape? n = none → Settles config script (.error (.access f)) n
  | unreachable {n : Nat} :
      script.nextConnect = .refused → Numeral.isWritable config.port = true → script.escape? n = none →
      Settles config script (.error (.bridge (notReached config))) n
  | unwritable {n : Nat} :
      script.nextConnect = .refused → Numeral.isWritable config.port = false → script.escape? n = none →
      Settles config script (.error .longInteger) n
  | escaped {n : Nat} {e : ClientError} :
      script.nextConnect ≠ .refused → script.escape? n = some e → Settles config script (.error (.client e)) n

variable {answer : Except Fault Identity}

theorem Settles.reported_iff (h : Settles config script answer n) :
    Reported config answer ↔
      script.escape? n = none ∧ (script.nextConnect = .refused → Numeral.isWritable config.port = true) := by
  cases h with
  | identified identity hc hn => exact iff_of_true (.identified identity) ⟨hn, by simp [hc]⟩
  | failed f hc hn => exact iff_of_true (.failed f) ⟨hn, by simp [hc]⟩
  | unreachable _ hw hn => exact iff_of_true .unreachable ⟨hn, fun _ => hw⟩
  | unwritable hc hw => exact iff_of_false (not_reported_longInteger config) (by simp [hc, hw])
  | escaped _ he => exact iff_of_false (not_reported_client config _) (by simp [he])

theorem Settles.client_iff (h : Settles config script answer n) (e : ClientError) :
    answer = .error (.client e) ↔ script.escape? n = some e := by
  cases h with
  | identified _ _ hn | failed _ _ hn | unreachable _ _ hn | unwritable _ _ hn => simp [hn]
  | escaped _ he => simp [he]

theorem Settles.unreachable_iff (h : Settles config script answer n) :
    answer = .error (.bridge (notReached config)) ↔
      script.nextConnect = .refused ∧ Numeral.isWritable config.port = true := by
  cases h with
  | identified _ hc | failed _ hc => simp [hc]
  | unreachable hc hw => exact iff_of_true rfl ⟨hc, hw⟩
  | unwritable _ hw => simp [hw]
  | escaped hc => simp [hc]

theorem Settles.unwritable_iff (h : Settles config script answer n) :
    answer = .error .longInteger ↔ script.nextConnect = .refused ∧ Numeral.isWritable config.port = false := by
  cases h with
  | identified _ hc | failed _ hc => simp [hc]
  | unreachable _ hw => simp [hw]
  | unwritable hc hw => exact iff_of_true rfl ⟨hc, hw⟩
  | escaped hc => simp [hc]

variable {r : Round Bridge}

/-- No round but the last lets an error out. -/
theorem heard_of_reaches (hr : port.Reaches b r) (hb : Heard script 0 b) (hs : script.Unsigned)
    (hc : script.nextConnect = .connected) : ∃ n, Heard script n r.state ∧ script.escape? n = none := by
  induction hr with
  | refl =>
    refine ⟨0, hb, ?_⟩
    rw [NetworkScript.escape?, hc]
    rfl
  | @tail r r' _ hnext ih =>
    obtain ⟨n, hn, hesc⟩ := ih
    cases hnext with
    | @intro o op ho ha =>
      obtain ⟨houtcome, hheard⟩ := hn.perform r.operation.request
      refine ⟨n + 1, hheard, ?_⟩
      rw [hn.escape?_succ hc hesc]
      rcases outcome_of_escape r.operation.request (hn.unsigned hs) with ⟨-, hnone⟩ | ⟨e, he, -⟩
      · exact hnone
      · rw [Round.reply, houtcome, he] at ho
        cases ho

theorem settles_identify (hb : Heard script 0 b) (hs : script.Unsigned) (hc : script.nextConnect = .connected)
    (config : BridgeConfig) :
    Settles config script (identify port b).answer (asked (identify port b).state.calls) := by
  obtain ⟨r, hr, hends, hstate⟩ := port.exists_last b
  obtain ⟨n, hn, hesc⟩ := heard_of_reaches hr hb hs hc
  obtain ⟨houtcome, hheard⟩ := hn.perform r.operation.request
  have ho : (r.reply port).outcome = r.operation.request.outcome r.state.script.nextResponse := houtcome
  have hasked : asked (identify port b).state.calls = n + 1 := by
    rw [hstate]
    exact hheard.count
  -- Nothing got out before the last round, so its response alone decides.
  have hnext := hn.escape?_succ hc hesc
  rw [hasked]
  generalize (identify port b).answer = answer at hends ⊢
  rcases outcome_of_escape r.operation.request (hn.unsigned hs) with ⟨⟨o, hok⟩, hnone⟩ | ⟨e, he, hsome⟩
  · rw [hok] at ho
    cases hends with
    | raised hf =>
      rw [ho] at hf
      cases hf
    | failed => exact .failed _ hc (hnext.trans hnone)
    | completed => exact .identified _ hc (hnext.trans hnone)
  · rw [he] at ho
    cases hends with
    | raised hf =>
      rw [ho] at hf
      cases hf
      exact .escaped (by simp [hc]) (hnext.trans hsome)
    | failed hf | completed hf =>
      rw [ho] at hf
      cases hf

/-! ## Managed uses -/

theorem asked_close (b : Bridge) : asked b.close.1.calls = asked b.calls := by
  unfold close
  split
  · rfl
  · simp [called, asked, Call.isRequest]

theorem settles_manage (hs : script.Unsigned) (config : BridgeConfig) :
    Settles config script (manage { config, script }).answer (asked (manage { config, script }).state.calls) := by
  have hopened : (getClient { config, script }).bridge =
      { config
        client := if script.nextConnect = .refused then none else some 0
        clients := 1
        calls := opening { config, script }
        script := { script with connects := script.connects.tail } } := getClient_bridge rfl
  have hopening : asked (opening { config, script }) = 0 := rfl
  cases hc : script.nextConnect with
  | connected =>
    obtain ⟨ha, hstate⟩ := manage_of_client (getClient_of_connected (b := { config, script }) rfl hc)
    have hb : Heard script 0 (getClient { config, script }).bridge := by
      rw [hopened]
      exact ⟨⟨0, by simp [hc]⟩, rfl, hopening⟩
    rw [ha, hstate, asked_close]
    exact settles_identify hb hs hc config
  | refused =>
    obtain ⟨ha, hstate⟩ := manage_of_error (getClient_of_refused (b := { config, script }) rfl hc)
    have hescape : script.escape? 0 = none := by
      rw [NetworkScript.escape?, hc]
      rfl
    rw [ha, hstate, hopened, hopening, unreachable]
    split
    · rename_i hw
      exact .unreachable hc hw hescape
    · rename_i hw
      exact .unwritable hc (Bool.eq_false_iff.2 hw) hescape
  | raises e =>
    obtain ⟨ha, -⟩ := manage_of_error (getClient_of_raises (b := { config, script }) rfl hc)
    rw [ha]
    refine .escaped (by simp [hc]) ?_
    rw [NetworkScript.escape?, hc]
    rfl

end Bridge

end DecoderId
