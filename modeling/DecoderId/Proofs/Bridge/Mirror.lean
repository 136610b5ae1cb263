import DecoderId.Proofs.Bridge.Exchange
import DecoderId.Proofs.Identify.Rounds
import DecoderId.Proofs.Machine.Agreement
import DecoderId.Proofs.Simulator.Requests

/-!
# A bridge that mirrors a simulated decoder

The log of a simulated decoder, told as the answers of a network, makes a port to a bridge
take the place of the decoder: the identification asks the bridge for what is in the log,
operation by operation, and it ends in the same way (`Bridge.identify_mirrors`).

The two ports tell a CV that fails and one that is missing apart in ways of their own, but
outcomes that agree are all that the machine needs (`Machine.Stage.advance_matches`).
-/

namespace DecoderId

/-! ## A log as a script -/

/-- The response that tells what came of an operation: a byte that was read, an exception for a CV
that fails, an exception of its own for one that is missing, and anything good for a write. -/
inductive LogEntry.Answered (failing : List Int) : LogEntry → Response → Prop
  | failed {e : LogEntry} {code : Int} {text : String} :
      e.address ∈ failing → code ≠ illegalAddress → Answered failing e (.exception code text)
  | missing {address : Int} {text : String} :
      address ∉ failing → Answered failing ⟨false, address, none⟩ (.exception illegalAddress text)
  | served {address value : Int} :
      address ∉ failing → Answered failing ⟨false, address, some value⟩ (.registers (some [value]))
  | written {address value : Int} {registers : Option (List Int)} :
      address ∉ failing → Answered failing ⟨true, address, some value⟩ (.registers registers)

/-- The call asks for the operation: its kind, the register of its CV, and the value that it writes. -/
inductive LogEntry.Asked (c : BridgeConfig) : LogEntry → Call → Prop
  | read {address : Int} {value : Option Int} :
      0 ≤ address + c.offset → Asked c ⟨false, address, value⟩ (.read (address + c.offset) 1 c.unit)
  | write {address value : Int} :
      0 ≤ address + c.offset → Asked c ⟨true, address, some value⟩ (.write (address + c.offset) value c.unit)

/-- Two runs end with the same identity, or with failures at the same CV and step. -/
inductive SameEnd : Except Fault Identity → Except Fault Identity → Prop
  | completed (identity : Identity) : SameEnd (.ok identity) (.ok identity)
  | failed {f f' : AccessFailure} : f.place = f'.place → SameEnd (.error (.access f)) (.error (.access f'))

namespace Bridge

variable {b : Bridge} {client : Nat}

/-! ## What the two make of a request -/

theorem asked_of_serves {failing : List Int} {request : Request} {e : LogEntry} {outcome : Outcome}
    (h : Simulator.Serves failing request e outcome) (c : BridgeConfig) : e.Asked c (request.call c) := by
  cases h with
  | readFailed | readMissing | read => exact .read (register_nonneg c _)
  | writeFailed | write => exact .write (register_nonneg c _)

theorem readOutcome_of_exception {code : Int} (h : code ≠ illegalAddress) (address : Int) (optional : Bool) (text : String) :
    (readOutcome address optional (.exception code text)).1 = .ok (.failure text) := by
  simp [readOutcome, h]

theorem readOutcome_of_illegal (address : Int) (optional : Bool) (text : String) :
    (readOutcome address optional (.exception illegalAddress text)).1 =
      .ok (if optional then .absent else .failure text) := by
  cases optional <;> rfl

theorem registerOutcome_of_byte (address : Int) (v : Byte) (values : List Int) :
    registerOutcome address (v.val :: values) = .ok (.value v) := by
  have := v.isLt
  rw [registerOutcome, if_neg (by omega), Byte.ofInt_val]
  rfl

theorem readOutcome_of_byte (address : Int) (optional : Bool) (b : Byte) :
    (readOutcome address optional (.registers (some [(b.val : Int)]))).1 = .ok (.value b) :=
  registerOutcome_of_byte address b []

theorem writeOutcome_of_registers (address : Int) (b : Byte) (registers : Option (List Int)) :
    (writeOutcome address b.val (.registers registers)).1 = .ok (.value b) := by
  rw [writeOutcome, Byte.ofInt_val]
  rfl

/-- The outcomes are the same, or both have no byte. -/
theorem outcome_of_serves {failing : List Int} {request : Request} {e : LogEntry} {outcome : Outcome}
    (h : Simulator.Serves failing request e outcome) {response : Response} (hr : e.Answered failing response) :
    ∃ outcome', request.outcome response = .ok outcome' ∧ outcome.Agree request outcome' := by
  cases h with
  | @readFailed address optional reason hf =>
    cases hr with
    | missing hn => exact absurd hf hn
    | failed _ hc => exact ⟨.failure _, readOutcome_of_exception hc .., rfl, fun _ => rfl⟩
  | @readMissing address optional reason hn =>
    cases hr with
    | failed hf => exact absurd hf hn
    | missing =>
      refine ⟨_, readOutcome_of_illegal .., ?_⟩
      cases optional with
      | true => exact ⟨rfl, fun _ => rfl⟩
      | false => exact ⟨rfl, fun _ => rfl⟩
  | @read address optional b hn =>
    cases hr with
    | failed hf => exact absurd hf hn
    | served => exact ⟨.value b, readOutcome_of_byte .., rfl, fun _ => rfl⟩
  | @writeFailed address value reason hf =>
    cases hr with
    | written hn => exact absurd hf hn
    | failed => exact ⟨.failure _, rfl, rfl, fun _ => rfl⟩
  | @write address value hn =>
    cases hr with
    | failed hf => exact absurd hf hn
    | written => exact ⟨.value value, writeOutcome_of_registers .., rfl, fun _ => rfl⟩

/-- A client takes the response to an operation from the rest of a log. -/
theorem exchange_of_serves {failing : List Int} {request : Request} {e : LogEntry} {outcome : Outcome}
    (h : Simulator.Serves failing request e outcome) (hb : b.getClient.result = .ok client) {log : List LogEntry}
    (hr : List.Forall₂ (LogEntry.Answered failing) (e :: log) b.script.responses) :
    ∃ outcome', (port.perform b request).outcome = .ok outcome' ∧ outcome.Agree request outcome' ∧
      b.Exchange client (request.call b.config) (port.perform b request).state ∧
      List.Forall₂ (LogEntry.Answered failing) log (port.perform b request).state.script.responses := by
  obtain ⟨houtcome, hexchange⟩ := perform_of_client hb request
  obtain ⟨response, rest, hfirst, hrest, hresponses⟩ := List.forall₂_cons_left_iff.1 hr
  have hnext : b.script.nextResponse = response := by
    rw [NetworkScript.nextResponse, hresponses]
    rfl
  obtain ⟨outcome', ho, hagree⟩ := outcome_of_serves h hfirst
  refine ⟨outcome', by rw [houtcome, hnext, ho], hagree, hexchange, ?_⟩
  rw [hexchange.responses, hresponses]
  exact hrest

/-! ## Runs -/

/-- A run of a port with a client: it asks for the operations of a log, each once, and ends like another run. -/
structure Mirrors (b : Bridge) (client : Nat) (log : List LogEntry) (answer : Except Fault Identity)
    (r : Run Bridge) : Prop where
  asks : ∃ requests, List.Forall₂ (LogEntry.Asked b.config) log requests ∧
    r.state.calls = b.getClient.bridge.calls ++ requests.map (client, ·)
  ends : SameEnd answer r.answer

variable {request : Request} {b' : Bridge} {e : LogEntry} {log : List LogEntry} {answer : Except Fault Identity}

theorem Exchange.mirrors_last {r : Run Bridge} (h : b.Exchange client (request.call b.config) r.state)
    (he : e.Asked b.config (request.call b.config)) (hends : SameEnd answer r.answer) : b.Mirrors client [e] answer r :=
  ⟨⟨[request.call b.config], .cons he .nil, h.calls⟩, hends⟩

theorem Exchange.mirrors_cons {r : Run Bridge} (h : b.Exchange client (request.call b.config) b')
    (he : e.Asked b.config (request.call b.config)) (hr : b'.Mirrors client log answer r) (events : List Event) :
    b.Mirrors client (e :: log) answer (r.after events) := by
  obtain ⟨⟨requests, hasked, hcalls⟩, hends⟩ := hr
  refine ⟨⟨request.call b.config :: requests, .cons he (h.config ▸ hasked), ?_⟩, hends⟩
  rw [h.getClient] at hcalls
  simp [Run.after, hcalls, h.calls]

/-- A round over an operation of a log takes the machine the same way as that of the decoder. -/
theorem round_of_serves {failing : List Int} {m : Machine} {op : Operation} {outcome : Outcome} (hm : Machine.Stage m)
    (hp : m.pending = some op) (hs : Simulator.Serves failing op.request e outcome) (hb : b.getClient.result = .ok client)
    (hr : List.Forall₂ (LogEntry.Answered failing) (e :: log) b.script.responses) :
    ∃ outcome', (port.perform b op.request).outcome = .ok outcome' ∧
      (m.advance outcome).Matches (m.advance outcome') ∧
      b.Exchange client (op.request.call b.config) (port.perform b op.request).state ∧
      List.Forall₂ (LogEntry.Answered failing) log (port.perform b op.request).state.script.responses := by
  obtain ⟨outcome', ho, hagree, hexchange, hrest⟩ := exchange_of_serves hs hb hr
  exact ⟨outcome', ho, hm.advance_matches hp hagree, hexchange, hrest⟩

/-- Whatever the decoder does from here on, a bridge that tells the same does it too. -/
theorem drive_mirrors {d : Simulator} {m : Machine} {op : Operation} (hm : Machine.Stage m) (hp : m.pending = some op)
    (hd : AllBytes d.cvs) :
    ∃ log, (drive Simulator.port d m op).state.log = d.log ++ log ∧
      ∀ {b : Bridge} {client : Nat}, b.getClient.result = .ok client →
        List.Forall₂ (LogEntry.Answered d.failing) log b.script.responses →
        b.Mirrors client log (drive Simulator.port d m op).answer (drive port b m op) := by
  -- The log of a run is known only when the run is over, so the bridge comes after it.
  obtain ⟨e, outcome, hs, ho, hlog, hfailing, hbytes⟩ := Simulator.perform_serves hd op.request
  cases hm.decides_advance hp outcome with
  | issues next ha hw =>
    obtain ⟨log, hrest, hmirrors⟩ := drive_mirrors (Machine.stage_advance hm outcome) hw.pending hbytes
    rw [hfailing] at hmirrors
    rw [drive_of_ok ho, ha]
    refine ⟨e :: log, by simp [Run.after, hrest, hlog], fun {b client} hb hr => ?_⟩
    obtain ⟨outcome', ho', hturn, hexchange, hr'⟩ := round_of_serves hm hp hs hb hr
    rw [drive_of_ok ho', hturn.answer.ok ha, ← hturn.machine.eq_of_failed hw.failed]
    exact hexchange.mirrors_cons (asked_of_serves hs b.config) (hmirrors (by rw [hexchange.getClient]) hr') _
  | completes identity ha =>
    rw [drive_of_ok ho, ha]
    refine ⟨[e], hlog, fun {b client} hb hr => ?_⟩
    obtain ⟨outcome', ho', hturn, hexchange, -⟩ := round_of_serves hm hp hs hb hr
    rw [drive_of_ok ho', hturn.answer.ok ha]
    exact hexchange.mirrors_last (asked_of_serves hs b.config) (.completed identity)
  | fails failure ha =>
    rw [drive_of_ok ho, ha]
    refine ⟨[e], hlog, fun {b client} hb hr => ?_⟩
    obtain ⟨outcome', ho', hturn, hexchange, -⟩ := round_of_serves hm hp hs hb hr
    obtain ⟨failure', ha', hplace⟩ := hturn.answer.access ha
    rw [drive_of_ok ho', ha']
    exact hexchange.mirrors_last (asked_of_serves hs b.config) (.failed hplace)
termination_by m.rank
decreasing_by exact Machine.rank_advance ha

/-- The log of a decoder that has been built, told to a port that has a client or can make one: the
port asks for each operation of the log with one request, and comes to the same identity, or to a
failure at the same CV and step. -/
theorem identify_mirrors {d : Simulator} (hd : d.Built) (hb : b.getClient.result = .ok client)
    (hr : List.Forall₂ (LogEntry.Answered d.failing) (identify Simulator.port d).state.log b.script.responses) :
    b.Mirrors client (identify Simulator.port d).state.log (identify Simulator.port d).answer (identify port b) := by
  obtain ⟨log, hlog, hmirrors⟩ := drive_mirrors (d := d) Machine.Stage.manufacturer rfl hd.allBytes
  rw [hd.log, List.nil_append] at hlog
  have hstate : (identify Simulator.port d).state.log = log := hlog
  rw [hstate] at hr ⊢
  obtain ⟨hasks, hends⟩ := hmirrors hb hr
  exact ⟨hasks, hends⟩

/-- A decoder that does not let its product ID be read. -/
def silentDecoder : Simulator := { cvs := [(8, ⟨113, []⟩), (7, ⟨4, []⟩)], failing := [56] }

/-- What a bridge to it answers. -/
def silentScript : NetworkScript where
  responses := [.registers (some [113]), .registers (some [4]), .registers none, .registers (some [4]), .exception 4 "busy"]

set_option maxRecDepth 2000 in
theorem log_silentDecoder :
    (identify Simulator.port silentDecoder).state.log =
      [⟨false, 8, some 113⟩, ⟨false, 7, some 4⟩, ⟨true, 49, some 254⟩, ⟨true, 50, some 4⟩, ⟨false, 56, none⟩] := by
  have model : Simulator.port.Next (.first silentDecoder) _ := .intro (o := .value 113) rfl rfl
  have paged : Simulator.port.Reaches silentDecoder _ :=
    (Relation.ReflTransGen.single model).tail (.intro (o := .value 4) rfl rfl)
  have indexed : Simulator.port.Reaches silentDecoder _ := paged.tail (.intro (o := .value 254) rfl rfl)
  have last : Simulator.port.Reaches silentDecoder _ := indexed.tail (.intro (o := .value 4) rfl rfl)
  rw [(last.identify_of_reason rfl rfl rfl).2]
  rfl

theorem identify_mirrors_silentDecoder :
    silentDecoder.Built ∧
      (getClient { config := { host := "bridge", offset := 0 }, script := silentScript }).result = .ok 0 ∧
      List.Forall₂ (LogEntry.Answered [56]) (identify Simulator.port silentDecoder).state.log silentScript.responses ∧
      Mirrors { config := { host := "bridge", offset := 0 }, script := silentScript } 0
        (identify Simulator.port silentDecoder).state.log (identify Simulator.port silentDecoder).answer
        (identify port { config := { host := "bridge", offset := 0 }, script := silentScript }) := by
  have built : silentDecoder.Built :=
    .values (show Simulator.build "<memory>" [(8, .int 113), (7, .int 4)] [56] = _ from rfl)
  have told : List.Forall₂ (LogEntry.Answered [56]) (identify Simulator.port silentDecoder).state.log
      silentScript.responses := by
    rw [log_silentDecoder]
    exact .cons (.served (by decide)) (.cons (.served (by decide)) (.cons (.written (by decide))
      (.cons (.written (by decide)) (.cons (.failed (by decide) (by decide)) .nil))))
  exact ⟨built, rfl, told, identify_mirrors built rfl told⟩

end Bridge

end DecoderId
