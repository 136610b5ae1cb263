import DecoderId.Proofs.Machine.Answer
import DecoderId.Proofs.Procedure.Lossless

/-!
# The course of a run

The outcomes that a machine takes answer the operations that it issues, in order: that is the course of its run.
The accumulator holds the bytes of the course that have been read after CV 7, and the manufacturer's procedure can
be replayed from them (`Machine.accumulator_replays`). Two courses to the same product ID of the same kind of decoder
have read the same bytes, as far as the manufacturer's product IDs tell them (`Machine.identity_tells_bytes`).
-/

namespace DecoderId

theorem Turn.Like.operation? {t u : Turn} (h : t.Like u) : t.operation? = u.operation? := by
  unfold Turn.operation?
  rw [h.answer]

namespace Machine

/-- The outcome that a call brings. -/
def Input.outcome? : Input → Option Outcome
  | .start => none
  | .advance o => some o

/-- The operations that calls issue, one after the other, be they announced or not: a listener may object before a call
has answered. -/
def asked (m : Machine) : List (Input × Listener) → List Operation
  | [] => []
  | (input, l) :: calls => (m.call input).operation?.toList ++ (m.perform input l).machine.asked calls

/-- The outcomes that are taken in the course of calls. -/
def received (m : Machine) : List (Input × Listener) → List Outcome
  | [] => []
  | (input, l) :: calls =>
    (if m.takes input l then input.outcome? else none).toList ++ (m.perform input l).machine.received calls

/-! ## Machines and their course -/

/-- What is known of a run that has ended, from its course. -/
structure Account (m : Machine) (exchanges : List (Operation × Outcome)) : Prop where
  opening : (exchanges.map Prod.fst).take 2 <+: [askManufacturer, askModel]
  accumulator : m.session.accumulator = bytesRead (exchanges.drop 2)
  length_le : m.session.accumulator.length ≤ 4
  identified : ∀ identity id, m.result = some identity → identity.productId = some id →
    ∃ code model protocol later,
      exchanges = (askManufacturer, .value code) :: (askModel, .value model) :: later ∧
        (m.session.manufacturerCode = some code ∧ identity.manufacturerCode = some (code.val : Int)) ∧
        (m.session.modelCode = some model ∧ identity.modelCode = some (model.val : Int)) ∧
        Protocol.lookup code.val = some protocol ∧ (protocol.procedure model.val).LeadsBy later (.done (some id))

/-- A machine, what has been asked and answered so far, and the operation that is open. -/
inductive Course : Machine → List (Operation × Outcome) → Option Operation → Prop
  | new : Course {} [] none
  | manufacturer : Course askingManufacturer [] (some askManufacturer)
  | model (code : Byte) : Course (askingModel code) [(askManufacturer, .value code)] (some askModel)
  | procedure {code model : Byte} {protocol : Protocol} {later : List (Operation × Outcome)} {p : Procedure}
      {op : Operation} :
      Protocol.lookup code.val = some protocol → (protocol.procedure model.val).LeadsBy later p →
      p.operation? = some op →
      Course (following code model (bytesRead later) ((later.length : Nat) + 3) p op)
        ((askManufacturer, .value code) :: (askModel, .value model) :: later) (some op)
  | ended {m : Machine} {exchanges : List (Operation × Outcome)} : m.Ended → m.Account exchanges → Course m exchanges none

variable {m : Machine} {op : Operation} {code model : Byte} {step : Int} {exchanges later : List (Operation × Outcome)}
  {pending : Option Operation} {protocol : Protocol}

theorem Course.account (h : Course m exchanges pending) : m.Account exchanges := by
  cases h with
  | new => exact ⟨by simp, rfl, by simp, by simp⟩
  | manufacturer => exact ⟨by simp, rfl, by simp [askingManufacturer], by simp [askingManufacturer]⟩
  | model code => exact ⟨by simp, rfl, by simp [askingModel], by simp [askingModel]⟩
  | procedure hl hq hop =>
    exact ⟨by simp, rfl, Protocol.length_bytesRead_le hl hq, by simp [following]⟩
  | ended _ ha => exact ha

theorem Course.waiting (h : Course m exchanges (some op)) : m.Waiting op := by
  cases h with
  | manufacturer => exact waiting_askingManufacturer
  | model code => exact waiting_askingModel code
  | procedure hl hq hop => exact waiting_following (hq.remains hl) hop

/-- A run opens with CV 8 and CV 7. -/
theorem Course.opening (h : Course m exchanges pending) :
    (exchanges.map Prod.fst ++ pending.toList).take 2 <+: [askManufacturer, askModel] := by
  cases h with
  | new | manufacturer | model | procedure => simp
  | ended _ ha => simpa using ha.opening

/-- A run ends with what is known. -/
theorem course_complete (hm : m.Informed code model (bytesRead later) step) (h3 : 3 ≤ step) {productId : Option Int}
    (hlength : (bytesRead later).length ≤ 4)
    (hid : ∀ id, productId = some id → isProductId id = true ∧ ∃ protocol, Protocol.lookup code.val = some protocol ∧
      (protocol.procedure model.val).LeadsBy later (.done (some id))) :
    Course (m.complete productId).machine ((askManufacturer, .value code) :: (askModel, .value model) :: later)
      (m.complete productId).operation? := by
  have hrange : ∀ id ∈ productId, isProductId id = true := fun id h => (hid id h).1
  obtain ⟨hmachine, hanswer⟩ := complete_of_informed hm hrange
  rw [Turn.operation?_of_ne (by simp [hanswer]), hmachine]
  refine .ended ⟨?_, .inl rfl⟩ ⟨by simp, rfl, hlength, ?_⟩
  · simp only [finished, Session.known]
    omega
  · intro identity id hresult hproduct
    cases hresult
    obtain ⟨-, protocol, hl, hq⟩ := hid id hproduct
    exact ⟨code, model, protocol, later, rfl, ⟨rfl, rfl⟩, ⟨rfl, rfl⟩, hl, hq⟩

/-- The machine goes on with what is left of the procedure. -/
theorem course_follow (hm : m.Informed code model (bytesRead later) ((later.length : Nat) + 3))
    (hl : Protocol.lookup code.val = some protocol) {p : Procedure}
    (hq : (protocol.procedure model.val).LeadsBy later p) :
    Course (m.follow p).machine ((askManufacturer, .value code) :: (askModel, .value model) :: later)
      (m.follow p).operation? := by
  cases ho : p.operation? with
  | some op =>
    obtain ⟨hmachine, hanswer⟩ := follow_of_informed hm ho
    rw [hmachine, Turn.operation?_of_operate hanswer]
    exact .procedure hl hq ho
  | none =>
    cases p with
    | read | write => cases ho
    | done productId =>
      have hlike := follow_done m productId
      rw [hlike.machine, hlike.operation?]
      have hrange : (Procedure.done productId).InRange := hq.leads.inRange (Protocol.inRange_of_lookup hl _)
      refine course_complete hm (by omega) (Protocol.length_bytesRead_le hl hq) ?_
      rintro id rfl
      exact ⟨hrange id rfl, protocol, hl, hq⟩

/-- A run fails at the operation that is open, and no byte is added. -/
theorem Course.advance_required (h : Course m exchanges (some op)) (hop : op.request.isOptional = false)
    {o : Outcome} {reason : String} (ho : o.reason? = some reason) :
    Course (m.advance o).machine (exchanges ++ [(op, o)]) (m.advance o).operation? := by
  have hw : m.Waiting op := h.waiting
  obtain ⟨hmachine, hanswer⟩ := Machine.advance_required hw hop ho
  obtain ⟨-, haccumulator, hlength, -⟩ := h.account
  rw [Turn.operation?_of_ne (by simp [hanswer]), hmachine]
  have hopening : ((exchanges ++ [(op, o)]).map Prod.fst).take 2 <+: [askManufacturer, askModel] := by
    cases h with
    | manufacturer | model | procedure => simp
  have hbytes : bytesRead ((exchanges ++ [(op, o)]).drop 2) = bytesRead (exchanges.drop 2) := by
    cases h with
    | manufacturer | model => rfl
    | procedure => exact bytesRead_append_of_reason _ op ho
  have hstep : 0 < m.session.step := by
    cases h with
    | manufacturer => exact Int.one_pos
    | model code => exact (by decide : (0 : Int) < 2)
    | procedure =>
      simp only [following, Session.known]
      omega
  refine .ended ⟨?_, .inr rfl⟩ ⟨hopening, haccumulator.trans hbytes.symm, hlength, by simp [aborted]⟩
  simp only [aborted]
  omega

theorem Course.advance (h : Course m exchanges (some op)) (o : Outcome) :
    Course (m.advance o).machine (exchanges ++ [(op, o)]) (m.advance o).operation? := by
  rcases o.value_or_reason with ⟨b, rfl⟩ | ⟨reason, ho⟩
  · cases h with
    | manufacturer =>
      obtain ⟨hmachine, hanswer⟩ := advance_askingManufacturer b
      rw [hmachine, Turn.operation?_of_operate hanswer]
      exact .model b
    | model code =>
      cases hl : Protocol.lookup code.val with
      | none =>
        obtain ⟨m', hm', hlike⟩ := advance_askingModel_of_none hl b
        have hinformed : m'.Informed code b (bytesRead []) 3 := hm'
        rw [hlike.machine, hlike.operation?]
        exact course_complete hinformed (by decide) (Nat.zero_le 4) (by simp)
      | some protocol =>
        obtain ⟨m', hm', hlike⟩ := advance_askingModel_of_some hl b
        have hinformed : m'.Informed code b (bytesRead []) (([] : List (Operation × Outcome)).length + 3) := hm'
        rw [hlike.machine, hlike.operation?]
        exact course_follow hinformed hl .start
    | @procedure code model protocol later p op hl hq hop =>
      obtain ⟨m', hm', hlike⟩ := advance_following (hq.remains hl) hop b
      have hstep : ((later ++ [(op, Outcome.value b)]).length : Int) + 3 = later.length + 3 + 1 := by
        rw [List.length_append, List.length_singleton]
        omega
      rw [← bytesRead_append_value, ← hstep] at hm'
      rw [hlike.machine, hlike.operation?]
      exact course_follow hm' hl (.answer b hq hop)
  · cases hopt : op.request.isOptional with
    | false => exact h.advance_required hopt ho
    | true =>
      cases h with
      | manufacturer | model => cases hopt
      | @procedure code model protocol later p op hl hq hop =>
        obtain ⟨m', hm', hlike⟩ := advance_following_optional (hq.remains hl) hop hopt ho
        rw [← bytesRead_append_of_reason later op ho] at hm'
        rw [hlike.machine, hlike.operation?]
        refine course_complete hm' (by omega) ?_ (by simp)
        rw [bytesRead_append_of_reason later op ho]
        exact Protocol.length_bytesRead_le hl hq

/-! ## Runs -/

theorem Course.exists_perform (h : Course m exchanges pending) (hs : Stage m) (input : Input) (l : Listener) :
    ∃ exchanges' pending', Course (m.perform input l).machine exchanges' pending' ∧
      exchanges'.map Prod.fst ++ pending'.toList =
        exchanges.map Prod.fst ++ pending.toList ++ (m.call input).operation?.toList ∧
      exchanges'.map Prod.snd =
        exchanges.map Prod.snd ++ (if m.takes input l then input.outcome? else none).toList := by
  rw [perform_machine]
  rcases hs.call_cases input with ⟨hr, misuse, hc⟩ | ⟨hn, -⟩
  · have htakes : m.takes input l = false := by
      cases input with
      | start => rfl
      | advance o => simpa [hr] using hs.takes_iff o l
    have hnone : (m.refuse misuse).operation? = none := Turn.operation?_of_ne (by simp [refuse])
    rw [hc, hnone, htakes]
    exact ⟨exchanges, pending, h, by simp, by simp⟩
  · cases input with
    | start =>
      cases h with
      | new => exact ⟨[], some askManufacturer, .manufacturer, rfl, rfl⟩
      | manufacturer => exact absurd waiting_askingManufacturer.started hn
      | model code => exact absurd (waiting_askingModel code).started hn
      | procedure hl hq hop => exact absurd (waiting_following (hq.remains hl) hop).started hn
      | ended he => exact absurd (he.refuses .start) hn
    | advance o =>
      rw [(hs.takes_iff o l).2 hn]
      cases pending with
      | some op => exact ⟨exchanges ++ [(op, o)], _, h.advance o, by simp [call], by simp [Input.outcome?]⟩
      | none =>
        cases h with
        | new => exact absurd (.inl rfl) hn
        | ended he => exact absurd (he.refuses (.advance o)) hn

theorem Course.exists_performed (h : Course m exchanges pending) (hs : Stage m) (calls : List (Input × Listener)) :
    ∃ exchanges' pending', Course (m.performed calls) exchanges' pending' ∧
      exchanges'.map Prod.fst ++ pending'.toList = exchanges.map Prod.fst ++ pending.toList ++ m.asked calls ∧
      exchanges'.map Prod.snd = exchanges.map Prod.snd ++ m.received calls := by
  induction calls generalizing m exchanges pending with
  | nil => exact ⟨exchanges, pending, h, by simp [asked], by simp [received]⟩
  | cons c calls ih =>
    obtain ⟨first, open₁, hfirst, hasked, hreceived⟩ := h.exists_perform hs c.1 c.2
    obtain ⟨last, open₂, hlast, hasked', hreceived'⟩ := ih hfirst (stage_perform hs c.1 c.2)
    refine ⟨last, open₂, hlast, ?_, ?_⟩
    · rw [hasked', hasked, asked, List.append_assoc]
    · rw [hreceived', hreceived, received, List.append_assoc]

/-- Outcomes answer operations in order, so that the course of a run is put together from both. -/
theorem zip_course (exchanges : List (Operation × Outcome)) (rest : List Operation) :
    (exchanges.map Prod.fst ++ rest).zip (exchanges.map Prod.snd) = exchanges := by
  induction exchanges with
  | nil => simp
  | cons e exchanges ih => simp [ih]

/-- The course of the run that calls lead to. -/
def exchanged (calls : List (Input × Listener)) : List (Operation × Outcome) := (asked {} calls).zip (received {} calls)

theorem exists_course (calls : List (Input × Listener)) :
    ∃ pending, Course (performed {} calls) (exchanged calls) pending ∧
      asked {} calls = (exchanged calls).map Prod.fst ++ pending.toList ∧
      received {} calls = (exchanged calls).map Prod.snd := by
  obtain ⟨exchanges, pending, hcourse, hasked, hreceived⟩ := Course.new.exists_performed .new calls
  have hasked' : asked {} calls = exchanges.map Prod.fst ++ pending.toList := hasked.symm
  have hreceived' : received {} calls = exchanges.map Prod.snd := hreceived.symm
  have hexchanged : exchanged calls = exchanges := by rw [exchanged, hasked', hreceived', zip_course]
  rw [hexchanged]
  exact ⟨pending, hcourse, hasked', hreceived'⟩

/-- After any calls, with whoever listening: each outcome that has been taken answers an operation, CVs 8 and 7 are asked
for first, and the accumulator holds the bytes that have answered reads after that, four at most. If the run has come to
a product ID, the manufacturer's procedure for the model, run by hand, comes to the same one, with the operations that
have been issued after CV 7, and it takes the accumulator and nothing else for it. -/
theorem accumulator_replays (calls : List (Input × Listener)) :
    let m := performed {} calls
    (exchanged calls).map Prod.snd = received {} calls ∧ (asked {} calls).take 2 <+: [askManufacturer, askModel] ∧
      m.session.accumulator = bytesRead ((exchanged calls).drop 2) ∧ m.session.accumulator.length ≤ 4 ∧
      ∀ identity id, m.result = some identity → identity.productId = some id →
        ∃ code model protocol, m.session.manufacturerCode = some code ∧ m.session.modelCode = some model ∧
          Protocol.lookup code.val = some protocol ∧
          (protocol.procedure model.val).run (m.session.accumulator.map (·.val)) =
            ⟨(asked {} calls).drop 2, .finished (some id) 0⟩ := by
  intro m
  obtain ⟨pending, hcourse, hasked, hreceived⟩ := exists_course calls
  have ha : m.Account (exchanged calls) := hcourse.account
  refine ⟨hreceived.symm, ?_, ha.accumulator, ha.length_le, fun identity id hresult hproduct => ?_⟩
  · rw [hasked]
    exact hcourse.opening
  · obtain ⟨code, model, protocol, later, hlater, ⟨hcode, -⟩, ⟨hmodel, -⟩, hl, hq⟩ :=
      ha.identified identity id hresult hproduct
    refine ⟨code, model, protocol, hcode, hmodel, hl, ?_⟩
    have hpending : pending = none := by
      cases pending with
      | none => rfl
      | some op =>
        have hw : m.Waiting op := hcourse.waiting
        rw [hw.result] at hresult
        cases hresult
    rw [ha.accumulator, hasked, hpending, hlater]
    simpa using hq.run_done (Protocol.ignoresReplies_of_lookup hl _)

/-- Two runs, with any calls and whoever listens, that come to the same identity, with a product ID: both have read the
same bytes in the same order. There are two exceptions: of CV 255 of a SoundTraxx decoder only three bits are the same,
and of a TCS decoder only the byte of CV 249, which is read first. -/
theorem identity_tells_bytes {calls calls' : List (Input × Listener)} {identity : Identity} {id : Int}
    (h : (performed {} calls).result = some identity) (h' : (performed {} calls').result = some identity)
    (hid : identity.productId = some id) :
    (identity.manufacturer ≠ .soundtraxx → identity.manufacturer ≠ .tcs →
      (performed {} calls).session.accumulator = (performed {} calls').session.accumulator) ∧
    (identity.manufacturer = .soundtraxx → ∃ highest low high high' : Byte,
      readings ((exchanged calls).drop 2) = [(253, highest), (256, low), (255, high)] ∧
        readings ((exchanged calls').drop 2) = [(253, highest), (256, low), (255, high')] ∧
        high.val % 8 = high'.val % 8) ∧
    (identity.manufacturer = .tcs → ∃ lowest rest rest',
      readings ((exchanged calls).drop 2) = (249, lowest) :: rest ∧
        readings ((exchanged calls').drop 2) = (249, lowest) :: rest') := by
  obtain ⟨_, hcourse, -⟩ := exists_course calls
  obtain ⟨_, hcourse', -⟩ := exists_course calls'
  obtain ⟨code, model, protocol, later, hlater, ⟨-, hcode⟩, ⟨-, hmodel⟩, hl, hq⟩ :=
    hcourse.account.identified identity id h hid
  obtain ⟨code', model', protocol', later', hlater', ⟨-, hcode'⟩, ⟨-, hmodel'⟩, hl', hq'⟩ :=
    hcourse'.account.identified identity id h' hid
  -- The identity names the kind of decoder, so that one procedure has been followed in both runs.
  have hsameCode : (code.val : Int) = code'.val := Option.some.inj (hcode.symm.trans hcode')
  have hsameModel : (model.val : Int) = model'.val := Option.some.inj (hmodel.symm.trans hmodel')
  rw [← hsameCode, hl] at hl'
  cases hl'
  rw [← hsameModel] at hq'
  obtain ⟨hp, hpcode⟩ := Protocol.lookup_eq_some_iff.1 hl
  have hmanufacturer : identity.manufacturer = protocol.manufacturer := by
    rw [Identity.manufacturer, hcode, ← hpcode]
    exact Manufacturer.ofCode_code protocol.manufacturer
  rw [hmanufacturer, hcourse.account.accumulator, hcourse'.account.accumulator, hlater, hlater']
  refine ⟨fun hs ht => ?_, fun hs => ?_, fun ht => ?_⟩
  · exact Protocol.lossless_of_mem hp hs ht model.val later later' id hq hq'
  · have hyields := Protocol.yields_of_soundtraxx hp hs model.val
    exact (hq.productId hyields).kept (hq'.productId hyields)
  · have hyields := Protocol.yields_of_tcs hp ht model.val
    exact (hq.productId hyields).kept (hq'.productId hyields)

/-- A Hornby decoder of model 1 with an ID of two bytes, once while nobody minds, and once while a listener objects to
all progress. -/
theorem identity_tells_bytes_hornby :
    let inputs : List Input := [.start, .advance (.value ⟨48, by decide⟩), .advance (.value ⟨1, by decide⟩),
      .advance (.value ⟨143, by decide⟩), .advance (.value ⟨5, by decide⟩)]
    let m := performed {} (inputs.map fun input => (input, {}))
    let m' := performed {} (inputs.map fun input => (input, { onProgress := some }))
    (∃ identity, m.result = some identity ∧ m'.result = some identity ∧ identity.productId = some 1423) ∧
      m.session.accumulator = m'.session.accumulator := by
  intro inputs m m'
  let identity : Identity := ⟨some 48, some 1, some 1423, by decide⟩
  have h : m.result = some identity := by
    unfold m
    rw [performed_eq_foldl]
    rfl
  have h' : m'.result = some identity := by
    unfold m'
    rw [performed_eq_foldl]
    rfl
  obtain ⟨hsame, -, -⟩ := identity_tells_bytes h h' rfl
  exact ⟨⟨identity, h, h', rfl⟩, hsame (by decide) (by decide)⟩

end Machine

end DecoderId
