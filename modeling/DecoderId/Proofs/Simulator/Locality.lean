import DecoderId.Proofs.Identify.Rounds
import DecoderId.Proofs.Machine.Agreement
import DecoderId.Proofs.Procedure.Reach
import DecoderId.Proofs.Simulator.Requests

/-!
# An identification is local

An identification of a simulated decoder depends on CVs 8 and 7 and on the CVs in the row
of its manufacturer, and it leaves all others alone. What it does to these is in the log:
the values of a CV afterwards are those from before, after the operations on that CV
(`Simulator.identify_local`).

In each round the machine has only taken what the decoder served on CVs 8 and 7
(`Simulator.Told`), so that the operation is one of the procedure for these two values.
-/

namespace DecoderId

/-! ## What a log does to a CV -/

/-- The values of its CV after an operation. A write that did not fail leaves what it wrote; a read that has
been served takes a value away, but for the last one. -/
def LogEntry.effect (failing : List Int) (e : LogEntry) (values : Option (List Int)) : Option (List Int) :=
  match e.isWrite, e.value with
  | true, some v => if e.address ∈ failing then values else some [v]
  | false, some _ => values.map fun l => if l.length = 1 then l else l.tail
  | _, none => values

/-- The values of a CV after the operations of a log. -/
def replay (failing : List Int) (log : List LogEntry) (cv : Int) (values : Option (List Int)) : Option (List Int) :=
  (log.filter (·.address = cv)).foldl (fun values e => e.effect failing values) values

theorem replay_concat (failing : List Int) (log : List LogEntry) (e : LogEntry) (cv : Int) (values : Option (List Int)) :
    replay failing (log ++ [e]) cv values =
      if e.address = cv then e.effect failing (replay failing log cv values) else replay failing log cv values := by
  unfold replay
  by_cases h : e.address = cv
  · simp [List.filter_append, h]
  · simp [List.filter_append, h]

theorem replay_of_not_mem {failing : List Int} {log : List LogEntry} {cv : Int} (h : ∀ e ∈ log, e.address ≠ cv)
    (values : Option (List Int)) : replay failing log cv values = values := by
  have hnone : log.filter (·.address = cv) = [] := by
    rw [List.filter_eq_nil_iff]
    intro e he
    simpa using h e he
  rw [replay, hnone]
  rfl

theorem Series.toList_next (s : Series) : s.next.toList = if s.toList.length = 1 then s.toList else s.toList.tail := by
  obtain ⟨first, _ | ⟨v, rest⟩⟩ := s <;> simp [next, toList]

theorem Series.toList_injective : Function.Injective Series.toList := by
  rintro ⟨first, rest⟩ ⟨first', rest'⟩ heq
  cases heq
  rfl

namespace Simulator

/-- The values that a CV has left. -/
def values? (d : Simulator) (cv : Int) : Option (List Int) := (d.series? cv).map Series.toList

/-- The value that the next read of a CV serves, if it does. -/
def next? (d : Simulator) (cv : Int) : Option Int :=
  if cv ∈ d.failing then none else (d.values? cv).bind List.head?

/-- CVs 8 and 7 and those in the row for what CV 8 serves next. -/
def footprint (d : Simulator) : List Int :=
  8 :: 7 ::
    match (d.next? 8).bind Protocol.lookup with
    | none => []
    | some protocol => protocol.registers.map fun cv : Nat => (cv : Int)

/-- The two decoders do not differ in these CVs. -/
structure AgreeOn (cvs : List Int) (d d' : Simulator) : Prop where
  failing : ∀ cv ∈ cvs, cv ∈ d'.failing ↔ cv ∈ d.failing
  series : ∀ cv ∈ cvs, d'.series? cv = d.series? cv

variable {d d' : Simulator}

/-! ## One request -/

theorem series?_setSeries (d : Simulator) (cv other : Int) (s : Series) :
    (d.setSeries cv s).series? other = if cv = other then some s else d.series? other := by
  unfold series? setSeries
  split
  · rename_i h
    rw [h, Assoc.get?_set_self]
  · rename_i h
    rw [Assoc.get?_set_of_ne _ _ h]

theorem values?_setSeries (d : Simulator) (cv other : Int) (s : Series) :
    (d.setSeries cv s).values? other = if cv = other then some s.toList else d.values? other := by
  rw [values?, series?_setSeries, apply_ite (Option.map Series.toList), Option.map_some]
  rfl

theorem values?_logged (d : Simulator) (e : LogEntry) (cv : Int) : (d.logged e).values? cv = d.values? cv := rfl

/-- A request adds an entry to the log, and changes what the entry says. -/
structure Logs (d : Simulator) (request : Request) (e : LogEntry) (d' : Simulator) : Prop where
  log : d'.log = d.log ++ [e]
  address : e.address = request.address.number
  isWrite : e.isWrite = request.isWrite
  failing : d'.failing = d.failing
  source : d'.source = d.source
  values : ∀ cv, d'.values? cv = if e.address = cv then e.effect d.failing (d.values? cv) else d.values? cv

theorem perform_read (d : Simulator) (address : CvNumber) (optional : Bool) :
    port.perform d (.read address optional) = d.read address.number optional := rfl

theorem perform_write (d : Simulator) (address : CvNumber) (value : Byte) :
    port.perform d (.write address value) = d.write address.number value.val := rfl

theorem logs_unserved (d : Simulator) (address : CvNumber) (optional : Bool) :
    Logs d (.read address optional) ⟨false, address.number, none⟩ (d.logged ⟨false, address.number, none⟩) where
  log := rfl
  address := rfl
  isWrite := rfl
  failing := rfl
  source := rfl
  values cv := by
    split
    · rfl
    · rfl

theorem perform_logs (d : Simulator) (request : Request) : ∃ e, Logs d request e (port.perform d request).state := by
  cases request with
  | read address optional =>
    rw [perform_read]
    by_cases hf : (address.number : Int) ∈ d.failing
    · rw [read_of_failing hf]
      exact ⟨_, logs_unserved d address optional⟩
    · cases hs : d.series? address.number with
      | none =>
        rw [read_of_missing hf hs]
        exact ⟨_, logs_unserved d address optional⟩
      | some s =>
        refine ⟨⟨false, address.number, some s.first⟩, ?_⟩
        rw [read_of_series hf hs]
        refine ⟨rfl, rfl, rfl, rfl, rfl, fun cv => ?_⟩
        rw [values?_logged, values?_setSeries]
        split
        · rename_i h
          subst h
          simp [LogEntry.effect, values?, hs, Series.toList_next]
        · rfl
  | write address value =>
    refine ⟨⟨true, address.number, some value.val⟩, ?_⟩
    by_cases hf : (address.number : Int) ∈ d.failing
    · rw [perform_write, write_of_failing hf]
      refine ⟨rfl, rfl, rfl, rfl, rfl, fun cv => ?_⟩
      simp [LogEntry.effect, hf]
      rfl
    · rw [perform_write, write_of_not_failing hf]
      refine ⟨rfl, rfl, rfl, rfl, rfl, fun cv => ?_⟩
      rw [values?_setSeries, values?_logged]
      split
      · simp [LogEntry.effect, hf, Series.toList]
      · rfl

/-! ## What the machine has been told -/

theorem Logs.next?_of_ne {request : Request} {e : LogEntry} (h : Logs d request e d') {cv : Int}
    (hne : e.address ≠ cv) : d'.next? cv = d.next? cv := by
  have hvalues : d'.values? cv = d.values? cv := (h.values cv).trans (if_neg hne)
  rw [next?, next?, h.failing, hvalues]

theorem next?_of_value {address : CvNumber} {optional : Bool} {b : Byte}
    (h : (port.perform d (.read address optional)).outcome = .ok (.value b)) :
    d.next? address.number = some (b.val : Int) := by
  rw [perform_read] at h
  by_cases hf : (address.number : Int) ∈ d.failing
  · rw [read_of_failing hf] at h
    cases h
  · cases hs : d.series? address.number with
    | none =>
      rw [read_of_missing hf hs] at h
      cases optional <;> cases h
    | some s =>
      rw [read_of_series hf hs] at h
      have hbyte : Byte.ofInt? s.first = some b := by
        unfold outcomeOf Byte.ofInt at h
        cases hb : Byte.ofInt? s.first with
        | none =>
          rw [hb] at h
          cases h
        | some b' =>
          rw [hb] at h
          cases h
          rfl
      rw [next?, if_neg hf, values?, hs, Byte.ofInt?_eq_some_iff.1 hbyte]
      rfl

/-- In a round of an identification, the machine has taken what the decoder serves on CVs 8 and 7. -/
inductive Told (d : Simulator) : Round Simulator → Prop
  | manufacturer : Told d ⟨d, Machine.askingManufacturer, Machine.askManufacturer⟩
  | model {s : Simulator} {code : Byte} :
      d.next? 8 = some (code.val : Int) → s.next? 7 = d.next? 7 →
      Told d ⟨s, Machine.askingModel code, Machine.askModel⟩
  | procedure {s : Simulator} {code model : Byte} {bytes : List Byte} {step : Int} {p : Procedure} {op : Operation} :
      d.next? 8 = some (code.val : Int) → d.next? 7 = some (model.val : Int) → p.operation? = some op →
      Remains code model step bytes p → Told d ⟨s, Machine.following code model bytes step p op, op⟩

variable {r r' : Round Simulator}

theorem Told.next (h : Told d r) (hr : r.Open) (hn : port.Next r r') : Told d r' := by
  cases hn with
  | @intro o op ho ha =>
    obtain ⟨b, rfl⟩ := hr.stage.value_of_operate hr.pending ha
    cases h with
    | manufacturer =>
      obtain ⟨hmachine, hanswer⟩ := Machine.advance_askingManufacturer b
      dsimp only at ha ⊢
      rw [hanswer] at ha
      cases ha
      rw [hmachine]
      -- The read of CV 8 leaves CV 7 alone.
      obtain ⟨e, he⟩ := perform_logs d Machine.askManufacturer.request
      have hne : e.address ≠ 7 := by
        rw [he.address]
        decide
      exact .model (next?_of_value ho) (he.next?_of_ne hne)
    | model hcode hkept =>
      dsimp only at ha ⊢
      obtain ⟨protocol, hl, hop, hmachine⟩ := Machine.operation_of_askingModel ha
      rw [hmachine]
      exact .procedure hcode (hkept ▸ next?_of_value ho) hop (.start hl b)
    | procedure hcode hmodel hop hp =>
      dsimp only at ha ⊢
      obtain ⟨hnext, hp', hmachine⟩ := Machine.operation_of_following hop hp ha
      rw [hmachine]
      exact .procedure hcode hmodel hnext hp'

theorem told_of_reaches (h : port.Reaches d r) : Told d r := by
  induction h with
  | refl => exact .manufacturer
  | tail hr hn ih => exact ih.next (Port.Reaches.opened hr) hn

/-- The CVs that select a page, of an ESU decoder with RailCom or a QSI decoder. -/
def Pages (d : Simulator) (cv : Int) : Prop :=
  d.next? 8 = some Manufacturer.esu.code ∧ d.next? 7 = some 255 ∧ (cv = 31 ∨ cv = 32) ∨
    d.next? 8 = some Manufacturer.qsi.code ∧ (cv = 49 ∨ cv = 50)

theorem Told.mem_footprint (h : Told d r) : (r.operation.request.address.number : Int) ∈ d.footprint := by
  cases h with
  | manufacturer => exact List.mem_cons_self
  | model => exact List.mem_cons_of_mem _ List.mem_cons_self
  | @procedure s code model bytes step p op hcode hmodel hop hp =>
    obtain ⟨protocol, n, hl, -, hleads⟩ := hp
    have hwithin := (hleads.every (Protocol.every_of_lookup hl model.val)).operation hop
    refine List.mem_cons_of_mem _ (List.mem_cons_of_mem _ ?_)
    rw [hcode, Option.bind_some, hl]
    exact List.mem_map_of_mem hwithin.mem_registers

theorem Told.pages (h : Told d r) (hw : r.operation.request.isWrite = true) :
    d.Pages r.operation.request.address.number := by
  cases h with
  | manufacturer => cases hw
  | model => cases hw
  | @procedure s code model bytes step p op hcode hmodel hop hp =>
    obtain ⟨protocol, n, hl, -, hleads⟩ := hp
    have hwithin := (hleads.every (Protocol.every_of_lookup hl model.val)).operation hop
    have hprotocol : protocol.code = code.val := (Protocol.lookup_eq_some_iff.1 hl).2
    rw [← hprotocol, Protocol.code] at hcode
    dsimp only at hw ⊢
    obtain ⟨request, message⟩ := op
    cases request with
    | read => cases hw
    | write address value =>
      rcases hwithin.2 with ⟨hm, hmodel255, hcv⟩ | ⟨hm, hcv⟩
      · refine .inl ⟨by rw [hcode, hm], by rw [hmodel, hmodel255], ?_⟩
        exact hcv.imp (congrArg _) (congrArg _)
      · exact .inr ⟨by rw [hcode, hm], hcv.imp (congrArg _) (congrArg _)⟩

/-! ## One run -/

/-- A decoder after operations that are in the log, and nothing else. -/
structure Follows (d : Simulator) (log : List LogEntry) (d' : Simulator) : Prop where
  logged : d'.log = d.log ++ log
  within : ∀ e ∈ log, e.address ∈ d.footprint
  writes : ∀ e ∈ log, e.isWrite = true → d.Pages e.address
  values : ∀ cv, d'.values? cv = replay d.failing log cv (d.values? cv)
  failing : d'.failing = d.failing
  source : d'.source = d.source

theorem follows_nil (d : Simulator) : Follows d [] d where
  logged := (List.append_nil _).symm
  within := by simp
  writes := by simp
  values _ := rfl
  failing := rfl
  source := rfl

theorem Follows.reply {log : List LogEntry} (h : Follows d log r.state) (ht : Told d r) :
    ∃ e, Follows d (log ++ [e]) (r.reply port).state := by
  obtain ⟨e, he⟩ := perform_logs r.state r.operation.request
  have hwithin : e.address ∈ d.footprint := he.address ▸ ht.mem_footprint
  have hwrites : e.isWrite = true → d.Pages e.address := by
    intro hw
    rw [he.address]
    exact ht.pages (he.isWrite ▸ hw)
  refine ⟨e, ?_, ?_, ?_, fun cv => ?_, he.failing.trans h.failing, he.source.trans h.source⟩
  · rw [Round.reply, he.log, h.logged, List.append_assoc]
  · simp only [List.mem_append, List.mem_singleton]
    rintro e' (he' | rfl)
    · exact h.within e' he'
    · exact hwithin
  · simp only [List.mem_append, List.mem_singleton]
    rintro e' (he' | rfl)
    · exact h.writes e' he'
    · exact hwrites
  · rw [Round.reply, he.values, h.values, h.failing, replay_concat]

theorem follows_of_reaches (h : port.Reaches d r) : ∃ log, Follows d log r.state := by
  induction h with
  | refl => exact ⟨[], follows_nil d⟩
  | tail hr hn ih =>
    obtain ⟨log, hlog⟩ := ih
    obtain ⟨e, he⟩ := hlog.reply (told_of_reaches hr)
    cases hn with
    | intro => exact ⟨_, he⟩

theorem identify_follows (d : Simulator) : ∃ log, Follows d log (identify port d).state := by
  obtain ⟨r, hr, -, hstate⟩ := port.exists_last d
  obtain ⟨log, hlog⟩ := follows_of_reaches hr
  obtain ⟨e, he⟩ := hlog.reply (told_of_reaches hr)
  rw [hstate]
  exact ⟨_, he⟩

/-- A CV that is in no entry of the log keeps its values. -/
theorem Follows.series? {log : List LogEntry} (h : Follows d log d') {cv : Int} (hcv : cv ∉ d.footprint) :
    d'.series? cv = d.series? cv := by
  have hvalues : d'.values? cv = d.values? cv := by
    rw [h.values, replay_of_not_mem]
    rintro e he rfl
    exact hcv (h.within e he)
  exact Option.map_injective Series.toList_injective hvalues

/-! ## Two runs -/

variable {cvs : List Int}

theorem AgreeOn.logged (h : AgreeOn cvs d d') (e : LogEntry) : AgreeOn cvs (d.logged e) (d'.logged e) :=
  ⟨h.failing, h.series⟩

theorem AgreeOn.setSeries (h : AgreeOn cvs d d') (cv : Int) (s : Series) :
    AgreeOn cvs (d.setSeries cv s) (d'.setSeries cv s) := by
  refine ⟨h.failing, fun other ho => ?_⟩
  rw [series?_setSeries, series?_setSeries, h.series other ho]

/-- Decoders that agree on what a request looks at answer it in the same way, log the same, and agree no less.
A write does not look at the values. -/
theorem AgreeOn.answer (h : AgreeOn cvs d d') {request : Request}
    (hfailing : (request.address.number : Int) ∈ d'.failing ↔ (request.address.number : Int) ∈ d.failing)
    (hseries : request.isWrite = false → d'.series? request.address.number = d.series? request.address.number) :
    (port.perform d' request).outcome = (port.perform d request).outcome ∧
      AgreeOn cvs (port.perform d request).state (port.perform d' request).state ∧
      ∃ e, (port.perform d request).state.log = d.log ++ [e] ∧ (port.perform d' request).state.log = d'.log ++ [e] := by
  cases request with
  | read address optional =>
    rw [perform_read, perform_read]
    by_cases hf : (address.number : Int) ∈ d.failing
    · have hf' : (address.number : Int) ∈ d'.failing := hfailing.2 hf
      rw [read_of_failing hf, read_of_failing hf']
      exact ⟨rfl, h.logged _, _, rfl, rfl⟩
    · have hf' : (address.number : Int) ∉ d'.failing := fun hf' => hf (hfailing.1 hf')
      cases hs : d.series? address.number with
      | none =>
        have hs' : d'.series? address.number = none := (hseries rfl).trans hs
        rw [read_of_missing hf hs, read_of_missing hf' hs']
        exact ⟨rfl, h.logged _, _, rfl, rfl⟩
      | some s =>
        have hs' : d'.series? address.number = some s := (hseries rfl).trans hs
        rw [read_of_series hf hs, read_of_series hf' hs']
        exact ⟨rfl, (h.setSeries _ _).logged _, _, rfl, rfl⟩
  | write address value =>
    rw [perform_write, perform_write]
    by_cases hf : (address.number : Int) ∈ d.failing
    · have hf' : (address.number : Int) ∈ d'.failing := hfailing.2 hf
      rw [write_of_failing hf, write_of_failing hf']
      exact ⟨rfl, h.logged _, _, rfl, rfl⟩
    · have hf' : (address.number : Int) ∉ d'.failing := fun hf' => hf (hfailing.1 hf')
      rw [write_of_not_failing hf, write_of_not_failing hf']
      exact ⟨rfl, (h.setSeries _ _).logged _, _, rfl, rfl⟩

theorem AgreeOn.perform (h : AgreeOn cvs d d') {request : Request} (hm : (request.address.number : Int) ∈ cvs) :
    (port.perform d' request).outcome = (port.perform d request).outcome ∧
      AgreeOn cvs (port.perform d request).state (port.perform d' request).state ∧
      ∃ e, (port.perform d request).state.log = d.log ++ [e] ∧ (port.perform d' request).state.log = d'.log ++ [e] :=
  h.answer (h.failing _ hm) fun _ => h.series _ hm

/-- The two decoders have logged the same since, and still agree. -/
def Alike (d d' : Simulator) (s s' : Simulator) : Prop :=
  AgreeOn d.footprint s s' ∧ ∃ log, s.log = d.log ++ log ∧ s'.log = d'.log ++ log

theorem identify_alike (h : AgreeOn d.footprint d d') :
    (identify port d').answer = (identify port d).answer ∧
      Alike d d' (identify port d).state (identify port d').state := by
  have hstart : Alike d d' d d' := ⟨h, [], by simp, by simp⟩
  refine port.identify_alike hstart fun r hr t ht => ?_
  obtain ⟨hagree, log, hlog, hlog'⟩ := ht
  obtain ⟨houtcome, hagree', e, he, he'⟩ := hagree.perform (told_of_reaches hr).mem_footprint
  refine ⟨houtcome, hagree', log ++ [e], ?_, ?_⟩
  · rw [Round.reply, he, hlog, List.append_assoc]
  · rw [he', hlog', List.append_assoc]

/-! ## Decoders of bytes -/

theorem allBytes_of_reaches (hd : AllBytes d.cvs) (h : port.Reaches d r) : AllBytes r.state.cvs := by
  induction h with
  | refl => exact hd
  | tail _ hn ih =>
    obtain ⟨e, outcome, -, -, -, -, hbytes⟩ := perform_serves ih _
    cases hn with
    | intro => exact hbytes

/-- A decoder of bytes is identified, or an access to a CV fails. -/
theorem identify_answer (hd : AllBytes d.cvs) :
    (∃ identity, (identify port d).answer = .ok identity) ∨ ∃ f, (identify port d).answer = .error (.access f) := by
  obtain ⟨r, hr, hends, -⟩ := port.exists_last d
  obtain ⟨e, outcome, -, ho, -⟩ := perform_serves (allBytes_of_reaches hd hr) r.operation.request
  generalize (identify port d).answer = answer at hends ⊢
  cases hends with
  | raised hf =>
    rw [Round.reply, ho] at hf
    cases hf
  | failed => exact .inr ⟨_, rfl⟩
  | completed => exact .inl ⟨_, rfl⟩

/-! ## Locality -/

/-- An identification adds a log of operations on the footprint, with writes to the pages only, and leaves the
decoder as the log says, and all else as it was. A decoder that agrees on the footprint is identified in the
same way, with the same log. If the decoder has been built, there is an identity, or an access fails. -/
theorem identify_local (d : Simulator) :
    ∃ log, Follows d log (identify port d).state ∧
      (∀ cv, cv ∉ d.footprint → (identify port d).state.series? cv = d.series? cv) ∧
      (∀ d', AgreeOn d.footprint d d' →
        (identify port d').answer = (identify port d).answer ∧ (identify port d').state.log = d'.log ++ log) ∧
      (d.Built → (∃ identity, (identify port d).answer = .ok identity) ∨
        ∃ f, (identify port d).answer = .error (.access f)) := by
  obtain ⟨log, hlog⟩ := identify_follows d
  refine ⟨log, hlog, fun cv hcv => hlog.series? hcv, fun d' hd' => ?_, fun hd => identify_answer hd.allBytes⟩
  obtain ⟨hanswer, -, log', h, h'⟩ := identify_alike hd'
  -- Both logs are what the first run has added.
  have hsame : log' = log := List.append_cancel_left (h.symm.trans hlog.logged)
  exact ⟨hanswer, hsame ▸ h'⟩

/-- A decoder with a product ID in CV 250. -/
def shortDecoder : Simulator := { cvs := [(8, ⟨145, []⟩), (7, ⟨1, []⟩), (250, ⟨11, [12]⟩)] }

/-- The same decoder with more CVs, some of which fail. -/
def longDecoder : Simulator :=
  { cvs := [(1, ⟨3, []⟩), (250, ⟨11, [12]⟩), (7, ⟨1, []⟩), (8, ⟨145, []⟩), (29, ⟨6, [2]⟩)], failing := [29, 31] }

theorem identify_local_longDecoder :
    AgreeOn shortDecoder.footprint shortDecoder longDecoder ∧
      (identify port longDecoder).answer = (identify port shortDecoder).answer ∧
      ∃ log, Follows shortDecoder log (identify port shortDecoder).state ∧ (identify port longDecoder).state.log = log := by
  have agree : AgreeOn shortDecoder.footprint shortDecoder longDecoder := ⟨by decide, by decide⟩
  obtain ⟨log, hlog, -, htwin, -⟩ := identify_local shortDecoder
  obtain ⟨hanswer, hsame⟩ := htwin longDecoder agree
  exact ⟨agree, hanswer, log, hlog, hsame⟩

end Simulator

end DecoderId
