import DecoderId.Proofs.Procedure.Operations
import DecoderId.Proofs.Simulator.Locality

/-!
# Repeating an identification

Reading takes nothing away from a decoder with a single byte in every CV, so that an
identification changes it by its writes only (`Simulator.Stores`). These go to the CVs that
select a page, which are never read (`Simulator.Told.not_pages`). The next identification is
served the same, makes the same writes, and finds them made already
(`Simulator.identify_repeats`).
-/

namespace DecoderId

/-! ## Decoders with a byte in every CV -/

/-- The series are of a single byte each. -/
def Singles (cvs : List (Int × Series)) : Prop := ∀ e ∈ cvs, ∃ b : Byte, e.2 = ⟨b.val, []⟩

theorem Singles.allBytes {cvs : List (Int × Series)} (h : Singles cvs) : AllBytes cvs := by
  intro e he
  obtain ⟨b, hb⟩ := h e he
  have := b.isLt
  rw [hb, Series.isBytes_singleton]
  omega

theorem Singles.set {cvs : List (Int × Series)} (h : Singles cvs) (cv : Int) (b : Byte) :
    Singles (Assoc.set cvs cv ⟨b.val, []⟩) := by
  intro e he
  rcases Assoc.mem_set he with rfl | he
  · exact ⟨b, rfl⟩
  · exact h e he

/-- What the operation has put into its CV. -/
def LogEntry.stored? (failing : List Int) (e : LogEntry) : Option (Int × Series) :=
  match e.isWrite, e.value with
  | true, some v => if e.address ∈ failing then none else some (e.address, ⟨v, []⟩)
  | _, _ => none

/-- What the operations of a log have put into the CVs, in order. -/
def stored (failing : List Int) (log : List LogEntry) : List (Int × Series) := log.filterMap (·.stored? failing)

theorem mem_stored {failing : List Int} {log : List LogEntry} {p : Int × Series} (h : p ∈ stored failing log) :
    ∃ e ∈ log, e.isWrite = true ∧ e.address = p.1 := by
  obtain ⟨e, he, hp⟩ := List.mem_filterMap.1 h
  refine ⟨e, he, ?_⟩
  unfold LogEntry.stored? at hp
  split at hp
  · rename_i hw _
    split at hp
    · cases hp
    · cases hp
      exact ⟨hw, rfl⟩
  · cases hp

namespace Simulator

variable {d d' d'' : Simulator} {log log' : List LogEntry} {r : Round Simulator}

/-- A decoder with single bytes after operations that are in the log, of which no read has changed a CV. -/
structure Stores (d : Simulator) (log : List LogEntry) (d' : Simulator) : Prop where
  logged : d'.log = d.log ++ log
  cvs : d'.cvs = Assoc.setAll d.cvs (stored d.failing log)
  singles : Singles d'.cvs
  failing : d'.failing = d.failing
  source : d'.source = d.source

theorem stores_nil (hd : Singles d.cvs) : Stores d [] d where
  logged := (List.append_nil _).symm
  cvs := rfl
  singles := hd
  failing := rfl
  source := rfl

theorem Stores.trans (h : Stores d log d') (h' : Stores d' log' d'') : Stores d (log ++ log') d'' where
  logged := by rw [h'.logged, h.logged, List.append_assoc]
  cvs := by rw [h'.cvs, h.cvs, h.failing, stored, stored, stored, List.filterMap_append, Assoc.setAll_append]
  singles := h'.singles
  failing := h'.failing.trans h.failing
  source := h'.source.trans h.source

theorem Stores.series?_of_not_written (h : Stores d log d') {cv : Int}
    (hcv : ∀ e ∈ log, e.isWrite = true → e.address ≠ cv) : d'.series? cv = d.series? cv := by
  rw [series?, h.cvs, Assoc.get?_setAll_of_not_mem, series?]
  intro p hp
  obtain ⟨e, he, hw, heq⟩ := mem_stored hp
  exact heq ▸ hcv e he hw

theorem perform_stores (hd : Singles d.cvs) (request : Request) : ∃ e, Stores d [e] (port.perform d request).state := by
  cases request with
  | read address optional =>
    rw [perform_read]
    by_cases hf : (address.number : Int) ∈ d.failing
    · rw [read_of_failing hf]
      exact ⟨_, rfl, rfl, hd, rfl, rfl⟩
    · cases hs : d.series? address.number with
      | none =>
        rw [read_of_missing hf hs]
        exact ⟨_, rfl, rfl, hd, rfl, rfl⟩
      | some s =>
        obtain ⟨b, hb⟩ := hd _ (Assoc.mem_of_get? hs)
        -- The last value of a series stays.
        have hnext : s.next = s := by
          dsimp only at hb
          rw [hb]
          rfl
        have hkept : Assoc.set d.cvs address.number s.next = d.cvs := Assoc.set_of_get? (hnext.symm ▸ hs)
        rw [read_of_series hf hs]
        refine ⟨_, rfl, hkept, ?_, rfl, rfl⟩
        show Singles (Assoc.set d.cvs address.number s.next)
        rwa [hkept]
  | write address value =>
    rw [perform_write]
    by_cases hf : (address.number : Int) ∈ d.failing
    · rw [write_of_failing hf]
      refine ⟨_, rfl, ?_, hd, rfl, rfl⟩
      simp [stored, LogEntry.stored?, hf, Assoc.setAll, Simulator.logged]
    · rw [write_of_not_failing hf]
      refine ⟨_, rfl, ?_, hd.set _ value, rfl, rfl⟩
      simp [stored, LogEntry.stored?, hf, Assoc.setAll, Simulator.logged, setSeries]

theorem stores_of_asks (hd : Singles d.cvs) (h : port.Asks d d') : ∃ log, Stores d log d' := by
  induction h with
  | once s request =>
    obtain ⟨e, he⟩ := perform_stores hd request
    exact ⟨_, he⟩
  | again _ _ ih =>
    obtain ⟨e, he⟩ := perform_stores hd _
    obtain ⟨log, hlog⟩ := ih he.singles
    exact ⟨_, he.trans hlog⟩

/-! ## What is read -/

theorem writes_of_pages {p : Protocol} {model : Byte} (hcode : d.next? 8 = some p.code)
    (hmodel : d.next? 7 = some (model.val : Int)) {cv : Nat} (h : d.Pages cv) : p.Writes model.val cv := by
  have manufacturer_of : ∀ {m : Manufacturer}, d.next? 8 = some m.code → p.manufacturer = m := by
    intro m hm
    rw [hcode] at hm
    exact Function.LeftInverse.injective Manufacturer.ofCode_code (Option.some.inj hm)
  rcases h with ⟨hm, h255, hcv⟩ | ⟨hm, hcv⟩
  · rw [hmodel] at h255
    exact .inl ⟨manufacturer_of hm, Option.some.inj h255, by omega⟩
  · exact .inr ⟨manufacturer_of hm, by omega⟩

/-- An identification does not read a CV that it may have written. -/
theorem Told.not_pages (h : Told d r) (hr : r.operation.request.isWrite = false) :
    ¬ d.Pages r.operation.request.address.number := by
  cases h with
  | manufacturer => simp [Machine.askManufacturer, manufacturerCv, Pages, Request.address]
  | model => simp [Machine.askModel, modelCv, Pages, Request.address]
  | @procedure s code model bytes step p op hcode hmodel hop hp =>
    obtain ⟨protocol, n, hl, -, hleads⟩ := hp
    have hpermits := hleads.permits hl hop
    have hprotocol : protocol.code = code.val := (Protocol.lookup_eq_some_iff.1 hl).2
    rw [← hprotocol] at hcode
    dsimp only at hr ⊢
    obtain ⟨request, message⟩ := op
    cases request with
    | write => cases hr
    | read address optional =>
      exact fun hpages => hpermits.read address optional rfl (writes_of_pages hcode hmodel hpages)

theorem Follows.not_written (h : Follows d log d') (ht : Told d r) (hr : r.operation.request.isWrite = false) :
    ∀ e ∈ log, e.isWrite = true → e.address ≠ r.operation.request.address.number :=
  fun e he hw heq => ht.not_pages hr (heq ▸ h.writes e he hw)

theorem Stores.follows (h : Stores d log d') (h' : ∃ log, Follows d log d') : Follows d log d' := by
  obtain ⟨log', h'⟩ := h'
  have hsame : log' = log := List.append_cancel_left (h'.logged.symm.trans h.logged)
  exact hsame ▸ h'

/-! ## One more identification -/

/-- The two decoders have come from `d` and from `d'` by the same operations. -/
def Parallel (d d' : Simulator) (s s' : Simulator) : Prop := ∃ log, Stores d log s ∧ Stores d' log s'

theorem Parallel.perform {s s' : Simulator} (h : Parallel d d' s s') (hkept : d'.failing = d.failing) {request : Request}
    (hseries : request.isWrite = false → s'.series? request.address.number = s.series? request.address.number) :
    (port.perform s' request).outcome = (port.perform s request).outcome ∧
      Parallel d d' (port.perform s request).state (port.perform s' request).state := by
  obtain ⟨log, hlog, hlog'⟩ := h
  have hfailing : s'.failing = s.failing := by rw [hlog'.failing, hlog.failing, hkept]
  have hagree : AgreeOn [] s s' := ⟨by simp, by simp⟩
  obtain ⟨houtcome, -, e, he, he'⟩ := hagree.answer (by rw [hfailing]) hseries
  obtain ⟨e₁, h₁⟩ := perform_stores hlog.singles request
  obtain ⟨e₂, h₂⟩ := perform_stores hlog'.singles request
  -- The entries are those that the decoders have logged alike.
  have hsame : [e₁] = [e] := List.append_cancel_left (h₁.logged.symm.trans he)
  have hsame' : [e₂] = [e] := List.append_cancel_left (h₂.logged.symm.trans he')
  rw [hsame] at h₁
  rw [hsame'] at h₂
  exact ⟨houtcome, _, hlog.trans h₁, hlog'.trans h₂⟩

/-- A decoder with the CVs that an identification has left is identified in the same way, and keeps these CVs. -/
theorem identify_again (hd : Singles d.cvs) (h : Stores d log (identify port d).state)
    (hcvs : d'.cvs = (identify port d).state.cvs) (hkept : d'.failing = d.failing) :
    (identify port d').answer = (identify port d).answer ∧ Stores d' log (identify port d').state ∧
      (identify port d').state.cvs = (identify port d).state.cvs := by
  have hd' : Singles d'.cvs := hcvs ▸ h.singles
  have hstart : Parallel d d' d d' := ⟨[], stores_nil hd, stores_nil hd'⟩
  have hfirst : Follows d log (identify port d).state := h.follows (identify_follows d)
  -- What is read was written neither in the first run nor in this one so far.
  have hserved : ∀ r, port.Reaches d r → ∀ t, Parallel d d' r.state t → r.operation.request.isWrite = false →
      t.series? r.operation.request.address.number = r.state.series? r.operation.request.address.number := by
    rintro r hr t ⟨made, hs, ht⟩ hread
    have htold : Told d r := told_of_reaches hr
    have hround : Follows d made r.state := hs.follows (follows_of_reaches hr)
    calc t.series? r.operation.request.address.number
        = d'.series? r.operation.request.address.number :=
          ht.series?_of_not_written (hround.not_written htold hread)
      _ = (identify port d).state.series? r.operation.request.address.number := by rw [series?, hcvs, series?]
      _ = d.series? r.operation.request.address.number :=
          h.series?_of_not_written (hfirst.not_written htold hread)
      _ = r.state.series? r.operation.request.address.number :=
          (hs.series?_of_not_written (hround.not_written htold hread)).symm
  obtain ⟨hanswer, log', h₁, h₂⟩ :=
    port.identify_alike hstart fun r hr t ht => ht.perform hkept (hserved r hr t ht)
  have hsame : log' = log := List.append_cancel_left (h₁.logged.symm.trans h.logged)
  rw [hsame] at h₂
  refine ⟨hanswer, h₂, ?_⟩
  rw [h₂.cvs, hkept, hcvs, h.cvs, Assoc.setAll_setAll]

/-! ## Identifications in a row -/

/-- The decoder after some identifications, one after the other. -/
def identified (d : Simulator) : Nat → Simulator
  | 0 => d
  | n + 1 => (identify port (d.identified n)).state

/-- Each identification of the decoder comes to this answer and adds this log, and those after the first one change
nothing else. -/
structure Repeats (d : Simulator) (answer : Except Fault Identity) (log : List LogEntry) : Prop where
  answer : ∀ n, (identify port (d.identified n)).answer = answer
  logged : ∀ n, (d.identified (n + 1)).log = (d.identified n).log ++ log
  cvs : ∀ n, (d.identified (n + 1)).cvs = (d.identified 1).cvs
  failing : ∀ n, (d.identified n).failing = d.failing
  source : ∀ n, (d.identified n).source = d.source

theorem identified_keeps (hd : Singles d.cvs) (h : Stores d log (d.identified 1)) (n : Nat) :
    (identify port (d.identified n)).answer = (identify port d).answer ∧
      Stores (d.identified n) log (d.identified (n + 1)) ∧ (d.identified (n + 1)).cvs = (d.identified 1).cvs ∧
      (d.identified n).failing = d.failing ∧ (d.identified n).source = d.source := by
  induction n with
  | zero => exact ⟨rfl, h, rfl, rfl, rfl⟩
  | succ n ih =>
    obtain ⟨-, hn, hcvs, hfailing, hsource⟩ := ih
    have hkept : (d.identified (n + 1)).failing = d.failing := hn.failing.trans hfailing
    obtain ⟨hanswer, hnext, hcvs'⟩ := identify_again hd h hcvs hkept
    exact ⟨hanswer, hnext, hcvs', hkept, hn.source.trans hsource⟩

/-- However often a decoder with single bytes is identified, there is always the same identity, or always the same
access fails. The CVs are those that the first identification has left, also if it was cut short. -/
theorem identify_repeats (hd : Singles d.cvs) :
    ∃ answer log, Repeats d answer log ∧
      ((∃ identity, answer = .ok identity) ∨ ∃ failure, answer = .error (.access failure)) := by
  obtain ⟨log, h⟩ := stores_of_asks hd (port.asks_identify d)
  have hall := identified_keeps hd h
  refine ⟨(identify port d).answer, log, ?_, identify_answer hd.allBytes⟩
  exact {
    answer n := (hall n).1
    logged n := (hall n).2.1.logged
    cvs n := (hall n).2.2.1
    failing n := (hall n).2.2.2.1
    source n := (hall n).2.2.2.2 }

/-- A QSI decoder that takes the first write and not the second. -/
def halfPaged : Simulator := { cvs := [(8, ⟨113, []⟩), (7, ⟨1, []⟩), (49, ⟨9, []⟩), (56, ⟨3, []⟩)], failing := [50] }

set_option maxRecDepth 2000 in
theorem identify_halfPaged :
    (identify port halfPaged).answer = .error (.access ⟨50, "CV 50 write failed", some 5⟩) ∧
      (identify port halfPaged).state.log =
        [⟨false, 8, some 113⟩, ⟨false, 7, some 1⟩, ⟨true, 49, some 254⟩, ⟨true, 50, some 4⟩] ∧
      (identify port halfPaged).state.values? 49 = some [254] := by
  have model : port.Next (.first halfPaged) _ := .intro (o := .value 113) rfl rfl
  have paged : port.Reaches halfPaged _ := (Relation.ReflTransGen.single model).tail (.intro (o := .value 1) rfl rfl)
  have last : port.Reaches halfPaged _ := paged.tail (.intro (o := .value 254) rfl rfl)
  obtain ⟨ha, hstate⟩ := last.identify_of_reason rfl rfl rfl
  have hreason : "CV " ++ Numeral.decimal 50 ++ " write failed" = "CV 50 write failed" := by decide +kernel
  rw [ha, hstate, ← hreason]
  exact ⟨rfl, rfl, rfl⟩

/-- The page stays half set, run after run, and every run fails at the same write. -/
theorem identify_repeats_halfPaged :
    Singles halfPaged.cvs ∧
      Repeats halfPaged (.error (.access ⟨50, "CV 50 write failed", some 5⟩))
        [⟨false, 8, some 113⟩, ⟨false, 7, some 1⟩, ⟨true, 49, some 254⟩, ⟨true, 50, some 4⟩] ∧
      ∀ n, (halfPaged.identified (n + 1)).values? 49 = some [254] := by
  have singles : Singles halfPaged.cvs := by
    simp only [halfPaged, Singles, List.forall_mem_cons]
    exact ⟨⟨113, rfl⟩, ⟨1, rfl⟩, ⟨9, rfl⟩, ⟨3, rfl⟩, by simp⟩
  obtain ⟨answer, log, h, -⟩ := identify_repeats singles
  obtain ⟨ha, hlog, hvalues⟩ := identify_halfPaged
  obtain rfl := (h.answer 0).symm.trans ha
  obtain rfl := (h.logged 0).symm.trans hlog
  refine ⟨singles, h, fun n => ?_⟩
  rw [values?, series?, h.cvs n]
  exact hvalues

end Simulator

end DecoderId
