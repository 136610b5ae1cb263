import DecoderId.Proofs.Machine.Transition

/-!
# The machine keeps to the table

The table of the manufacturers, as data: which operations a row has, in which order,
which of them depend on what was read, and the formula of the product ID. A run of the
machine asks for what the row says and ends as the row says, whatever the outcomes
(`Machine.transcript_start`).
-/

namespace DecoderId

/-! ## The table -/

/-- One operation of a row. If it is not due for the bytes read before it, the row ends in front of it. -/
structure Item where
  request : Request
  due : List Nat → Bool := fun _ => true

namespace Item

@[simp] def read (number : Nat) (h : 1 ≤ number ∧ number ≤ maxCv := by decide) : Item :=
  { request := .read ⟨number, h.1, h.2⟩ false }

/-- A read of a CV that a decoder may lack. -/
@[simp] def readOptional (number : Nat) (h : 1 ≤ number ∧ number ≤ maxCv := by decide) : Item :=
  { request := .read ⟨number, h.1, h.2⟩ true }

@[simp] def write (number value : Nat) (h : (1 ≤ number ∧ number ≤ maxCv) ∧ value < 256 := by decide) : Item :=
  { request := .write ⟨number, h.1.1, h.1.2⟩ ⟨value, h.2⟩ }

/-- The bytes read once a byte has answered the operation. -/
def record (item : Item) (bytes : List Nat) (b : Byte) : List Nat :=
  match item.request with
  | .read _ _ => bytes ++ [b.val]
  | .write _ _ => bytes

end Item

/-- One row: a manufacturer, some of its models, and what is done for them. -/
structure Row where
  code : Nat
  covers : Nat → Bool := fun _ => true
  items : List Item
  /-- The product ID, from the model and the bytes read. -/
  formula : Nat → List Nat → Nat

namespace Row

/-- The product ID in the bytes of CVs 249, 248, 111 and 110. -/
def tcsFormula (model lowest low high highest : Nat) : Nat :=
  if (129 ≤ lowest ∧ lowest ≤ 135 ∧ low = 5) ∨ 5 ≤ model then
    if lowest = 180 ∧ model = 5 then lowest + low * 256
    else lowest + low * 256 + high * 65536 + highest * 16777216
  else if ((129 ≤ lowest ∧ lowest ≤ 135) ∨ (170 ≤ lowest ∧ lowest ≤ 172) ∨ lowest = 180) ∧ model = 4 then
    lowest + low * 256
  else lowest

/-- All rows. -/
def table : List Row := [
  { code := 115, items := [.read 128]
    formula := fun | _, [value] => value | _, _ => 0 },
  { code := 13
    items := [.read 47, .read 48, .read 49, .read 50]
    formula := fun | _, [b47, b48, b49, b50] => b47 <<< 24 ||| b48 <<< 16 ||| b49 <<< 8 ||| b50 | _, _ => 0 },
  { code := 97, items := [.readOptional 261]
    formula := fun | _, [value] => value | _, _ => 0 },
  { code := 151, covers := fun model => model = 255
    items := [.write 31 0, .write 32 255, .read 261, .read 262, .read 263, .read 264]
    formula := fun
      | _, [b261, b262, b263, b264] => b261 + b262 * 256 + b263 * 65536 + b264 * 16777216
      | _, _ => 0 },
  { code := 98, items := [.read 112, .read 113]
    formula := fun | _, [b112, b113] => b112 <<< 8 ||| b113 | _, _ => 0 },
  { code := 48, covers := fun model => model = 254
    items := [.readOptional 200, .read 200]
    formula := fun | _, [first, second] => second <<< 8 ||| first | _, _ => 0 },
  { code := 48, covers := fun model => model ≠ 254
    items := [.readOptional 159, { Item.read 158 with due := fun bytes => bytes = [143] }]
    formula := fun | _, [value] => value | _, [_, b158] => b158 <<< 8 ||| 143 | _, _ => 0 },
  { code := 113
    items := [.write 49 254, .write 50 4, .read 56, .write 50 5, .read 56]
    formula := fun | _, [high, low] => high <<< 8 ||| low | _, _ => 0 },
  { code := 141, covers := fun model => 70 ≤ model ∧ model ≤ 72
    items := [.read 253, .read 256, .read 255]
    formula := fun | _, [b253, b256, b255] => b256 ||| (b255 &&& 7) <<< 8 ||| b253 <<< 11 | _, _ => 0 },
  { code := 153
    items := [.read 249, { Item.read 248 with due := fun | [lowest] => 129 ≤ lowest | _ => false }, .read 111,
      .read 110]
    formula := fun
      | _, [lowest] => lowest
      | model, [lowest, low, high, highest] => tcsFormula model lowest low high highest
      | _, _ => 0 },
  { code := 78, items := [.read 510, .read 509, .read 508]
    formula := fun | _, [b510, b509, b508] => b508 + b509 * 256 + b510 * 65536 | _, _ => 0 },
  { code := 145, items := [.read 250]
    formula := fun | _, [value] => value | _, _ => 0 }]

theorem items_length_le : ∀ row ∈ table, row.items.length ≤ 6 := by simp [table]

/-- The row for the bytes of CV 8 and CV 7. -/
def find? (code model : Nat) : Option Row := table.find? fun row => row.code = code && row.covers model

end Row

/-! ## Transcripts -/

/-- How a run stands. -/
inductive Verdict where
  /-- An operation is open. -/
  | waiting
  | complete (manufacturerCode modelCode productId : Option Int)
  | raised (fault : Fault)

/-- What a run has asked for, and how it stands. -/
structure Transcript where
  requests : List Request
  verdict : Verdict

namespace Transcript

/-- Asks for something first. -/
def after (request : Request) (t : Transcript) : Transcript := { t with requests := request :: t.requests }

/-- Asks for something, as the operation at a position, and goes on with the byte that it
gets. If it gets none, an optional read ends the run without a product ID, and all else is
a failure. -/
def ask (request : Request) (position : Int) (code model : Option Byte) (outcomes : List Outcome)
    (next : Byte → List Outcome → Transcript) : Transcript :=
  let stop (reason : String) : Verdict :=
    if request.isOptional then .complete (code.map (·.val)) (model.map (·.val)) none
    else .raised (.access ⟨request.address.number, reason, some (position + 1)⟩)
  match outcomes with
  | [] => ⟨[request], .waiting⟩
  | .value b :: rest => (next b rest).after request
  | .absent :: _ => ⟨[request], stop "unexpected absent register"⟩
  | .failure reason :: _ => ⟨[request], stop reason⟩

/-- What a row says about the items that are left, with these bytes read. -/
def ofItems (row : Row) (code model : Byte) : List Item → List Nat → Int → List Outcome → Transcript
  | [], bytes, _, _ => ⟨[], .complete (some code.val) (some model.val) (some (row.formula model.val bytes))⟩
  | item :: items, bytes, position, outcomes =>
    if item.due bytes then
      ask item.request position (some code) (some model) outcomes fun b =>
        ofItems row code model items (item.record bytes b) (position + 1)
    else ⟨[], .complete (some code.val) (some model.val) (some (row.formula model.val bytes))⟩

/-- What the table says once both codes are known. -/
def ofCodes (code model : Byte) (outcomes : List Outcome) : Transcript :=
  match Row.find? code.val model.val with
  | none => ⟨[], .complete (some code.val) (some model.val) none⟩
  | some row => ofItems row code model row.items [] 3 outcomes

/-- What the table says: CV 8, CV 7, and the row for what they hold. -/
def ofTable (outcomes : List Outcome) : Transcript :=
  ask (.read manufacturerCv false) 1 none none outcomes fun code outcomes =>
    ask (.read modelCv false) 2 (some code) none outcomes fun model outcomes => ofCodes code model outcomes

end Transcript

/-- What is left of a run of a machine, fed with outcomes one by one. -/
def Turn.transcript (t : Turn) (outcomes : List Outcome) : Transcript :=
  match t.answer, outcomes with
  | .error fault, _ => ⟨[], .raised fault⟩
  | .ok (.complete identity), _ => ⟨[], .complete identity.manufacturerCode identity.modelCode identity.productId⟩
  | .ok (.operate op), [] => ⟨[op.request], .waiting⟩
  | .ok (.operate op), outcome :: rest => ((t.machine.advance outcome).transcript rest).after op.request

/-! ## Procedures and rows -/

namespace Row

/-- The procedure does what the row says when these items are left and these bytes have been read. -/
def Agrees (row : Row) (model : Byte) : List Item → List Nat → Procedure → Prop
  | [], bytes, p => p = .result (row.formula model.val bytes)
  | item :: items, bytes, p =>
    if item.due bytes then
      (∃ message, p.operation? = some ⟨item.request, message⟩) ∧
        ∀ b : Byte, row.Agrees model items (item.record bytes b) (p.answer b.val)
    else p = .result (row.formula model.val bytes)

variable {row : Row} {model : Byte} {items : List Item} {bytes : List Nat}

@[simp] theorem agrees_nil {p : Procedure} :
    row.Agrees model [] bytes p ↔ p = .result (row.formula model.val bytes) := .rfl

theorem agrees_of_operation {item : Item} {p : Procedure} {message : String}
    (h : p.operation? = some ⟨item.request, message⟩) :
    row.Agrees model (item :: items) bytes p ↔
      item.due bytes = true ∧ ∀ b : Byte, row.Agrees model items (item.record bytes b) (p.answer b.val) := by
  cases hd : item.due bytes with
  | true => simp [Agrees, hd, h]
  | false =>
    have hp : p ≠ .result (row.formula model.val bytes) := by
      rintro rfl
      cases h
    simp [Agrees, hd, hp]

variable {address : CvNumber} {due : List Nat → Bool} {message : String}

@[simp] theorem agrees_reading {next : Nat → Procedure} :
    row.Agrees model (⟨.read address false, due⟩ :: items) bytes (.reading address message next) ↔
      due bytes = true ∧ ∀ b : Byte, row.Agrees model items (bytes ++ [b.val]) (next b.val) :=
  agrees_of_operation rfl

@[simp] theorem agrees_readingOptional {next : Nat → Procedure} :
    row.Agrees model (⟨.read address true, due⟩ :: items) bytes (.readingOptional address message next) ↔
      due bytes = true ∧ ∀ b : Byte, row.Agrees model items (bytes ++ [b.val]) (next b.val) :=
  agrees_of_operation rfl

@[simp] theorem agrees_writing {value : Byte} {next : Procedure} :
    row.Agrees model (⟨.write address value, due⟩ :: items) bytes (.writing address value message next) ↔
      due bytes = true ∧ row.Agrees model items bytes next :=
  (agrees_of_operation rfl).trans (and_congr_right fun _ => ⟨fun h => h 0, fun h _ => h⟩)

/-- The row ends in front of an item that is not due. -/
theorem agrees_of_not_due {item : Item} {p : Procedure} (h : item.due bytes = false) :
    row.Agrees model (item :: items) bytes p ↔ p = .result (row.formula model.val bytes) := by
  simp [Agrees, h]

/-- The procedure is the one of the row for these codes. Without a row there is nothing to do. -/
def Fits (code : Nat) (model : Byte) (p : Procedure) : Prop :=
  match find? code model.val with
  | none => p = .done none
  | some row => row.Agrees model row.items [] p

theorem Fits.of_some {code : Nat} {p : Procedure} (h : find? code model.val = some row)
    (ha : row.Agrees model row.items [] p) : Fits code model p := by
  unfold Fits
  rw [h]
  exact ha

theorem Fits.of_none {code : Nat} (h : find? code model.val = none) : Fits code model (.done none) := by
  unfold Fits
  rw [h]

open Procedure (diy esu harman hornby qsi soundtraxx tcs trainomatic bigEndian littleEndian tcsProductId)

theorem bigEndian_four (a b c d : Nat) : bigEndian [a, b, c, d] = a <<< 24 ||| b <<< 16 ||| c <<< 8 ||| d := by
  simp [bigEndian, Nat.shiftLeft_or_distrib, ← Nat.shiftLeft_add]

theorem littleEndian_four (a b c d : Nat) : littleEndian [a, b, c, d] = a + b * 256 + c * 65536 + d * 16777216 := by
  simp only [littleEndian, Nat.shiftLeft_eq]
  omega

theorem tcsProductId_eq (model lowest low high highest : Nat) :
    tcsProductId model lowest low high highest = tcsFormula model lowest low high highest := by
  unfold tcsProductId tcsFormula
  simp only [Bool.and_eq_true, decide_eq_true_eq]
  split <;> split <;> split <;> split <;> omega

theorem fits_dietz : Fits 115 model .dietz := .of_some rfl (by simp [Procedure.dietz])

theorem fits_diy : Fits 13 model diy := by
  refine .of_some rfl ?_
  simp only [diy, Procedure.readingAll, Item.read, agrees_reading, agrees_nil, true_and]
  intro a b c d
  simp only [bigEndian_four, List.nil_append, List.cons_append]

theorem fits_doehler : Fits 97 model .doehler := .of_some rfl (by simp [Procedure.doehler])

theorem fits_esu : Fits 151 model (esu model.val) := by
  by_cases h : model.val = 255
  · have hf : find? 151 model.val = find? 151 255 := by rw [h]
    have he : esu model.val = esu 255 := by rw [h]; rfl
    rw [he]
    refine .of_some (hf.trans rfl) ?_
    simp only [esu, Procedure.esuModel, ne_eq, not_true, if_false, Procedure.readingAll, Item.read, Item.write,
      Fin.zero_eta, Fin.reduceFinMk, agrees_writing, agrees_reading, agrees_nil, true_and]
    intro a b c d
    simp only [littleEndian_four, List.nil_append, List.cons_append]
  · have he : esu model.val = .done none := by
      unfold esu Procedure.esuModel
      rw [if_pos (by omega)]
    rw [he]
    exact .of_none (by simp [find?, table, h])

theorem fits_harman : Fits 98 model harman := .of_some rfl (by simp [harman])

theorem fits_hornby : Fits 48 model (hornby model.val) := by
  by_cases h : model.val = 254
  · have hf : find? 48 model.val = find? 48 254 := by rw [h]
    refine .of_some (hf.trans rfl) ?_
    simp [hornby, Procedure.hornbyModel, h]
  · have hm : (model.val : Int) ≠ 254 := by omega
    refine .of_some (by simp [find?, table, h]; rfl) ?_
    simp only [hornby, Procedure.hornbyModel, hm, if_false, agrees_readingOptional, true_and]
    intro value
    -- The second read is due for one value only.
    by_cases h143 : value.val = 143
    · simp [Procedure.hornbyExtended, h143]
    · rw [agrees_of_not_due (by simp [h143])]
      simp [Procedure.hornbyExtended, h143]

theorem fits_qsi : Fits 113 model qsi := .of_some rfl (by simp [qsi])

theorem fits_soundtraxx : Fits 141 model (soundtraxx model.val) := by
  unfold soundtraxx Procedure.soundtraxxModels
  by_cases h : 70 ≤ model.val ∧ model.val ≤ 72
  · rw [if_pos (by simp only; omega)]
    refine .of_some (by simp [find?, table, h]; rfl) ?_
    simp
  · rw [if_neg (by simp only; omega)]
    exact .of_none (by simp [find?, table, h])

theorem fits_tcs : Fits 153 model (tcs model.val) := by
  refine .of_some rfl ?_
  simp only [tcs, Item.read, agrees_reading, true_and]
  intro lowest
  by_cases h : lowest.val < Procedure.tcsMobileLimit
  · have hl : lowest.val < 129 := h
    rw [agrees_of_not_due (by simp [hl]), if_pos h]
    rfl
  · have hl : 129 ≤ lowest.val := Nat.le_of_not_lt h
    rw [if_neg h]
    simp only [agrees_reading, agrees_nil, tcsProductId_eq, true_and]
    exact ⟨by simp [hl], fun low high highest => rfl⟩

theorem fits_trainomatic : Fits 78 model trainomatic := .of_some rfl (by simp [trainomatic])

theorem fits_zimo : Fits 145 model .zimo := .of_some rfl (by simp [Procedure.zimo])

/-- A manufacturer's procedure is that of its row. -/
theorem fits_of_lookup {code : Byte} {protocol : Protocol} (h : Protocol.lookup code.val = some protocol) :
    Fits code.val model (protocol.procedure model.val) := by
  obtain ⟨hp, hc⟩ := Protocol.lookup_eq_some_iff.1 h
  have hcode : code.val = protocol.code.toNat := by omega
  rw [hcode]
  simp only [Protocol.table, List.mem_cons, List.not_mem_nil, or_false] at hp
  rcases hp with rfl | rfl | rfl | rfl | rfl | rfl | rfl | rfl | rfl | rfl | rfl
  · exact fits_diy
  · exact fits_hornby
  · exact fits_trainomatic
  · exact fits_doehler
  · exact fits_harman
  · exact fits_qsi
  · exact fits_dietz
  · exact fits_soundtraxx
  · exact fits_zimo
  · exact fits_esu
  · exact fits_tcs

/-- No row is for a manufacturer without a procedure. -/
theorem find?_of_lookup_eq_none {code : Byte} (h : Protocol.lookup code.val = none) (model : Nat) :
    find? code.val model = none := by
  have hne : ∀ p ∈ Protocol.table, p.code ≠ code.val := fun p hp => Protocol.code_ne_of_lookup_eq_none h hp
  simp only [Protocol.table, List.mem_cons, List.not_mem_nil, or_false, forall_eq_or_imp, forall_eq, Protocol.code,
    Manufacturer.code] at hne
  simp only [find?, table, List.find?_eq_none, List.mem_cons, List.not_mem_nil, or_false, forall_eq_or_imp, forall_eq,
    Bool.and_eq_true, decide_eq_true_eq]
  omega

end Row

/-! ## Length of a run -/

namespace Transcript

/-- With one outcome left for the operation, it is answered, and one fewer is left after it. -/
theorem ask_verdict_ne_waiting {request : Request} {position : Int} {code model : Option Byte} {n : Nat}
    {outcomes : List Outcome} {next : Byte → List Outcome → Transcript}
    (hnext : ∀ b rest, n ≤ rest.length → (next b rest).verdict ≠ .waiting) (h : n + 1 ≤ outcomes.length) :
    (ask request position code model outcomes next).verdict ≠ .waiting := by
  have stops : ∀ reason, (if request.isOptional then Verdict.complete (code.map (·.val)) (model.map (·.val)) none
      else .raised (.access ⟨request.address.number, reason, some (position + 1)⟩)) ≠ .waiting := by
    intro reason
    split <;> simp
  cases outcomes with
  | nil => simp at h
  | cons outcome rest =>
    cases outcome with
    | value b => exact hnext b rest (Nat.le_of_succ_le_succ h)
    | absent => exact stops _
    | failure reason => exact stops _

theorem ofItems_verdict_ne_waiting {row : Row} {code model : Byte} (items : List Item) {bytes : List Nat}
    {position : Int} {outcomes : List Outcome} (h : items.length ≤ outcomes.length) :
    (ofItems row code model items bytes position outcomes).verdict ≠ .waiting := by
  induction items generalizing bytes position outcomes with
  | nil => simp [ofItems]
  | cons item items ih =>
    unfold ofItems
    split
    · exact ask_verdict_ne_waiting (fun b rest hrest => ih hrest) h
    · simp

theorem ofTable_verdict_ne_waiting {outcomes : List Outcome} (h : 8 ≤ outcomes.length) :
    (ofTable outcomes).verdict ≠ .waiting := by
  refine ask_verdict_ne_waiting (n := 7) (fun code rest hrest => ?_) h
  refine ask_verdict_ne_waiting (n := 6) (fun model rest hrest => ?_) hrest
  unfold ofCodes
  split
  · simp
  · rename_i row hrow
    exact ofItems_verdict_ne_waiting row.items (Nat.le_trans (Row.items_length_le row (List.mem_of_find?_eq_some hrow)) hrest)

end Transcript

/-! ## Runs of the machine -/

namespace Turn

variable {t : Turn} {op : Operation}

theorem transcript_of_error {fault : Fault} (h : t.answer = .error fault) (outcomes : List Outcome) :
    t.transcript outcomes = ⟨[], .raised fault⟩ := by
  rw [Turn.transcript.eq_def, h]

theorem transcript_of_complete {identity : Identity} (h : t.answer = .ok (.complete identity))
    (outcomes : List Outcome) :
    t.transcript outcomes = ⟨[], .complete identity.manufacturerCode identity.modelCode identity.productId⟩ := by
  rw [Turn.transcript.eq_def, h]

theorem transcript_nil (h : t.answer = .ok (.operate op)) : t.transcript [] = ⟨[op.request], .waiting⟩ := by
  rw [Turn.transcript.eq_def, h]

theorem transcript_cons (h : t.answer = .ok (.operate op)) (o : Outcome) (rest : List Outcome) :
    t.transcript (o :: rest) = ((t.machine.advance o).transcript rest).after op.request := by
  rw [Turn.transcript.eq_def, h]

theorem Like.transcript {u : Turn} (h : t.Like u) (outcomes : List Outcome) :
    t.transcript outcomes = u.transcript outcomes := by
  rw [Turn.transcript.eq_def, Turn.transcript.eq_def u, h.machine, h.answer]

end Turn

namespace Machine

/-- The machine asks, and goes on with the byte that it gets. -/
theorem transcript_eq_ask {t : Turn} {op : Operation} (ha : t.answer = .ok (.operate op)) (hw : t.machine.Waiting op)
    {code model : Option Byte} {next : Byte → List Outcome → Transcript}
    (hopt : op.request.isOptional = true → ∀ o reason, o.reason? = some reason → ∃ identity,
      (t.machine.advance o).answer = .ok (.complete identity) ∧
      identity.manufacturerCode = code.map (fun b => (b.val : Int)) ∧
      identity.modelCode = model.map (fun b => (b.val : Int)) ∧ identity.productId = none)
    (hnext : ∀ b rest, (t.machine.advance (.value b)).transcript rest = next b rest) (outcomes : List Outcome) :
    t.transcript outcomes = .ask op.request t.machine.session.step code model outcomes next := by
  -- What is left of the run after an outcome that is no value.
  have stops : ∀ o reason rest, o.reason? = some reason → (t.machine.advance o).transcript rest =
      ⟨[], if op.request.isOptional then .complete (code.map (·.val)) (model.map (·.val)) none
        else .raised (.access ⟨op.request.address.number, reason, some (t.machine.session.step + 1)⟩)⟩ := by
    intro o reason rest ho
    cases hop : op.request.isOptional with
    | true =>
      obtain ⟨identity, hi, h1, h2, h3⟩ := hopt hop o reason ho
      rw [Turn.transcript_of_complete hi, h1, h2, h3]
      rfl
    | false =>
      rw [Turn.transcript_of_error (advance_required hw hop ho).2]
      rfl
  cases outcomes with
  | nil => exact Turn.transcript_nil ha
  | cons o rest =>
    rw [Turn.transcript_cons ha]
    cases o with
    | value b =>
      rw [hnext]
      rfl
    | absent =>
      rw [stops .absent _ rest rfl]
      rfl
    | failure reason =>
      rw [stops (.failure reason) _ rest rfl]
      rfl

/-- A product ID ends the run. -/
theorem transcript_result {m : Machine} {code model : Byte} {read : List Byte} {step : Int} {id : Nat}
    (hm : m.Informed code model read step) (hr : Remains code model step read (.result id)) (outcomes : List Outcome) :
    (m.follow (.result id)).transcript outcomes = ⟨[], .complete (some code.val) (some model.val) (some id)⟩ :=
  Turn.transcript_of_complete ((follow_done m _).answer.trans (complete_of_informed hm hr.inRange).2) outcomes

/-- What is left of a run is what the row says of the items that are left. -/
theorem transcript_follow {row : Row} {code model : Byte} (items : List Item) {m : Machine} {read : List Byte}
    {bytes : List Nat} {step : Int} {p : Procedure} (hm : m.Informed code model read step)
    (hr : Remains code model step read p) (ha : row.Agrees model items bytes p) (outcomes : List Outcome) :
    (m.follow p).transcript outcomes = .ofItems row code model items bytes step outcomes := by
  -- On the items: a byte takes the procedure and the row one item further, and they still agree.
  induction items generalizing m read bytes step p outcomes with
  | nil =>
    obtain rfl := ha
    exact transcript_result hm hr outcomes
  | cons item items ih =>
    unfold Row.Agrees at ha
    unfold Transcript.ofItems
    cases hd : item.due bytes with
    | false =>
      rw [hd] at ha
      obtain rfl := ha
      exact transcript_result hm hr outcomes
    | true =>
      rw [hd, if_pos rfl] at ha
      obtain ⟨⟨message, hop⟩, hnext⟩ := ha
      obtain ⟨hmachine, hanswer⟩ := follow_of_informed hm hop
      have hw : (m.follow p).machine.Waiting ⟨item.request, message⟩ := by
        rw [hmachine]
        exact waiting_following hr hop
      have hopt : item.request.isOptional = true → ∀ o reason, o.reason? = some reason → ∃ identity,
          ((m.follow p).machine.advance o).answer = .ok (.complete identity) ∧
          identity.manufacturerCode = (some code).map (fun b => (b.val : Int)) ∧
          identity.modelCode = (some model).map (fun b => (b.val : Int)) ∧ identity.productId = none := by
        intro hi o reason ho
        have hi' : (⟨item.request, message⟩ : Operation).request.isOptional = true := hi
        obtain ⟨m', hm', hlike⟩ := advance_following_optional hr hop hi' ho
        rw [hmachine, hlike.answer]
        exact ⟨_, (complete_of_informed hm' (by simp)).2, rfl, rfl, rfl⟩
      have hgoes : ∀ b rest, ((m.follow p).machine.advance (.value b)).transcript rest =
          .ofItems row code model items (item.record bytes b) (step + 1) rest := by
        intro b rest
        obtain ⟨m', hm', hlike⟩ := advance_following hr hop b
        rw [hmachine, hlike.transcript]
        exact ih hm' (hr.answer hop b) (hnext b) rest
      have key := transcript_eq_ask hanswer hw hopt hgoes outcomes
      rw [hmachine] at key
      exact key

/-- Once both codes are known, the run does what the row for them says. -/
theorem transcript_askingModel (code model : Byte) (outcomes : List Outcome) :
    ((askingModel code).advance (.value model)).transcript outcomes = .ofCodes code model outcomes := by
  unfold Transcript.ofCodes
  cases hl : Protocol.lookup code.val with
  | none =>
    obtain ⟨m, hm, hlike⟩ := advance_askingModel_of_none hl model
    rw [Row.find?_of_lookup_eq_none hl, hlike.transcript]
    exact Turn.transcript_of_complete (complete_of_informed hm (by simp)).2 outcomes
  | some protocol =>
    obtain ⟨m, hm, hlike⟩ := advance_askingModel_of_some hl model
    rw [hlike.transcript]
    have hfits : Row.Fits code.val model (protocol.procedure model.val) := Row.fits_of_lookup hl
    unfold Row.Fits at hfits
    split at hfits
    · rw [hfits]
      exact Turn.transcript_of_complete ((follow_done m none).answer.trans (complete_of_informed hm (by simp)).2) outcomes
    · rename_i row _
      exact transcript_follow row.items hm (.start hl model) hfits outcomes

/-- A run asks for what its row of the table says, in that order, and ends as the row says.
Eight outcomes are enough for every row. -/
theorem transcript_start (outcomes : List Outcome) :
    (start {}).transcript outcomes = .ofTable outcomes ∧
      (8 ≤ outcomes.length → (Transcript.ofTable outcomes).verdict ≠ .waiting) := by
  refine ⟨?_, Transcript.ofTable_verdict_ne_waiting⟩
  refine transcript_eq_ask start_new.2 waiting_askingManufacturer (by rintro ⟨⟩) (fun code outcomes => ?_) outcomes
  obtain ⟨hm, ha⟩ := advance_askingManufacturer code
  have hw : (askingManufacturer.advance (.value code)).machine.Waiting askModel := by
    rw [hm]
    exact waiting_askingModel code
  have hnext : ∀ (model : Byte) (rest : List Outcome),
      ((askingManufacturer.advance (.value code)).machine.advance (.value model)).transcript rest =
        .ofCodes code model rest := by
    intro model rest
    rw [hm]
    exact transcript_askingModel code model rest
  have key : _ = Transcript.ask _ _ (some code) none outcomes _ :=
    transcript_eq_ask ha hw (by rintro ⟨⟩) hnext outcomes
  rw [hm] at key
  exact key

end Machine

end DecoderId
