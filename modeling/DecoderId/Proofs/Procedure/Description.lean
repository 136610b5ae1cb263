import DecoderId.Proofs.Procedure.Operations

/-!
# What a row says of its procedure

A row lists the CVs of its procedure in the order of their first use, those of them that a decoder may
lack, and the models that it covers. Every run by hand keeps to these lists, whatever values answer the
reads, and nothing is on a list that no run comes to (`Protocol.table_describes`).
-/

namespace DecoderId

namespace Procedure

/-- The numbers of the CVs that a run comes to. -/
def Trace.cvs (t : Trace) : List Nat := t.operations.map fun op => op.request.address.number

variable {p : Procedure} {n : Nat} {values : List Nat}

/-! ## Order of first use -/

/-- What holds when a CV is come to: nothing is new if it has been seen before. Otherwise it is on the list, and the
CVs in front of it are left out for good. -/
def Comes (P : List Nat → List Nat → Prop) (seen left : List Nat) (cv : Nat) : Prop :=
  if cv ∈ seen then P seen left else cv ∈ left ∧ P (cv :: seen) (left.drop (left.idxOf cv + 1))

/-- The procedure comes to the CVs that have not been seen before in the order of the list. -/
def InOrder (seen left : List Nat) : Procedure → Prop
  | done _ => True
  | read address _ _ next | write address _ _ next =>
    Comes (fun seen left => ∀ v, (next v).InOrder seen left) seen left address.number

theorem eraseDups_unseen_cons (cv : Nat) (cvs seen : List Nat) :
    ((cv :: cvs).filter (· ∉ seen)).eraseDups =
      if cv ∈ seen then (cvs.filter (· ∉ seen)).eraseDups else cv :: (cvs.filter (· ∉ cv :: seen)).eraseDups := by
  split
  · rename_i h
    simp [h]
  · rename_i h
    have hne : (fun c => !c == cv) = fun c => !decide (c = cv) := rfl
    simp [h, List.eraseDups_cons, List.filter_filter, hne]

theorem Comes.sublist {P : List Nat → List Nat → Prop} {seen left cvs : List Nat} {cv : Nat} (h : Comes P seen left cv)
    (hP : ∀ seen left, P seen left → (cvs.filter (· ∉ seen)).eraseDups.Sublist left) :
    ((cv :: cvs).filter (· ∉ seen)).eraseDups.Sublist left := by
  rw [eraseDups_unseen_cons]
  unfold Comes at h
  split at h
  · rename_i hseen
    rw [if_pos hseen]
    exact hP _ _ h
  · rename_i hseen
    rw [if_neg hseen]
    obtain ⟨hleft, hrest⟩ := h
    have hlt : left.idxOf cv < left.length := List.idxOf_lt_length_of_mem hleft
    have hdrop : left.drop (left.idxOf cv) = cv :: left.drop (left.idxOf cv + 1) := by
      rw [List.drop_eq_getElem_cons hlt, List.getElem_idxOf hlt]
    have hfirst := (hP _ _ hrest).cons_cons cv
    rw [← hdrop] at hfirst
    exact hfirst.trans (List.drop_sublist _ _)

theorem InOrder.sublist {seen left : List Nat} (h : p.InOrder seen left) (values : List Nat) :
    ((p.run values).cvs.filter (· ∉ seen)).eraseDups.Sublist left := by
  induction p generalizing seen left values with
  | done => exact List.nil_sublist left
  | read address optional message next ih =>
    cases values with
    | nil => exact Comes.sublist h fun _ left _ => List.nil_sublist left
    | cons v rest => exact Comes.sublist h fun _ _ hnext => ih v (hnext v) rest
  | write address value message next ih => exact Comes.sublist h fun _ _ hnext => ih writeReply (hnext writeReply) values

/-! ## The end of a run -/

/-- The procedure ends with a product ID after this many reads at most, whatever values answer them. -/
def EndsWithin (n : Nat) : Procedure → Prop
  | done productId => productId ≠ none
  | read _ _ _ next => 0 < n ∧ ∀ v, (next v).EndsWithin (n - 1)
  | write _ _ _ next => ∀ v, (next v).EndsWithin n

theorem EndsWithin.exists_finished (h : p.EndsWithin n) (hn : n ≤ values.length) :
    ∃ productId unused, (p.run values).ending = .finished productId unused := by
  induction p generalizing n values with
  | done productId => exact ⟨productId, values.length, rfl⟩
  | read address optional message next ih =>
    obtain ⟨hpos, hnext⟩ := h
    cases values with
    | nil =>
      rw [List.length_nil] at hn
      omega
    | cons v rest =>
      rw [List.length_cons] at hn
      exact ih v (hnext v) (by omega)
  | write address value message next ih => exact ih writeReply (h writeReply) hn

theorem EndsWithin.ne_none (h : p.EndsWithin n) {productId : Option Int} {unused : Nat}
    (hf : (p.run values).ending = .finished productId unused) : productId ≠ none := by
  induction p generalizing n values with
  | done productId =>
    cases hf
    exact h
  | read address optional message next ih =>
    cases values with
    | nil => cases hf
    | cons v rest => exact ih v (h.2 v) hf
  | write address value message next ih => exact ih writeReply (h writeReply) hf

/-- A run makes no operation that the procedure may not make at its position. -/
theorem Each.length_run_le {k : Nat} (h : p.Each (fun position _ => position < k) n) (hn : n ≤ k) (values : List Nat) :
    n + (p.run values).operations.length ≤ k := by
  induction p generalizing n values with
  | done => exact hn
  | read address optional message next ih =>
    obtain ⟨hlt, hnext⟩ := h
    cases values with
    | nil => exact hlt
    | cons v rest =>
      have := ih v (hnext v) hlt rest
      simp only [run, List.length_cons]
      omega
  | write address value message next ih =>
    obtain ⟨hlt, hnext⟩ := h
    have := ih writeReply (hnext writeReply) hlt values
    simp only [run, List.length_cons]
    omega

theorem Every.of_mem_run {P : Request → Prop} (h : p.Every P) {op : Operation} (ho : op ∈ (p.run values).operations) :
    P op.request := by
  induction p generalizing values with
  | done => cases ho
  | read address optional message next ih =>
    cases values with
    | nil =>
      rw [run, List.mem_singleton] at ho
      rw [ho]
      exact h.1
    | cons v rest =>
      rcases List.mem_cons.1 ho with rfl | ho
      · exact h.1
      · exact ih v (h.2 v) ho
  | write address value message next ih =>
    rcases List.mem_cons.1 ho with rfl | ho
    · exact h.1
    · exact ih writeReply (h.2 writeReply) ho

/-! ## One lemma per building block -/

section
variable {seen left : List Nat} {address : CvNumber} {message : String} {next : Nat → Procedure}

@[simp] theorem inOrder_done {productId : Option Int} : (done productId).InOrder seen left := trivial

@[simp] theorem inOrder_result {id : Nat} : (result id).InOrder seen left := trivial

@[simp] theorem inOrder_reading :
    (reading address message next).InOrder seen left ↔
      Comes (fun seen left => ∀ v, (next v).InOrder seen left) seen left address.number := .rfl

@[simp] theorem inOrder_readingOptional :
    (readingOptional address message next).InOrder seen left ↔
      Comes (fun seen left => ∀ v, (next v).InOrder seen left) seen left address.number := .rfl

@[simp] theorem inOrder_writing {value : Byte} :
    (writing address value message p).InOrder seen left ↔
      Comes (fun seen left => p.InOrder seen left) seen left address.number := by
  simp [writing, InOrder]

@[simp] theorem endsWithin_some {id : Int} : (done (some id)).EndsWithin n := Option.some_ne_none id

@[simp] theorem endsWithin_result {id : Nat} : (result id).EndsWithin n := Option.some_ne_none _

@[simp] theorem endsWithin_reading :
    (reading address message next).EndsWithin n ↔ 0 < n ∧ ∀ v, (next v).EndsWithin (n - 1) := .rfl

@[simp] theorem endsWithin_readingOptional :
    (readingOptional address message next).EndsWithin n ↔ 0 < n ∧ ∀ v, (next v).EndsWithin (n - 1) := .rfl

@[simp] theorem endsWithin_writing {value : Byte} :
    (writing address value message p).EndsWithin n ↔ p.EndsWithin n := by
  simp [writing, EndsWithin]

end

end Procedure

namespace Protocol

/-- A procedure keeps to the lists of a row, and ends with a product ID after four reads at most. -/
structure Keeps (p : Protocol) (q : Procedure) : Prop where
  inOrder : q.InOrder [] p.registers
  optional : q.Every fun request => request.isOptional = true → request.address.number ∈ p.optional
  endsWithin : q.EndsWithin 4

theorem keeps_hornby {model : Int} {p : Protocol} (hr : p.registers = [200, 159, 158]) (ho : p.optional = [200, 159]) :
    p.Keeps (.hornby model) := by
  unfold Procedure.hornby
  split
  · refine ⟨?_, ?_, ?_⟩
    · simp [hr, Procedure.Comes]
    · simp [ho, Request.isOptional, Request.address]
    · simp
  · refine ⟨?_, ?_, ?_⟩
    · rw [hr, Procedure.inOrder_readingOptional]
      refine ⟨by simp, fun value => ?_⟩
      split
      · trivial
      · exact ⟨by decide, fun _ => trivial⟩
    · rw [ho, Procedure.every_readingOptional]
      refine ⟨by simp [Request.address], fun value => ?_⟩
      split
      · trivial
      · simp [Request.isOptional]
    · rw [Procedure.endsWithin_readingOptional]
      refine ⟨by decide, fun value => ?_⟩
      split
      · simp
      · simp

theorem keeps_tcs {model : Int} {p : Protocol} (hr : p.registers = [249, 248, 111, 110]) : p.Keeps (.tcs model) := by
  unfold Procedure.tcs
  refine ⟨?_, ?_, ?_⟩
  · rw [hr, Procedure.inOrder_reading]
    refine ⟨by simp, fun lowest => ?_⟩
    split
    · trivial
    · simp [Procedure.Comes]
  · rw [Procedure.every_reading]
    refine ⟨by simp [Request.isOptional], fun lowest => ?_⟩
    split
    · trivial
    · simp [Request.isOptional]
  · rw [Procedure.endsWithin_reading]
    refine ⟨by decide, fun lowest => ?_⟩
    split
    · simp
    · simp

open Procedure in
theorem keeps_of_mem {p : Protocol} (h : p ∈ table) {model : Int} (hm : p.models.contains model = true) :
    p.Keeps (p.procedure model) := by
  simp only [table, List.mem_cons, List.not_mem_nil, or_false] at h
  rcases h with rfl | rfl | rfl | rfl | rfl | rfl | rfl | rfl | rfl | rfl | rfl
  · exact ⟨by simp [diy, readingAll, Comes], by simp [diy, readingAll, Request.isOptional], by simp [diy, readingAll]⟩
  · exact keeps_hornby rfl rfl
  · exact ⟨by simp [trainomatic, Comes], by simp [trainomatic, Request.isOptional], by simp [trainomatic]⟩
  · exact ⟨by simp [doehler, Comes], by simp [doehler, Request.address], by simp [doehler]⟩
  · exact ⟨by simp [harman, Comes], by simp [harman, Request.isOptional], by simp [harman]⟩
  · exact ⟨by simp [qsi, Comes], by simp [qsi, Request.isOptional], by simp [qsi]⟩
  · exact ⟨by simp [dietz, Comes], by simp [dietz, Request.isOptional], by simp [dietz]⟩
  · have hcovered : soundtraxxModels.1 ≤ model ∧ model ≤ soundtraxxModels.2 := by
      simpa [Models.contains, soundtraxxModels] using hm
    dsimp only
    rw [soundtraxx, if_pos hcovered]
    exact ⟨by simp [Comes], by simp [Request.isOptional], by simp⟩
  · exact ⟨by simp [zimo, Comes], by simp [zimo, Request.isOptional], by simp [zimo]⟩
  · have hcovered : ¬ model ≠ esuModel := by simpa [Models.contains, esuModel] using hm
    dsimp only
    rw [esu, if_neg hcovered]
    exact ⟨by simp [readingAll, Comes], by simp [readingAll, Request.isOptional], by simp [readingAll]⟩
  · exact keeps_tcs rfl

/-- Nothing is done for a model that the row does not cover. -/
theorem procedure_of_not_covered {p : Protocol} (h : p ∈ table) {model : Int} (hm : p.models.contains model = false) :
    p.procedure model = .done none := by
  simp only [table, List.mem_cons, List.not_mem_nil, or_false] at h
  rcases h with rfl | rfl | rfl | rfl | rfl | rfl | rfl | rfl | rfl | rfl | rfl
  case inr.inr.inr.inr.inr.inr.inr.inl =>
    have hmodel : ¬ (Procedure.soundtraxxModels.1 ≤ model ∧ model ≤ Procedure.soundtraxxModels.2) := by
      simpa [Models.contains, Procedure.soundtraxxModels] using hm
    exact if_neg hmodel
  case inr.inr.inr.inr.inr.inr.inr.inr.inr.inl =>
    have hmodel : model ≠ Procedure.esuModel := by simpa [Models.contains, Procedure.esuModel] using hm
    exact if_pos hmodel
  all_goals cases hm

/-- The models with a product ID: one of ESU, three of SoundTraxx, and all of the others. -/
theorem contains_iff {p : Protocol} (h : p ∈ table) (model : Int) :
    p.models.contains model = true ↔
      (p.manufacturer = .esu → model = 255) ∧ (p.manufacturer = .soundtraxx → 70 ≤ model ∧ model ≤ 72) := by
  simp only [table, List.mem_cons, List.not_mem_nil, or_false] at h
  rcases h with rfl | rfl | rfl | rfl | rfl | rfl | rfl | rfl | rfl | rfl | rfl <;> simp [Models.contains]

/-! ## The lists of a row -/

/-- What a row says of a run of its procedure for a model. -/
structure Describes (p : Protocol) (model : Int) (t : Procedure.Trace) : Prop where
  registers : ∀ cv ∈ t.cvs, cv ∈ p.registers
  inOrder : t.cvs.eraseDups.Sublist p.registers
  optional : ∀ op ∈ t.operations, op.request.isOptional = true → op.request.address.number ∈ p.optional
  length_le : t.operations.length ≤ 6
  none_iff : ∀ productId unused, t.ending = .finished productId unused →
    (productId = none ↔ p.models.contains model = false)
  idle : p.models.contains model = false → t.operations = []

theorem describes_run {p : Protocol} (h : p ∈ table) (model : Int) (values : List Nat) :
    p.Describes model ((p.procedure model).run values) := by
  cases hm : p.models.contains model with
  | false =>
    rw [procedure_of_not_covered h hm]
    constructor
    · simp [Procedure.run, Procedure.Trace.cvs]
    · exact List.nil_sublist _
    · simp [Procedure.run]
    · exact Nat.zero_le 6
    · intro productId unused hf
      cases hf
      simp [hm]
    · exact fun _ => rfl
  | true =>
    have hk := keeps_of_mem h hm
    have hunseen : ((p.procedure model).run values).cvs.filter (· ∉ ([] : List Nat)) = ((p.procedure model).run values).cvs :=
      List.filter_eq_self.2 (by simp)
    have hsublist := hk.inOrder.sublist values
    rw [hunseen] at hsublist
    have hlength := Procedure.Each.length_run_le ((each_of_mem h model).mono fun _ _ hp => hp.position_lt) (Nat.zero_le 6)
      values
    refine ⟨fun cv hcv => ?_, hsublist, fun op ho => hk.optional.of_mem_run ho, by omega, fun productId unused hf => ?_, ?_⟩
    · exact hsublist.subset (List.mem_eraseDups.2 hcv)
    · simpa [hm] using hk.endsWithin.ne_none hf
    · intro hnone
      rw [hm] at hnone
      cases hnone

/-- Four values are enough for every run. -/
theorem exists_finished {p : Protocol} (h : p ∈ table) (model : Int) {values : List Nat} (hv : 4 ≤ values.length) :
    ∃ productId unused, ((p.procedure model).run values).ending = .finished productId unused := by
  cases hm : p.models.contains model with
  | false =>
    rw [procedure_of_not_covered h hm]
    exact ⟨none, values.length, rfl⟩
  | true => exact (keeps_of_mem h hm).endsWithin.exists_finished hv

/-- Each CV of a row is used for one of three models, if the reads are answered in a certain way. -/
theorem uses_of_mem :
    ∀ p ∈ table,
      (∀ cv ∈ p.registers, ∃ model ∈ [254, 255, 70], cv ∈ ((p.procedure model).run [143, 143, 143, 143]).cvs) ∧
      ∀ cv ∈ p.optional, ∃ model ∈ [254, 255, 70],
        ∃ op ∈ ((p.procedure model).run [143, 143, 143, 143]).operations,
          op.request.isOptional = true ∧ op.request.address.number = cv := by
  decide

/-- Whatever the model and the values that answer the reads: a run of the procedure of a row comes to an end, and comes
only to CVs of the row, first to those that stand first; only CVs that the row calls optional are read as such; and
there is no product ID just for a model that is not covered, for which nothing is done. Each CV of the row is used in
some run, and each that it calls optional is read as such in one. -/
theorem table_describes {p : Protocol} (h : p ∈ table) :
    (∀ (model : Int) (values : List Nat),
      p.Describes model ((p.procedure model).run values) ∧
        (4 ≤ values.length → ∃ productId unused, ((p.procedure model).run values).ending = .finished productId unused)) ∧
    (∀ model, p.models.contains model = true ↔
      (p.manufacturer = .esu → model = 255) ∧ (p.manufacturer = .soundtraxx → 70 ≤ model ∧ model ≤ 72)) ∧
    (∀ cv ∈ p.registers, ∃ model values productId unused,
      ((p.procedure model).run values).ending = .finished productId unused ∧ cv ∈ ((p.procedure model).run values).cvs) ∧
    ∀ cv ∈ p.optional, ∃ model values productId unused,
      ((p.procedure model).run values).ending = .finished productId unused ∧
        ∃ op ∈ ((p.procedure model).run values).operations,
          op.request.isOptional = true ∧ op.request.address.number = cv := by
  obtain ⟨hregisters, hoptional⟩ := uses_of_mem p h
  refine ⟨fun model values => ⟨describes_run h model values, exists_finished h model⟩, contains_iff h, fun cv hcv => ?_,
    fun cv hcv => ?_⟩
  · obtain ⟨model, -, huse⟩ := hregisters cv hcv
    obtain ⟨productId, unused, hf⟩ := exists_finished h model (Nat.le_refl ([143, 143, 143, 143] : List Nat).length)
    exact ⟨model, _, productId, unused, hf, huse⟩
  · obtain ⟨model, -, huse⟩ := hoptional cv hcv
    obtain ⟨productId, unused, hf⟩ := exists_finished h model (Nat.le_refl ([143, 143, 143, 143] : List Nat).length)
    exact ⟨model, _, productId, unused, hf, huse⟩

theorem table_describes_hornby :
    ∃ p ∈ table, p.code = 48 ∧ p.Describes 1 ((p.procedure 1).run [143, 100000]) ∧
      ((p.procedure 1).run [143, 100000]).cvs = [159, 158] ∧ ∃ model values, 200 ∈ ((p.procedure model).run values).cvs := by
  obtain ⟨p, hl⟩ : ∃ p, lookup 48 = some p := ⟨_, rfl⟩
  obtain ⟨hp, hc⟩ := lookup_eq_some_iff.1 hl
  obtain ⟨hruns, -, huses, -⟩ := table_describes hp
  refine ⟨p, hp, hc, (hruns 1 [143, 100000]).1, ?_, ?_⟩
  · cases hl
    rfl
  · obtain ⟨model, values, -, -, -, huse⟩ := huses 200 (by cases hl; decide)
    exact ⟨model, values, huse⟩

end Protocol

end DecoderId
