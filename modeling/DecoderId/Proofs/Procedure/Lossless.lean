import DecoderId.Proofs.Procedure.Replay
import Mathlib.Data.List.Induction
import Mathlib.Tactic.SplitIfs

/-!
# What a product ID keeps of the bytes

For all but two manufacturers the product ID has the bytes that have been read as its digits to the base 256, in an
order that does not depend on them, so that it tells them all (`Protocol.lossless_of_mem`). SoundTraxx drops five bits
of one byte, and the product ID of a TCS decoder always ends in the byte that is read first.
-/

namespace DecoderId

/-- The bytes that have been read, each with the number of its CV. -/
def readings (exchanges : List (Operation × Outcome)) : List (Nat × Byte) :=
  exchanges.filterMap fun e => (byteRead? e).map fun b => (e.1.request.address.number, b)

theorem bytesRead_eq_map_readings (exchanges : List (Operation × Outcome)) :
    bytesRead exchanges = (readings exchanges).map Prod.snd := by
  simp [bytesRead, readings, List.map_filterMap, Function.comp_def]

namespace Procedure

/-- Each product ID that the procedure ends with is in this relation to the bytes read, those that have been read before
among them. -/
def Yields (P : List (Nat × Byte) → Int → Prop) : List (Nat × Byte) → Procedure → Prop
  | before, done productId => ∀ id ∈ productId, P before id
  | before, read address _ _ next => ∀ b : Byte, (next b.val).Yields P (before ++ [(address.number, b)])
  | before, write _ _ _ next => ∀ b : Byte, (next b.val).Yields P before

variable {P : List (Nat × Byte) → Int → Prop} {before : List (Nat × Byte)} {p q : Procedure}
  {exchanges exchanges' : List (Operation × Outcome)} {id : Int}

theorem LeadsBy.yields (h : p.LeadsBy exchanges q) (hp : p.Yields P []) : q.Yields P (readings exchanges) := by
  induction h with
  | start => exact hp
  | @answer exchanges q op b _ ho ih =>
    cases q with
    | done => cases ho
    | read address optional message next =>
      cases ho
      have hread : readings (exchanges ++ [(⟨.read address optional, message⟩, .value b)]) =
          readings exchanges ++ [(address.number, b)] := by simp [readings, byteRead?, Request.address]
      rw [hread]
      exact ih b
    | write address value message next =>
      cases ho
      have hwrite : readings (exchanges ++ [(⟨.write address value, message⟩, .value b)]) = readings exchanges := by
        simp [readings, byteRead?]
      rw [hwrite]
      exact ih b

theorem LeadsBy.productId (h : p.LeadsBy exchanges (.done (some id))) (hp : p.Yields P []) : P (readings exchanges) id :=
  h.yields hp id rfl

section
variable {address : CvNumber} {message : String} {next : Nat → Procedure}

@[simp] theorem yields_none : (done none).Yields P before := by
  intro id h
  cases h

@[simp] theorem yields_some : (done (some id)).Yields P before ↔ P before id := by simp [Yields]

@[simp] theorem yields_result {n : Nat} : (result n).Yields P before ↔ P before n := yields_some

@[simp] theorem yields_reading :
    (reading address message next).Yields P before ↔
      ∀ b : Byte, (next b.val).Yields P (before ++ [(address.number, b)]) := .rfl

@[simp] theorem yields_readingOptional :
    (readingOptional address message next).Yields P before ↔
      ∀ b : Byte, (next b.val).Yields P (before ++ [(address.number, b)]) := .rfl

@[simp] theorem yields_writing {value : Byte} : (writing address value message p).Yields P before ↔ p.Yields P before := by
  simp [writing, Yields]

end

/-! ## Digits -/

theorem shift_or_eq (high : Nat) (low : Byte) : high <<< 8 ||| low.val = low.val + high <<< 8 := by
  rw [← Nat.shiftLeft_add_eq_or_of_lt low.isLt, Nat.add_comm]

theorem bigEndian_eq (bytes : List Byte) :
    bigEndian (bytes.map (·.val)) = littleEndian (bytes.reverse.map (·.val)) := by
  induction bytes using List.reverseRecOn with
  | nil => rfl
  | append_singleton bytes b ih =>
    rw [List.reverse_append, List.map_append]
    unfold bigEndian at ih ⊢
    rw [List.foldl_append, ih]
    exact shift_or_eq _ b

theorem littleEndian_cons_inj {b c : Byte} {bs cs : List Nat}
    (h : littleEndian (b.val :: bs) = littleEndian (c.val :: cs)) : b = c ∧ littleEndian bs = littleEndian cs := by
  have hb : b.val < 256 := b.isLt
  have hc : c.val < 256 := c.isLt
  simp only [littleEndian, Nat.shiftLeft_eq] at h
  exact ⟨Fin.ext (by omega), by omega⟩

theorem littleEndian_inj {bs cs : List Byte} (hl : bs.length = cs.length)
    (h : littleEndian (bs.map (·.val)) = littleEndian (cs.map (·.val))) : bs = cs := by
  induction bs generalizing cs with
  | nil => exact (List.length_eq_zero_iff.1 hl.symm).symm
  | cons b bs ih =>
    cases cs with
    | nil => cases hl
    | cons c cs =>
      obtain ⟨rfl, hrest⟩ := littleEndian_cons_inj h
      rw [ih (Nat.succ.inj hl) hrest]

/-! ## Procedures that lose nothing -/

/-- Runs of the procedure to the same product ID have read the same bytes. -/
def Lossless (p : Procedure) : Prop :=
  ∀ exchanges exchanges' id, p.LeadsBy exchanges (.done (some id)) → p.LeadsBy exchanges' (.done (some id)) →
    bytesRead exchanges = bytesRead exchanges'

/-- The number has these bytes, so many, as its digits. -/
def Digits (n : Nat) (bytes : List Byte) (id : Int) : Prop :=
  bytes.length = n ∧ id = littleEndian (bytes.map (·.val))

theorem Digits.unique {n : Nat} {bytes bytes' : List Byte} (h : Digits n bytes id) (h' : Digits n bytes' id) :
    bytes = bytes' :=
  littleEndian_inj (h.1.trans h'.1.symm) (Int.ofNat.inj (h.2.symm.trans h'.2))

/-- It is enough that the bytes are known from what holds of them and the product ID. -/
theorem lossless_of_unique {P : List Byte → Int → Prop} (hp : p.Yields (fun rs => P (rs.map Prod.snd)) [])
    (hP : ∀ {bytes bytes' id}, P bytes id → P bytes' id → bytes = bytes') : p.Lossless := by
  intro exchanges exchanges' id h h'
  rw [bytesRead_eq_map_readings, bytesRead_eq_map_readings]
  exact hP (h.productId hp) (h'.productId hp)

/-- The digits come from the lowest to the highest. -/
theorem lossless_of_digits {n : Nat} (hp : p.Yields (fun rs => Digits n (rs.map Prod.snd)) []) : p.Lossless :=
  lossless_of_unique hp Digits.unique

/-- The digits come from the highest to the lowest. -/
theorem lossless_of_digits_reverse {n : Nat} (hp : p.Yields (fun rs => Digits n (rs.map Prod.snd).reverse) []) :
    p.Lossless :=
  lossless_of_unique (P := fun bytes => Digits n bytes.reverse) hp fun h h' => List.reverse_inj.1 (h.unique h')

theorem lossless_done_none : (done none).Lossless := by
  intro exchanges exchanges' id h h'
  cases h.productId (P := fun _ _ => False) yields_none

theorem lossless_diy : diy.Lossless := by
  refine lossless_of_digits_reverse (n := 4) ?_
  simp only [diy, readingAll, yields_reading, yields_result]
  intro b47 b48 b49 b50
  exact ⟨rfl, congrArg Int.ofNat (bigEndian_eq [b47, b48, b49, b50])⟩

theorem lossless_esu (model : Int) : (esu model).Lossless := by
  unfold esu
  split
  · exact lossless_done_none
  · refine lossless_of_digits (n := 4) ?_
    simp only [readingAll, yields_writing, yields_reading, yields_result]
    exact fun _ _ _ _ => ⟨rfl, rfl⟩

theorem digits_one (b : Byte) : Digits 1 [b] b.val := by
  simp [Digits, littleEndian]

theorem digits_high_low (high low : Byte) : Digits 2 [low, high] ((high.val <<< 8 ||| low.val : Nat) : Int) := by
  simp [Digits, shift_or_eq, littleEndian]

/-- One byte, or two after a byte that says so. -/
def HornbyDigits (bytes : List Byte) (id : Int) : Prop :=
  ∃ first rest, bytes = first :: rest ∧ Digits (if first.val = hornbyExtended then 2 else 1) bytes id

theorem HornbyDigits.unique {bytes bytes' : List Byte} (h : HornbyDigits bytes id) (h' : HornbyDigits bytes' id) :
    bytes = bytes' := by
  obtain ⟨first, rest, rfl, hd⟩ := h
  obtain ⟨first', rest', rfl, hd'⟩ := h'
  have hsame : littleEndian (first.val :: rest.map (·.val)) = littleEndian (first'.val :: rest'.map (·.val)) :=
    Int.ofNat.inj (hd.2.symm.trans hd'.2)
  -- The numbers of digits agree, because the lowest digit is the byte that says how many there are.
  obtain ⟨rfl, -⟩ := littleEndian_cons_inj hsame
  exact hd.unique hd'

theorem yields_hornby {model : Int} (h : model ≠ hornbyModel) :
    (hornby model).Yields (fun rs => HornbyDigits (rs.map Prod.snd)) [] := by
  rw [hornby, if_neg h, yields_readingOptional]
  intro value
  split
  · rename_i hvalue
    refine yields_result.2 ⟨value, [], rfl, ?_⟩
    rw [if_neg hvalue]
    exact digits_one value
  · rename_i hvalue
    refine yields_reading.2 fun high => yields_result.2 ⟨value, [high], rfl, ?_⟩
    rw [if_pos (Decidable.not_not.1 hvalue)]
    exact digits_high_low high value

theorem lossless_hornby (model : Int) : (hornby model).Lossless := by
  by_cases hmodel : model = hornbyModel
  · refine lossless_of_digits (n := 2) ?_
    simp [hornby, hmodel, digits_high_low]
  · exact lossless_of_unique (yields_hornby hmodel) HornbyDigits.unique

theorem lossless_trainomatic : trainomatic.Lossless := by
  refine lossless_of_digits_reverse (n := 3) ?_
  simp only [trainomatic, yields_reading, yields_result]
  intro high low lowest
  refine ⟨rfl, congrArg Int.ofNat ?_⟩
  simp only [List.map_cons, List.map_nil, List.nil_append, List.cons_append, List.reverse_cons, List.reverse_nil,
    littleEndian, Nat.shiftLeft_eq]
  omega

/-! ## Procedures that lose something -/

/-- Eleven bits in front of the highest byte: a byte, and three bits of another. -/
theorem soundtraxx_productId (highest low high : Byte) :
    low.val ||| ((high.val &&& 7) <<< 8) ||| (highest.val <<< 11) =
      low.val + high.val % 8 * 256 + highest.val * 2048 := by
  have hmod : high.val &&& 7 = high.val % 8 := Nat.and_two_pow_sub_one_eq_mod high.val 3
  have hlow : low.val ||| (high.val % 8) <<< 8 = low.val + high.val % 8 * 256 := by
    rw [Nat.or_comm, shift_or_eq, Nat.shiftLeft_eq]
  have hlt : low.val + high.val % 8 * 256 < 2 ^ 11 := by
    have := low.isLt
    omega
  rw [hmod, hlow, Nat.or_comm, ← Nat.shiftLeft_add_eq_or_of_lt hlt, Nat.shiftLeft_eq, Nat.add_comm]

/-- What is read of a SoundTraxx decoder with a product ID. -/
def SoundtraxxReads (rs : List (Nat × Byte)) (id : Int) : Prop :=
  ∃ highest low high : Byte, rs = [(253, highest), (256, low), (255, high)] ∧
    id = (low.val + high.val % 8 * 256 + highest.val * 2048 : Nat)

theorem yields_soundtraxx (model : Int) : (soundtraxx model).Yields SoundtraxxReads [] := by
  unfold soundtraxx
  split
  · simp only [yields_reading, yields_result]
    intro highest low high
    exact ⟨highest, low, high, rfl, congrArg Int.ofNat (soundtraxx_productId highest low high)⟩
  · exact yields_none

theorem SoundtraxxReads.kept {rs rs' : List (Nat × Byte)} (h : SoundtraxxReads rs id) (h' : SoundtraxxReads rs' id) :
    ∃ highest low high high' : Byte, rs = [(253, highest), (256, low), (255, high)] ∧
      rs' = [(253, highest), (256, low), (255, high')] ∧ high.val % 8 = high'.val % 8 := by
  obtain ⟨highest, low, high, hrs, hid⟩ := h
  obtain ⟨highest', low', high', hrs', hid'⟩ := h'
  have hsame : low.val + high.val % 8 * 256 + highest.val * 2048 = low'.val + high'.val % 8 * 256 + highest'.val * 2048 :=
    Int.ofNat.inj (hid.symm.trans hid')
  have hl : low.val < 256 := low.isLt
  have hl' : low'.val < 256 := low'.isLt
  have hlow : low = low' := Fin.ext (by omega)
  have hhighest : highest = highest' := Fin.ext (by omega)
  rw [← hlow, ← hhighest] at hrs'
  exact ⟨highest, low, high, high', hrs, hrs', by omega⟩

/-- What is read of a TCS decoder first. -/
def TcsReads (rs : List (Nat × Byte)) (id : Int) : Prop := ∃ lowest rest, rs = (249, lowest) :: rest ∧ id % 256 = lowest.val

/-- Whatever the other bytes are for, the lowest stays. -/
theorem tcsProductId_mod (model low high highest : Int) (lowest : Byte) :
    tcsProductId model lowest.val low high highest % 256 = lowest.val := by
  have hlt : lowest.val < 256 := lowest.isLt
  unfold tcsProductId
  dsimp only
  split_ifs <;> omega

theorem yields_tcs (model : Int) : (tcs model).Yields TcsReads [] := by
  rw [tcs, yields_reading]
  intro lowest
  split
  · have hlt : lowest.val < 256 := lowest.isLt
    exact yields_result.2 ⟨lowest, [], rfl, by omega⟩
  · simp only [yields_reading, yields_some]
    intro low high highest
    exact ⟨lowest, _, rfl, tcsProductId_mod model low.val high.val highest.val lowest⟩

theorem TcsReads.kept {rs rs' : List (Nat × Byte)} (h : TcsReads rs id) (h' : TcsReads rs' id) :
    ∃ lowest rest rest', rs = (249, lowest) :: rest ∧ rs' = (249, lowest) :: rest' := by
  obtain ⟨lowest, rest, hrs, hid⟩ := h
  obtain ⟨lowest', rest', hrs', hid'⟩ := h'
  have hlowest : lowest = lowest' := Fin.ext (by omega)
  rw [← hlowest] at hrs'
  exact ⟨lowest, rest, rest', hrs, hrs'⟩

end Procedure

namespace Protocol

open Procedure in
/-- But for two manufacturers, the product ID tells the bytes. -/
theorem lossless_of_mem {p : Protocol} (h : p ∈ table) (hs : p.manufacturer ≠ .soundtraxx)
    (ht : p.manufacturer ≠ .tcs) (model : Int) : (p.procedure model).Lossless := by
  simp only [table, List.mem_cons, List.not_mem_nil, or_false] at h
  rcases h with rfl | rfl | rfl | rfl | rfl | rfl | rfl | rfl | rfl | rfl | rfl
  · exact lossless_diy
  · exact lossless_hornby model
  · exact lossless_trainomatic
  · refine lossless_of_digits (n := 1) ?_
    simp [doehler, digits_one]
  · refine lossless_of_digits_reverse (n := 2) ?_
    simp [harman, digits_high_low]
  · refine lossless_of_digits_reverse (n := 2) ?_
    simp [qsi, digits_high_low]
  · refine lossless_of_digits (n := 1) ?_
    simp [dietz, digits_one]
  · exact absurd rfl hs
  · refine lossless_of_digits (n := 1) ?_
    simp [zimo, digits_one]
  · exact lossless_esu model
  · exact absurd rfl ht

theorem yields_of_soundtraxx {p : Protocol} (h : p ∈ table) (hm : p.manufacturer = .soundtraxx) (model : Int) :
    (p.procedure model).Yields Procedure.SoundtraxxReads [] := by
  have hl : lookup p.code = some p := lookup_code h
  rw [Protocol.code, hm] at hl
  cases hl
  exact Procedure.yields_soundtraxx model

theorem yields_of_tcs {p : Protocol} (h : p ∈ table) (hm : p.manufacturer = .tcs) (model : Int) :
    (p.procedure model).Yields Procedure.TcsReads [] := by
  have hl : lookup p.code = some p := lookup_code h
  rw [Protocol.code, hm] at hl
  cases hl
  exact Procedure.yields_tcs model

end Protocol

end DecoderId
