import DecoderId.Proofs.Protocol.Lookup
import Mathlib.Algebra.Group.Nat.Defs

/-!
# Bytes make product IDs

Every procedure of the table ends with a product ID, or without, whatever bytes answer
its reads (`Protocol.inRange_of_lookup`). So the machine can always name the decoder
that it has identified.
-/

namespace DecoderId

namespace Procedure

/-- Whatever bytes answer it, what the procedure ends with is a product ID, or nothing. -/
def InRange : Procedure → Prop
  | done productId => ∀ id ∈ productId, isProductId id = true
  | read _ _ _ next => ∀ b : Byte, (next b.val).InRange
  | write _ _ _ next => ∀ b : Byte, (next b.val).InRange

theorem InRange.answer {p : Procedure} (h : p.InRange) (b : Byte) : (p.answer b.val).InRange := by
  cases p with
  | done productId => exact h
  | read _ _ _ next => exact h b
  | write _ _ _ next => exact h b

theorem isProductId_of_lt {n : Nat} (h : n < 2 ^ 32) : isProductId n = true := by
  simp only [isProductId, Bool.and_eq_true, decide_eq_true_eq]
  omega

theorem inRange_none : (done none).InRange := by
  intro id h
  cases h

theorem inRange_result {n : Nat} (h : n < 2 ^ 32) : (result n).InRange := by
  intro id hid
  cases hid
  exact isProductId_of_lt h

theorem inRange_writing {address : CvNumber} {value : Byte} {message : String} {p : Procedure} (h : p.InRange) :
    (writing address value message p).InRange :=
  fun _ => h

/-! ## Bytes put together -/

theorem shift_or_lt {n b k : Nat} (hn : n < 2 ^ k) (hb : b < 256) : (n <<< 8) ||| b < 2 ^ (k + 8) := by
  apply Nat.or_lt_two_pow
  · rw [Nat.shiftLeft_eq, Nat.pow_add]
    exact Nat.mul_lt_mul_of_pos_right hn (by decide)
  · have : 2 ^ 8 ≤ 2 ^ (k + 8) := Nat.pow_le_pow_right (by decide) (by omega)
    omega

theorem foldl_shift_or_lt (bytes : List Nat) (h : ∀ b ∈ bytes, b < 256) (n k : Nat) (hn : n < 2 ^ k) :
    bytes.foldl (fun n b => (n <<< 8) ||| b) n < 2 ^ (k + 8 * bytes.length) := by
  induction bytes generalizing n k with
  | nil => exact hn
  | cons b bytes ih =>
    have hb : b < 256 := h b List.mem_cons_self
    have := ih (fun c hc => h c (List.mem_cons_of_mem _ hc)) _ _ (shift_or_lt hn hb)
    rw [List.foldl_cons, List.length_cons, show k + 8 * (bytes.length + 1) = k + 8 + 8 * bytes.length by omega]
    exact this

theorem bigEndian_lt {bytes : List Nat} (h : ∀ b ∈ bytes, b < 256) : bigEndian bytes < 2 ^ (8 * bytes.length) := by
  have := foldl_shift_or_lt bytes h 0 0 (by decide)
  rwa [Nat.zero_add] at this

theorem littleEndian_lt {bytes : List Nat} (h : ∀ b ∈ bytes, b < 256) :
    littleEndian bytes < 2 ^ (8 * bytes.length) := by
  induction bytes with
  | nil => decide
  | cons b bytes ih =>
    have hb : b < 256 := h b List.mem_cons_self
    have hr := ih fun c hc => h c (List.mem_cons_of_mem _ hc)
    rw [littleEndian, Nat.shiftLeft_eq, List.length_cons, Nat.mul_add, Nat.pow_add]
    omega

/-- Reads in a row end in range if what comes after them does, for as many bytes. -/
theorem inRange_readingAll {registers : List (CvNumber × String)} {next : List Nat → Procedure}
    (h : ∀ bytes, bytes.length = registers.length → (∀ b ∈ bytes, b < 256) → (next bytes).InRange) :
    (readingAll registers next).InRange := by
  -- On the registers: a byte that has been read is the first of those that are left to `next`.
  induction registers generalizing next with
  | nil => exact h [] rfl (by simp)
  | cons r rest ih =>
    intro b
    apply ih
    intro bytes hl hb
    refine h (b.val :: bytes) (by simp [hl]) ?_
    simp only [List.mem_cons, forall_eq_or_imp]
    exact ⟨b.isLt, hb⟩

/-! ## The procedures -/

theorem inRange_byte (b : Byte) : (result b.val).InRange := inRange_result (by have := b.isLt; omega)

theorem inRange_two (high low : Byte) : (result ((high.val <<< 8) ||| low.val)).InRange := by
  have := shift_or_lt (k := 8) high.isLt low.isLt
  exact inRange_result (by omega)

theorem inRange_diy : diy.InRange := by
  apply inRange_readingAll
  intro bytes hl hb
  have := bigEndian_lt hb
  rw [hl] at this
  exact inRange_result this

theorem inRange_esu (model : Int) : (esu model).InRange := by
  unfold esu
  split
  · exact inRange_none
  · refine inRange_writing (inRange_writing (inRange_readingAll ?_))
    intro bytes hl hb
    have := littleEndian_lt hb
    rw [hl] at this
    exact inRange_result this

theorem inRange_hornby (model : Int) : (hornby model).InRange := by
  unfold hornby
  split
  · exact fun low high => inRange_two high low
  · intro value
    dsimp only
    split
    · exact inRange_byte value
    · exact fun high => inRange_two high value

theorem inRange_qsi : qsi.InRange :=
  inRange_writing (inRange_writing fun high => inRange_writing fun low => inRange_two high low)

theorem inRange_soundtraxx (model : Int) : (soundtraxx model).InRange := by
  unfold soundtraxx
  split
  · intro highest low high
    apply inRange_result
    have h3 : high.val &&& 7 < 8 := Nat.and_lt_two_pow (n := 3) _ (by decide)
    refine Nat.or_lt_two_pow (Nat.or_lt_two_pow ?_ ?_) ?_
    · omega
    · rw [Nat.shiftLeft_eq]; omega
    · rw [Nat.shiftLeft_eq]; omega
  · exact inRange_none

theorem tcsProductId_mem_range (model : Int) (lowest low high highest : Byte) :
    isProductId (tcsProductId model lowest.val low.val high.val highest.val) = true := by
  have := lowest.isLt
  have := low.isLt
  have := high.isLt
  have := highest.isLt
  unfold tcsProductId
  simp only [isProductId, Bool.and_eq_true, decide_eq_true_eq]
  split <;> split <;> omega

theorem inRange_tcs (model : Int) : (tcs model).InRange := by
  intro lowest
  dsimp only
  split
  · exact inRange_byte lowest
  · intro low high highest id hid
    cases hid
    exact tcsProductId_mem_range model lowest low high highest

theorem inRange_trainomatic : trainomatic.InRange := by
  intro high low lowest
  apply inRange_result
  have := high.isLt
  have := low.isLt
  have := lowest.isLt
  omega

end Procedure

namespace Protocol

theorem inRange_of_mem {p : Protocol} (h : p ∈ table) (model : Int) : (p.procedure model).InRange := by
  simp only [table, List.mem_cons, List.not_mem_nil, or_false] at h
  rcases h with rfl | rfl | rfl | rfl | rfl | rfl | rfl | rfl | rfl | rfl | rfl
  · exact Procedure.inRange_diy
  · exact Procedure.inRange_hornby model
  · exact Procedure.inRange_trainomatic
  · exact Procedure.inRange_byte
  · exact Procedure.inRange_two
  · exact Procedure.inRange_qsi
  · exact Procedure.inRange_byte
  · exact Procedure.inRange_soundtraxx model
  · exact Procedure.inRange_byte
  · exact Procedure.inRange_esu model
  · exact Procedure.inRange_tcs model

/-- The procedure for a value of CV 8 ends with a product ID, or without. -/
theorem inRange_of_lookup {code : Int} {p : Protocol} (h : lookup code = some p) (model : Int) :
    (p.procedure model).InRange :=
  inRange_of_mem (lookup_eq_some_iff.1 h).1 model

end Protocol

end DecoderId
