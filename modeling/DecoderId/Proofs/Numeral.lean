import DecoderId.Proofs.Text.Parts
import Mathlib.Algebra.Group.Nat.Defs

/-!
# The length of numerals

A numeral of so many digits denotes a number below that power of its base, and is no longer
than such a number needs. A decimal numeral short enough to be read is therefore short enough
to be written (`Numeral.isWritable_ofDigits`).
-/

namespace DecoderId

namespace Text

theorem ofDigits_lt {base : Nat} {digits : List Nat} (h : ∀ d ∈ digits, d < base) :
    ofDigits base digits < base ^ digits.length := by
  -- From the last digit on, which is the one that is added last.
  induction digits using List.reverseRecOn with
  | nil => simp [ofDigits]
  | append_singleton digits d ih =>
    have hdigits := ih fun e he => h e (List.mem_append_left _ he)
    have hd : d < base := h d (by simp)
    rw [ofDigits_append_singleton, List.length_append, List.length_singleton, Nat.pow_succ]
    calc base * ofDigits base digits + d < base * ofDigits base digits + base := by omega
      _ = base * (ofDigits base digits + 1) := (Nat.mul_succ ..).symm
      _ ≤ base * base ^ digits.length := Nat.mul_le_mul_left base hdigits
      _ = base ^ digits.length * base := Nat.mul_comm ..

theorem lt_ten_of_decimalDigits? {t : Text} {ds : List Nat} (h : decimalDigits? t = some ds) : ∀ d ∈ ds, d < 10 := by
  intro d hd
  obtain ⟨c, -, hc⟩ := exists_of_forall₂_right (decimalDigits?_eq_some_iff.1 h) hd
  exact digitValue?_lt hc

end Text

namespace Numeral

variable {n : Int} {ds : List Nat}

/-! ## Digits -/

theorem digits_lt {base n : Nat} (hbase : 2 ≤ base) : ∀ d ∈ digits base n, d < base := by
  induction n using Nat.strongRecOn with
  | _ n ih =>
    intro d hd
    rw [digits] at hd
    split at hd
    · rw [List.mem_singleton] at hd
      omega
    · rcases List.mem_append.1 hd with hd | hd
      · exact ih (n / base) (Nat.div_lt_self (by omega) hbase) d hd
      · rw [List.mem_singleton.1 hd]
        exact Nat.mod_lt n (by omega)

theorem digits_ne_nil (base n : Nat) : digits base n ≠ [] := by
  rw [digits]
  split <;> simp

theorem length_digits_le {base k n : Nat} (h : n < base ^ (k + 1)) : (digits base n).length ≤ k + 1 := by
  induction k generalizing n with
  | zero =>
    rw [Nat.zero_add, Nat.pow_one] at h
    rw [digits, if_pos (.inl h)]
    simp
  | succ k ih =>
    rw [digits]
    split
    · simp
    · rw [Nat.pow_succ] at h
      simpa using ih (Nat.div_lt_of_lt_mul (by rwa [Nat.mul_comm]))

/-! ## Decimal texts -/

theorem ofInt_of_nonneg (h : 0 ≤ n) : ofInt n = (digits 10 n.natAbs).map (0x30 + ·) := by
  rw [ofInt, if_neg (by omega), List.nil_append]

theorem ofInt_of_neg (h : n < 0) : ofInt n = 0x2D :: (digits 10 n.natAbs).map (0x30 + ·) := by
  rw [ofInt, if_pos h]
  rfl

theorem exists_of_mem_ofInt {c : Nat} (h : c ∈ ofInt n) : c = 0x2D ∨ ∃ d < 10, c = 0x30 + d := by
  rcases List.mem_append.1 h with h | h
  · split at h
    · exact .inl (List.mem_singleton.1 h)
    · cases h
  · obtain ⟨d, hd, rfl⟩ := List.mem_map.1 h
    exact .inr ⟨d, digits_lt (by decide) d hd, rfl⟩

theorem decimalDigits?_map {ds : List Nat} (h : ∀ d ∈ ds, d < 10) : Text.decimalDigits? (ds.map (0x30 + ·)) = some ds := by
  rw [Text.decimalDigits?_eq_some_iff, List.forall₂_map_left_iff, List.forall₂_same]
  exact fun d hd => Text.digitValue?_ascii (h d hd)

theorem decimalDigits?_ofInt (h : 0 ≤ n) : Text.decimalDigits? (ofInt n) = some (digits 10 n.natAbs) := by
  rw [ofInt_of_nonneg h, decimalDigits?_map (digits_lt (by decide))]

/-! ## Numbers that can be written -/

theorem isWritable_iff : isWritable n = true ↔ n.natAbs < 10 ^ maxDigits := by
  unfold isWritable
  rw [decide_eq_true_eq, Nat.pow_eq]

/-- All numbers of a few digits. -/
theorem isWritable_of_lt (h : n.natAbs < 10 ^ 4) : isWritable n = true :=
  isWritable_iff.2 (Nat.lt_of_lt_of_le h (Nat.pow_le_pow_right (by decide) (by decide)))

theorem isWritable_ofDigits (hds : ∀ d ∈ ds, d < 10) (h : ds.length ≤ maxDigits) : isWritable (Text.ofDigits 10 ds) = true :=
  isWritable_iff.2 (Nat.lt_of_lt_of_le (Text.ofDigits_lt hds) (Nat.pow_le_pow_right (by decide) h))

end Numeral

end DecoderId
