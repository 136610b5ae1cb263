import DecoderId.Proofs.Numeral

/-!
# Texts that are written

What is written is a string, and what is read is a text. A string of ASCII characters is the text
that it was made of, and a numeral that is written is read back: a decimal one if it is not too long
(`Numeral.ofPlain?_ofInt`), a hexadecimal one at any width (`Numeral.hexDigits?_hexFilled`).
-/

namespace DecoderId

namespace Text

variable {t : Text}

/-! ## Strings -/

@[simp] theorem ofString_append (s s' : String) : ofString (s ++ s') = ofString s ++ ofString s' := by
  simp [ofString]

@[simp] theorem ofString_ofList (l : List Char) : ofString (String.ofList l) = l.map Char.toNat := by
  simp [ofString]

theorem toNat_ofNat {c : Nat} (h : c < 0x80) : (Char.ofNat c).toNat = c := by
  have hvalid : c.isValidChar := .inl (by omega)
  rw [Char.ofNat, dif_pos hvalid]
  rfl

theorem map_toNat_ofNat (h : ∀ c ∈ t, c < 0x80) : (t.map Char.ofNat).map Char.toNat = t := by
  rw [List.map_map]
  exact (List.map_congr_left fun c hc => toNat_ofNat (h c hc)).trans t.map_id

theorem ofString_toString (h : ∀ c ∈ t, c < 0x80) : ofString t.toString = t := by
  rw [toString, ofString_ofList, map_toNat_ofNat h]

/-! ## Lines -/

theorem splitOn_append_cons {separator : Nat} (h : separator ∉ t) (rest : Text) :
    splitOn separator (t ++ separator :: rest) = t :: splitOn separator rest := by
  induction t with
  | nil =>
    cases hrest : splitOn separator rest with
    | nil => exact absurd hrest (splitOn_ne_nil separator rest)
    | cons piece more => simp [splitOn, hrest]
  | cons c t ih =>
    simp only [List.mem_cons, not_or] at h
    rw [List.cons_append, splitOn, ih h.2]
    simp [Ne.symm h.1]

/-! ## Digits -/

theorem isAsciiDigit_iff {c : Nat} : isAsciiDigit c = true ↔ 0x30 ≤ c ∧ c ≤ 0x39 := by
  simp [isAsciiDigit]

theorem digitsValue_map (ds : List Nat) : digitsValue (ds.map (0x30 + ·)) = ofDigits 10 ds := by
  simp [digitsValue, Function.comp_def]

theorem ofDigits_replicate_zero (base k : Nat) (ds : List Nat) :
    ofDigits base (List.replicate k 0 ++ ds) = ofDigits base ds := by
  induction k with
  | zero => rfl
  | succ k ih =>
    rw [List.replicate_succ, List.cons_append]
    exact ih

end Text

namespace Numeral

variable {n : Int} {base d : Nat} {ds : List Nat} {t : Text}

/-! ## Decimal numerals -/

/-- Only the numeral of zero starts with one. -/
theorem head?_digits (hbase : 2 ≤ base) {m : Nat} (hm : m ≠ 0) : (digits base m).head? ≠ some 0 := by
  induction m using Nat.strongRecOn with
  | _ m ih =>
    rw [digits]
    split
    · simpa using hm
    · rename_i hm'
      have hquotient : m / base ≠ 0 := by
        rw [Nat.div_ne_zero_iff]
        omega
      rw [List.head?_append_of_ne_nil _ (digits_ne_nil base _)]
      exact ih (m / base) (Nat.div_lt_self (by omega) hbase) hquotient

theorem digits_zero (base : Nat) : digits base 0 = [0] := by
  rw [digits, if_pos (by omega)]

theorem lt_of_mem_ofInt {c : Nat} (h : c ∈ ofInt n) : c < 0x80 := by
  rcases exists_of_mem_ofInt h with rfl | ⟨d, hd, rfl⟩ <;> omega

theorem ofString_decimal (n : Int) : Text.ofString (decimal n) = ofInt n :=
  Text.ofString_toString fun _ hc => lt_of_mem_ofInt hc

theorem length_digits_of_writable (h : isWritable n = true) : (digits 10 n.natAbs).length ≤ maxDigits := by
  obtain ⟨k, hk⟩ : ∃ k, maxDigits = k + 1 := ⟨4299, rfl⟩
  rw [isWritable_iff, hk] at h
  rw [hk]
  exact length_digits_le h

theorem isAsciiDigit_of_lt (h : d < 10) : Text.isAsciiDigit (0x30 + d) = true := by
  rw [Text.isAsciiDigit_iff]
  omega

theorem all_isAsciiDigit (h : ∀ d ∈ ds, d < 10) : ∀ c ∈ ds.map (0x30 + ·), Text.isAsciiDigit c = true := by
  intro c hc
  obtain ⟨d, hd, rfl⟩ := List.mem_map.1 hc
  exact isAsciiDigit_of_lt (h d hd)

/-- A numeral that `ofPlain?` reads, without its sign. -/
structure Plain (t : Text) : Prop where
  ne_nil : t ≠ []
  digits : ∀ c ∈ t, Text.isAsciiDigit c = true
  head : t.head? = some 0x30 → t.length = 1
  length : t.length ≤ maxDigits

theorem Plain.sign (h : Plain t) : t.head? ≠ some 0x2D := by
  intro hminus
  have := Text.isAsciiDigit_iff.1 (h.digits _ (List.mem_of_mem_head? hminus))
  omega

theorem Plain.refused (h : Plain t) :
    ¬ (t.isEmpty || !t.all Text.isAsciiDigit || (t.head? == some 0x30 && t.length != 1)) = true := by
  have hall : t.all Text.isAsciiDigit = true := List.all_eq_true.2 h.digits
  simpa [h.ne_nil, hall] using h.head

theorem ofPlain?_of_plain (h : Plain t) : ofPlain? t = some (Text.digitsValue t : Int) := by
  unfold ofPlain?
  split
  rename_i negative ds hcut
  split at hcut
  · exact absurd rfl h.sign
  · cases hcut
    rw [if_neg h.refused, if_neg (Nat.not_lt.2 h.length)]
    rfl

theorem ofPlain?_minus (h : Plain t) : ofPlain? (0x2D :: t) = some (-(Text.digitsValue t : Int)) := by
  unfold ofPlain?
  split
  rename_i negative ds hcut
  have hcut : (true, t) = (negative, ds) := hcut
  cases hcut
  rw [if_neg h.refused, if_neg (Nat.not_lt.2 h.length)]
  rfl

theorem plain_digits (h : isWritable n = true) : Plain ((digits 10 n.natAbs).map (0x30 + ·)) where
  ne_nil := by simpa using digits_ne_nil 10 n.natAbs
  digits := all_isAsciiDigit (digits_lt (by decide))
  head h := by
    by_cases hn : n.natAbs = 0
    · rw [hn, digits_zero]
      rfl
    · obtain ⟨d, hd, hzero⟩ : ∃ d, (digits 10 n.natAbs).head? = some d ∧ 0x30 + d = 0x30 := by simpa using h
      obtain rfl : d = 0 := by omega
      exact absurd hd (head?_digits (by decide) hn)
  length := by
    rw [List.length_map]
    exact length_digits_of_writable h

/-- A number that can be written is read back. -/
theorem ofPlain?_ofInt (h : isWritable n = true) : ofPlain? (ofInt n) = some n := by
  have hvalue : Text.digitsValue ((digits 10 n.natAbs).map (0x30 + ·)) = n.natAbs := by
    rw [Text.digitsValue_map, ofDigits_digits]
  rcases Int.lt_or_le n 0 with hneg | hnonneg
  · rw [ofInt_of_neg hneg, ofPlain?_minus (plain_digits h), hvalue, Int.ofNat_natAbs_of_nonpos (by omega), Int.neg_neg]
  · rw [ofInt_of_nonneg hnonneg, ofPlain?_of_plain (plain_digits h), hvalue, Int.natAbs_of_nonneg hnonneg]

/-! ## Hexadecimal numerals -/

theorem hexValue?_hexDigit (h : d < 16) :
    Text.hexValue? (Char.ofNat (if d < 10 then 0x30 + d else 0x37 + d)).toNat = some d := by
  have hall : ∀ d < 16, Text.hexValue? (Char.ofNat (if d < 10 then 0x30 + d else 0x37 + d)).toNat = some d := by decide
  exact hall d h

/-- The digits of a number are read back, with the zeros that fill it. -/
theorem hexDigits?_hexFilled (width : Nat) (h : 0 ≤ n) :
    ∃ ds, Text.hexDigits? (Text.ofString (hexFilled width n)) = some ds ∧ (Text.ofDigits 16 ds : Int) = n := by
  obtain ⟨k, hk⟩ : ∃ k, Text.ofString (hexFilled width n) =
      (List.replicate k 0 ++ digits 16 n.natAbs).map fun d => (Char.ofNat (if d < 10 then 0x30 + d else 0x37 + d)).toNat := by
    refine ⟨width - (digits 16 n.natAbs).length, ?_⟩
    unfold hexFilled
    rw [if_neg (by omega)]
    simp [Function.comp_def]
  refine ⟨List.replicate k 0 ++ digits 16 n.natAbs, ?_, ?_⟩
  · rw [hk, Text.hexDigits?_eq_some_iff, List.forall₂_map_left_iff, List.forall₂_same]
    intro d hd
    refine hexValue?_hexDigit ?_
    rcases List.mem_append.1 hd with hd | hd
    · rw [List.eq_of_mem_replicate hd]
      decide
    · exact digits_lt (by decide) d hd
  · rw [Text.ofDigits_replicate_zero, ofDigits_digits, Int.natAbs_of_nonneg h]

end Numeral

end DecoderId
