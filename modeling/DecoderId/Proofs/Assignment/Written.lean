import DecoderId.Proofs.Assignment.Grammar
import DecoderId.Proofs.Numeral

/-!
# Assignments that are written

A name, an equals sign and the decimal text of an integer make an assignment exactly when the
name stands for a CV and the integer is a byte (`Assignment.parse_written_eq_ok_iff`), whatever
the name holds.
-/

namespace DecoderId

variable {name t : Text} {cv : CvNumber} {numeral : ValueNumeral} {v : Int} {c n : Nat}

/-! ## Decimal texts -/

theorem Numeral.not_isBlank_of_mem_ofInt (h : c ∈ Numeral.ofInt v) : Text.isBlank c = false := by
  rcases Numeral.exists_of_mem_ofInt h with rfl | ⟨d, hd, rfl⟩
  · rfl
  · exact Text.not_isBlank_of_digitValue? (Text.digitValue?_ascii hd)

theorem Numeral.not_mem_ofInt : 0x3D ∉ Numeral.ofInt v := by
  intro h
  rcases Numeral.exists_of_mem_ofInt h with h | ⟨d, hd, h⟩ <;> omega

/-- The decimal text of an integer spells a numeral exactly when there is no sign in front. -/
theorem ValueNumeral.spells_ofInt_iff :
    Spells (Numeral.ofInt v) numeral ↔ 0 ≤ v ∧ numeral = .decimal (Numeral.digits 10 v.natAbs) := by
  constructor
  · intro h
    have hv : 0 ≤ v := by
      by_contra hneg
      rw [Numeral.ofInt_of_neg (by omega)] at h
      cases h with
      | decimal _ hds =>
        cases Text.decimalDigits?_eq_some_iff.1 hds with
        | cons hd => cases hd
    refine ⟨hv, ?_⟩
    have hds := Numeral.decimalDigits?_ofInt hv
    generalize Numeral.ofInt v = t at h hds
    generalize Numeral.digits 10 v.natAbs = ds at hds ⊢
    cases h with
    | decimal _ hds' =>
      rw [hds] at hds'
      rw [Option.some.inj hds']
    | hexadecimal hx =>
      cases Text.decimalDigits?_eq_some_iff.1 hds with
      | cons _ htail =>
        cases htail with
        | cons hd => rcases hx with rfl | rfl <;> cases hd
  · rintro ⟨hv, rfl⟩
    refine .decimal ?_ (Numeral.decimalDigits?_ofInt hv)
    rw [Numeral.ofInt_of_nonneg hv]
    simp [Numeral.digits_ne_nil]

theorem ValueNumeral.value_decimal_eq_ok_iff {ds : List Nat} :
    value (.decimal ds) = .ok n ↔ ds.length ≤ Numeral.maxDigits ∧ Text.ofDigits 10 ds = n := by
  rw [value]
  split
  · rename_i h
    simp only [reduceCtorEq, false_iff]
    omega
  · rename_i h
    rw [Except.ok.injEq]
    exact ⟨fun hn => ⟨by omega, hn⟩, And.right⟩

namespace Assignment

variable {a : Assignment}

/-! ## Assignments -/

/-- The assignment of an integer to what is named. -/
def written (name : Text) (v : Int) : Text := name ++ 0x3D :: Numeral.ofInt v

theorem strip_written : (written name v).strip = Text.stripLeft name ++ 0x3D :: Numeral.ofInt v := by
  rw [written, Text.strip_append_cons rfl, Text.stripRight_of_not_blank fun c => Numeral.not_isBlank_of_mem_ofInt]

theorem reads_written_iff : Reads (written name v) cv numeral ↔
    CvNumber.parse name = .ok cv ∧ 0 ≤ v ∧ numeral = .decimal (Numeral.digits 10 v.natAbs) := by
  have hv : 0x3D ∉ Numeral.ofInt v := Numeral.not_mem_ofInt
  rw [← ValueNumeral.spells_ofInt_iff, Reads, strip_written]
  constructor
  · rintro ⟨left, right, ht, hcv, hs⟩
    have hleft : 0x3D ∉ left := CvNumber.not_mem_of_parse hcv
    have hright : 0x3D ∉ right := fun hmem => hs.not_mem (Text.mem_stripLeft hmem rfl)
    obtain ⟨rfl, -, rfl⟩ := (List.append_cons_inj_of_notMem hleft hright).1 ht.symm
    rw [Text.stripLeft_of_not_blank fun c => Numeral.not_isBlank_of_mem_ofInt] at hs
    exact ⟨CvNumber.parse_stripLeft_eq_ok_iff.1 hcv, hs⟩
  · rintro ⟨hcv, hs⟩
    refine ⟨_, _, rfl, CvNumber.parse_stripLeft_eq_ok_iff.2 hcv, ?_⟩
    rwa [Text.stripLeft_of_not_blank fun c => Numeral.not_isBlank_of_mem_ofInt]

theorem parse_written_eq_ok_iff : parse (written name v) = .ok a ↔ CvNumber.parse name = .ok a.cv ∧ (a.value.val : Int) = v := by
  rw [parse_eq_ok_iff]
  constructor
  · rintro ⟨numeral, hr, hn⟩
    obtain ⟨hcv, hv, rfl⟩ := reads_written_iff.1 hr
    obtain ⟨-, hn⟩ := ValueNumeral.value_decimal_eq_ok_iff.1 hn
    rw [Numeral.ofDigits_digits] at hn
    exact ⟨hcv, by omega⟩
  · rintro ⟨hcv, rfl⟩
    have hlength : (Numeral.digits 10 a.value.val).length ≤ 2 + 1 :=
      Numeral.length_digits_le (Nat.lt_trans a.value.isLt (by decide))
    refine ⟨_, reads_written_iff.2 ⟨hcv, Int.natCast_nonneg _, rfl⟩, ?_⟩
    exact ValueNumeral.value_decimal_eq_ok_iff.2 ⟨Nat.le_trans hlength (by decide), Numeral.ofDigits_digits ..⟩

end Assignment

end DecoderId
