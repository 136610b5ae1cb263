import DecoderId.Proofs.Assignment.Grammar
import DecoderId.Proofs.Numeral

/-!
# Values that are too long

An assignment that is refused is told as it was given, with one exception: a value of more
decimal digits than a numeral may have is not even told to be out of range
(`Assignment.answered_iff`). In decimal it cannot be read, and in hexadecimal it cannot be
written into the message.
-/

namespace DecoderId

/-- The numeral has more decimal digits than can be read, or its number more than can be written. -/
def ValueNumeral.Overlong : ValueNumeral → Prop
  | .decimal ds => Numeral.maxDigits < ds.length
  | .hexadecimal ds => Numeral.isWritable (Text.ofDigits 16 ds) = false

/-- The fault of a numeral that is too long to be read, or of a number that is too long to be written. -/
inductive Fault.OfLength : Fault → Prop
  | read {digits : Nat} : Numeral.maxDigits < digits → OfLength (.longNumeral digits)
  | written : OfLength .longInteger

namespace Assignment

variable {raw t : Text} {cv : CvNumber} {numeral : ValueNumeral} {value : Nat}

/-- The text is an assignment of a value that is too long. -/
def Overlong (raw : Text) : Prop := ∃ cv numeral, Reads raw cv numeral ∧ numeral.Overlong

/-- An answer to a text that a caller expects: an assignment of a byte to a CV, or a refusal of this text. -/
inductive Answered (raw : Text) : Except Fault Assignment → Prop
  | assigned {a : Assignment} : 1 ≤ a.cv.number ∧ a.cv.number ≤ 1024 → a.value.val ≤ 255 → Answered raw (.ok a)
  | refused {f : AssignmentFault} : f.raw = raw → Answered raw (.error (.assignment f))

theorem byte_ofInt?_of_not_writable (h : Numeral.isWritable value = false) : Byte.ofInt? value = none := by
  cases hb : Byte.ofInt? value with
  | none => rfl
  | some b =>
    have hvalue := Byte.ofInt?_eq_some_iff.1 hb
    have := b.isLt
    rw [Numeral.isWritable_of_lt (by omega)] at h
    cases h

theorem checkValue_of_not_writable (h : Numeral.isWritable value = false) (raw : Text) (cv : CvNumber) :
    checkValue raw cv value = .error .longInteger := by
  unfold checkValue
  split
  · rename_i b hb
    rw [byte_ofInt?_of_not_writable h] at hb
    cases hb
  · split
    · rename_i hw
      rw [h] at hw
      cases hw
    · rfl

theorem answered_checkValue (h : Numeral.isWritable value = true) (raw : Text) (cv : CvNumber) :
    Answered raw (checkValue raw cv value) := by
  unfold checkValue
  split
  · rename_i b _
    exact .assigned ⟨cv.one_le, cv.le_max⟩ (Nat.le_of_lt_succ b.isLt)
  · rw [if_pos h]
    exact .refused rfl

theorem answered_of_not_overlong (hs : ValueNumeral.Spells t numeral) (h : ¬ numeral.Overlong) (raw : Text) (cv : CvNumber) :
    Answered raw (numeral.value >>= checkValue raw cv) := by
  cases hs with
  | decimal _ hds =>
    simp only [ValueNumeral.Overlong] at h
    rw [ValueNumeral.value, if_neg h, ok_bind]
    have hdigits := Text.lt_ten_of_decimalDigits? hds
    exact answered_checkValue (Numeral.isWritable_ofDigits hdigits (Nat.le_of_not_lt h)) raw cv
  | hexadecimal _ _ _ =>
    simp only [ValueNumeral.Overlong, Bool.not_eq_false] at h
    rw [ValueNumeral.value, ok_bind]
    exact answered_checkValue h raw cv

theorem exists_fault_of_overlong (h : numeral.Overlong) (raw : Text) (cv : CvNumber) :
    ∃ f, (numeral.value >>= checkValue raw cv) = .error f ∧ f.OfLength := by
  cases numeral with
  | decimal ds =>
    simp only [ValueNumeral.Overlong] at h
    rw [ValueNumeral.value, if_pos h, error_bind]
    exact ⟨_, rfl, .read h⟩
  | hexadecimal ds =>
    simp only [ValueNumeral.Overlong] at h
    rw [ValueNumeral.value, ok_bind, checkValue_of_not_writable h]
    exact ⟨_, rfl, .written⟩

theorem not_answered_of_ofLength {f : Fault} (h : f.OfLength) : ¬ Answered raw (.error f) := by
  intro ha
  cases h <;> cases ha

theorem answered_parse (h : ¬ Overlong raw) : Answered raw (parse raw) := by
  by_cases hreads : ∃ cv numeral, Reads raw cv numeral
  · obtain ⟨cv, numeral, hr⟩ := hreads
    have hshort : ¬ numeral.Overlong := fun hlong => h ⟨cv, numeral, hr, hlong⟩
    obtain ⟨left, right, -, -, hs⟩ := id hr
    rw [parse_of_reads hr]
    exact answered_of_not_overlong hs hshort raw cv
  · obtain ⟨cause, hcause⟩ := parse_of_not_reads fun cv numeral hr => hreads ⟨cv, numeral, hr⟩
    rw [hcause]
    exact .refused rfl

theorem Overlong.exists_fault (h : Overlong raw) : ∃ f, parse raw = .error f ∧ f.OfLength := by
  obtain ⟨cv, numeral, hr, hlong⟩ := h
  rw [parse_of_reads hr]
  exact exists_fault_of_overlong hlong raw cv

theorem Overlong.not_answered (h : Overlong raw) : ¬ Answered raw (parse raw) := by
  obtain ⟨f, hf, hlength⟩ := h.exists_fault
  rw [hf]
  exact not_answered_of_ofLength hlength

/-- A text comes to an assignment of a byte to a CV or is refused as it was given, exactly when it
assigns no value that is too long. Otherwise the fault is that of a numeral or number of this length. -/
theorem answered_iff (raw : Text) :
    (Answered raw (parse raw) ↔ ¬ Overlong raw) ∧ (Overlong raw ↔ ∃ f, parse raw = .error f ∧ f.OfLength) := by
  refine ⟨⟨fun ha hlong => hlong.not_answered ha, answered_parse⟩, Overlong.exists_fault, ?_⟩
  rintro ⟨f, hf, hlength⟩
  by_contra hshort
  have ha := answered_parse hshort
  rw [hf] at ha
  exact not_answered_of_ofLength hlength ha

/-- CV 8 and a value of 4301 ones. -/
def manyOnes : Text := 0x38 :: 0x3D :: List.replicate 4301 0x31

theorem overlong_manyOnes : Overlong manyOnes := by
  have hds : Text.decimalDigits? (List.replicate 4301 0x31) = some (List.replicate 4301 1) := by
    have hones : List.replicate 4301 0x31 = (List.replicate 4301 1).map (0x30 + ·) := by rw [List.map_replicate]
    rw [hones]
    exact Numeral.decimalDigits?_map fun d hd => by rw [List.eq_of_mem_replicate hd]; decide
  have hstrip : manyOnes.strip = [0x38] ++ 0x3D :: List.replicate 4301 0x31 := by
    rw [manyOnes, List.replicate_succ', Text.strip, Text.stripLeft_cons rfl]
    exact Text.stripRight_append_cons rfl (0x38 :: 0x3D :: List.replicate 4300 0x31) []
  refine ⟨⟨8, by decide, by decide⟩, .decimal (List.replicate 4301 1), ⟨[0x38], _, hstrip, by rfl, ?_⟩, ?_⟩
  · rw [CvNumber.stripLeft_digits hds]
    exact .decimal (List.cons_ne_nil _ _) hds
  · rw [ValueNumeral.Overlong, List.length_replicate]
    decide

theorem many_ones_not_answered : ¬ ∀ raw, Answered raw (parse raw) :=
  fun h => overlong_manyOnes.not_answered (h manyOnes)

end Assignment

end DecoderId
