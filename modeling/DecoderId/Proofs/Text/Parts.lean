import DecoderId.Numeral
import DecoderId.Proofs.Checked
import Mathlib.Data.List.DropRight

/-!
# Parts of a text

White space at the ends of a text, the text before a separator, and runs of digits. The three
do not mix: a digit is no white space, so that stripping stops at a numeral.
-/

namespace DecoderId

namespace Text

variable {t before behind rest : Text} {c d separator : Nat} {ds : List Nat}

/-! ## White space -/

theorem strip_stripLeft (t : Text) : strip (stripLeft t) = strip t := by
  rw [strip, strip, stripLeft, stripLeft, List.dropWhile_idempotent]

theorem stripLeft_cons (h : isBlank c = false) (t : Text) : stripLeft (c :: t) = c :: t :=
  List.dropWhile_cons_of_neg (by simp [h])

/-- White space in front is all that goes. -/
theorem stripLeft_append (h : ∀ b ∈ before, isBlank b = true) (t : Text) : stripLeft (before ++ t) = stripLeft t :=
  List.dropWhile_append_of_pos h

theorem stripLeft_append_cons (h : isBlank c = false) (t rest : Text) :
    stripLeft (t ++ c :: rest) = stripLeft t ++ c :: rest := by
  rw [stripLeft, List.dropWhile_append]
  split
  · rename_i ht
    rw [← stripLeft, stripLeft_cons h, stripLeft, List.isEmpty_iff.1 ht, List.nil_append]
  · rfl

theorem stripRight_append_cons (h : isBlank c = false) (t rest : Text) :
    stripRight (t ++ c :: rest) = t ++ c :: stripRight rest := by
  have hreverse : (t ++ c :: rest).reverse = rest.reverse ++ c :: t.reverse := by simp
  rw [stripRight, hreverse, ← stripLeft, stripLeft_append_cons h]
  simp [stripRight, stripLeft]

theorem strip_append_cons (h : isBlank c = false) (t rest : Text) :
    strip (t ++ c :: rest) = stripLeft t ++ c :: stripRight rest := by
  rw [strip, stripLeft_append_cons h, stripRight_append_cons h]

theorem stripLeft_of_not_blank (h : ∀ c ∈ t, isBlank c = false) : stripLeft t = t := by
  cases t with
  | nil => rfl
  | cons c t => exact stripLeft_cons (h c List.mem_cons_self) t

theorem stripRight_of_not_blank (h : ∀ c ∈ t, isBlank c = false) : stripRight t = t := by
  have hreverse : stripLeft t.reverse = t.reverse := stripLeft_of_not_blank fun c hc => h c (List.mem_reverse.1 hc)
  rw [stripRight, ← stripLeft, hreverse, List.reverse_reverse]

theorem stripRight_append (h : ∀ b ∈ behind, isBlank b = true) (t : Text) : stripRight (t ++ behind) = stripRight t := by
  have hbehind : ∀ b ∈ behind.reverse, isBlank b = true := fun b hb => h b (List.mem_reverse.1 hb)
  rw [stripRight, List.reverse_append, ← stripLeft, stripLeft_append hbehind, stripRight, stripLeft]

theorem stripLeft_of_blank (h : ∀ b ∈ t, isBlank b = true) : stripLeft t = [] :=
  List.dropWhile_eq_nil_iff.2 h

/-- White space in front of an end without any stays. -/
theorem stripRight_append_of_not_blank (h : ∀ c ∈ t, isBlank c = false) (hne : t ≠ []) (before : Text) :
    stripRight (before ++ t) = before ++ t := by
  have hlast : isBlank (t.getLast hne) = false := h _ (List.getLast_mem hne)
  rw [← List.dropLast_append_getLast hne, ← List.append_assoc, stripRight_append_cons hlast]
  rfl

/-- White space around a text goes. -/
theorem strip_surrounded (hbefore : ∀ b ∈ before, isBlank b = true) (hbehind : ∀ b ∈ behind, isBlank b = true) (t : Text) :
    strip (before ++ t ++ behind) = strip t := by
  rw [strip, strip, List.append_assoc, stripLeft_append hbefore]
  by_cases ht : ∃ c ∈ t, isBlank c = false
  · obtain ⟨c, hc, hblank⟩ := ht
    obtain ⟨first, last, rfl⟩ := List.mem_iff_append.1 hc
    rw [List.append_assoc, List.cons_append, stripLeft_append_cons hblank, stripLeft_append_cons hblank,
      ← List.cons_append, ← List.append_assoc, stripRight_append hbehind]
  · have hblank : ∀ b ∈ t, isBlank b = true := fun b hb => by simpa using fun h => ht ⟨b, hb, h⟩
    rw [stripLeft_append hblank, stripLeft_of_blank hbehind, stripLeft_of_blank hblank]

theorem exists_stripLeft (t : Text) : ∃ before, (∀ b ∈ before, isBlank b = true) ∧ t = before ++ stripLeft t :=
  ⟨t.takeWhile isBlank, fun _ hb => List.mem_takeWhile_imp hb, List.takeWhile_append_dropWhile.symm⟩

theorem exists_strip (t : Text) :
    ∃ before behind, (∀ b ∈ before, isBlank b = true) ∧ (∀ b ∈ behind, isBlank b = true) ∧ t = before ++ strip t ++ behind := by
  obtain ⟨before, hbefore, ht⟩ := exists_stripLeft t
  obtain ⟨behind, hbehind, hrest⟩ := exists_stripLeft (stripLeft t).reverse
  refine ⟨before, behind.reverse, hbefore, fun b hb => hbehind b (List.mem_reverse.1 hb), ?_⟩
  have hstrip : stripLeft t = strip t ++ behind.reverse := by
    rw [strip, stripRight, ← stripLeft, ← List.reverse_append, ← hrest, List.reverse_reverse]
  rw [List.append_assoc, ← hstrip, ← ht]

/-- What is no white space stays. -/
theorem mem_stripLeft (hc : c ∈ t) (h : isBlank c = false) : c ∈ stripLeft t := by
  obtain ⟨before, behind, rfl⟩ := List.mem_iff_append.1 hc
  rw [stripLeft_append_cons h]
  exact List.mem_append_right _ List.mem_cons_self

theorem mem_strip (hc : c ∈ t) (h : isBlank c = false) : c ∈ strip t := by
  obtain ⟨before, behind, hstrip⟩ := List.mem_iff_append.1 (mem_stripLeft hc h)
  rw [strip, hstrip, stripRight_append_cons h]
  exact List.mem_append_right _ List.mem_cons_self

/-! ## Separators -/

theorem cut_eq_some_iff : cut separator t = (before, some behind) ↔ t = before ++ separator :: behind ∧ separator ∉ before := by
  induction t generalizing before with
  | nil => simp [cut]
  | cons c rest ih =>
    by_cases hc : c = separator
    · cases before with
      | nil => simp [cut, hc, eq_comm]
      | cons b before => simp +contextual [cut, hc]
    · cases before with
      | nil => simp [cut, hc]
      | cons b before =>
        have hcut : cut separator (c :: rest) = (c :: (cut separator rest).1, (cut separator rest).2) := by
          simp [cut, hc]
        rw [hcut, Prod.mk.injEq, List.cons.injEq, and_assoc, ← Prod.mk.injEq, ih]
        simp only [List.cons_append, List.cons.injEq, List.mem_cons, not_or]
        constructor
        · rintro ⟨rfl, rfl, hb⟩
          exact ⟨⟨rfl, rfl⟩, Ne.symm hc, hb⟩
        · rintro ⟨⟨rfl, rfl⟩, -, hb⟩
          exact ⟨rfl, rfl, hb⟩

/-! ## Digits -/

theorem exists_zero_of_digitValue? (h : digitValue? c = some d) : ∃ z ∈ zeros, d < 10 ∧ c = z + d := by
  obtain ⟨z, hz, rfl⟩ := Option.map_eq_some_iff.1 h
  have hrange := List.find?_some hz
  simp only [Bool.and_eq_true, decide_eq_true_eq] at hrange
  exact ⟨z, List.mem_of_find?_eq_some hz, by omega, by omega⟩

/-- No run of digits holds white space. -/
theorem not_isBlank_of_digitValue? (h : digitValue? c = some d) : isBlank c = false := by
  have hzeros : ∀ z ∈ zeros, ∀ i < 10, isBlank (z + i) = false := by decide
  obtain ⟨z, hz, hd, rfl⟩ := exists_zero_of_digitValue? h
  exact hzeros z hz d hd

theorem digitValue?_ascii (h : d < 10) : digitValue? (0x30 + d) = some d := by
  have hascii : ∀ d < 10, digitValue? (0x30 + d) = some d := by decide
  exact hascii d h

theorem decimalDigits?_eq_some_iff :
    decimalDigits? t = some ds ↔ List.Forall₂ (fun c d => digitValue? c = some d) t ds :=
  mapM_eq_some_iff

theorem hexDigits?_eq_some_iff :
    hexDigits? t = some ds ↔ List.Forall₂ (fun c d => hexValue? c = some d) t ds :=
  mapM_eq_some_iff

theorem not_isBlank_of_hexValue? (h : hexValue? c = some d) : isBlank c = false := by
  have hascii : ∀ c ≤ 0x66, 0x30 ≤ c → isBlank c = false := by decide
  unfold hexValue? at h
  split at h
  · exact hascii c (by omega) (by omega)
  split at h
  · exact hascii c (by omega) (by omega)
  split at h
  · exact hascii c (by omega) (by omega)
  · cases h

theorem not_blank_of_decimalDigits? (h : decimalDigits? t = some ds) : ∀ c ∈ t, isBlank c = false := by
  intro c hc
  obtain ⟨d, -, hd⟩ := exists_of_forall₂_left (decimalDigits?_eq_some_iff.1 h) hc
  exact not_isBlank_of_digitValue? hd

theorem not_blank_of_hexDigits? (h : hexDigits? t = some ds) : ∀ c ∈ t, isBlank c = false := by
  intro c hc
  obtain ⟨d, -, hd⟩ := exists_of_forall₂_left (hexDigits?_eq_some_iff.1 h) hc
  exact not_isBlank_of_hexValue? hd

end Text

end DecoderId
