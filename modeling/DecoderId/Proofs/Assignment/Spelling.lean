import DecoderId.Proofs.Assignment.Written

/-!
# Spellings

Which texts name a CV, and which ones an assignment can be written as. Every spelling of a pair is
read as this pair, and nothing else is read (`CvNumber.parse_numbered`, `Assignment.parse_spelled`).
-/

namespace DecoderId

/-- The text is nothing but white space. -/
def Text.Blank (t : Text) : Prop := ∀ c ∈ t, Text.isBlank c = true

/-! ## Names -/

namespace CvNumber

/-- The text is a number in one to four decimal digits, with a label in front or without. -/
inductive Numbered : Text → Nat → Prop
  | intro {label digits : Text} {ds : List Nat} : Label label → Text.decimalDigits? digits = some ds →
      1 ≤ digits.length → digits.length ≤ 4 → Numbered (label ++ digits) (Text.ofDigits 10 ds)

variable {raw t label : Text} {cv : CvNumber} {f : AssignmentFault} {n : Nat}

theorem names_iff : Names t cv ↔ Numbered t cv.number := by
  constructor
  · intro h
    cases h with
    | intro hl hds hone hfour hvalue => exact hvalue ▸ .intro hl hds hone hfour
  · generalize hn : cv.number = n
    intro h
    cases h with
    | intro hl hds hone hfour => exact .intro hl hds hone hfour hn.symm

theorem exists_parse_iff : (∃ cv, parse raw = .ok cv ∧ cv.number = n) ↔ Numbered raw.strip n ∧ 1 ≤ n ∧ n ≤ 1024 := by
  constructor
  · rintro ⟨cv, hcv, rfl⟩
    exact ⟨names_iff.1 (parse_eq_ok_iff.1 hcv), cv.one_le, cv.le_max⟩
  · rintro ⟨hn, hone, hmax⟩
    exact ⟨⟨n, hone, hmax⟩, parse_eq_ok_iff.2 (names_iff.2 hn), rfl⟩

theorem raw_of_parse_error (h : parse raw = .error f) : f.raw = raw := by
  unfold parse at h
  dsimp only at h
  split at h
  · cases h
    rfl
  · split at h
    · cases h
      rfl
    · split at h <;> cases h
      rfl

/-! ### Names that are written -/

/-- A name has a letter or a digit at both ends. -/
theorem Names.strip (h : Names t cv) : t.strip = t := by
  cases h with
  | @intro label digits ds cv hl hds hone =>
    have hdigits : ∀ c ∈ digits, Text.isBlank c = false := Text.not_blank_of_decimalDigits? hds
    have hleft : Text.stripLeft (label ++ digits) = label ++ digits := by
      cases hl with
      | absent => exact stripLeft_digits hds
      | cv hc => exact Text.stripLeft_cons (by rcases hc with rfl | rfl <;> rfl) _
    rw [Text.strip, hleft, Text.stripRight_append_of_not_blank hdigits (List.ne_nil_of_length_pos hone)]

theorem parse_of_names (h : Names t cv) : parse t = .ok cv := by
  rw [parse_eq_ok_iff, h.strip]
  exact h

theorem names_decimal (h : Label label) (cv : CvNumber) : Names (label ++ Numeral.ofInt cv.number) cv := by
  have hlength : (Numeral.digits 10 cv.number).length ≤ 3 + 1 :=
    Numeral.length_digits_le (Nat.lt_of_le_of_lt cv.le_max (by decide))
  have hpos : 0 < (Numeral.digits 10 cv.number).length := List.length_pos_of_ne_nil (Numeral.digits_ne_nil 10 cv.number)
  have hds : (Numeral.ofInt cv.number).length = (Numeral.digits 10 cv.number).length := by
    rw [Numeral.ofInt_of_nonneg (Int.natCast_nonneg _), List.length_map, Int.natAbs_natCast]
  refine .intro h (Numeral.decimalDigits?_ofInt (Int.natCast_nonneg _)) (by omega) (by omega) ?_
  exact Numeral.ofDigits_digits ..

/-- A text names a CV exactly when, without the white space around it, it is one of the numbers of CVs. Any
other text is refused as it was given. The number of a CV in decimal, alone or behind `CV`, names the CV again. -/
theorem parse_numbered (raw : Text) :
    (∀ n, (∃ cv, parse raw = .ok cv ∧ cv.number = n) ↔ Numbered raw.strip n ∧ 1 ≤ n ∧ n ≤ 1024) ∧
    ((∃ cause, parse raw = .error ⟨raw, cause⟩) ↔ ¬ ∃ n, Numbered raw.strip n ∧ 1 ≤ n ∧ n ≤ 1024) ∧
    ∀ cv, parse raw = .ok cv →
      parse (Numeral.ofInt cv.number) = .ok cv ∧ parse (Text.ofString "CV" ++ Numeral.ofInt cv.number) = .ok cv := by
  refine ⟨fun n => exists_parse_iff, ?_, fun cv _ => ?_⟩
  · simp only [← exists_parse_iff]
    cases hp : parse raw with
    | ok cv => simp
    | error f =>
      have hraw : f = ⟨raw, f.cause⟩ := by rw [← raw_of_parse_error hp]
      simpa using ⟨f.cause, hraw⟩
  · have hlabel : Label (Text.ofString "CV") := .cv (.inl rfl) (.inl rfl) (by simp)
    exact ⟨parse_of_names (names_decimal .absent cv), parse_of_names (names_decimal hlabel cv)⟩

/-- A no-break space, `cV`, an ideographic space, the digits 2 and 9 in Arabic and a unit separator. A superscript 2
is no digit of a numeral, and a space without width is no white space. -/
example :
    parse [0xA0, 0x63, 0x56, 0x3000, 0x662, 0x669, 0x1F] = .ok { number := 29 } ∧
      parse [0xB2] = .error ⟨[0xB2], .malformedCv [0xB2]⟩ ∧
      parse [0x200B, 0x38] = .error ⟨[0x200B, 0x38], .malformedCv [0x200B, 0x38]⟩ :=
  ⟨rfl, rfl, rfl⟩

end CvNumber

/-! ## Values -/

/-- The text denotes the value: hexadecimal digits behind `0x`, or decimal ones that are not too many. -/
inductive ValueNumeral.Denotes : Text → Nat → Prop
  | hexadecimal {x : Nat} {digits : Text} {ds : List Nat} : x = 0x78 ∨ x = 0x58 → digits ≠ [] →
      Text.hexDigits? digits = some ds → Denotes (0x30 :: x :: digits) (Text.ofDigits 16 ds)
  | decimal {digits : Text} {ds : List Nat} : Text.decimalDigits? digits = some ds → 1 ≤ digits.length →
      digits.length ≤ Numeral.maxDigits → Denotes digits (Text.ofDigits 10 ds)

namespace ValueNumeral

variable {t : Text} {numeral : ValueNumeral} {n : Nat}

theorem denotes_iff : Denotes t n ↔ ∃ numeral, Spells t numeral ∧ numeral.value = .ok n := by
  constructor
  · intro h
    cases h with
    | hexadecimal hx hne hds => exact ⟨_, .hexadecimal hx hne hds, rfl⟩
    | decimal hds hone hmax =>
      rw [(Text.decimalDigits?_eq_some_iff.1 hds).length_eq] at hmax
      exact ⟨_, .decimal (List.ne_nil_of_length_pos hone) hds, value_decimal_eq_ok_iff.2 ⟨hmax, rfl⟩⟩
  · rintro ⟨numeral, hs, hvalue⟩
    cases hs with
    | decimal hne hds =>
      obtain ⟨hmax, rfl⟩ := value_decimal_eq_ok_iff.1 hvalue
      rw [← (Text.decimalDigits?_eq_some_iff.1 hds).length_eq] at hmax
      exact .decimal hds (List.length_pos_of_ne_nil hne) hmax
    | hexadecimal hx hne hds =>
      cases hvalue
      exact .hexadecimal hx hne hds

theorem Spells.ne_nil (h : Spells t numeral) : t ≠ [] := by
  cases h with
  | decimal hne => exact hne
  | hexadecimal => exact List.cons_ne_nil _ _

/-- No numeral holds white space. -/
theorem Spells.not_blank (h : Spells t numeral) : ∀ c ∈ t, Text.isBlank c = false := by
  cases h with
  | decimal _ hds => exact Text.not_blank_of_decimalDigits? hds
  | @hexadecimal x digits _ hx _ hds =>
    have hletter : Text.isBlank x = false := by rcases hx with rfl | rfl <;> rfl
    have hdigits : ∀ c ∈ digits, Text.isBlank c = false := Text.not_blank_of_hexDigits? hds
    exact List.forall_mem_cons.2 ⟨rfl, List.forall_mem_cons.2 ⟨hletter, hdigits⟩⟩

end ValueNumeral

/-! ## Assignments -/

namespace Assignment

/-- The text splits at its only equals sign: a name of the CV stands in front, and behind it, after any white
space, a numeral of the value. -/
inductive Splits : Text → CvNumber → Nat → Prop
  | intro {left blanks numeral : Text} {cv : CvNumber} {n : Nat} : left ≠ [] → 0x3D ∉ left → 0x3D ∉ blanks ++ numeral →
      CvNumber.parse left = .ok cv → blanks.Blank → ValueNumeral.Denotes numeral n →
      Splits (left ++ 0x3D :: (blanks ++ numeral)) cv n

/-- The text spells the pair: a name of the CV, an equals sign and a numeral of the value, with any white space
around each of them. -/
inductive Spelling : Text → CvNumber → Nat → Prop
  | intro {before name between behind numeral after : Text} {cv : CvNumber} {n : Nat} :
      before.Blank → between.Blank → behind.Blank → after.Blank →
      CvNumber.Names name cv → ValueNumeral.Denotes numeral n →
      Spelling (before ++ name ++ between ++ 0x3D :: (behind ++ numeral ++ after)) cv n

variable {raw : Text} {cv cv' : CvNumber} {n n' : Nat}

theorem splits_iff : Splits raw.strip cv n ↔ ∃ numeral, Reads raw cv numeral ∧ numeral.value = .ok n := by
  constructor
  · generalize ht : raw.strip = t
    intro h
    cases h with
    | intro _ _ _ hcv hblanks hdenotes =>
      obtain ⟨numeral, hs, hvalue⟩ := ValueNumeral.denotes_iff.1 hdenotes
      refine ⟨numeral, ⟨_, _, ht, hcv, ?_⟩, hvalue⟩
      rwa [Text.stripLeft_append hblanks, Text.stripLeft_of_not_blank hs.not_blank]
  · rintro ⟨numeral, hr, hvalue⟩
    obtain ⟨left, hsides, hcv⟩ := reads_iff.1 hr
    obtain ⟨hne, hleft, right, ht, hs⟩ := sides?_eq_some_iff.1 hsides
    have hright : 0x3D ∉ right := fun hmem => hs.not_mem (Text.mem_stripLeft hmem rfl)
    obtain ⟨blanks, hblanks, hsplit⟩ := Text.exists_stripLeft right
    have hdenotes : ValueNumeral.Denotes (Text.stripLeft right) n := ValueNumeral.denotes_iff.2 ⟨numeral, hs, hvalue⟩
    rw [ht, hsplit]
    exact .intro hne hleft (hsplit ▸ hright) hcv hblanks hdenotes

theorem exists_parse_iff :
    (∃ a, parse raw = .ok a ∧ a.cv = cv ∧ a.value.val = n) ↔ n ≤ 255 ∧ Splits raw.strip cv n := by
  rw [splits_iff]
  constructor
  · rintro ⟨a, ha, rfl, rfl⟩
    exact ⟨Nat.le_of_lt_succ a.value.isLt, parse_eq_ok_iff.1 ha⟩
  · rintro ⟨hmax, hreads⟩
    exact ⟨⟨cv, ⟨n, by omega⟩⟩, parse_eq_ok_iff.2 hreads, rfl, rfl⟩

theorem Splits.unique (h : Splits raw.strip cv n) (h' : Splits raw.strip cv' n') : cv = cv' ∧ n = n' := by
  obtain ⟨numeral, hr, hvalue⟩ := splits_iff.1 h
  obtain ⟨numeral', hr', hvalue'⟩ := splits_iff.1 h'
  obtain ⟨rfl, rfl⟩ := hr.unique hr'
  exact ⟨rfl, Except.ok.inj (hvalue.symm.trans hvalue')⟩

theorem Spelling.splits (h : Spelling raw cv n) : Splits raw.strip cv n := by
  cases h with
  | @intro before name between behind numeral after _ _ hbefore hbetween hbehind hafter hname hdenotes =>
    obtain ⟨_, hs, -⟩ := ValueNumeral.denotes_iff.1 hdenotes
    have hleft : CvNumber.parse (Text.stripLeft (before ++ name ++ between)) = .ok cv := by
      rw [CvNumber.parse_stripLeft_eq_ok_iff, CvNumber.parse_eq_ok_iff, Text.strip_surrounded hbefore hbetween, hname.strip]
      exact hname
    have hright : 0x3D ∉ behind ++ numeral := by
      intro hmem
      rcases List.mem_append.1 hmem with hmem | hmem
      · cases hbehind _ hmem
      · exact hs.not_mem hmem
    have hne : Text.stripLeft (before ++ name ++ between) ≠ [] := fun hnil => by
      rw [hnil] at hleft
      cases hleft
    -- White space at the ends goes on either side of the equals sign; the one behind the sign stays.
    rw [Text.strip_append_cons rfl, Text.stripRight_append hafter,
      Text.stripRight_append_of_not_blank hs.not_blank hs.ne_nil]
    exact .intro hne (CvNumber.not_mem_of_parse hleft) hright hleft hbehind hdenotes

theorem Splits.spelling (h : Splits raw.strip cv n) : Spelling raw cv n := by
  obtain ⟨before, after, hbefore, hafter, hraw⟩ := Text.exists_strip raw
  rw [hraw]
  generalize raw.strip = t at h
  cases h with
  | @intro left blanks numeral _ _ _ _ _ hcv hblanks hdenotes =>
    obtain ⟨first, last, hfirst, hlast, hleft⟩ := Text.exists_strip left
    have hname : CvNumber.Names left.strip cv := CvNumber.parse_eq_ok_iff.1 hcv
    -- The name has white space in front of it twice: around the text, and around what is left of the sign.
    have hfront : (before ++ first).Blank := fun c hc => (List.mem_append.1 hc).elim (hbefore c) (hfirst c)
    have htext : before ++ (left ++ 0x3D :: (blanks ++ numeral)) ++ after =
        before ++ first ++ left.strip ++ last ++ 0x3D :: (blanks ++ numeral ++ after) := by
      conv_lhs => rw [hleft]
      simp only [List.append_assoc, List.cons_append]
    rw [htext]
    exact .intro hfront hlast hblanks hafter hname hdenotes

/-- A text is an assignment of a byte to a CV exactly when it splits into a name and a numeral. These are all
spellings of the pair, whatever the white space, the case and the digits, and no text spells two pairs. -/
theorem parse_spelled (raw : Text) :
    (∀ cv n, (∃ a, parse raw = .ok a ∧ a.cv = cv ∧ a.value.val = n) ↔ n ≤ 255 ∧ Splits raw.strip cv n) ∧
    (∀ cv n, Splits raw.strip cv n ↔ Spelling raw cv n) ∧
    ∀ cv cv' n n', Spelling raw cv n → Spelling raw cv' n' → cv = cv' ∧ n = n' :=
  ⟨fun _ _ => exists_parse_iff, fun _ _ => ⟨Splits.spelling, Spelling.splits⟩, fun _ _ _ _ h h' => h.splits.unique h'.splits⟩

end Assignment

end DecoderId
