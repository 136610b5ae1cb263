import DecoderId.Assignment
import DecoderId.Proofs.Text.Parts

/-!
# The grammar of assignments

Which texts name a CV (`CvNumber.parse_eq_ok_iff`), and which are an assignment: a name, an
equals sign, and a numeral (`Assignment.Reads`). What is no assignment is refused as a whole
(`Assignment.parse_of_not_reads`); what is one is settled by the value of its numeral alone
(`Assignment.parse_of_reads`).
-/

namespace DecoderId

/-! ## CV numbers -/

namespace CvNumber

theorem ofInt?_eq_some_iff {n : Int} {cv : CvNumber} : ofInt? n = some cv ↔ (cv.number : Int) = n := by
  have hone := cv.one_le
  have hmax : cv.number ≤ 1024 := cv.le_max
  unfold ofInt?
  split
  · constructor
    · intro h
      cases h
      exact Int.toNat_of_nonneg (by omega)
    · rintro rfl
      rfl
  · simp only [reduceCtorEq, false_iff]
    omega

theorem number_inj {cv cv' : CvNumber} (h : (cv.number : Int) = cv'.number) : cv = cv' :=
  Option.some.inj ((ofInt?_eq_some_iff.2 h).symm.trans (ofInt?_eq_some_iff.2 rfl))

/-- What may stand in front of the number of a CV: nothing, or `CV` and white space. -/
inductive Label : Text → Prop
  | absent : Label []
  | cv {c v : Nat} {blanks : Text} : c = 0x43 ∨ c = 0x63 → v = 0x56 ∨ v = 0x76 →
      (∀ b ∈ blanks, Text.isBlank b = true) → Label (c :: v :: blanks)

/-- The text names the CV: a label, and the number in one to four decimal digits. -/
inductive Names : Text → CvNumber → Prop
  | intro {label digits : Text} {ds : List Nat} {cv : CvNumber} : Label label →
      Text.decimalDigits? digits = some ds → 1 ≤ digits.length → digits.length ≤ 4 →
      Text.ofDigits 10 ds = cv.number → Names (label ++ digits) cv

variable {label digits raw t : Text} {ds : List Nat} {cv : CvNumber} {c d n : Nat}

/-- Neither the letters of a label nor an equals sign is a digit. -/
theorem ne_of_digitValue? (h : Text.digitValue? c = some d) : c ∉ [0x3D, 0x43, 0x56, 0x63, 0x76] := by
  intro hc
  simp only [List.mem_cons, List.not_mem_nil, or_false] at hc
  rcases hc with rfl | rfl | rfl | rfl | rfl <;> cases h

theorem exists_label (t : Text) : ∃ label, Label label ∧ t = label ++ cutLabel t := by
  match t with
  | [] | [_] => exact ⟨[], .absent, rfl⟩
  | c :: v :: rest =>
    rw [cutLabel]
    split
    · rename_i h
      refine ⟨c :: v :: rest.takeWhile Text.isBlank, .cv h.1 h.2 fun b hb => List.mem_takeWhile_imp hb, ?_⟩
      simp [Text.stripLeft, List.takeWhile_append_dropWhile]
    · exact ⟨[], .absent, rfl⟩

theorem stripLeft_digits (h : Text.decimalDigits? digits = some ds) : Text.stripLeft digits = digits :=
  Text.stripLeft_of_not_blank (Text.not_blank_of_decimalDigits? h)

theorem cutLabel_append (hl : Label label) (h : Text.decimalDigits? digits = some ds) :
    cutLabel (label ++ digits) = digits := by
  cases hl with
  | absent =>
    rw [List.nil_append]
    match digits, Text.decimalDigits?_eq_some_iff.1 h with
    | [], _ | [_], _ => rfl
    | c :: v :: rest, .cons hc _ =>
      have := ne_of_digitValue? hc
      rw [cutLabel, if_neg (by simp at this; omega)]
  | cv hc hv hb => rw [List.cons_append, List.cons_append, cutLabel, if_pos ⟨hc, hv⟩, Text.stripLeft_append hb, stripLeft_digits h]

theorem shortNumeral?_eq_some_iff : shortNumeral? t = some n ↔
    1 ≤ t.length ∧ t.length ≤ 4 ∧ ∃ ds, Text.decimalDigits? t = some ds ∧ Text.ofDigits 10 ds = n := by
  unfold shortNumeral?
  split
  · rename_i h
    simp [h]
  · rename_i h
    simp only [reduceCtorEq, false_iff]
    exact fun ⟨hone, hfour, _⟩ => h ⟨hone, hfour⟩

theorem parse_eq_ok_iff : parse raw = .ok cv ↔ Names raw.strip cv := by
  unfold parse
  dsimp only
  constructor
  · intro h
    split at h
    · cases h
    split at h
    · cases h
    rename_i n hn
    split at h
    · rename_i cv' hcv
      cases h
      obtain ⟨label, hl, ht⟩ := exists_label raw.strip
      obtain ⟨hone, hfour, ds, hds, rfl⟩ := shortNumeral?_eq_some_iff.1 hn
      have hvalue : Text.ofDigits 10 ds = cv.number := by
        have := ofInt?_eq_some_iff.1 hcv
        omega
      rw [ht]
      exact .intro hl hds hone hfour hvalue
    · cases h
  · intro h
    generalize raw.strip = t at h
    cases h with
    | intro hl hds hone hfour hvalue =>
      rename_i label digits ds
      have hne : (label ++ digits).isEmpty = false := by
        cases digits with
        | nil => simp at hone
        | cons => simp
      have hn : shortNumeral? digits = some cv.number := shortNumeral?_eq_some_iff.2 ⟨hone, hfour, ds, hds, hvalue⟩
      have hcv : ofInt? cv.number = some cv := ofInt?_eq_some_iff.2 rfl
      simp [hne, cutLabel_append hl hds, hn, hcv]

/-- No name holds an equals sign. -/
theorem Names.not_mem (h : Names t cv) : 0x3D ∉ t := by
  cases h with
  | intro hl hds =>
    intro hmem
    rcases List.mem_append.1 hmem with hmem | hmem
    · cases hl with
      | absent => cases hmem
      | cv hc hv hb =>
        simp only [List.mem_cons] at hmem
        rcases hmem with rfl | rfl | hmem
        · omega
        · omega
        · cases hb _ hmem
    · obtain ⟨d, -, hd⟩ := exists_of_forall₂_left (Text.decimalDigits?_eq_some_iff.1 hds) hmem
      exact ne_of_digitValue? hd (by simp)

theorem not_mem_of_parse (h : parse t = .ok cv) : 0x3D ∉ t :=
  fun hmem => (parse_eq_ok_iff.1 h).not_mem (Text.mem_strip hmem rfl)

/-- White space in front of a name does not matter. -/
theorem parse_stripLeft_eq_ok_iff : parse (Text.stripLeft t) = .ok cv ↔ parse t = .ok cv := by
  rw [parse_eq_ok_iff, parse_eq_ok_iff, Text.strip_stripLeft]

/-- The texts do not name the same CV. -/
def Apart (t t' : Text) : Prop := ∀ cv, parse t = .ok cv → parse t' ≠ .ok cv

end CvNumber

/-! ## Values -/

namespace ValueNumeral

/-- The text spells the numeral: decimal digits, or hexadecimal digits behind `0x`. -/
inductive Spells : Text → ValueNumeral → Prop
  | decimal {digits : Text} {ds : List Nat} : digits ≠ [] → Text.decimalDigits? digits = some ds →
      Spells digits (.decimal ds)
  | hexadecimal {x : Nat} {digits : Text} {ds : List Nat} : x = 0x78 ∨ x = 0x58 → digits ≠ [] →
      Text.hexDigits? digits = some ds → Spells (0x30 :: x :: digits) (.hexadecimal ds)

variable {t : Text} {numeral : ValueNumeral}

theorem parse?_eq_some_iff : parse? t = some numeral ↔ Spells (Text.stripLeft t) numeral := by
  unfold parse?
  generalize Text.stripLeft t = t
  cases t with
  | nil =>
    simp only [reduceCtorEq, false_iff]
    rintro (⟨h, -⟩ | _)
    exact h rfl
  | cons first rest =>
    dsimp only
    split
    · rename_i hx
      obtain ⟨rfl, hx⟩ := hx
      obtain _ | ⟨x, digits⟩ := rest
      · simp at hx
      have hx : x = 0x78 ∨ x = 0x58 := by simpa using hx
      have hletter : Text.digitValue? x = none := by rcases hx with rfl | rfl <;> rfl
      constructor
      · intro h
        split at h
        · cases h
        · rename_i hne
          obtain ⟨ds, hds, rfl⟩ := Option.map_eq_some_iff.1 h
          exact .hexadecimal hx (by simpa using hne) hds
      · intro h
        cases h with
        | decimal _ hds =>
          -- The letter is no digit.
          cases Text.decimalDigits?_eq_some_iff.1 hds with
          | cons _ htail =>
            cases htail with
            | cons hd => simp [hletter] at hd
        | hexadecimal _ hne hds => simp [hne, hds]
    · rename_i hx
      rw [Option.map_eq_some_iff]
      constructor
      · rintro ⟨ds, hds, rfl⟩
        exact .decimal (by simp) hds
      · intro h
        cases h with
        | decimal _ hds => exact ⟨_, hds, rfl⟩
        | hexadecimal hletter => exact absurd ⟨rfl, by simpa using hletter⟩ hx

/-- No numeral holds an equals sign. -/
theorem Spells.not_mem (h : Spells t numeral) : 0x3D ∉ t := by
  cases h with
  | decimal _ hds =>
    intro hmem
    obtain ⟨d, -, hd⟩ := exists_of_forall₂_left (Text.decimalDigits?_eq_some_iff.1 hds) hmem
    cases hd
  | hexadecimal hx _ hds =>
    intro hmem
    simp only [List.mem_cons] at hmem
    rcases hmem with hmem | rfl | hmem
    · cases hmem
    · omega
    · obtain ⟨d, -, hd⟩ := exists_of_forall₂_left (Text.hexDigits?_eq_some_iff.1 hds) hmem
      cases hd

end ValueNumeral

/-! ## Assignments -/

namespace Assignment

/-- The text reads as an assignment of what a numeral denotes to a CV. -/
def Reads (raw : Text) (cv : CvNumber) (numeral : ValueNumeral) : Prop :=
  ∃ left right, raw.strip = left ++ 0x3D :: right ∧ CvNumber.parse left = .ok cv ∧
    ValueNumeral.Spells (Text.stripLeft right) numeral

variable {raw t left : Text} {cv cv' : CvNumber} {numeral numeral' : ValueNumeral} {n : Nat} {a : Assignment}

theorem sides?_eq_some_iff : sides? t = some (left, numeral) ↔
    left ≠ [] ∧ 0x3D ∉ left ∧ ∃ right, t = left ++ 0x3D :: right ∧ ValueNumeral.Spells (Text.stripLeft right) numeral := by
  constructor
  · intro h
    unfold sides? at h
    split at h
    · cases h
    · cases h
    · rename_i left' right hne hcut
      obtain ⟨numeral', hn, he⟩ := Option.map_eq_some_iff.1 h
      cases he
      obtain ⟨ht, hmem⟩ := Text.cut_eq_some_iff.1 hcut
      exact ⟨fun hnil => hne hnil, hmem, right, ht, ValueNumeral.parse?_eq_some_iff.1 hn⟩
  · rintro ⟨hne, hmem, right, ht, hs⟩
    have hcut : Text.cut 0x3D t = (left, some right) := Text.cut_eq_some_iff.2 ⟨ht, hmem⟩
    cases left with
    | nil => exact absurd rfl hne
    | cons c rest => simp [sides?, hcut, ValueNumeral.parse?_eq_some_iff.2 hs]

theorem reads_iff : Reads raw cv numeral ↔ ∃ left, sides? raw.strip = some (left, numeral) ∧ CvNumber.parse left = .ok cv := by
  constructor
  · rintro ⟨left, right, ht, hcv, hs⟩
    have hne : left ≠ [] := by
      rintro rfl
      cases hcv
    exact ⟨left, sides?_eq_some_iff.2 ⟨hne, CvNumber.not_mem_of_parse hcv, right, ht, hs⟩, hcv⟩
  · rintro ⟨left, hsides, hcv⟩
    obtain ⟨-, -, right, ht, hs⟩ := sides?_eq_some_iff.1 hsides
    exact ⟨left, right, ht, hcv, hs⟩

/-- A text reads as one assignment at most. -/
theorem Reads.unique (h : Reads raw cv numeral) (h' : Reads raw cv' numeral') : cv = cv' ∧ numeral = numeral' := by
  obtain ⟨left, hsides, hcv⟩ := reads_iff.1 h
  obtain ⟨left', hsides', hcv'⟩ := reads_iff.1 h'
  obtain ⟨rfl, rfl⟩ := Prod.mk.inj (Option.some.inj (hsides.symm.trans hsides'))
  exact ⟨Except.ok.inj (hcv.symm.trans hcv'), rfl⟩

theorem parse_of_reads (h : Reads raw cv numeral) : parse raw = numeral.value >>= checkValue raw cv := by
  obtain ⟨left, hsides, hcv⟩ := reads_iff.1 h
  simp only [parse, hsides, hcv]
  cases numeral.value <;> simp only [bind, Except.bind]

theorem parse_of_not_reads (h : ∀ cv numeral, ¬ Reads raw cv numeral) :
    ∃ cause, parse raw = .error (.assignment ⟨raw, cause⟩) := by
  unfold parse
  split
  · exact ⟨_, rfl⟩
  · rename_i left numeral hsides
    cases hcv : CvNumber.parse left with
    | error f => exact ⟨_, rfl⟩
    | ok cv => exact absurd (reads_iff.2 ⟨left, hsides, hcv⟩) (h cv numeral)

theorem checkValue_eq_ok_iff : checkValue raw cv n = .ok a ↔ a.cv = cv ∧ a.value.val = n := by
  constructor
  · intro h
    unfold checkValue at h
    split at h
    · rename_i b hb
      cases h
      exact ⟨rfl, Int.ofNat.inj (Byte.ofInt?_eq_some_iff.1 hb)⟩
    · split at h <;> cases h
  · rintro ⟨rfl, rfl⟩
    have hb : Byte.ofInt? (a.value.val : Int) = some a.value := Byte.ofInt?_eq_some_iff.2 rfl
    unfold checkValue
    split
    · rename_i b hb'
      obtain rfl : a.value = b := Option.some.inj (hb.symm.trans hb')
      rfl
    · rename_i hnone
      rw [hb] at hnone
      cases hnone

theorem parse_eq_ok_iff : parse raw = .ok a ↔ ∃ numeral, Reads raw a.cv numeral ∧ numeral.value = .ok a.value.val := by
  constructor
  · intro h
    by_cases hreads : ∃ cv numeral, Reads raw cv numeral
    · obtain ⟨cv, numeral, hr⟩ := hreads
      rw [parse_of_reads hr, bind_eq_ok] at h
      obtain ⟨n, hn, h⟩ := h
      obtain ⟨rfl, rfl⟩ := checkValue_eq_ok_iff.1 h
      exact ⟨numeral, hr, hn⟩
    · obtain ⟨cause, hcause⟩ := parse_of_not_reads fun cv numeral hr => hreads ⟨cv, numeral, hr⟩
      rw [hcause] at h
      cases h
  · rintro ⟨numeral, hr, hn⟩
    rw [parse_of_reads hr, hn, ok_bind]
    exact checkValue_eq_ok_iff.2 ⟨rfl, rfl⟩

end Assignment

end DecoderId
