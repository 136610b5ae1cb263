import DecoderId.Image
import DecoderId.Proofs.Assignment.Grammar
import DecoderId.Proofs.Json.Writable

/-!
# The parts of an image

What each part of an image may be: a value serves bytes (`Json.Serves`), a name or a number
stands for a CV (`Json.NamesCv`), and a member adds an entry with a new CV
(`Image.addMember_eq_ok_iff`). Whatever else a part is, the image is refused with a cause that a
message can tell (`Image.Refusal`).
-/

namespace DecoderId

/-- The value serves these bytes: a byte, or a list of bytes with at least one. -/
inductive Json.Serves : Json → List Int → Prop
  | byte {n : Int} : 0 ≤ n ∧ n ≤ 255 → Serves (.int n) [n]
  | bytes {ns : List Int} : ns ≠ [] → (∀ n ∈ ns, 0 ≤ n ∧ n ≤ 255) → Serves (.array (ns.map .int)) ns

theorem Json.Serves.ne_nil {v : Json} {bytes : List Int} (h : v.Serves bytes) : bytes ≠ [] := by
  cases h with
  | byte => exact List.cons_ne_nil _ _
  | bytes hne => exact hne

theorem Json.Serves.range {v : Json} {bytes : List Int} (h : v.Serves bytes) : ∀ n ∈ bytes, 0 ≤ n ∧ n ≤ 255 := by
  cases h with
  | byte hn => exact List.forall_mem_singleton.2 hn
  | bytes _ hns => exact hns

/-- The bytes that are served may be listed. -/
theorem Json.Serves.array {v : Json} {bytes : List Int} (h : v.Serves bytes) : (Json.array (bytes.map .int)).Serves bytes :=
  .bytes h.ne_nil h.range

/-- The value names the CV: a text that does, or an integer whose decimal text does. -/
inductive Json.NamesCv : Json → CvNumber → Prop
  | text {t : Text} {cv : CvNumber} : CvNumber.parse t = .ok cv → NamesCv (.text t) cv
  | int {n : Int} {cv : CvNumber} : CvNumber.parse (Numeral.ofInt n) = .ok cv → NamesCv (.int n) cv

theorem Json.NamesCv.unique {v : Json} {cv cv' : CvNumber} (h : v.NamesCv cv) (h' : v.NamesCv cv') : cv = cv' := by
  cases h with
  | text h =>
    cases h' with
    | text h' => exact Except.ok.inj (h.symm.trans h')
  | int h =>
    cases h' with
    | int h' => exact Except.ok.inj (h.symm.trans h')

/-! ## Causes that can be told -/

/-- Every integer that the message tells can be written. -/
def AssignmentCause.Writable : AssignmentCause → Prop
  | .cvOutOfRange number => Numeral.isWritable number = true
  | .valueOutOfRange number value => Numeral.isWritable number = true ∧ Numeral.isWritable value = true
  | _ => True

/-- Every integer that the message tells can be written. -/
def ImageCause.Writable : ImageCause → Prop
  | .notACvNumber v => v.Writable
  | .cv fault => fault.cause.Writable
  | .duplicateCv number | .noValues number => Numeral.isWritable number = true
  | .notAnInteger number v => Numeral.isWritable number = true ∧ v.Writable
  | .valueOutOfRange number value => Numeral.isWritable number = true ∧ Numeral.isWritable value = true
  | _ => True

namespace Image

/-- The fault refuses the image from this source, with a cause that can be told if the image can
be written. -/
def Refusal (source : String) (written : Prop) (f : Fault) : Prop :=
  ∃ cause, f = .image ⟨source, cause⟩ ∧ (written → cause.Writable)

variable {source : String} {f : Fault} {raw v : Json} {cv n : Int} {t : Text}

theorem Refusal.mono {written written' : Prop} (h : Refusal source written f) (hw : written' → written) :
    Refusal source written' f := by
  obtain ⟨cause, rfl, hcause⟩ := h
  exact ⟨cause, rfl, hcause ∘ hw⟩

theorem isWritable_cv (cv : CvNumber) : Numeral.isWritable cv.number = true := by
  have hmax : cv.number ≤ 1024 := cv.le_max
  exact Numeral.isWritable_of_lt (by omega)

/-! ## Values -/

theorem checkValue_eq_ok_iff : Series.checkValue source cv v = .ok n ↔ v = .int n ∧ 0 ≤ n ∧ n ≤ 255 := by
  unfold Series.checkValue
  split
  · rename_i m
    split
    · rename_i hm
      constructor
      · rintro ⟨⟩
        exact ⟨rfl, hm⟩
      · rintro ⟨hmn, -⟩
        cases hmn
        rfl
    · rename_i hm
      constructor
      · rintro ⟨⟩
      · rintro ⟨hmn, hn⟩
        cases hmn
        exact absurd hn hm
  · rename_i hint
    constructor
    · rintro ⟨⟩
    · rintro ⟨hv, -⟩
      exact absurd hv (hint n)

theorem mapM_checkValue_eq_ok_iff {vs : List Json} {ns : List Int} :
    vs.mapM (Series.checkValue source cv) = .ok ns ↔ vs = ns.map .int ∧ ∀ n ∈ ns, 0 ≤ n ∧ n ≤ 255 := by
  rw [mapM_eq_ok_iff]
  constructor
  · intro h
    induction h with
    | nil => simp
    | cons hv _ ih =>
      obtain ⟨rfl, hn⟩ := checkValue_eq_ok_iff.1 hv
      obtain ⟨rfl, hns⟩ := ih
      exact ⟨rfl, List.forall_mem_cons.2 ⟨hn, hns⟩⟩
  · rintro ⟨rfl, hns⟩
    rw [List.forall₂_map_left_iff, List.forall₂_same]
    exact fun n hn => checkValue_eq_ok_iff.2 ⟨rfl, hns n hn⟩

/-- A value that is no list stands for the list of it alone. -/
theorem ofJson_singleton (h : ∀ vs, raw ≠ .array vs) : Series.ofJson source cv raw = Series.ofJson source cv (.array [raw]) := by
  cases raw with
  | array vs => exact absurd rfl (h vs)
  | _ => rfl

theorem ofJson_array_eq_ok_iff {vs : List Json} {s : Series} :
    Series.ofJson source cv (.array vs) = .ok s ↔ vs.mapM (Series.checkValue source cv) = .ok s.toList := by
  cases vs with
  | nil => simp [Series.ofJson, Series.toList, pure, Except.pure]
  | cons v rest =>
    simp only [Series.ofJson, List.mapM_cons, bind_eq_ok, Series.toList, pure, Except.pure, Except.ok.injEq, List.cons.injEq]
    constructor
    · rintro ⟨first, hfirst, ns, hns, rfl⟩
      exact ⟨first, hfirst, ns, hns, rfl, rfl⟩
    · rintro ⟨first, hfirst, ns, hns, rfl, rfl⟩
      exact ⟨s.first, hfirst, s.rest, hns, rfl⟩

theorem ofJson_eq_ok_iff {s : Series} : Series.ofJson source cv raw = .ok s ↔ raw.Serves s.toList := by
  by_cases harray : ∃ vs, raw = .array vs
  · obtain ⟨vs, rfl⟩ := harray
    rw [ofJson_array_eq_ok_iff, mapM_checkValue_eq_ok_iff]
    constructor
    · rintro ⟨rfl, hns⟩
      exact .bytes (List.cons_ne_nil _ _) hns
    · intro h
      cases h with
      | bytes _ hns => exact ⟨rfl, hns⟩
  · rw [ofJson_singleton fun vs hvs => harray ⟨vs, hvs⟩, ofJson_array_eq_ok_iff, mapM_checkValue_eq_ok_iff]
    constructor
    · rintro ⟨hs, hns⟩
      generalize s.toList = ns at hs hns
      cases ns with
      | nil => cases hs
      | cons n rest =>
        obtain ⟨rfl, hrest⟩ := List.cons.inj hs
        obtain rfl := List.map_eq_nil_iff.1 hrest.symm
        exact .byte (hns n List.mem_cons_self)
    · generalize s.toList = ns
      intro h
      cases h with
      | byte hn => exact ⟨rfl, List.forall_mem_singleton.2 hn⟩
      | bytes => exact absurd ⟨_, rfl⟩ harray

theorem refusal_checkValue (hcv : Numeral.isWritable cv = true) (h : Series.checkValue source cv v = .error f) :
    Refusal source v.Writable f := by
  unfold Series.checkValue at h
  split at h
  · split at h
    · cases h
    · cases h
      refine ⟨_, rfl, fun hv => ?_⟩
      cases hv with
      | int hn => exact ⟨hcv, hn⟩
  · cases h
    exact ⟨_, rfl, fun hv => ⟨hcv, hv⟩⟩

theorem refusal_ofJson_array {vs : List Json} (hcv : Numeral.isWritable cv = true)
    (h : Series.ofJson source cv (.array vs) = .error f) : Refusal source (∀ v ∈ vs, v.Writable) f := by
  cases vs with
  | nil =>
    cases h
    exact ⟨_, rfl, fun _ => hcv⟩
  | cons v rest =>
    rcases bind_eq_error.1 h with hfirst | ⟨first, -, h⟩
    · exact (refusal_checkValue hcv hfirst).mono fun hvs => hvs v List.mem_cons_self
    rcases bind_eq_error.1 h with hrest | ⟨ns, -, h⟩
    · obtain ⟨v', hv', hf⟩ := exists_of_mapM_error hrest
      exact (refusal_checkValue hcv hf).mono fun hvs => hvs v' (List.mem_cons_of_mem v hv')
    · cases h

theorem refusal_ofJson (hcv : Numeral.isWritable cv = true) (h : Series.ofJson source cv raw = .error f) :
    Refusal source raw.Writable f := by
  by_cases harray : ∃ vs, raw = .array vs
  · obtain ⟨vs, rfl⟩ := harray
    refine (refusal_ofJson_array hcv h).mono fun hraw => ?_
    cases hraw with
    | array hvs => exact hvs
  · rw [ofJson_singleton fun vs hvs => harray ⟨vs, hvs⟩] at h
    exact (refusal_ofJson_array hcv h).mono fun hraw => List.forall_mem_singleton.2 hraw

/-! ## Names -/

/-- A number that is told to be no CV has at most four digits. -/
theorem writable_cause {g : AssignmentFault} (h : CvNumber.parse t = .error g) : g.cause.Writable := by
  unfold CvNumber.parse at h
  dsimp only at h
  split at h
  · cases h
    trivial
  split at h
  · cases h
    trivial
  · rename_i number hnumber
    obtain ⟨-, hfour, ds, hds, rfl⟩ := CvNumber.shortNumeral?_eq_some_iff.1 hnumber
    split at h
    · cases h
    · cases h
      have hlength := (Text.decimalDigits?_eq_some_iff.1 hds).length_eq
      refine Numeral.isWritable_ofDigits (Text.lt_ten_of_decimalDigits? hds) ?_
      exact Nat.le_trans (hlength ▸ hfour) (by decide)

theorem cvOf_eq_ok_iff : cvOf source raw = .ok n ↔ ∃ cv : CvNumber, raw.NamesCv cv ∧ cv.number = n := by
  unfold cvOf
  dsimp only
  constructor
  · intro h
    split at h
    · split at h
      · rename_i cv hcv
        cases h
        exact ⟨cv, .text hcv, rfl⟩
      · cases h
    · split at h
      · rename_i cv hcv
        cases h
        exact ⟨cv, .int hcv, rfl⟩
      · cases h
    · cases h
  · rintro ⟨cv, h, rfl⟩
    cases h with
    | text h => simp only [h]
    | int h => simp only [h]

theorem refusal_cvOf (h : cvOf source raw = .error f) : Refusal source raw.Writable f := by
  unfold cvOf at h
  dsimp only at h
  split at h
  · split at h
    · cases h
    · rename_i g hg
      cases h
      exact ⟨_, rfl, fun _ => writable_cause hg⟩
  · split at h
    · cases h
    · rename_i g hg
      cases h
      exact ⟨_, rfl, fun _ => writable_cause hg⟩
  · cases h
    exact ⟨_, rfl, id⟩

/-! ## Members -/

/-- The member of an image makes this entry: its name stands for the CV, its value serves the series. -/
structure Entry (member : Text × Json) (entry : Int × Series) : Prop where
  names : ∃ cv : CvNumber, CvNumber.parse member.1 = .ok cv ∧ cv.number = entry.1
  serves : member.2.Serves entry.2.toList

variable {member : Text × Json} {members : List (Text × Json)} {cvs cvs' : List (Int × Series)}

theorem Entry.number_eq {entry : Int × Series} (h : Entry member entry) {cv : CvNumber}
    (hcv : CvNumber.parse member.1 = .ok cv) : (cv.number : Int) = entry.1 := by
  obtain ⟨cv', hcv', hkey⟩ := h.names
  rw [hcv] at hcv'
  cases hcv'
  exact hkey

/-- A member makes one entry only. -/
theorem Entry.unique {entry entry' : Int × Series} (h : Entry member entry) (h' : Entry member entry') : entry = entry' := by
  obtain ⟨cv, hcv, hkey⟩ := h.names
  have hs : Series.ofJson "" cv.number member.2 = .ok entry.2 := ofJson_eq_ok_iff.2 h.serves
  have hs' : Series.ofJson "" cv.number member.2 = .ok entry'.2 := ofJson_eq_ok_iff.2 h'.serves
  exact Prod.ext (hkey.symm.trans (h'.number_eq hcv)) (Except.ok.inj (hs.symm.trans hs'))

theorem addMember_eq_ok_iff : addMember source cvs member = .ok cvs' ↔
    ∃ entry, Entry member entry ∧ entry.1 ∉ cvs.map (·.1) ∧ cvs' = cvs ++ [entry] := by
  constructor
  · intro h
    obtain ⟨n, hn, h⟩ := bind_eq_ok.1 h
    obtain ⟨cv, hnames, rfl⟩ := cvOf_eq_ok_iff.1 hn
    cases hnames with
    | text hparse =>
      split at h
      · cases h
      · rename_i hnew
        obtain ⟨s, hs, h⟩ := bind_eq_ok.1 h
        cases h
        have hkey : (cv.number : Int) ∉ cvs.map (·.1) := Assoc.get?_eq_none_iff.1 (by simpa using hnew)
        exact ⟨(cv.number, s), ⟨⟨cv, hparse, rfl⟩, ofJson_eq_ok_iff.1 hs⟩, hkey, Assoc.set_of_not_mem hkey s⟩
  · rintro ⟨⟨n, s⟩, ⟨⟨cv, hparse, rfl⟩, hserves⟩, hkey, rfl⟩
    have hn : cvOf source (.text member.1) = .ok cv.number := cvOf_eq_ok_iff.2 ⟨cv, .text hparse, rfl⟩
    have hnew : Assoc.get? cvs (cv.number : Int) = none := Assoc.get?_eq_none_iff.2 hkey
    have hs : Series.ofJson source cv.number member.2 = .ok s := ofJson_eq_ok_iff.2 hserves
    simp [addMember, hn, hnew, hs, ok_bind, Assoc.set_of_not_mem hkey, pure, Except.pure]

theorem refusal_addMember (h : addMember source cvs member = .error f) : Refusal source member.2.Writable f := by
  rcases bind_eq_error.1 h with hn | ⟨n, hn, h⟩
  · exact (refusal_cvOf hn).mono fun _ => .text _
  obtain ⟨cv, -, rfl⟩ := cvOf_eq_ok_iff.1 hn
  split at h
  · cases h
    exact ⟨_, rfl, fun _ => isWritable_cv cv⟩
  · rcases bind_eq_error.1 h with hs | ⟨s, -, h⟩
    · exact refusal_ofJson (isWritable_cv cv) hs
    · cases h

theorem addMembers_eq_ok_iff (hcvs : (cvs.map (·.1)).Nodup) : members.foldlM (addMember source) cvs = .ok cvs' ↔
    ∃ entries, List.Forall₂ Entry members entries ∧ ((cvs ++ entries).map (·.1)).Nodup ∧ cvs' = cvs ++ entries := by
  induction members generalizing cvs with
  | nil => simp [pure, Except.pure, hcvs, eq_comm]
  | cons member members ih =>
    rw [List.foldlM_cons, bind_eq_ok]
    constructor
    · rintro ⟨cvs₁, hadd, h⟩
      obtain ⟨entry, hentry, hkey, rfl⟩ := addMember_eq_ok_iff.1 hadd
      obtain ⟨entries, hentries, hnodup, rfl⟩ := (ih (Assoc.nodup_snoc_iff.2 ⟨hkey, hcvs⟩)).1 h
      exact ⟨entry :: entries, .cons hentry hentries, by simpa using hnodup, by simp⟩
    · rintro ⟨_, h, hnodup, rfl⟩
      cases h with
      | cons hentry hentries =>
        rename_i entry entries
        rw [List.append_cons] at hnodup
        have hfirst := Assoc.nodup_left hnodup
        exact ⟨_, addMember_eq_ok_iff.2 ⟨entry, hentry, (Assoc.nodup_snoc_iff.1 hfirst).1, rfl⟩,
          (ih hfirst).2 ⟨entries, hentries, hnodup, List.append_cons ..⟩⟩

end Image

end DecoderId
