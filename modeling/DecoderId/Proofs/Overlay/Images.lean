import DecoderId.Overlay
import DecoderId.Proofs.Assignment.Written
import DecoderId.Proofs.Image.WellFormed

/-!
# Assignments and images

Names with integers describe a decoder in two ways: as assignments, and as the members of an
image. Both refuse the same names and values, and come to the same CVs
(`Overlay.build_agrees_with_image`). They differ in what a CV that is named twice means: the image
is refused, and of the assignments the last one counts.
-/

namespace DecoderId.Overlay

variable {pairs : List (Text × Int)} {raws : List Text} {d d' : Simulator} {p : Text × Int} {e : Int × Series}
  {entries : List (Int × Series)} {room : Nat} {disk : Disk} {source : String}

/-! ## Assignments -/

/-- The entry that an assignment makes. -/
def Assigns (raw : Text) (e : Int × Series) : Prop :=
  ∃ a, Assignment.parse raw = .ok a ∧ ((a.cv.number : Int), (⟨a.value.val, []⟩ : Series)) = e

theorem apply_eq_ok_iff {raw : Text} :
    apply d raw = .ok d' ↔ ∃ e, Assigns raw e ∧ d.setSeries e.1 e.2 = d' := by
  rw [apply, map_eq_ok]
  constructor
  · rintro ⟨a, ha, rfl⟩
    exact ⟨_, ⟨a, ha, rfl⟩, rfl⟩
  · rintro ⟨_, ⟨a, ha, rfl⟩, rfl⟩
    exact ⟨a, ha, rfl⟩

theorem foldlM_apply_eq_ok_iff : raws.foldlM apply d = .ok d' ↔
    ∃ entries, List.Forall₂ Assigns raws entries ∧ { d with cvs := Assoc.setAll d.cvs entries } = d' := by
  induction raws generalizing d with
  | nil => simp [pure, Except.pure, Assoc.setAll]
  | cons raw raws ih =>
    rw [List.foldlM_cons, bind_eq_ok]
    constructor
    · rintro ⟨d₁, hd₁, h⟩
      obtain ⟨e, he, rfl⟩ := apply_eq_ok_iff.1 hd₁
      obtain ⟨entries, hentries, rfl⟩ := ih.1 h
      exact ⟨e :: entries, .cons he hentries, rfl⟩
    · rintro ⟨_, h, rfl⟩
      cases h with
      | cons he hentries => exact ⟨_, apply_eq_ok_iff.2 ⟨_, he, rfl⟩, ih.2 ⟨_, hentries, rfl⟩⟩

/-! ## Two descriptions -/

/-- An assignment for each name. -/
def assignments (pairs : List (Text × Int)) : List Text := pairs.map fun p => Assignment.written p.1 p.2

/-- A member for each name. -/
def members (pairs : List (Text × Int)) : List (Text × Json) := pairs.map fun p => (p.1, .int p.2)

/-- An image of CVs alone, none of which fails. -/
def image (pairs : List (Text × Int)) : Json := .object [(Text.ofString "cvs", .object (members pairs))]

theorem serves_int_iff {v : Int} {s : Series} :
    (Json.int v).Serves s.toList ↔ (0 ≤ v ∧ v ≤ 255) ∧ s = ⟨v, []⟩ := by
  constructor
  · obtain ⟨first, rest⟩ := s
    intro h
    cases h with
    | byte hv => exact ⟨hv, rfl⟩
  · rintro ⟨hv, rfl⟩
    exact .byte hv

/-- An assignment makes the same entry as a member. -/
theorem assigns_iff_entry : Assigns (Assignment.written p.1 p.2) e ↔ Image.Entry (p.1, .int p.2) e := by
  constructor
  · rintro ⟨a, ha, rfl⟩
    obtain ⟨hcv, hvalue⟩ := Assignment.parse_written_eq_ok_iff.1 ha
    have hlt := a.value.isLt
    exact ⟨⟨a.cv, hcv, rfl⟩, serves_int_iff.2 ⟨by omega, by rw [hvalue]⟩⟩
  · obtain ⟨n, s⟩ := e
    rintro ⟨⟨cv, hcv, rfl⟩, hserves⟩
    obtain ⟨hrange, rfl⟩ := serves_int_iff.1 hserves
    obtain ⟨value, hvalue⟩ := Int.eq_ofNat_of_zero_le hrange.1
    have hlt : value < 256 := by omega
    exact ⟨⟨cv, ⟨value, hlt⟩⟩, Assignment.parse_written_eq_ok_iff.2 ⟨hcv, hvalue.symm⟩, by rw [hvalue]⟩

theorem forall₂_assigns_iff :
    List.Forall₂ Assigns (assignments pairs) entries ↔ List.Forall₂ Image.Entry (members pairs) entries := by
  simp only [assignments, members, List.forall₂_map_left_iff, assigns_iff_entry]

theorem build_eq_ok_iff : (build room disk none (assignments pairs)).2 = .ok d ↔
    ∃ entries, List.Forall₂ Image.Entry (members pairs) entries ∧
      { source := "<command line>", cvs := Assoc.setAll [] entries } = d := by
  simp only [← forall₂_assigns_iff]
  exact foldlM_apply_eq_ok_iff

theorem parts_image {all : List (Text × Json)} {failing : List Json} :
    Image.Parts (image pairs) all failing ↔ all = members pairs ∧ failing = [] := by
  constructor
  · intro h
    cases h with
    | named hcvs hfail =>
      cases hcvs
      cases hfail
      exact ⟨rfl, rfl⟩
    | bare hcvs => cases hcvs
  · rintro ⟨rfl, rfl⟩
    exact .named rfl rfl

theorem decode_image_eq_ok_iff : Image.decode source (image pairs) = .ok d ↔
    ∃ entries, List.Forall₂ Image.Entry (members pairs) entries ∧ (entries.map (·.1)).Nodup ∧
      { source, cvs := entries } = d := by
  rw [Image.decode_eq_ok_iff]
  constructor
  · rintro ⟨_, _, hparts, ⟨hentries, hnodup, hfailing, hlog⟩, rfl⟩
    obtain ⟨rfl, rfl⟩ := parts_image.1 hparts
    obtain ⟨source, cvs, failing, log⟩ := d
    cases hfailing
    cases hlog
    exact ⟨cvs, hentries, hnodup, rfl⟩
  · rintro ⟨entries, hentries, hnodup, rfl⟩
    exact ⟨_, _, parts_image.2 ⟨rfl, rfl⟩, ⟨hentries, hnodup, .nil, rfl⟩, rfl⟩

/-! ## Agreement -/

theorem pairwise_apart_members :
    ((members pairs).map (·.1)).Pairwise CvNumber.Apart ↔ (pairs.map (·.1)).Pairwise CvNumber.Apart := by
  rw [members, List.map_map]
  rfl

theorem entries_nodup_iff (h : List.Forall₂ Image.Entry (members pairs) entries) :
    (entries.map (·.1)).Nodup ↔ (pairs.map (·.1)).Pairwise CvNumber.Apart := by
  rw [Image.nodup_iff_pairwise_apart h, pairwise_apart_members]

theorem entries_unique {entries' : List (Int × Series)} (h : List.Forall₂ Image.Entry (members pairs) entries)
    (h' : List.Forall₂ Image.Entry (members pairs) entries') : entries = entries' := by
  have hunique : Relator.RightUnique Image.Entry := fun _ _ _ => Image.Entry.unique
  exact List.right_unique_forall₂' hunique h h'

/-- Without two names of one CV, both descriptions come to the entries of the members. -/
theorem build_agrees_of_apart (hapart : (pairs.map (·.1)).Pairwise CvNumber.Apart) :
    ((∃ d, (build room disk none (assignments pairs)).2 = .ok d) ↔ ∃ d, Image.decode source (image pairs) = .ok d) ∧
    ∀ d d', (build room disk none (assignments pairs)).2 = .ok d → Image.decode source (image pairs) = .ok d' →
      d.cvs = d'.cvs ∧ d.failing = [] ∧ d'.failing = [] := by
  refine ⟨⟨?_, ?_⟩, fun d d' h h' => ?_⟩
  · rintro ⟨d, h⟩
    obtain ⟨entries, hentries, -⟩ := build_eq_ok_iff.1 h
    exact ⟨_, decode_image_eq_ok_iff.2 ⟨entries, hentries, (entries_nodup_iff hentries).2 hapart, rfl⟩⟩
  · rintro ⟨d, h⟩
    obtain ⟨entries, hentries, -⟩ := decode_image_eq_ok_iff.1 h
    exact ⟨_, build_eq_ok_iff.2 ⟨entries, hentries, rfl⟩⟩
  · obtain ⟨entries, hentries, rfl⟩ := build_eq_ok_iff.1 h
    obtain ⟨entries', hentries', hnodup, rfl⟩ := decode_image_eq_ok_iff.1 h'
    obtain rfl := entries_unique hentries hentries'
    exact ⟨Assoc.setAll_of_nodup hnodup, rfl, rfl⟩

theorem refused_of_not_apart (hapart : ¬ (pairs.map (·.1)).Pairwise CvNumber.Apart) :
    ∃ cause, Image.decode source (image pairs) = .error (.image ⟨source, cause⟩) := by
  cases h : Image.decode source (image pairs) with
  | ok d =>
    obtain ⟨entries, hentries, hnodup, -⟩ := decode_image_eq_ok_iff.1 h
    exact absurd ((entries_nodup_iff hentries).1 hnodup) hapart
  | error f =>
    obtain ⟨cause, rfl, -⟩ := Image.refusal_decode h
    exact ⟨cause, rfl⟩

/-- Of the assignments to a CV the last one counts. -/
theorem series?_of_last {before after : List (Text × Int)} {cv : CvNumber}
    (h : (build room disk none (assignments (before ++ p :: after))).2 = .ok d) (hcv : CvNumber.parse p.1 = .ok cv)
    (hafter : ∀ q ∈ after, CvNumber.parse q.1 ≠ .ok cv) : d.series? cv.number = some ⟨p.2, []⟩ := by
  obtain ⟨entries, hentries, rfl⟩ := build_eq_ok_iff.1 h
  rw [members, List.map_append, List.map_cons] at hentries
  obtain ⟨first, e, last, rfl, hentry, hlast⟩ := exists_of_forall₂_append_cons hentries
  have hkey := hentry.number_eq hcv
  obtain ⟨-, hserves⟩ := serves_int_iff.1 hentry.serves
  have hnew : ∀ e' ∈ last, e'.1 ≠ e.1 := fun e' he' heq => by
    obtain ⟨m, hm, hentry'⟩ := exists_of_forall₂_right hlast he'
    obtain ⟨q, hq, rfl⟩ := List.mem_map.1 hm
    obtain ⟨cv', hcv', hkey'⟩ := hentry'.names
    obtain rfl : cv' = cv := CvNumber.number_inj (by rw [hkey', hkey, heq])
    exact hafter q hq hcv'
  rw [Simulator.series?, hkey, ← hserves]
  exact Assoc.get?_setAll_of_last [] first hnew

/-- Names with integers describe the same decoder as assignments and as an image, unless two names
stand for the same CV. -/
theorem build_agrees_with_image (room : Nat) (disk : Disk) (source : String) (pairs : List (Text × Int)) :
    ((pairs.map (·.1)).Pairwise CvNumber.Apart →
      ((∃ d, (build room disk none (assignments pairs)).2 = .ok d) ↔ ∃ d, Image.decode source (image pairs) = .ok d) ∧
      ∀ d d', (build room disk none (assignments pairs)).2 = .ok d → Image.decode source (image pairs) = .ok d' →
        d.cvs = d'.cvs ∧ d.failing = [] ∧ d'.failing = []) ∧
    (¬ (pairs.map (·.1)).Pairwise CvNumber.Apart →
      (∃ cause, Image.decode source (image pairs) = .error (.image ⟨source, cause⟩)) ∧
      ((∀ raw ∈ assignments pairs, ∃ a, Assignment.parse raw = .ok a) →
        ∃ d, (build room disk none (assignments pairs)).2 = .ok d ∧ d.failing = [] ∧
          ∀ before p after cv, pairs = before ++ p :: after → CvNumber.parse p.1 = .ok cv →
            (∀ q ∈ after, CvNumber.parse q.1 ≠ .ok cv) → d.series? cv.number = some ⟨p.2, []⟩)) := by
  refine ⟨build_agrees_of_apart, fun hapart => ⟨refused_of_not_apart hapart, fun hvalid => ?_⟩⟩
  have hassigns : ∀ raw ∈ assignments pairs, ∃ e, Assigns raw e := fun raw hraw =>
    (hvalid raw hraw).elim fun a ha => ⟨_, a, ha, rfl⟩
  obtain ⟨entries, hentries⟩ := exists_forall₂ hassigns
  have hbuild : (build room disk none (assignments pairs)).2 =
      .ok { source := "<command line>", cvs := Assoc.setAll [] entries } :=
    build_eq_ok_iff.2 ⟨entries, forall₂_assigns_iff.1 hentries, rfl⟩
  refine ⟨_, hbuild, rfl, fun before p after cv hpairs hcv hafter => ?_⟩
  subst hpairs
  exact series?_of_last hbuild hcv hafter

/-- Names of two CVs. -/
def twoNames : List (Text × Int) := [(Text.ofString "8", 151), (Text.ofString "cv 7", 3)]

/-- Two names of one CV. -/
def sameName : List (Text × Int) := [(Text.ofString "8", 151), (Text.ofString "cv 08", 3)]

theorem build_of_two_names :
    (∃ d, (build 1 (fun _ => .error .nullInName) none (assignments twoNames)).2 = .ok d) ∧
    ∃ d, (build 1 (fun _ => .error .nullInName) none (assignments sameName)).2 = .ok d ∧ d.series? 8 = some ⟨3, []⟩ := by
  have height : CvNumber.parse (Text.ofString "8") = .ok ⟨8, by decide, by decide⟩ := by rfl
  have height' : CvNumber.parse (Text.ofString "cv 08") = .ok ⟨8, by decide, by decide⟩ := by rfl
  have hseven : CvNumber.parse (Text.ofString "cv 7") = .ok ⟨7, by decide, by decide⟩ := by rfl
  constructor
  · have hapart : CvNumber.Apart (Text.ofString "8") (Text.ofString "cv 7") := by
      intro cv h h'
      cases height.symm.trans h
      cases hseven.symm.trans h'
    exact ((build_agrees_with_image 1 _ "<memory>" twoNames).1 (List.pairwise_pair.2 hapart)).1.2 ⟨_, rfl⟩
  · have hsame : ¬ (sameName.map (·.1)).Pairwise CvNumber.Apart := fun h => List.pairwise_pair.1 h _ height height'
    have hfirst : Assignment.parse (Assignment.written (Text.ofString "8") 151) =
        .ok ⟨⟨8, by decide, by decide⟩, ⟨151, by decide⟩⟩ :=
      Assignment.parse_written_eq_ok_iff.2 ⟨height, rfl⟩
    have hlast : Assignment.parse (Assignment.written (Text.ofString "cv 08") 3) =
        .ok ⟨⟨8, by decide, by decide⟩, ⟨3, by decide⟩⟩ :=
      Assignment.parse_written_eq_ok_iff.2 ⟨height', rfl⟩
    have hvalid : ∀ raw ∈ assignments sameName, ∃ a, Assignment.parse raw = .ok a :=
      List.forall_mem_cons.2 ⟨⟨_, hfirst⟩, List.forall_mem_singleton.2 ⟨_, hlast⟩⟩
    obtain ⟨d, hd, -, hseries⟩ := ((build_agrees_with_image 1 _ "<memory>" sameName).2 hsame).2 hvalid
    exact ⟨d, hd, hseries [_] (Text.ofString "cv 08", 3) [] _ rfl height' (by simp)⟩

end DecoderId.Overlay
