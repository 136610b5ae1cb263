import DecoderId.Proofs.Image.Parts

/-!
# Well-formed images

A well-formed image (`Image.WellFormed`) has one decoder that it describes (`Image.Describes`),
and every other image is refused (`Image.decode_iff_wellFormed`). The decoder has an entry for each member,
in their order, and comes out again if it is built anew from its own content.
-/

namespace DecoderId

namespace Image

/-- The image has these two parts: the CVs, and those that fail. -/
inductive Parts : Json → List (Text × Json) → List Json → Prop
  | named {members cvs : List (Text × Json)} {failing : List Json} :
      Assoc.get? members (Text.ofString "cvs") = some (.object cvs) →
      (Assoc.get? members (Text.ofString "fail")).getD (.array []) = .array failing →
      Parts (.object members) cvs failing
  | bare {members : List (Text × Json)} :
      Assoc.get? members (Text.ofString "cvs") = none → Parts (.object members) members []

/-- The image has its parts, names stand for different CVs, values serve bytes, and what is said
to fail stands for CVs. -/
def WellFormed (data : Json) : Prop :=
  ∃ members failing, Parts data members failing ∧
    (∀ m ∈ members, ∃ cv, CvNumber.parse m.1 = .ok cv) ∧ (members.map (·.1)).Pairwise CvNumber.Apart ∧
    (∀ m ∈ members, ∃ bytes, m.2.Serves bytes) ∧ ∀ v ∈ failing, ∃ cv, v.NamesCv cv

/-- The decoder that the parts of an image describe: an entry for each member, each with a CV of
its own, and the CVs that fail. -/
structure Describes (members : List (Text × Json)) (failing : List Json) (d : Simulator) : Prop where
  entries : List.Forall₂ Entry members d.cvs
  nodup : (d.cvs.map (·.1)).Nodup
  failing : List.Forall₂ (fun v n => ∃ cv : CvNumber, v.NamesCv cv ∧ (cv.number : Int) = n) failing d.failing
  log : d.log = []

variable {source : String} {data : Json} {members : List (Text × Json)} {failing : List Json} {d : Simulator} {f : Fault}

/-! ## Decoding -/

theorem parts_eq_ok_iff : parts source data = .ok (members, failing) ↔ Parts data members failing := by
  constructor
  · intro h
    cases data with
    | object all =>
      cases hcvs : Assoc.get? all (Text.ofString "cvs") with
      | none =>
        simp only [parts, hcvs] at h
        cases h
        exact .bare hcvs
      | some cvs =>
        simp only [parts, hcvs] at h
        split at h
        · rename_i hfail
          cases h
          exact .named hcvs hfail
        · cases h
        · cases h
    | _ => cases h
  · intro h
    cases h with
    | named hcvs hfail => simp only [parts, hcvs, hfail]
    | bare hcvs => simp only [parts, hcvs]

theorem refusal_parts (h : parts source data = .error f) (written : Prop) : Refusal source written f := by
  unfold parts at h
  split at h
  · dsimp only at h
    split at h
    · cases h
    · cases h
      exact ⟨_, rfl, fun _ => trivial⟩
    · cases h
      exact ⟨_, rfl, fun _ => trivial⟩
  · cases h
    exact ⟨_, rfl, fun _ => trivial⟩

/-- What can be written in the whole can be written in its parts. -/
theorem Parts.writable (h : Parts data members failing) (hw : data.Writable) :
    (∀ m ∈ members, m.2.Writable) ∧ ∀ v ∈ failing, v.Writable := by
  cases hw with
  | object hall =>
    cases h with
    | named hcvs hfail =>
      have hmembers : Json.Writable (.object members) := hall _ (Assoc.mem_of_get? hcvs)
      have hfailing : Json.Writable (.array failing) := by
        cases hentry : Assoc.get? _ (Text.ofString "fail") with
        | none =>
          rw [hentry] at hfail
          cases hfail
          exact .array (by simp)
        | some v =>
          rw [hentry] at hfail
          cases hfail
          exact hall _ (Assoc.mem_of_get? hentry)
      cases hmembers with
      | object hm =>
        cases hfailing with
        | array hv => exact ⟨hm, hv⟩
    | bare => exact ⟨hall, by simp⟩
  | _ => cases h

theorem decode_eq_ok_iff : decode source data = .ok d ↔
    ∃ members failing, Parts data members failing ∧ Describes members failing d ∧ d.source = source := by
  constructor
  · intro h
    obtain ⟨⟨members, failing⟩, hparts, h⟩ := bind_eq_ok.1 h
    obtain ⟨cvs, hcvs, h⟩ := bind_eq_ok.1 h
    obtain ⟨numbers, hnumbers, h⟩ := bind_eq_ok.1 h
    cases h
    obtain ⟨entries, hentries, hnodup, rfl⟩ := (addMembers_eq_ok_iff (by simp)).1 hcvs
    refine ⟨members, failing, parts_eq_ok_iff.1 hparts, ⟨hentries, hnodup, ?_, rfl⟩, rfl⟩
    exact (mapM_eq_ok_iff.1 hnumbers).imp fun v n hn => cvOf_eq_ok_iff.1 hn
  · rintro ⟨members, failing, hparts, ⟨hentries, hnodup, hfailing, hlog⟩, rfl⟩
    have hcvs : members.foldlM (addMember d.source) [] = .ok d.cvs :=
      (addMembers_eq_ok_iff (by simp)).2 ⟨d.cvs, hentries, hnodup, rfl⟩
    have hnumbers : failing.mapM (cvOf d.source) = .ok d.failing :=
      mapM_eq_ok_iff.2 (hfailing.imp fun v n hn => cvOf_eq_ok_iff.2 hn)
    simp only [decode, parts_eq_ok_iff.2 hparts, ok_bind, hcvs, hnumbers, ← hlog, pure, Except.pure]

/-- A decoder that a file makes is decoded from its path. -/
theorem exists_decode_of_load {room : Nat} {disk : Disk} {path : Path} (h : load room disk path = .ok d) :
    ∃ data, decode path.toString data = .ok d := by
  unfold load at h
  split at h
  · cases h
  split at h
  · cases h
  unfold read at h
  split at h
  · exact ⟨_, h⟩
  all_goals cases h

theorem refusal_decode (h : decode source data = .error f) : Refusal source data.Writable f := by
  rcases bind_eq_error.1 h with hparts | ⟨⟨members, failing⟩, hparts, h⟩
  · exact refusal_parts hparts _
  have hwritable := (parts_eq_ok_iff.1 hparts).writable
  rcases bind_eq_error.1 h with hcvs | ⟨cvs, -, h⟩
  · obtain ⟨before, m, after, _, rfl, -, hm⟩ := foldlM_eq_error_iff.1 hcvs
    exact (refusal_addMember hm).mono fun hw => (hwritable hw).1 m (by simp)
  rcases bind_eq_error.1 h with hnumbers | ⟨numbers, -, h⟩
  · obtain ⟨v, hv, hf⟩ := exists_of_mapM_error hnumbers
    exact (refusal_cvOf hf).mono fun hw => (hwritable hw).2 v hv
  · cases h

/-! ## Well-formed images -/

theorem Entry.apart_iff {m m' : Text × Json} {entry entry' : Int × Series} (h : Entry m entry) (h' : Entry m' entry') :
    CvNumber.Apart m.1 m'.1 ↔ entry.1 ≠ entry'.1 := by
  constructor
  · intro hapart heq
    obtain ⟨cv, hcv, hkey⟩ := h.names
    obtain ⟨cv', hcv', hkey'⟩ := h'.names
    obtain rfl : cv = cv' := CvNumber.number_inj (by rw [hkey, hkey', heq])
    exact hapart cv hcv hcv'
  · intro hne cv hcv hcv'
    exact hne ((h.number_eq hcv).symm.trans (h'.number_eq hcv'))

theorem nodup_iff_pairwise_apart {cvs : List (Int × Series)} (h : List.Forall₂ Entry members cvs) :
    (cvs.map (·.1)).Nodup ↔ (members.map (·.1)).Pairwise CvNumber.Apart := by
  rw [List.Nodup, List.pairwise_map, List.pairwise_map]
  exact (pairwise_iff_of_forall₂ h fun _ _ _ _ => Entry.apart_iff).symm

theorem exists_entry {m : Text × Json} (hname : ∃ cv, CvNumber.parse m.1 = .ok cv) (hvalue : ∃ bytes, m.2.Serves bytes) :
    ∃ entry, Entry m entry := by
  obtain ⟨cv, hcv⟩ := hname
  obtain ⟨bytes, hbytes⟩ := hvalue
  cases bytes with
  | nil => exact absurd rfl hbytes.ne_nil
  | cons first rest => exact ⟨(cv.number, ⟨first, rest⟩), ⟨cv, hcv, rfl⟩, hbytes⟩

theorem exists_describes_iff : (∃ d, Describes members failing d ∧ d.source = source) ↔
    (∀ m ∈ members, ∃ cv, CvNumber.parse m.1 = .ok cv) ∧ (members.map (·.1)).Pairwise CvNumber.Apart ∧
    (∀ m ∈ members, ∃ bytes, m.2.Serves bytes) ∧ ∀ v ∈ failing, ∃ cv, v.NamesCv cv := by
  constructor
  · rintro ⟨d, hd, -⟩
    refine ⟨fun m hm => ?_, (nodup_iff_pairwise_apart hd.entries).1 hd.nodup, fun m hm => ?_, fun v hv => ?_⟩
    · obtain ⟨_, -, hentry⟩ := exists_of_forall₂_left hd.entries hm
      exact hentry.names.imp fun _ => And.left
    · obtain ⟨_, -, hentry⟩ := exists_of_forall₂_left hd.entries hm
      exact ⟨_, hentry.serves⟩
    · obtain ⟨_, -, cv, hcv, -⟩ := exists_of_forall₂_left hd.failing hv
      exact ⟨cv, hcv⟩
  · rintro ⟨hnames, hapart, hvalues, hfailing⟩
    obtain ⟨cvs, hcvs⟩ := exists_forall₂ fun m hm => exists_entry (hnames m hm) (hvalues m hm)
    obtain ⟨numbers, hnumbers⟩ := exists_forall₂ (R := fun (v : Json) n => ∃ cv : CvNumber, v.NamesCv cv ∧ (cv.number : Int) = n)
      fun v hv => (hfailing v hv).elim fun cv hcv => ⟨_, cv, hcv, rfl⟩
    exact ⟨{ source, cvs, failing := numbers }, ⟨hcvs, (nodup_iff_pairwise_apart hcvs).2 hapart, hnumbers, rfl⟩, rfl⟩

theorem exists_decode_iff : (∃ d, decode source data = .ok d) ↔ WellFormed data := by
  constructor
  · rintro ⟨d, h⟩
    obtain ⟨members, failing, hparts, hd⟩ := decode_eq_ok_iff.1 h
    exact ⟨members, failing, hparts, exists_describes_iff.1 ⟨d, hd⟩⟩
  · rintro ⟨members, failing, hparts, h⟩
    obtain ⟨d, hd⟩ := exists_describes_iff.2 h
    exact ⟨d, decode_eq_ok_iff.2 ⟨members, failing, hparts, hd⟩⟩

/-! ## Building anew -/

/-- What each CV serves, as an image gives it. -/
def content (cvs : List (Int × Series)) : List (Int × Json) := cvs.map fun e => (e.1, .array (e.2.toList.map .int))

theorem assign_content {entry : Int × Series} (h : ∃ v : Json, v.Serves entry.2.toList) (d : Simulator) :
    d.assign entry.1 (.array (entry.2.toList.map .int)) = .ok (d.setSeries entry.1 entry.2) := by
  obtain ⟨v, hv⟩ := h
  have hs : Series.ofJson d.source entry.1 (.array (entry.2.toList.map .int)) = .ok entry.2 :=
    ofJson_eq_ok_iff.2 hv.array
  rw [Simulator.assign, hs]
  rfl

theorem foldlM_assign_content {cvs : List (Int × Series)} (h : ∀ e ∈ cvs, ∃ v : Json, v.Serves e.2.toList) (d : Simulator) :
    (content cvs).foldlM (fun (d : Simulator) (cv, raw) => d.assign cv raw) d = .ok { d with cvs := Assoc.setAll d.cvs cvs } := by
  induction cvs generalizing d with
  | nil => rfl
  | cons e cvs ih =>
    obtain ⟨hfirst, hrest⟩ := List.forall_mem_cons.1 h
    rw [content, List.map_cons, List.foldlM_cons]
    dsimp only
    rw [assign_content hfirst, ok_bind]
    exact ih hrest _

theorem Describes.build (h : Describes members failing d) :
    Simulator.build d.source (content d.cvs) d.failing = .ok d := by
  have hkeys : (content d.cvs).map (·.1) = d.cvs.map (·.1) := by rw [content, List.map_map]; rfl
  have hserves : ∀ e ∈ d.cvs, ∃ v : Json, v.Serves e.2.toList := fun e he => by
    obtain ⟨m, -, hentry⟩ := exists_of_forall₂_right h.entries he
    exact ⟨m.2, hentry.serves⟩
  have hall : Assoc.setAll [] d.cvs = d.cvs := Assoc.setAll_of_nodup h.nodup
  rw [Simulator.build, Assoc.ofList_of_nodup (hkeys ▸ h.nodup), foldlM_assign_content hserves, ok_bind, hall, ← h.log]
  rfl

theorem Describes.series? (h : Describes members failing d) {m : Text × Json} (hm : m ∈ members) {cv : CvNumber}
    (hcv : CvNumber.parse m.1 = .ok cv) : ∃ s, d.series? cv.number = some s ∧ m.2.Serves s.toList := by
  obtain ⟨entry, he, hentry⟩ := exists_of_forall₂_left h.entries hm
  refine ⟨entry.2, Assoc.get?_of_mem h.nodup ?_, hentry.serves⟩
  rw [hentry.number_eq hcv]
  exact he

theorem Describes.mem_failing_iff (h : Describes members failing d) {n : Int} :
    n ∈ d.failing ↔ ∃ v ∈ failing, ∃ cv : CvNumber, v.NamesCv cv ∧ (cv.number : Int) = n := by
  constructor
  · exact exists_of_forall₂_right h.failing
  · rintro ⟨v, hv, cv, hcv, rfl⟩
    obtain ⟨n, hn, cv', hcv', rfl⟩ := exists_of_forall₂_left h.failing hv
    obtain rfl := hcv.unique hcv'
    exact hn

/-- An image is decoded exactly when it is well formed. -/
theorem decode_iff_wellFormed (source : String) (data : Json) :
    ((∃ d, decode source data = .ok d) ↔ WellFormed data) ∧
    (∀ d, decode source data = .ok d → d.source = source ∧ ∃ members failing, Parts data members failing ∧
      Describes members failing d ∧ d.size = members.length ∧
      (∀ m ∈ members, ∀ cv, CvNumber.parse m.1 = .ok cv → ∃ s, d.series? cv.number = some s ∧ m.2.Serves s.toList) ∧
      (∀ n, n ∈ d.failing ↔ ∃ v ∈ failing, ∃ cv : CvNumber, v.NamesCv cv ∧ (cv.number : Int) = n) ∧
      Simulator.build source (content d.cvs) d.failing = .ok d) ∧
    (¬ WellFormed data → ∃ cause, decode source data = .error (.image ⟨source, cause⟩) ∧ (data.Writable → cause.Writable)) := by
  refine ⟨exists_decode_iff, fun d h => ?_, fun hdata => ?_⟩
  · obtain ⟨members, failing, hparts, hd, rfl⟩ := decode_eq_ok_iff.1 h
    exact ⟨rfl, members, failing, hparts, hd, hd.entries.length_eq.symm, fun m hm cv => hd.series? hm,
      fun n => hd.mem_failing_iff, hd.build⟩
  · cases h : decode source data with
    | ok d => exact absurd (exists_decode_iff.1 ⟨d, h⟩) hdata
    | error f =>
      obtain ⟨cause, rfl, hcause⟩ := refusal_decode h
      exact ⟨cause, rfl, hcause⟩

/-- An image of two CVs, the second of which serves two values and fails. -/
def twoCvs : Json :=
  .object [
    (Text.ofString "cvs", .object [(Text.ofString "8", .int 151), (Text.ofString "CV 7", .array [.int 1, .int 2])]),
    (Text.ofString "fail", .array [.text (Text.ofString "cv7")])]

theorem decode_twoCvs : WellFormed twoCvs ∧ ∃ d, decode "d.json" twoCvs = .ok d ∧ d.source = "d.json" ∧ d.failing = [7] := by
  have hd : decode "d.json" twoCvs = .ok { source := "d.json", cvs := [(8, ⟨151, []⟩), (7, ⟨1, [2]⟩)], failing := [7] } := by
    rfl
  exact ⟨(decode_iff_wellFormed "d.json" twoCvs).1.1 ⟨_, hd⟩, _, hd, ((decode_iff_wellFormed "d.json" twoCvs).2.1 _ hd).1, rfl⟩

end Image

end DecoderId
