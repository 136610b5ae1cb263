import DecoderId.Proofs.Overlay.Images
import DecoderId.Proofs.Simulator.History

/-!
# Assignments over an image

Assignments are operations on the decoder below them: each gives its CV the byte that it assigns,
and leaves all others alone. What a CV holds in the end is the last value that is assigned to it, or
else what it holds below, so that the order of assignments to different CVs does not matter
(`Overlay.build_overrides`). The first assignment that is refused ends the building.
-/

namespace DecoderId

/-- The operation that gives a decoder what is assigned. -/
def Assignment.op (a : Assignment) : Simulator.Op := .assign a.cv.number (.int a.value.val)

/-- The last assignment to a CV. -/
def Assignment.last? (assigned : List Assignment) (cv : Int) : Option Assignment :=
  (assigned.filter (·.cv.number = cv)).getLast?

namespace Overlay

/-- The first text that is no assignment, by the fault with which it is refused. -/
def FirstRefused (raws : List Text) (f : Fault) : Prop :=
  ∃ before raw after, raws = before ++ raw :: after ∧ (∀ r ∈ before, ∃ a, Assignment.parse r = .ok a) ∧
    Assignment.parse raw = .error f

variable {d : Simulator} {raws : List Text} {raw : Text} {a : Assignment} {assigned assigned' : List Assignment}
  {cv : Int} {room : Nat} {disk : Disk} {image : Option Path} {f : Fault}

/-! ## Assignments as operations -/

theorem gives_op (failing : List Int) (a : Assignment) : Simulator.Gives failing a.cv.number a.op [(a.value.val : Int)] := by
  have := a.value.isLt
  exact .assign (.byte (by omega))

theorem apply_of_parse (h : Assignment.parse raw = .ok a) (d : Simulator) : apply d raw = .ok (d.apply a.op) := by
  have := a.value.isLt
  have hseries : Series.ofJson d.source a.cv.number (.int a.value.val) = .ok ⟨a.value.val, []⟩ :=
    Image.ofJson_eq_ok_iff.2 (.byte (by omega))
  have hassign : d.assign a.cv.number (.int a.value.val) = .ok (d.setSeries a.cv.number ⟨a.value.val, []⟩) := by
    rw [Simulator.assign, hseries]
    rfl
  rw [apply, h, Assignment.op, Simulator.apply, hassign]
  rfl

theorem foldlM_apply (h : raws.mapM Assignment.parse = .ok assigned) (d : Simulator) :
    raws.foldlM apply d = .ok (d.run (assigned.map Assignment.op)) := by
  have hparsed := mapM_eq_ok_iff.1 h
  clear h
  induction hparsed generalizing d with
  | nil => rfl
  | cons hraw _ ih =>
    rw [List.foldlM_cons, apply_of_parse hraw, ok_bind]
    exact ih (d.apply _)

theorem values?_run_ops (d : Simulator) (assigned : List Assignment) (cv : Int) :
    (d.run (assigned.map Assignment.op)).values? cv =
      ((Assignment.last? assigned cv).map fun a => [(a.value.val : Int)]).or (d.values? cv) := by
  -- From the last assignment on, which is the one that counts if it is to this CV.
  induction assigned using List.reverseRecOn with
  | nil => rfl
  | append_singleton assigned a ih =>
    rw [List.map_append, List.map_singleton, Simulator.run_concat, Assignment.last?, List.filter_append]
    by_cases hcv : (a.cv.number : Int) = cv
    · subst hcv
      rw [Simulator.values?_apply_of_gives (gives_op _ a), List.filter_singleton, decide_eq_true rfl]
      simp
    · have hop : a.op.cv ≠ cv := hcv
      rw [Simulator.values?_apply_of_ne hop, ih, List.filter_singleton, decide_eq_false hcv, cond_false, List.append_nil,
        Assignment.last?]

/-- Of the assignments only those to the CV matter, in their order. -/
theorem outcome_of_reordered (h : assigned'.filter (·.cv.number = cv) = assigned.filter (·.cv.number = cv))
    (d : Simulator) (ops : List Simulator.Op) (optional : Bool) :
    (((d.run (assigned'.map Assignment.op)).run ops).read cv optional).outcome =
      (((d.run (assigned.map Assignment.op)).run ops).read cv optional).outcome := by
  have hfilter : ∀ l : List Assignment, (l.map Assignment.op).filter (·.cv = cv) =
      (l.filter (·.cv.number = cv)).map Assignment.op := fun l => List.filter_map
  rw [← Simulator.run_append, ← Simulator.run_append]
  refine Simulator.outcome_of_filter_eq ?_ optional
  rw [List.filter_append, List.filter_append, hfilter, hfilter, h]

/-! ## Building -/

theorem source_load {path : Path} (h : Image.load room disk path = .ok d) : d.source = path.toString := by
  obtain ⟨data, hdata⟩ := Image.exists_decode_of_load h
  obtain ⟨members, failing, -, -, hsource⟩ := Image.decode_eq_ok_iff.1 hdata
  exact hsource

theorem source_base (h : base room disk image = .ok d) : d.source = (image.map Path.toString).getD "<command line>" := by
  cases image with
  | none =>
    cases h
    rfl
  | some path => exact source_load h

theorem build_of_base (h : base room disk image = .ok d) (raws : List Text) :
    (build room disk image raws).2 = raws.foldlM apply d := by
  rw [build, h]

theorem build_of_refused_base (h : base room disk image = .error f) (raws : List Text) :
    (build room disk image raws).2 = .error f := by
  rw [build, h]

theorem foldlM_apply_eq_error_iff : raws.foldlM apply d = .error f ↔ FirstRefused raws f := by
  rw [foldlM_eq_error_iff]
  constructor
  · rintro ⟨before, raw, after, d', rfl, hbefore, hraw⟩
    obtain ⟨entries, hentries, -⟩ := foldlM_apply_eq_ok_iff.1 hbefore
    refine ⟨before, raw, after, rfl, fun r hr => ?_, ?_⟩
    · obtain ⟨e, -, a, ha, -⟩ := exists_of_forall₂_left hentries hr
      exact ⟨a, ha⟩
    · cases hparse : Assignment.parse raw with
      | error f' =>
        rw [apply, hparse] at hraw
        cases hraw
        rfl
      | ok a =>
        rw [apply_of_parse hparse] at hraw
        cases hraw
  · rintro ⟨before, raw, after, rfl, hbefore, hraw⟩
    obtain ⟨assigned, hassigned⟩ := exists_forall₂ hbefore
    refine ⟨before, raw, after, _, rfl, foldlM_apply (mapM_eq_ok_iff.2 hassigned) d, ?_⟩
    rw [apply, hraw]
    rfl

theorem build_eq_error_iff : (build room disk image raws).2 = .error f ↔
    base room disk image = .error f ∨ (∃ d, base room disk image = .ok d) ∧ FirstRefused raws f := by
  cases hbase : base room disk image with
  | error f' => simp [build_of_refused_base hbase]
  | ok d => simp [build_of_base hbase, foldlM_apply_eq_error_iff]

/-- Assignments that are all accepted make a decoder over the image: a CV holds the last value that is assigned
to it, or else the values of the image. What fails there fails for good, and any assignments which have the same
ones for each CV, in the same order, make a decoder that no reads can tell apart. Building stops at an
image that cannot be loaded, and otherwise at the first assignment that is refused. -/
theorem build_overrides (room : Nat) (disk : Disk) (image : Option Path) (raws : List Text) :
    (∀ d assigned, base room disk image = .ok d → raws.mapM Assignment.parse = .ok assigned →
      ∃ d', (build room disk image raws).2 = .ok d' ∧
        (∀ cv, d'.values? cv = ((Assignment.last? assigned cv).map fun a => [(a.value.val : Int)]).or (d.values? cv)) ∧
        d'.failing = d.failing ∧
        (∀ cv ∈ d.failing, ∀ ops optional,
          ((d'.run ops).read cv optional).outcome = .ok (.failure ("CV " ++ Numeral.decimal cv ++ " read failed"))) ∧
        d'.source = (image.map Path.toString).getD "<command line>" ∧
        ∀ raws' assigned', raws'.mapM Assignment.parse = .ok assigned' →
          (∀ cv : Int, assigned'.filter (·.cv.number = cv) = assigned.filter (·.cv.number = cv)) →
          ∃ d'', (build room disk image raws').2 = .ok d'' ∧
            ∀ ops cv optional,
              ((d''.run ops).read cv optional).outcome = ((d'.run ops).read cv optional).outcome) ∧
    ∀ f, (build room disk image raws).2 = .error f ↔
      base room disk image = .error f ∨ (∃ d, base room disk image = .ok d) ∧ FirstRefused raws f := by
  refine ⟨fun d assigned hbase hassigned => ?_, fun f => build_eq_error_iff⟩
  have hbuild : ∀ raws assigned, raws.mapM Assignment.parse = .ok assigned →
      (build room disk image raws).2 = .ok (d.run (assigned.map Assignment.op)) := fun raws assigned h => by
    rw [build_of_base hbase, foldlM_apply h]
  have hfailing : (d.run (assigned.map Assignment.op)).failing = d.failing := Simulator.failing_run d _
  refine ⟨_, hbuild raws assigned hassigned, values?_run_ops d assigned, hfailing, fun cv hcv ops optional => ?_, ?_,
    fun raws' assigned' hassigned' horder => ⟨_, hbuild raws' assigned' hassigned', fun ops cv optional => ?_⟩⟩
  · have hfails : cv ∈ ((d.run (assigned.map Assignment.op)).run ops).failing := by
      rwa [Simulator.failing_run, hfailing]
    rw [Simulator.read_of_failing hfails]
  · have hfold := (build_of_base hbase raws).symm.trans (hbuild raws assigned hassigned)
    obtain ⟨entries, -, hd'⟩ := foldlM_apply_eq_ok_iff.1 hfold
    have hsource : (d.run (assigned.map Assignment.op)).source = d.source := by rw [← hd']
    rw [hsource, source_base hbase]
  · exact outcome_of_reordered (horder cv) d ops optional

/-- An image with CVs of several values, and one that fails. -/
def pairedImage : List Nat :=
  Text.ofString "\x7b\"cvs\": \x7b\"8\": [145, 146], \"7\": 1, \"29\": [6, 2]\x7d, \"fail\": [\"7\"]\x7d"

/-- The decoder of the image. -/
def pairedDecoder : Simulator :=
  { source := "d.json", cvs := [(8, ⟨145, [146]⟩), (7, ⟨1, []⟩), (29, ⟨6, [2]⟩)], failing := [7] }

/-- Two assignments to the CV that fails and one to another. -/
def threeTexts : List Text := [Text.ofString "7=5", Text.ofString "8=97", Text.ofString "cv 07 = 0x06"]

/-- The same assignments with the one to the other CV in front. -/
def threeTextsReordered : List Text := [Text.ofString "8=97", Text.ofString "7=5", Text.ofString "cv 07 = 0x06"]

theorem build_overrides_pairedImage :
    ∃ d', (build 3 (fun _ => .ok pairedImage) (some (Path.ofString "d.json")) threeTexts).2 = .ok d' ∧
      d'.values? 7 = some [6] ∧ d'.values? 8 = some [97] ∧ d'.values? 29 = some [6, 2] ∧ d'.failing = [7] ∧
      (d'.read 7 true).outcome = .ok (.failure ("CV " ++ Numeral.decimal 7 ++ " read failed")) ∧
      ∃ d'', (build 3 (fun _ => .ok pairedImage) (some (Path.ofString "d.json")) threeTextsReordered).2 = .ok d'' ∧
        (d''.read 8 false).outcome = (d'.read 8 false).outcome := by
  have hbase : base 3 (fun _ => .ok pairedImage) (some (Path.ofString "d.json")) = .ok pairedDecoder := by rfl
  have hparsed : threeTexts.mapM Assignment.parse =
      .ok [⟨{ number := 7 }, ⟨5, by decide⟩⟩, ⟨{ number := 8 }, ⟨97, by decide⟩⟩, ⟨{ number := 7 }, ⟨6, by decide⟩⟩] := by
    rfl
  have hreordered : threeTextsReordered.mapM Assignment.parse =
      .ok [⟨{ number := 8 }, ⟨97, by decide⟩⟩, ⟨{ number := 7 }, ⟨5, by decide⟩⟩, ⟨{ number := 7 }, ⟨6, by decide⟩⟩] := by
    rfl
  obtain ⟨d', hbuild, hvalues, hfailing, hfails, -, horder⟩ :=
    (build_overrides 3 (fun _ => .ok pairedImage) (some (Path.ofString "d.json")) threeTexts).1 _ _ hbase hparsed
  obtain ⟨d'', hbuild', hreads⟩ := horder _ _ hreordered fun cv => by
    by_cases h7 : (7 : Int) = cv
    · have h8 : (8 : Int) ≠ cv := by omega
      simp [h7, h8]
    · simp [List.filter_cons, h7]
  exact ⟨d', hbuild, hvalues 7, hvalues 8, hvalues 29, hfailing, hfails 7 (by decide) [] true, d'', hbuild',
    hreads [] 8 false⟩

end Overlay

end DecoderId
