import DecoderId.Proofs.Assignment.Limits
import DecoderId.Proofs.Command.Reports
import DecoderId.Proofs.Image.Load
import DecoderId.Proofs.Overlay.Assignments
import DecoderId.Proofs.Simulator.Locality

/-!
# How a simulated identification exits

Without a host, the decoder that an image and assignments describe is identified. Either it cannot be
built, or there is an identity, or an access to a CV fails (`Overlay.ComesTo`). The exit code
tells these apart, a report is printed for an identity alone, and it tells what the identity says, as
lines and as JSON (`Command.simulated_reports`).
-/

namespace DecoderId

/-! ## Identities of a run -/

theorem Machine.Stage.exists_bytes {m : Machine} {identity : Identity} (h : m.Stage) (hr : m.result = some identity) :
    ∃ code model : Byte, identity.manufacturerCode = some (code.val : Int) ∧ identity.modelCode = some (model.val : Int) := by
  cases h with
  | @done code model =>
    cases hr
    exact ⟨code, model, rfl, rfl⟩
  | _ => cases hr

/-- The codes of an identity that a run comes to are bytes. -/
theorem exists_bytes_of_identify {σ : Type} {port : Port σ} {s : σ} {identity : Identity}
    (h : (identify port s).answer = .ok identity) :
    ∃ code model : Byte, identity.manufacturerCode = some (code.val : Int) ∧ identity.modelCode = some (model.val : Int) := by
  obtain ⟨r, hr, hends, -⟩ := port.exists_last s
  rw [h] at hends
  cases hends with
  | @completed o _ _ ha =>
    have hresult := (hr.opened.stage.decides_advance hr.opened.pending o).result ha
    exact (Machine.stage_advance hr.opened.stage o).exists_bytes hresult

theorem Report.writable_of_identify {σ : Type} {port : Port σ} {s : σ} {identity : Identity}
    (h : (identify port s).answer = .ok identity) : Report.Writable identity := by
  obtain ⟨code, model, hcode, hmodel⟩ := exists_bytes_of_identify h
  have hbyte : ∀ b : Byte, Numeral.isWritable (b.val : Int) = true := fun b => by
    have := b.isLt
    exact Numeral.isWritable_of_lt (by omega)
  constructor
  · rw [hcode]
    rintro n ⟨⟩
    exact hbyte code
  · rw [hmodel]
    rintro n ⟨⟩
    exact hbyte model

/-! ## Faults of building -/

/-- The fault is in what the caller asks for: an assignment, an image, or a file that is not there. -/
inductive Fault.OfInput : Fault → Prop
  | assignment (f : AssignmentFault) : OfInput (.assignment f)
  | image (f : ImageFault) : OfInput (.image f)
  | missing (path : String) : OfInput (.file (.notFound path))

/-- What can go wrong before there is a decoder. -/
inductive Fault.OfBuilding : Fault → Prop
  | assignment (f : AssignmentFault) : OfBuilding (.assignment f)
  | image (f : ImageFault) : OfBuilding (.image f)
  | file (f : FileFault) : OfBuilding (.file f)
  | longNumeral (digits : Nat) : OfBuilding (.longNumeral digits)
  | longInteger : OfBuilding .longInteger
  | tooDeep (container : Json.Container) : OfBuilding (.tooDeep container)

variable {room : Nat} {disk : Disk} {image : Option Path} {path : Path} {raw : Text} {raws : List Text} {f : Fault}

theorem Assignment.fault_of_parse (h : Assignment.parse raw = .error f) : f.OfBuilding := by
  by_cases hlong : Assignment.Overlong raw
  · obtain ⟨f', hf', hlength⟩ := hlong.exists_fault
    rw [h] at hf'
    cases hf'
    cases hlength with
    | read => exact .longNumeral _
    | written => exact .longInteger
  · have ha := Assignment.answered_parse hlong
    rw [h] at ha
    cases ha with
    | refused => exact .assignment _

theorem Image.fault_of_load (h : Image.load room disk path = .error f) : f.OfBuilding := by
  cases hfile : disk path with
  | error f' =>
    simp only [Image.load, hfile] at h
    cases h
    exact .file f'
  | ok octets =>
    by_cases hlegible : Image.Legible room octets
    · have ht := Image.told_load hfile hlegible
      rw [h] at ht
      cases ht with
      | refused => exact .image _
    · obtain ⟨f', hf', hillegible⟩ := Image.load_of_not_legible hfile hlegible
      rw [h] at hf'
      cases hf'
      cases hillegible with
      | notUtf8 e => exact .file _
      | longNumeral digits => exact .longNumeral digits
      | tooDeep container => exact .tooDeep container

namespace Overlay

theorem fault_of_build (h : (build room disk image raws).2 = .error f) : f.OfBuilding := by
  rcases build_eq_error_iff.1 h with hbase | ⟨-, before, raw, after, -, -, hraw⟩
  · cases image with
    | none => cases hbase
    | some path => exact Image.fault_of_load hbase
  · exact Assignment.fault_of_parse hraw

/-- What an identification of the decoder that an image and assignments describe comes to. -/
inductive ComesTo (room : Nat) (disk : Disk) (image : Option Path) (raws : List Text) : Except Fault Identity → Prop
  | refused {f : Fault} : (build room disk image raws).2 = .error f → f.OfBuilding → ComesTo room disk image raws (.error f)
  | identified {d : Simulator} {identity : Identity} :
      (build room disk image raws).2 = .ok d → (identify Simulator.port d).answer = .ok identity →
      ComesTo room disk image raws (.ok identity)
  | failed {d : Simulator} {f : AccessFailure} :
      (build room disk image raws).2 = .ok d → (identify Simulator.port d).answer = .error (.access f) →
      ComesTo room disk image raws (.error (.access f))

theorem ComesTo.answer_eq {answer : Except Fault Identity} {d : Simulator} (h : ComesTo room disk image raws answer)
    (hbuilt : (build room disk image raws).2 = .ok d) : answer = (identify Simulator.port d).answer := by
  cases h with
  | refused hbuilt' =>
    rw [hbuilt] at hbuilt'
    cases hbuilt'
  | identified hbuilt' ha | failed hbuilt' ha =>
    rw [hbuilt] at hbuilt'
    cases hbuilt'
    exact ha.symm

end Overlay

namespace Command

/-- Options that ask for a simulated decoder. No host and an empty one are the same. -/
structure IdentifyOptions.Simulated (o : IdentifyOptions) : Prop where
  host : o.host.filter (!·.isEmpty) = none
  described : o.image.isSome = true ∨ o.assignments ≠ []

variable {o : IdentifyOptions}

/-- The decoder that the options describe is built and identified, and no client is called. -/
theorem runIdentify_of_simulated (h : o.Simulated) (room : Nat) (disk : Disk) (network : NetworkScript) (stamp : String) :
    ∃ v events answer, runIdentify room disk network stamp o = identified v o.json events answer ∧
      Overlay.ComesTo room disk (o.image.map Path.ofString) o.assignments answer := by
  have hsimulated : (o.image.isSome || !o.assignments.isEmpty) = true := by
    rcases h.described with himage | hassignments
    · simp [himage]
    · simp [hassignments]
  unfold runIdentify
  dsimp only
  rw [h.host, hsimulated]
  dsimp only [runSimulated]
  cases hbuilt : (Overlay.build room disk (o.image.map Path.ofString) o.assignments).2 with
  | error f => exact ⟨_, _, _, rfl, .refused hbuilt (Overlay.fault_of_build hbuilt)⟩
  | ok d =>
    refine ⟨_, _, _, rfl, ?_⟩
    rcases Simulator.identify_answer (Simulator.allBytes_overlay hbuilt) with ⟨identity, ha⟩ | ⟨f, ha⟩
    · rw [ha]
      exact .identified hbuilt ha
    · rw [ha]
      exact .failed hbuilt ha

/-! ## Exit codes -/

theorem faultClass_of_building (h : f.OfBuilding) :
    (faultClass f).2 = 2 ∧ f.OfInput ∨ (faultClass f).2 = 4 ∧ ¬ f.OfInput := by
  cases h with
  | assignment f => exact .inl ⟨rfl, .assignment f⟩
  | image f => exact .inl ⟨rfl, .image f⟩
  | file f =>
    cases f with
    | notFound path => exact .inl ⟨rfl, .missing path⟩
    | _ => exact .inr ⟨rfl, by rintro ⟨⟩⟩
  | _ => exact .inr ⟨rfl, by rintro ⟨⟩⟩

theorem ofLines_cons_ne_empty (line : String) (lines : List String) : ofLines (line :: lines) ≠ "" := by
  intro h
  have htext := congrArg String.toList h
  simp [ofLines] at htext

variable {answer : Except Fault Identity}

/-- The exit code tells how far the identification has come. -/
theorem exit_of_comesTo (h : Overlay.ComesTo room disk image raws answer) (v : Verbosity) (json : Bool) (events : List Event) :
    ((identified v json events answer).exit = 0 ↔ ∃ d identity,
      (Overlay.build room disk image raws).2 = .ok d ∧ (DecoderId.identify Simulator.port d).answer = .ok identity) ∧
    ((identified v json events answer).exit = 3 ↔ ∃ d f,
      (Overlay.build room disk image raws).2 = .ok d ∧ (DecoderId.identify Simulator.port d).answer = .error (.access f)) ∧
    ((identified v json events answer).exit = 2 ↔ ∃ f, (Overlay.build room disk image raws).2 = .error f ∧ f.OfInput) ∧
    ((identified v json events answer).exit = 4 ↔ ∃ f, (Overlay.build room disk image raws).2 = .error f ∧ ¬ f.OfInput) := by
  cases h with
  | refused hbuilt hf =>
    rcases faultClass_of_building hf with ⟨hexit, hinput⟩ | ⟨hexit, hinput⟩ <;> simp [identified, hexit, hbuilt, hinput]
  | identified hbuilt ha => simp [identified, hbuilt, ha]
  | failed hbuilt ha => simp [identified, faultClass, hbuilt, ha]

/-- Something is printed for an identity alone. -/
theorem stdout_of_comesTo (h : Overlay.ComesTo room disk image raws answer) (v : Verbosity) (json : Bool) (events : List Event) :
    (identified v json events answer).stdout = "" ↔ (identified v json events answer).exit ≠ 0 := by
  cases h with
  | refused _ hf => rcases faultClass_of_building hf with ⟨hexit, -⟩ | ⟨hexit, -⟩ <;> simp [identified, hexit]
  | identified => cases json <;> simp [identified, Report.identityLines, ofLines_cons_ne_empty]
  | failed => simp [identified, faultClass]

theorem stdout_of_identified {d : Simulator} {identity : Identity} (h : o.Simulated)
    (hbuilt : (Overlay.build room disk (o.image.map Path.ofString) o.assignments).2 = .ok d)
    (ha : (DecoderId.identify Simulator.port d).answer = .ok identity) (network : NetworkScript) (stamp : String) :
    (runIdentify room disk network stamp o).stdout =
      if o.json then ofLines [(Report.identityJson identity).render Report.indent]
      else ofLines (Report.identityLines identity) := by
  obtain ⟨v, events, answer, hrun, hanswer⟩ := runIdentify_of_simulated h room disk network stamp
  have hidentity := (hanswer.answer_eq hbuilt).trans ha
  rw [hrun, hidentity]
  rfl

/-- Whatever the image file and the assignments are, the exit code tells whether there is an identity, an access
has failed, or the decoder cannot be built, because of what the caller asks for or for another reason. Only
with an identity something is printed, from which both forms of the report are read back. No client is called. -/
theorem simulated_reports (h : o.Simulated) (room : Nat) (disk : Disk) (network : NetworkScript) (stamp : String) :
    let built := (Overlay.build room disk (o.image.map Path.ofString) o.assignments).2
    let out := (Invocation.identify o).run room disk network stamp
    (out.exit = 0 ↔ ∃ d identity, built = .ok d ∧ (DecoderId.identify Simulator.port d).answer = .ok identity) ∧
    (out.exit = 3 ↔ ∃ d f, built = .ok d ∧ (DecoderId.identify Simulator.port d).answer = .error (.access f)) ∧
    (out.exit = 2 ↔ ∃ f, built = .error f ∧ f.OfInput) ∧
    (out.exit = 4 ↔ ∃ f, built = .error f ∧ ¬ f.OfInput) ∧
    (out.exit = 0 ∨ out.exit = 2 ∨ out.exit = 3 ∨ out.exit = 4) ∧
    (out.stdout = "" ↔ out.exit ≠ 0) ∧
    (∀ d identity, built = .ok d → (DecoderId.identify Simulator.port d).answer = .ok identity →
      Report.ofLines? (Text.ofString ((Invocation.identify { o with json := false }).run room disk network stamp).stdout) =
          some (.ofIdentity identity) ∧
        Report.ofJson? (Text.ofString ((Invocation.identify { o with json := true }).run room disk network stamp).stdout) =
          some (.ofIdentity identity)) ∧
    out.calls = [] := by
  obtain ⟨v, events, answer, hrun, hanswer⟩ := runIdentify_of_simulated h room disk network stamp
  dsimp only [Invocation.run]
  obtain ⟨hzero, hthree, htwo, hfour⟩ := exit_of_comesTo hanswer v o.json events
  refine ⟨hrun ▸ hzero, hrun ▸ hthree, hrun ▸ htwo, hrun ▸ hfour, ?_, hrun ▸ stdout_of_comesTo hanswer v o.json events, ?_, ?_⟩
  · rw [hrun]
    cases hanswer with
    | refused _ hf => rcases faultClass_of_building hf with ⟨hexit, -⟩ | ⟨hexit, -⟩ <;> simp [identified, hexit]
    | identified => exact .inl rfl
    | failed => exact .inr (.inr (.inl rfl))
  · intro d identity hbuilt ha
    have hlines : IdentifyOptions.Simulated { o with json := false } := ⟨h.host, h.described⟩
    have hjson : IdentifyOptions.Simulated { o with json := true } := ⟨h.host, h.described⟩
    rw [stdout_of_identified hlines hbuilt ha, stdout_of_identified hjson hbuilt ha]
    exact ⟨Report.ofLines?_identityLines (Report.writable_of_identify ha),
      Report.ofJson?_identityJson (Report.writable_of_identify ha)⟩
  · rw [hrun]
    cases hanswer <;> rfl

/-- Assignments that describe a decoder with a product ID. -/
def namedDecoder : IdentifyOptions where
  assignments := [Text.ofString "8=145", Text.ofString "cv7=1", Text.ofString "250=0x1F"]

theorem simulated_reports_namedDecoder :
    namedDecoder.Simulated ∧
      ((Invocation.identify namedDecoder).run 1 (fun _ => .error .nullInName) {} "").exit = 0 ∧
      Report.ofLines? (Text.ofString ((Invocation.identify namedDecoder).run 1 (fun _ => .error .nullInName) {} "").stdout) =
        some ⟨some 145, Text.ofString "zimo", some 1, some 31⟩ ∧
      Report.ofJson? (Text.ofString ((Invocation.identify { namedDecoder with json := true }).run 1
        (fun _ => .error .nullInName) {} "").stdout) = some ⟨some 145, Text.ofString "zimo", some 1, some 31⟩ := by
  have hsimulated : namedDecoder.Simulated := ⟨rfl, .inr (by simp [namedDecoder])⟩
  have hbuilt : (Overlay.build 1 (fun _ => .error .nullInName) (namedDecoder.image.map Path.ofString) namedDecoder.assignments).2 =
      .ok { source := "<command line>", cvs := [(8, ⟨145, []⟩), (7, ⟨1, []⟩), (250, ⟨31, []⟩)] } := by rfl
  have hvalid : ∀ id ∈ some (31 : Int), isProductId id = true := by simp [isProductId]
  have hanswer : (DecoderId.identify Simulator.port
      { source := "<command line>", cvs := [(8, ⟨145, []⟩), (7, ⟨1, []⟩), (250, ⟨31, []⟩)] }).answer =
        .ok ⟨some 145, some 1, some 31, hvalid⟩ := by
    show (drive Simulator.port _ Machine.askingManufacturer Machine.askManufacturer).answer = _
    rw [drive_of_operate (o := .value 145) rfl rfl]
    rw [drive_of_operate (o := .value 1) rfl rfl]
    rw [drive_of_ok (o := .value 31) rfl]
    rfl
  obtain ⟨hzero, -, -, -, -, -, hreports, -⟩ := simulated_reports hsimulated 1 (fun _ => .error .nullInName) {} ""
  obtain ⟨hlines, hjson⟩ := hreports _ _ hbuilt hanswer
  exact ⟨hsimulated, hzero.2 ⟨_, _, hbuilt, hanswer⟩, hlines, hjson⟩

end Command

end DecoderId
