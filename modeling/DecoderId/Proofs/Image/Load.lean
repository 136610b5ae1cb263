import DecoderId.Command.Run
import DecoderId.Proofs.Image.WellFormed
import DecoderId.Proofs.Json.Limits

/-!
# Image files

A file of any octets makes a decoder or is refused as an image, with three exceptions: octets that
encode no text, integers of too many digits, and containers inside more others than the caller has left room for
(`Image.load_told_iff`). With these, the command exits as for an error that nobody expected.
-/

namespace DecoderId

namespace Image

/-- The octets encode a text that stays within the limits of a reader with so much room. -/
def Legible (room : Nat) (octets : List Nat) : Prop := ∃ t, Utf8.decode octets = .ok t ∧ ¬ Json.Exceeds room t.unifyLineEnds

/-- An answer to an image that a caller expects: a decoder from this source, or a refusal that can be told. -/
inductive Told (source : String) : Except Fault Simulator → Prop
  | loaded {d : Simulator} : d.source = source → Told source (.ok d)
  | refused {cause : ImageCause} : cause.Writable → Told source (.error (.image ⟨source, cause⟩))

/-- The fault of a file that is no legible image. -/
inductive Illegible : Fault → Prop
  | notUtf8 (e : Utf8.Error) : Illegible (.file (.notUtf8 e))
  | longNumeral (digits : Nat) : Illegible (.longNumeral digits)
  | tooDeep (container : Json.Container) : Illegible (.tooDeep container)

variable {room : Nat} {source : String} {t : Text} {octets : List Nat} {f : Fault}

theorem not_told_of_illegible (h : Illegible f) : ¬ Told source (.error f) := by
  intro ht
  cases h <;> cases ht

theorem told_read (h : ¬ Json.Exceeds room t) : Told source (read room source t) := by
  unfold read
  split
  · rename_i data hdata
    cases h : decode source data with
    | ok d =>
      obtain ⟨members, failing, hparts, hd, hsource⟩ := decode_eq_ok_iff.1 h
      exact .loaded hsource
    | error f =>
      obtain ⟨cause, rfl, hcause⟩ := refusal_decode h
      exact .refused (hcause (Json.writable_parse hdata))
  · exact .refused trivial
  · rename_i digits hdigits
    exact absurd (Json.parse_limit_iff.1 ⟨_, hdigits, .longInteger digits⟩) h
  · rename_i container hdepth
    exact absurd (Json.parse_limit_iff.1 ⟨_, hdepth, .tooDeep container⟩) h

theorem read_of_exceeds (source : String) (h : Json.Exceeds room t) : ∃ f, read room source t = .error f ∧ Illegible f := by
  obtain ⟨e, he, hlimit⟩ := Json.parse_limit_iff.2 h
  unfold read
  cases hlimit with
  | longInteger digits =>
    rw [he]
    exact ⟨_, rfl, .longNumeral digits⟩
  | tooDeep container =>
    rw [he]
    exact ⟨_, rfl, .tooDeep container⟩

variable {disk : Disk} {path : Path}

theorem told_load (hfile : disk path = .ok octets) (h : Legible room octets) : Told path.toString (load room disk path) := by
  obtain ⟨t, ht, hlimits⟩ := h
  simp only [load, hfile, ht]
  exact told_read hlimits

theorem load_of_not_legible (hfile : disk path = .ok octets) (h : ¬ Legible room octets) :
    ∃ f, load room disk path = .error f ∧ Illegible f := by
  simp only [load, hfile]
  cases ht : Utf8.decode octets with
  | error e => exact ⟨_, rfl, .notUtf8 e⟩
  | ok t =>
    by_cases hlimits : Json.Exceeds room t.unifyLineEnds
    · exact read_of_exceeds path.toString hlimits
    · exact absurd ⟨t, ht, hlimits⟩ h

theorem told_iff_legible (hfile : disk path = .ok octets) : Told path.toString (load room disk path) ↔ Legible room octets := by
  refine ⟨fun ht => ?_, told_load hfile⟩
  by_contra hlegible
  obtain ⟨f, hf, hillegible⟩ := load_of_not_legible hfile hlegible
  rw [hf] at ht
  exact not_told_of_illegible hillegible ht

theorem not_legible_iff (hfile : disk path = .ok octets) :
    ¬ Legible room octets ↔ ∃ f, load room disk path = .error f ∧ Illegible f := by
  refine ⟨load_of_not_legible hfile, ?_⟩
  rintro ⟨f, hf, hillegible⟩ hlegible
  have ht := told_load hfile hlegible
  rw [hf] at ht
  exact not_told_of_illegible hillegible ht

theorem load_notUtf8 (room : Nat) :
    load room (fun _ => .ok [0xFF]) (Path.ofString "d.json") = .error (.file (.notUtf8 ⟨0, 1, 0xFF, .invalidStart⟩)) := by
  rfl

/-! ## The command -/

open Command in
/-- Without a host, an image that cannot be loaded ends the command with its fault. -/
theorem exit_of_load {disk : Disk} {o : IdentifyOptions} {name : String} (hhost : o.host.filter (!·.isEmpty) = none)
    (himage : o.image = some name) (h : load room disk (Path.ofString name) = .error f) (network : NetworkScript) (stamp : String) :
    ((Invocation.identify o).run room disk network stamp).exit = (faultClass f).2 := by
  have hsimulated : (o.image.isSome || !o.assignments.isEmpty) = true := by simp [himage]
  rw [Invocation.run, runIdentify, hhost, hsimulated]
  simp only [runSimulated, Overlay.build, Overlay.base, himage, Option.map_some, h, identified]

theorem faultClass_of_illegible (h : Illegible f) : (Command.faultClass f).2 = 4 := by
  cases h <;> rfl

/-- A file that is there, whatever its octets, makes a decoder from its path or is refused as an image from
there, exactly when it is legible. If it makes no decoder, the command then exits with 2, and otherwise with 4.
The command may leave another room than the caller who loads the image directly. -/
theorem load_told_iff (room : Nat) (disk : Disk) (path : Path) (hfile : disk path = .ok octets) :
    (Told path.toString (load room disk path) ↔ Legible room octets) ∧
    (¬ Legible room octets ↔ ∃ f, load room disk path = .error f ∧ Illegible f) ∧
    ∀ (room' : Nat) (o : Command.IdentifyOptions) name network stamp, o.host.filter (!·.isEmpty) = none →
      o.image = some name → Path.ofString name = path → (∀ d, load room' disk path ≠ .ok d) →
      let out := (Command.Invocation.identify o).run room' disk network stamp
      (out.exit = 2 ↔ Legible room' octets) ∧ (out.exit = 4 ↔ ¬ Legible room' octets) := by
  refine ⟨told_iff_legible hfile, not_legible_iff hfile, ?_⟩
  rintro room' o name network stamp hhost himage rfl hload
  by_cases hlegible : Legible room' octets
  · have ht := told_load hfile hlegible
    cases h : load room' disk (Path.ofString name) with
    | ok d => exact absurd h (hload d)
    | error f =>
      rw [h] at ht
      dsimp only
      rw [exit_of_load hhost himage h]
      cases ht with
      | refused => simp [Command.faultClass, hlegible]
  · obtain ⟨f, hf, hillegible⟩ := load_of_not_legible hfile hlegible
    dsimp only
    rw [exit_of_load hhost himage hf, faultClass_of_illegible hillegible]
    simp [hlegible]

theorem load_told_iff_notUtf8 :
    Told "d.json" (load 1 (fun _ => .ok [0x7B, 0x7D]) (Path.ofString "d.json")) ∧ Legible 1 [0x7B, 0x7D] ∧
    ((Command.Invocation.identify { image := some "d.json" }).run 980 (fun _ => .ok [0xFF]) {} "").exit = 4 := by
  have hempty : load 1 (fun _ => .ok [0x7B, 0x7D]) (Path.ofString "d.json") = .ok { source := "d.json" } := by rfl
  have htold : Told "d.json" (load 1 (fun _ => .ok [0x7B, 0x7D]) (Path.ofString "d.json")) := by
    rw [hempty]
    exact .loaded rfl
  refine ⟨htold, (load_told_iff 1 (fun _ => .ok [0x7B, 0x7D]) (Path.ofString "d.json") rfl).1.1 htold, ?_⟩
  have hff := load_told_iff 980 (fun _ => .ok [0xFF]) (Path.ofString "d.json") rfl
  have hillegible : ¬ Legible 980 [0xFF] := hff.2.1.2 ⟨_, load_notUtf8 980, .notUtf8 _⟩
  refine (hff.2.2 980 { image := some "d.json" } "d.json" {} "" rfl rfl rfl fun d hd => ?_).2.2 hillegible
  rw [load_notUtf8] at hd
  cases hd

/-- Octets that encode no text are not told to be a bad image, however much room there is. -/
theorem not_told_of_notUtf8 :
    ¬ ∃ room, ∀ (disk : Disk) (path : Path) (octets : List Nat), disk path = .ok octets →
      Told path.toString (load room disk path) := by
  rintro ⟨room, h⟩
  have ht := h (fun _ => .ok [0xFF]) (Path.ofString "d.json") [0xFF] rfl
  rw [load_notUtf8] at ht
  exact not_told_of_illegible (.notUtf8 _) ht

end Image

end DecoderId
