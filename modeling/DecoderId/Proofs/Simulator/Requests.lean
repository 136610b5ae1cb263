import DecoderId.Proofs.Simulator.Bytes

/-!
# Requests to a simulated decoder

A decoder of bytes answers every request of an identification, adds one entry to its log,
and goes on as a decoder of bytes (`Simulator.perform_serves`).
-/

namespace DecoderId

theorem Byte.ofInt_val (b : Byte) : Byte.ofInt b.val = .ok b := by
  rw [Byte.ofInt, Byte.ofInt?_val]

namespace Simulator

/-! ## Requests -/

/-- What a decoder with CVs that fail makes of a request: an entry of its log, and an outcome. -/
inductive Serves (failing : List Int) : Request → LogEntry → Outcome → Prop
  | readFailed {address : CvNumber} {optional : Bool} {reason : String} :
      (address.number : Int) ∈ failing →
      Serves failing (.read address optional) ⟨false, address.number, none⟩ (.failure reason)
  | readMissing {address : CvNumber} {optional : Bool} {reason : String} :
      (address.number : Int) ∉ failing →
      Serves failing (.read address optional) ⟨false, address.number, none⟩
        (if optional then .absent else .failure reason)
  | read {address : CvNumber} {optional : Bool} (b : Byte) :
      (address.number : Int) ∉ failing →
      Serves failing (.read address optional) ⟨false, address.number, some b.val⟩ (.value b)
  | writeFailed {address : CvNumber} {value : Byte} {reason : String} :
      (address.number : Int) ∈ failing →
      Serves failing (.write address value) ⟨true, address.number, some value.val⟩ (.failure reason)
  | write {address : CvNumber} {value : Byte} :
      (address.number : Int) ∉ failing →
      Serves failing (.write address value) ⟨true, address.number, some value.val⟩ (.value value)

variable {d : Simulator}

theorem outcomeOf_val (b : Byte) : outcomeOf b.val = .ok (.value b) := by
  rw [outcomeOf, Byte.ofInt_val]
  rfl

theorem exists_byte {v : Int} (h : 0 ≤ v ∧ v ≤ 255) : ∃ b : Byte, v = b.val :=
  ⟨⟨v.toNat, by omega⟩, (Int.toNat_of_nonneg h.1).symm⟩

theorem read_of_failing {address : Int} (h : address ∈ d.failing) (optional : Bool) :
    d.read address optional =
      ⟨d.logged ⟨false, address, none⟩, .ok (.failure ("CV " ++ Numeral.decimal address ++ " read failed")), []⟩ :=
  if_pos h

theorem read_of_missing {address : Int} (h : address ∉ d.failing) (hs : d.series? address = none) (optional : Bool) :
    d.read address optional =
      ⟨d.logged ⟨false, address, none⟩,
        .ok (if optional then .absent else .failure ("CV " ++ Numeral.decimal address ++ " not implemented")), []⟩ := by
  unfold read
  dsimp only
  rw [if_neg h, hs]

theorem read_of_series {address : Int} (h : address ∉ d.failing) {s : Series} (hs : d.series? address = some s)
    (optional : Bool) :
    d.read address optional =
      ⟨(d.setSeries address s.next).logged ⟨false, address, some s.first⟩, outcomeOf s.first, []⟩ := by
  unfold read
  dsimp only
  rw [if_neg h, hs]

/-- A decoder of bytes serves every request, logs it, and goes on as one. -/
theorem perform_serves (hd : AllBytes d.cvs) (request : Request) :
    ∃ e outcome, Serves d.failing request e outcome ∧ (port.perform d request).outcome = .ok outcome ∧
      (port.perform d request).state.log = d.log ++ [e] ∧ (port.perform d request).state.failing = d.failing ∧
      AllBytes (port.perform d request).state.cvs := by
  cases request with
  | read address optional =>
    have hkept : (d.read address.number optional).state.failing = d.failing :=
      failing_apply d (.read address.number optional)
    have hbytes := (read_of_allBytes hd address.number optional).1
    by_cases hf : (address.number : Int) ∈ d.failing
    · have hr := read_of_failing hf optional
      exact ⟨_, _, .readFailed hf, congrArg Reply.outcome hr, congrArg (·.state.log) hr, hkept, hbytes⟩
    · cases hs : d.series? address.number with
      | none =>
        have hr := read_of_missing hf hs optional
        exact ⟨_, _, .readMissing hf, congrArg Reply.outcome hr, congrArg (·.state.log) hr, hkept, hbytes⟩
      | some s =>
        have hr := read_of_series hf hs optional
        obtain ⟨b, hb⟩ := exists_byte (hd.served hs s.first List.mem_cons_self)
        rw [hb, outcomeOf_val] at hr
        exact ⟨_, _, .read b hf, congrArg Reply.outcome hr, congrArg (·.state.log) hr, hkept, hbytes⟩
  | write address value =>
    have hkept : (d.write address.number value.val).state.failing = d.failing :=
      failing_apply d (.write address.number value.val)
    have hvalue : ¬ d.Spoils (.write address.number value.val) := by
      have := value.isLt
      simp only [Spoils]
      omega
    have hbytes := (write_of_allBytes hd hvalue).1
    by_cases hf : (address.number : Int) ∈ d.failing
    · have hw := write_of_failing hf value.val
      exact ⟨_, _, .writeFailed hf, congrArg Reply.outcome hw, congrArg (·.state.log) hw, hkept, hbytes⟩
    · have hw := write_of_not_failing hf value.val
      rw [outcomeOf_val] at hw
      exact ⟨_, _, .write hf, congrArg Reply.outcome hw, congrArg (·.state.log) hw, hkept, hbytes⟩

/-! ## The log of a decoder that has been built -/

theorem log_decode {source : String} {data : Json} (h : Image.decode source data = .ok d) : d.log = [] := by
  obtain ⟨members, failing, -, hd, -⟩ := Image.decode_eq_ok_iff.1 h
  exact hd.log

theorem log_base {room : Nat} {disk : Disk} {image : Option Path} (h : Overlay.base room disk image = .ok d) : d.log = [] := by
  cases image with
  | none =>
    cases h
    rfl
  | some path =>
    obtain ⟨data, hdata⟩ := Image.exists_decode_of_load h
    exact log_decode hdata

/-- A decoder that has been built has not been asked for anything. -/
theorem Built.log (h : Built d) : d.log = [] := by
  cases h with
  | values h =>
    obtain ⟨d₀, hd₀, h⟩ := bind_eq_ok.1 h
    cases h
    refine foldlM_keeps (P := fun d => d.log = []) (fun d e _ d' hd h => ?_) rfl hd₀
    obtain ⟨s, -, rfl⟩ := map_eq_ok.1 h
    exact hd
  | image h => exact log_decode h
  | overlay h =>
    unfold Overlay.build at h
    split at h
    · cases h
    · rename_i base hbase
      refine foldlM_keeps (P := fun d => d.log = []) (fun d raw _ d' hd h => ?_) (log_base hbase) h
      obtain ⟨a, -, rfl⟩ := map_eq_ok.1 h
      exact hd

end Simulator

end DecoderId
