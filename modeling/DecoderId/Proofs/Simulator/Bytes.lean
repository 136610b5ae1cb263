import DecoderId.Overlay
import DecoderId.Proofs.Image.WellFormed

/-!
# The values of a simulated decoder

A decoder that has been built holds bytes, and goes on holding bytes as long as none but
bytes are written to it. A write stores its value before it looks at it, so that anything
else stays in the decoder although the write is refused (`Simulator.sane_iff`).
-/

namespace DecoderId

/-! ## Bytes -/

/-- All values of the series are bytes. There is one at least. -/
def Series.IsBytes (s : Series) : Prop := ∀ v ∈ s.toList, 0 ≤ v ∧ v ≤ 255

namespace Series

theorem isBytes_singleton {v : Int} : IsBytes ⟨v, []⟩ ↔ 0 ≤ v ∧ v ≤ 255 := by
  simp [IsBytes, toList]

theorem IsBytes.next {s : Series} (h : s.IsBytes) : s.next.IsBytes := by
  obtain ⟨first, _ | ⟨v, rest⟩⟩ := s
  · exact h
  · exact fun w hw => h w (List.mem_cons_of_mem first hw)

theorem isBytes_ofJson {source : String} {cv : Int} {raw : Json} {s : Series} (h : ofJson source cv raw = .ok s) :
    s.IsBytes :=
  (Image.ofJson_eq_ok_iff.1 h).range

end Series

/-- All series of the list are of bytes. -/
def AllBytes (cvs : List (Int × Series)) : Prop := ∀ e ∈ cvs, e.2.IsBytes

theorem allBytes_nil : AllBytes [] := by
  simp [AllBytes]

theorem AllBytes.insert {cvs : List (Int × Series)} (h : AllBytes cvs) {s : Series} (hs : s.IsBytes) (cv : Int) :
    AllBytes (Assoc.set cvs cv s) := by
  intro e he
  rcases Assoc.mem_set he with rfl | he
  · exact hs
  · exact h e he

theorem AllBytes.served {cvs : List (Int × Series)} (h : AllBytes cvs) {cv : Int} {s : Series}
    (hs : Assoc.get? cvs cv = some s) : s.IsBytes :=
  h _ (Assoc.mem_of_get? hs)

namespace Simulator

/-! ## Decoders that have been built -/

/-- A decoder that has been built from values, an image, or the command line. -/
inductive Built : Simulator → Prop
  | values {source : String} {cvs : List (Int × Json)} {failing : List Int} {d : Simulator} :
      build source cvs failing = .ok d → Built d
  | image {source : String} {data : Json} {d : Simulator} : Image.decode source data = .ok d → Built d
  | overlay {room : Nat} {disk : Disk} {image : Option Path} {assignments : List Text} {d : Simulator} :
      (Overlay.build room disk image assignments).2 = .ok d → Built d

variable {d d' : Simulator}

theorem allBytes_assign {cv : Int} {raw : Json} (hd : AllBytes d.cvs) (h : d.assign cv raw = .ok d') :
    AllBytes d'.cvs := by
  obtain ⟨s, hs, rfl⟩ := map_eq_ok.1 h
  exact hd.insert (Series.isBytes_ofJson hs) cv

theorem allBytes_build {source : String} {cvs : List (Int × Json)} {failing : List Int}
    (h : build source cvs failing = .ok d) : AllBytes d.cvs := by
  obtain ⟨d₀, hd₀, h⟩ := bind_eq_ok.1 h
  cases h
  exact foldlM_keeps (P := fun d => AllBytes d.cvs) (fun d e _ d' hd h => allBytes_assign hd h) allBytes_nil hd₀

theorem allBytes_decode {source : String} {data : Json} (h : Image.decode source data = .ok d) : AllBytes d.cvs := by
  obtain ⟨members, failing, -, hd, -⟩ := Image.decode_eq_ok_iff.1 h
  intro e he
  obtain ⟨m, -, hentry⟩ := exists_of_forall₂_right hd.entries he
  exact hentry.serves.range

theorem allBytes_load {room : Nat} {disk : Disk} {path : Path} (h : Image.load room disk path = .ok d) : AllBytes d.cvs := by
  obtain ⟨data, hdata⟩ := Image.exists_decode_of_load h
  exact allBytes_decode hdata

theorem allBytes_overlay {room : Nat} {disk : Disk} {image : Option Path} {assignments : List Text}
    (h : (Overlay.build room disk image assignments).2 = .ok d) : AllBytes d.cvs := by
  unfold Overlay.build at h
  split at h
  · cases h
  · rename_i base hbase
    have hb : AllBytes base.cvs := by
      cases image with
      | none =>
        cases hbase
        exact allBytes_nil
      | some path => exact allBytes_load hbase
    refine foldlM_keeps (P := fun d => AllBytes d.cvs) (fun d raw _ d' hd h => ?_) hb h
    obtain ⟨a, -, rfl⟩ := map_eq_ok.1 h
    have := a.value.isLt
    exact hd.insert (Series.isBytes_singleton.2 (by omega)) a.cv.number

theorem Built.allBytes (h : Built d) : AllBytes d.cvs := by
  cases h with
  | values h => exact allBytes_build h
  | image h => exact allBytes_decode h
  | overlay h => exact allBytes_overlay h

/-! ## Operations -/

/-- An operation on a decoder. Addresses and values may be anything. -/
inductive Op where
  | read (address : Int) (optional : Bool)
  | write (address value : Int)
  | assign (address : Int) (raw : Json)

/-- The decoder after an operation, whatever the answer. A refused assignment changes nothing. -/
def apply (d : Simulator) : Op → Simulator
  | .read address optional => (d.read address optional).state
  | .write address value => (d.write address value).state
  | .assign address raw =>
    match d.assign address raw with
    | .ok d' => d'
    | .error _ => d

/-- The decoder after some operations. -/
def run (d : Simulator) (ops : List Op) : Simulator := ops.foldl apply d

/-- The answer to the operation is a fault. -/
def Refuses (d : Simulator) : Op → Prop
  | .read address optional => ∃ f, (d.read address optional).outcome = .error f
  | .write address value => ∃ f, (d.write address value).outcome = .error f
  | .assign address raw => ∃ f, d.assign address raw = .error f

/-- The decoder holds bytes after the operation, and just the CVs that it held before if the
operation is refused. A read is not refused. -/
structure Sane (d : Simulator) (op : Op) : Prop where
  bytes : AllBytes (d.apply op).cvs
  unchanged : d.Refuses op → (d.apply op).cvs = d.cvs
  served : ∀ address optional, op = .read address optional → ¬ d.Refuses op

/-- The operation writes a value that is no byte to a CV that does not fail. -/
def Spoils (d : Simulator) : Op → Prop
  | .write address value => address ∉ d.failing ∧ ¬ (0 ≤ value ∧ value ≤ 255)
  | .read _ _ | .assign _ _ => False

theorem outcomeOf_of_byte {v : Int} (h : 0 ≤ v ∧ v ≤ 255) : ∃ outcome, outcomeOf v = .ok outcome := by
  have hb : Byte.ofInt? v = some ⟨v.toNat, by omega⟩ := Byte.ofInt?_eq_some_iff.2 (Int.toNat_of_nonneg h.1)
  unfold outcomeOf Byte.ofInt
  rw [hb]
  exact ⟨_, rfl⟩

theorem failing_apply (d : Simulator) (op : Op) : (d.apply op).failing = d.failing := by
  cases op with
  | read address optional =>
    simp only [apply, read]
    split
    · rfl
    · split <;> rfl
  | write address value =>
    simp only [apply, write]
    split <;> rfl
  | assign address raw =>
    simp only [apply]
    split
    · rename_i d' h
      obtain ⟨s, -, rfl⟩ := map_eq_ok.1 h
      rfl
    · rfl

theorem read_of_allBytes (hd : AllBytes d.cvs) (address : Int) (optional : Bool) :
    AllBytes (d.read address optional).state.cvs ∧ ∃ outcome, (d.read address optional).outcome = .ok outcome := by
  unfold read
  dsimp only
  split
  · exact ⟨hd, _, rfl⟩
  · split
    · exact ⟨hd, _, rfl⟩
    · rename_i s hs
      have hbytes : s.IsBytes := hd.served hs
      exact ⟨hd.insert hbytes.next address, outcomeOf_of_byte (hbytes s.first List.mem_cons_self)⟩

theorem write_of_failing {address : Int} (h : address ∈ d.failing) (value : Int) :
    d.write address value =
      ⟨d.logged ⟨true, address, some value⟩, .ok (.failure ("CV " ++ Numeral.decimal address ++ " write failed")), []⟩ :=
  if_pos h

theorem write_of_not_failing {address : Int} (h : address ∉ d.failing) (value : Int) :
    d.write address value =
      ⟨(d.logged ⟨true, address, some value⟩).setSeries address ⟨value, []⟩, outcomeOf value, []⟩ :=
  if_neg h

theorem write_of_allBytes (hd : AllBytes d.cvs) {address value : Int} (h : ¬ d.Spoils (.write address value)) :
    AllBytes (d.write address value).state.cvs ∧ ∃ outcome, (d.write address value).outcome = .ok outcome := by
  by_cases hf : address ∈ d.failing
  · rw [write_of_failing hf]
    exact ⟨hd, _, rfl⟩
  · have hbyte : 0 ≤ value ∧ value ≤ 255 := Decidable.byContradiction fun hn => h ⟨hf, hn⟩
    rw [write_of_not_failing hf]
    exact ⟨hd.insert (Series.isBytes_singleton.2 hbyte) address, outcomeOf_of_byte hbyte⟩

/-- Bytes stay bytes, unless the operation stores something else. -/
theorem sane_of_allBytes (hd : AllBytes d.cvs) {op : Op} (h : ¬ d.Spoils op) : d.Sane op := by
  cases op with
  | read address optional =>
    obtain ⟨hbytes, outcome, ho⟩ := read_of_allBytes hd address optional
    have hserved : ¬ d.Refuses (.read address optional) := fun ⟨f, hf⟩ => by simp [ho] at hf
    exact ⟨hbytes, fun hr => absurd hr hserved, fun _ _ _ => hserved⟩
  | write address value =>
    obtain ⟨hbytes, outcome, ho⟩ := write_of_allBytes hd h
    have hstored : ¬ d.Refuses (.write address value) := fun ⟨f, hf⟩ => by simp [ho] at hf
    exact ⟨hbytes, fun hr => absurd hr hstored, fun _ _ he => nomatch he⟩
  | assign address raw =>
    cases ha : d.assign address raw with
    | ok d' =>
      refine ⟨?_, ?_, fun _ _ he => nomatch he⟩
      · simp only [apply, ha]
        exact allBytes_assign hd ha
      · rintro ⟨f, hf⟩
        simp [ha] at hf
    | error f =>
      refine ⟨?_, ?_, fun _ _ he => nomatch he⟩
      · simp only [apply, ha]
        exact hd
      · intro _
        simp only [apply, ha]

/-- A write stores its value before it looks at it. -/
theorem not_sane_of_spoils {op : Op} (h : d.Spoils op) : ¬ d.Sane op := by
  cases op with
  | read | assign => cases h
  | write address value =>
    obtain ⟨hf, hv⟩ := h
    intro hs
    -- The value would be a byte, as all that the decoder holds.
    have hstored : Assoc.get? (d.apply (.write address value)).cvs address = some ⟨value, []⟩ := by
      simp only [apply, write_of_not_failing hf]
      exact Assoc.get?_set_self ..
    exact hv (Series.isBytes_singleton.1 (hs.bytes.served hstored))

/-! ## Runs -/

theorem spoils_apply (d : Simulator) (op op' : Op) : (d.apply op).Spoils op' ↔ d.Spoils op' := by
  cases op' with
  | read | assign => exact .rfl
  | write address value => simp only [Spoils, failing_apply]

theorem sane_run (hd : AllBytes d.cvs) (ops : List Op) :
    (∀ before op after, ops = before ++ op :: after → (d.run before).Sane op) ↔ ∀ op ∈ ops, ¬ d.Spoils op := by
  -- On the first operation: a sane one leaves bytes, so that the rest is a run of the same kind.
  induction ops generalizing d with
  | nil => simp
  | cons first rest ih =>
    constructor
    · intro h
      have hs : d.Sane first := h [] first rest rfl
      have hrest : ∀ op ∈ rest, ¬ (d.apply first).Spoils op :=
        (ih hs.bytes).1 fun before op after he => h (first :: before) op after (by rw [he]; rfl)
      intro op hop
      rcases List.mem_cons.1 hop with rfl | hop
      · exact fun hsp => not_sane_of_spoils hsp hs
      · exact fun hsp => hrest op hop ((spoils_apply d first op).2 hsp)
    · intro h before op after he
      have hs : d.Sane first := sane_of_allBytes hd (h first List.mem_cons_self)
      cases before with
      | nil =>
        obtain ⟨rfl, -⟩ := List.cons.inj he
        exact hs
      | cons _ before =>
        obtain ⟨rfl, hrest⟩ := List.cons.inj he
        refine (ih hs.bytes).2 (fun op' hop' hsp => ?_) before op after hrest
        exact h op' (List.mem_cons_of_mem first hop') ((spoils_apply d first op').1 hsp)

/-- A decoder that has been built keeps to bytes, loses nothing to a refused operation, and answers
every read, exactly when nothing but bytes is written to the CVs that do not fail. -/
theorem sane_iff (hd : d.Built) (ops : List Op) :
    (∀ before op after, ops = before ++ op :: after → (d.run before).Sane op) ↔ ∀ op ∈ ops, ¬ d.Spoils op :=
  sane_run hd.allBytes ops

theorem sane_iff_two_values :
    Built { cvs := [(56, ⟨1, [2]⟩)], failing := [3] } ∧
      ((∀ before op after,
          [Op.write 56 300, .write 3 300, .read 56 false] = before ++ op :: after →
            (run { cvs := [(56, ⟨1, [2]⟩)], failing := [3] } before).Sane op) ↔
        ∀ op ∈ [Op.write 56 300, .write 3 300, .read 56 false],
          ¬ Spoils { cvs := [(56, ⟨1, [2]⟩)], failing := [3] } op) :=
  have built : Built { cvs := [(56, ⟨1, [2]⟩)], failing := [3] } :=
    .values (show build "<memory>" [(56, .array [.int 1, .int 2])] [3] = _ from rfl)
  ⟨built, sane_iff built _⟩

/-- A refused write replaces what a CV serves. -/
theorem refused_write_stored :
    ¬ ∀ (d : Simulator) (ops : List Op), d.Built → ∀ before op after, ops = before ++ op :: after →
      (d.run before).Sane op := by
  intro h
  have built : Built { cvs := [(56, ⟨1, [2]⟩)] } :=
    .values (show build "<memory>" [(56, .array [.int 1, .int 2])] [] = _ from rfl)
  have hs := h _ [.write 56 300, .read 56 false] built [] _ _ rfl
  have hkept := hs.unchanged ⟨_, rfl⟩
  revert hkept
  decide

end Simulator

end DecoderId
