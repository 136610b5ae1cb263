import DecoderId.Protocol

/-!
# Looking up a row

A value of CV 8 finds the row of the table that has it as its code, if there is one.
-/

namespace DecoderId

namespace Manufacturer

theorem code_ofCode {code : Int} (h : ofCode code ≠ unknown) : (ofCode code).code = code := by
  unfold ofCode at h ⊢
  cases hf : known.find? (·.code = code) with
  | none => simp [hf] at h
  | some m => simpa using List.find?_some hf

end Manufacturer

namespace Protocol

theorem manufacturer_ne_unknown {p : Protocol} (h : p ∈ table) : p.manufacturer ≠ .unknown := by
  simp only [table, List.mem_cons, List.not_mem_nil, or_false] at h
  rcases h with rfl | rfl | rfl | rfl | rfl | rfl | rfl | rfl | rfl | rfl | rfl <;> decide

theorem lookup_code {p : Protocol} (h : p ∈ table) : lookup p.code = some p := by
  simp only [table, List.mem_cons, List.not_mem_nil, or_false] at h
  rcases h with rfl | rfl | rfl | rfl | rfl | rfl | rfl | rfl | rfl | rfl | rfl <;> rfl

theorem lookup_eq_some_iff {code : Int} {p : Protocol} : lookup code = some p ↔ p ∈ table ∧ p.code = code := by
  constructor
  · intro h
    unfold lookup ofManufacturer? at h
    have hp := List.mem_of_find?_eq_some h
    have hm : p.manufacturer = .ofCode code := by simpa using List.find?_some h
    refine ⟨hp, ?_⟩
    rw [Protocol.code, hm]
    exact Manufacturer.code_ofCode (hm ▸ manufacturer_ne_unknown hp)
  · rintro ⟨hp, rfl⟩
    exact lookup_code hp

theorem code_ne_of_lookup_eq_none {code : Int} (h : lookup code = none) {p : Protocol} (hp : p ∈ table) :
    p.code ≠ code := by
  rintro rfl
  rw [lookup_code hp] at h
  cases h

end Protocol

end DecoderId
