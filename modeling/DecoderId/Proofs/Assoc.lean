import DecoderId.Assoc
import Mathlib.Data.List.Nodup

/-!
# Keys and their values

What is found under a key after keys have been set. Keys that are all different make a list
of just these pairs (`Assoc.setAll_of_nodup`); of a key that is set several times, the last
value counts (`Assoc.get?_setAll_of_last`).
-/

namespace DecoderId.Assoc

variable {κ α : Type} {l pairs : List (κ × α)}

/-! ## Different keys -/

theorem nodup_left (h : ((l ++ pairs).map (·.1)).Nodup) : (l.map (·.1)).Nodup := by
  rw [List.map_append] at h
  exact h.of_append_left

theorem nodup_snoc_iff {p : κ × α} : ((l ++ [p]).map (·.1)).Nodup ↔ p.1 ∉ l.map (·.1) ∧ (l.map (·.1)).Nodup := by
  rw [List.map_append, List.map_singleton, ← List.concat_eq_append, List.nodup_concat]

variable [DecidableEq κ] {key other : κ} {value : α}

/-! ## Entries -/

theorem mem_set {e : κ × α} (h : e ∈ set l key value) : e = (key, value) ∨ e ∈ l := by
  induction l with
  | nil => exact .inl (by simpa [set] using h)
  | cons p rest ih =>
    obtain ⟨k, v⟩ := p
    unfold set at h
    split at h
    · rename_i hk
      rcases List.mem_cons.1 h with rfl | h
      · exact .inl (by rw [hk])
      · exact .inr (List.mem_cons_of_mem _ h)
    · rcases List.mem_cons.1 h with rfl | h
      · exact .inr List.mem_cons_self
      · exact (ih h).imp id (List.mem_cons_of_mem _)

theorem mem_of_get? (h : get? l key = some value) : (key, value) ∈ l := by
  obtain ⟨e, he, rfl⟩ := Option.map_eq_some_iff.1 h
  have hk : e.1 = key := by simpa using List.find?_some he
  rw [← hk]
  exact List.mem_of_find?_eq_some he

theorem get?_eq_none_iff : get? l key = none ↔ key ∉ l.map (·.1) := by
  simp only [get?, Option.map_eq_none_iff, List.find?_eq_none, decide_eq_true_eq, List.mem_map, not_exists, not_and]

/-- With different keys, what is found under a key is its entry. -/
theorem get?_of_mem (hl : (l.map (·.1)).Nodup) (h : (key, value) ∈ l) : get? l key = some value := by
  cases hg : get? l key with
  | none => exact absurd (List.mem_map_of_mem h) (get?_eq_none_iff.1 hg)
  | some v =>
    have he : (key, v) = (key, value) := List.inj_on_of_nodup_map hl (mem_of_get? hg) h rfl
    rw [(Prod.mk.injEq ..).mp he |>.2]

/-- A new key goes to the end. -/
theorem set_of_not_mem (h : key ∉ l.map (·.1)) (value : α) : set l key value = l ++ [(key, value)] := by
  induction l with
  | nil => rfl
  | cons p rest ih =>
    obtain ⟨k, v⟩ := p
    simp only [List.map_cons, List.mem_cons, not_or] at h
    rw [set, if_neg (Ne.symm h.1), ih h.2, List.cons_append]

theorem nodup_set (h : (l.map (·.1)).Nodup) (key : κ) (value : α) : ((set l key value).map (·.1)).Nodup := by
  induction l with
  | nil => exact List.nodup_singleton _
  | cons p rest ih =>
    obtain ⟨k, v⟩ := p
    obtain ⟨hk, hrest⟩ := List.nodup_cons.1 h
    by_cases heq : k = key
    · rw [set, if_pos heq]
      exact h
    · rw [set, if_neg heq]
      refine List.nodup_cons.2 ⟨fun hmem => ?_, ih hrest⟩
      obtain ⟨e, he, hek⟩ := List.mem_map.1 hmem
      rcases mem_set he with rfl | he
      · exact heq hek.symm
      · exact hk (List.mem_map.2 ⟨e, he, hek⟩)

/-! ## Setting several keys -/

/-- The list with values for keys, set one after the other. -/
def setAll (l pairs : List (κ × α)) : List (κ × α) := pairs.foldl (fun l p => set l p.1 p.2) l

theorem setAll_cons (l pairs : List (κ × α)) (p : κ × α) : setAll l (p :: pairs) = setAll (set l p.1 p.2) pairs := rfl

theorem setAll_append (l pairs pairs' : List (κ × α)) : setAll l (pairs ++ pairs') = setAll (setAll l pairs) pairs' :=
  List.foldl_append

theorem setAll_of_nodup (h : ((l ++ pairs).map (·.1)).Nodup) : setAll l pairs = l ++ pairs := by
  induction pairs generalizing l with
  | nil => simp [setAll]
  | cons p pairs ih =>
    rw [List.append_cons] at h ⊢
    have hnew : p.1 ∉ l.map (·.1) := (nodup_snoc_iff.1 (nodup_left h)).1
    rw [setAll_cons, set_of_not_mem hnew, ih h]

theorem ofList_of_nodup (h : (l.map (·.1)).Nodup) : ofList l = l := by
  have hset : ofList l = setAll [] l := rfl
  rw [hset, setAll_of_nodup h, List.nil_append]

theorem nodup_setAll (h : (l.map (·.1)).Nodup) (pairs : List (κ × α)) : ((setAll l pairs).map (·.1)).Nodup := by
  induction pairs generalizing l with
  | nil => exact h
  | cons p pairs ih => exact ih (nodup_set h p.1 p.2)

theorem set_set (l : List (κ × α)) (key : κ) (v w : α) : set (set l key v) key w = set l key w := by
  induction l with
  | nil => simp [set]
  | cons p rest ih =>
    obtain ⟨k, _⟩ := p
    by_cases hk : k = key <;> simp [set, hk, ih]

/-- Two keys may change places if the first one has its place already. -/
theorem set_comm (hne : key ≠ other) (hk : (get? l key).isSome) (v w : α) :
    set (set l key v) other w = set (set l other w) key v := by
  induction l with
  | nil => simp at hk
  | cons p rest ih =>
    obtain ⟨k, _⟩ := p
    rw [get?_cons] at hk
    by_cases hkey : k = key
    · subst hkey
      simp [set, hne]
    · rw [if_neg hkey] at hk
      by_cases hother : k = other <;> simp [set, hkey, hother, Ne.symm hne, ih hk]

theorem isSome_get?_set (hk : (get? l key).isSome) (other : κ) (v : α) : (get? (set l other v) key).isSome := by
  by_cases h : other = key
  · rw [h, get?_set_self]
    rfl
  · rwa [get?_set_of_ne _ _ h]

theorem isSome_get?_setAll (hk : (get? l key).isSome) (pairs : List (κ × α)) : (get? (setAll l pairs) key).isSome := by
  induction pairs generalizing l with
  | nil => exact hk
  | cons p pairs ih => exact ih (isSome_get?_set hk p.1 p.2)

theorem get?_setAll_of_not_mem (h : ∀ p ∈ pairs, p.1 ≠ key) :
    get? (setAll l pairs) key = get? l key := by
  induction pairs generalizing l with
  | nil => rfl
  | cons p pairs ih =>
    rw [setAll_cons, ih fun q hq => h q (List.mem_cons_of_mem p hq), get?_set_of_ne _ _ (h p List.mem_cons_self)]

theorem get?_setAll_of_last (l before : List (κ × α)) {p : κ × α} {after : List (κ × α)} (h : ∀ q ∈ after, q.1 ≠ p.1) :
    get? (setAll l (before ++ p :: after)) p.1 = some p.2 := by
  rw [setAll_append, setAll_cons, get?_setAll_of_not_mem h, get?_set_self]

/-- What is set now is lost if the key is set again later. -/
theorem setAll_set_of_mem (hk : (get? l key).isSome) (h : ∃ p ∈ pairs, p.1 = key) (v : α) :
    setAll (set l key v) pairs = setAll l pairs := by
  induction pairs generalizing l with
  | nil => simp at h
  | cons p pairs ih =>
    rw [setAll_cons, setAll_cons]
    by_cases hp : p.1 = key
    · rw [hp, set_set]
    · have hpairs : ∃ q ∈ pairs, q.1 = key := by simpa [hp] using h
      rw [set_comm (Ne.symm hp) hk, ih (isSome_get?_set hk p.1 p.2) hpairs]

theorem setAll_setAll (l pairs : List (κ × α)) : setAll (setAll l pairs) pairs = setAll l pairs := by
  -- On the first pair: its value is set again later, or is there still.
  induction pairs generalizing l with
  | nil => rfl
  | cons p pairs ih =>
    rw [setAll_cons, setAll_cons]
    have hset : get? (set l p.1 p.2) p.1 = some p.2 := get?_set_self ..
    by_cases hp : ∃ q ∈ pairs, q.1 = p.1
    · rw [setAll_set_of_mem (isSome_get?_setAll (by simp [hset]) pairs) hp, ih]
    · have hkept : get? (setAll (set l p.1 p.2) pairs) p.1 = some p.2 := by
        rw [get?_setAll_of_not_mem fun q hq heq => hp ⟨q, hq, heq⟩, hset]
      rw [set_of_get? hkept, ih]

end DecoderId.Assoc
