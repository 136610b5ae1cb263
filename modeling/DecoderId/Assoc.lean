/-!
# Association lists

Keys with values, in the order in which the keys first came. A key that comes again
keeps its place and takes the new value.
-/

namespace DecoderId.Assoc

variable {κ α : Type} [DecidableEq κ]

/-- The value of a key. -/
def get? (l : List (κ × α)) (key : κ) : Option α := (l.find? (·.1 = key)).map (·.2)

/-- The list with a value for a key. -/
def set (l : List (κ × α)) (key : κ) (value : α) : List (κ × α) :=
  match l with
  | [] => [(key, value)]
  | (k, v) :: rest => if k = key then (k, value) :: rest else (k, v) :: set rest key value

/-- The list that these pairs make, one after the other. -/
def ofList (pairs : List (κ × α)) : List (κ × α) := pairs.foldl (fun l (k, v) => set l k v) []

@[simp] theorem get?_nil (key : κ) : get? ([] : List (κ × α)) key = none := rfl

theorem get?_cons (k key : κ) (v : α) (rest : List (κ × α)) :
    get? ((k, v) :: rest) key = if k = key then some v else get? rest key := by
  by_cases h : k = key <;> simp [get?, h]

@[simp] theorem get?_set_self (l : List (κ × α)) (key : κ) (value : α) : get? (set l key value) key = some value := by
  induction l with
  | nil => simp [set, get?_cons]
  | cons p rest ih =>
    obtain ⟨k, v⟩ := p
    by_cases h : k = key <;> simp [set, get?_cons, h, ih]

theorem get?_set_of_ne (l : List (κ × α)) {key other : κ} (value : α) (h : key ≠ other) :
    get? (set l key value) other = get? l other := by
  induction l with
  | nil => simp [set, get?_cons, h]
  | cons p rest ih =>
    obtain ⟨k, v⟩ := p
    by_cases hk : k = key
    · subst hk
      simp [set, get?_cons, h]
    · simp [set, get?_cons, hk, ih]

/-- The value that a key has already may be set again. -/
theorem set_of_get? {l : List (κ × α)} {key : κ} {value : α} (h : get? l key = some value) : set l key value = l := by
  induction l with
  | nil => simp at h
  | cons p rest ih =>
    obtain ⟨k, v⟩ := p
    rw [get?_cons] at h
    by_cases hk : k = key
    · rw [if_pos hk, Option.some.injEq] at h
      simp [set, hk, h]
    · rw [if_neg hk] at h
      simp [set, hk, ih h]

end DecoderId.Assoc
