import Mathlib.Data.List.Forall2

/-!
# Checked computations

What is known of the parts of a computation that has gone through without a fault, and of the
part at which it has stopped.
-/

namespace DecoderId

variable {ε α β : Type}

/-! ## Item by item -/

section
variable {R : α → β → Prop} {xs : List α} {ys : List β}

theorem exists_of_forall₂_left (h : List.Forall₂ R xs ys) {x : α} (hx : x ∈ xs) : ∃ y ∈ ys, R x y := by
  induction h with
  | nil => cases hx
  | cons hr _ ih =>
    rcases List.mem_cons.1 hx with rfl | hx
    · exact ⟨_, List.mem_cons_self, hr⟩
    · obtain ⟨y, hy, hxy⟩ := ih hx
      exact ⟨y, List.mem_cons_of_mem _ hy, hxy⟩

theorem exists_of_forall₂_right (h : List.Forall₂ R xs ys) {y : β} (hy : y ∈ ys) : ∃ x ∈ xs, R x y :=
  exists_of_forall₂_left h.flip hy

theorem exists_forall₂ (h : ∀ x ∈ xs, ∃ y, R x y) : ∃ ys, List.Forall₂ R xs ys := by
  induction xs with
  | nil => exact ⟨[], .nil⟩
  | cons x xs ih =>
    obtain ⟨y, hy⟩ := h x List.mem_cons_self
    obtain ⟨ys, hys⟩ := ih fun x' hx' => h x' (List.mem_cons_of_mem x hx')
    exact ⟨y :: ys, .cons hy hys⟩

/-- The result for an item stands between those for the items before and after it. -/
theorem exists_of_forall₂_append_cons {before after : List α} {x : α} (h : List.Forall₂ R (before ++ x :: after) ys) :
    ∃ first y last, ys = first ++ y :: last ∧ R x y ∧ List.Forall₂ R after last := by
  induction before generalizing ys with
  | nil =>
    cases h with
    | cons hxy hrest => exact ⟨[], _, _, rfl, hxy, hrest⟩
  | cons b before ih =>
    cases h with
    | cons hb hrest =>
      obtain ⟨first, y, last, rfl, hxy, hafter⟩ := ih hrest
      exact ⟨_ :: first, y, last, rfl, hxy, hafter⟩

/-- Some item of a kind is the last one of it. -/
theorem exists_last_of_exists {P : α → Prop} (h : ∃ x ∈ xs, P x) :
    ∃ before x after, xs = before ++ x :: after ∧ P x ∧ ∀ y ∈ after, ¬ P y := by
  induction xs with
  | nil => simp at h
  | cons x xs ih =>
    by_cases hxs : ∃ y ∈ xs, P y
    · obtain ⟨before, y, after, rfl, hy, hafter⟩ := ih hxs
      exact ⟨x :: before, y, after, rfl, hy, hafter⟩
    · have hx : P x := by simpa [not_exists.1 hxs] using h
      exact ⟨[], x, xs, rfl, hx, fun y hy hP => hxs ⟨y, hy, hP⟩⟩

/-- What holds of any two items holds of any two results. -/
theorem pairwise_iff_of_forall₂ {P : α → α → Prop} {Q : β → β → Prop}
    (h : List.Forall₂ R xs ys) (hR : ∀ x x' y y', R x y → R x' y' → (P x x' ↔ Q y y')) :
    xs.Pairwise P ↔ ys.Pairwise Q := by
  induction h with
  | nil => simp
  | cons hxy hrest ih =>
    rw [List.pairwise_cons, List.pairwise_cons, ih]
    refine and_congr_left fun _ => ⟨fun hx y' hy' => ?_, fun hy x' hx' => ?_⟩
    · obtain ⟨x', hx', hxy'⟩ := exists_of_forall₂_right hrest hy'
      exact (hR _ _ _ _ hxy hxy').1 (hx x' hx')
    · obtain ⟨y', hy', hxy'⟩ := exists_of_forall₂_left hrest hx'
      exact (hR _ _ _ _ hxy hxy').2 (hy y' hy')

theorem mapM_eq_some_iff {f : α → Option β} : xs.mapM f = some ys ↔ List.Forall₂ (fun x y => f x = some y) xs ys := by
  induction xs generalizing ys with
  | nil => cases ys <;> simp
  | cons x xs ih =>
    cases ys with
    | nil => simp [Option.bind_eq_some_iff]
    | cons y ys => simp [Option.bind_eq_some_iff, List.mapM_cons, ih]

end

/-! ## Results and faults -/

theorem ok_bind (a : α) (f : α → Except ε β) : .ok a >>= f = f a := rfl

theorem error_bind (e : ε) (f : α → Except ε β) : .error e >>= f = .error e := rfl

theorem bind_eq_ok {x : Except ε α} {f : α → Except ε β} {b : β} :
    x >>= f = .ok b ↔ ∃ a, x = .ok a ∧ f a = .ok b := by
  cases x with
  | error e => simp [bind, Except.bind]
  | ok a => simp [bind, Except.bind]

theorem map_eq_ok {x : Except ε α} {f : α → β} {b : β} : x.map f = .ok b ↔ ∃ a, x = .ok a ∧ f a = b := by
  cases x with
  | error e => simp [Except.map]
  | ok a => simp [Except.map]

theorem bind_eq_error {x : Except ε α} {f : α → Except ε β} {e : ε} :
    x >>= f = .error e ↔ x = .error e ∨ ∃ a, x = .ok a ∧ f a = .error e := by
  cases x with
  | error e => simp [bind, Except.bind]
  | ok a => simp [bind, Except.bind]

theorem mapM_eq_ok_iff {f : α → Except ε β} {xs : List α} {ys : List β} :
    xs.mapM f = .ok ys ↔ List.Forall₂ (fun x y => f x = .ok y) xs ys := by
  induction xs generalizing ys with
  | nil => cases ys <;> simp [pure, Except.pure]
  | cons x xs ih =>
    cases ys with
    | nil => simp [List.mapM_cons, bind_eq_ok, pure, Except.pure]
    | cons y ys => simp [List.mapM_cons, bind_eq_ok, pure, Except.pure, ih]

/-- A fault is that of an item. -/
theorem exists_of_mapM_error {f : α → Except ε β} {xs : List α} {e : ε} (h : xs.mapM f = .error e) :
    ∃ x ∈ xs, f x = .error e := by
  induction xs with
  | nil => cases h
  | cons x xs ih =>
    rw [List.mapM_cons] at h
    rcases bind_eq_error.1 h with hx | ⟨y, -, h⟩
    · exact ⟨x, List.mem_cons_self, hx⟩
    · rcases bind_eq_error.1 h with hxs | ⟨ys, -, h⟩
      · obtain ⟨x', hx', he⟩ := ih hxs
        exact ⟨x', List.mem_cons_of_mem x hx', he⟩
      · cases h

/-- A fault is that of a step, and the steps before it have gone through. -/
theorem foldlM_eq_error_iff {f : β → α → Except ε β} {xs : List α} {b : β} {e : ε} :
    xs.foldlM f b = .error e ↔
      ∃ before x after b', xs = before ++ x :: after ∧ before.foldlM f b = .ok b' ∧ f b' x = .error e := by
  constructor
  · intro h
    induction xs generalizing b with
    | nil => cases h
    | cons x xs ih =>
      rw [List.foldlM_cons] at h
      rcases bind_eq_error.1 h with hx | ⟨next, hx, h⟩
      · exact ⟨[], x, xs, b, rfl, rfl, hx⟩
      · obtain ⟨before, y, after, b', rfl, hb, he⟩ := ih h
        exact ⟨x :: before, y, after, b', rfl, by rw [List.foldlM_cons, hx]; exact hb, he⟩
  · rintro ⟨before, x, after, b', rfl, hb, he⟩
    rw [List.foldlM_append, hb, ok_bind, List.foldlM_cons, he, error_bind]

/-- What each step keeps holds in the end. -/
theorem foldlM_keeps {f : β → α → Except ε β} {P : β → Prop} {xs : List α}
    (hf : ∀ b, ∀ x ∈ xs, ∀ b', P b → f b x = .ok b' → P b') {b b' : β} (hb : P b) (h : xs.foldlM f b = .ok b') : P b' := by
  induction xs generalizing b with
  | nil =>
    cases h
    exact hb
  | cons x xs ih =>
    rw [List.foldlM_cons, bind_eq_ok] at h
    obtain ⟨next, hx, h⟩ := h
    exact ih (fun b x' hx' => hf b x' (List.mem_cons_of_mem x hx')) (hf b x List.mem_cons_self next hb hx) h

end DecoderId
