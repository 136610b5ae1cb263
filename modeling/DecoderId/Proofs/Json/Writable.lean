import DecoderId.Json.Reader
import DecoderId.Proofs.Assoc
import DecoderId.Proofs.Numeral

/-!
# Integers of a JSON text

An integer is read from a text only if it is short enough, so that every integer of a value that
has been read can be written again (`Json.writable_parse`). A message may show any part of it.
-/

namespace DecoderId

namespace Json

/-- Every integer in the value can be written. -/
inductive Writable : Json → Prop
  | null : Writable .null
  | bool (b : Bool) : Writable (.bool b)
  | int {n : Int} : Numeral.isWritable n = true → Writable (.int n)
  | real (x : Binary64) : Writable (.real x)
  | text (t : Text) : Writable (.text t)
  | array {items : List Json} : (∀ v ∈ items, Writable v) → Writable (.array items)
  | object {members : List (Text × Json)} : (∀ m ∈ members, Writable m.2) → Writable (.object members)

/-! ## Tokens -/

/-- The value of the token, if it has one, can be written. -/
def Token.Writable : Token → Prop
  | .scalar v => v.Writable
  | _ => True

variable {t : Text} {token : Token} {p : Placed} {length skip position : Nat}

theorem isAsciiDigit_of_mem_integerPart {c : Nat} (h : c ∈ integerPart t) : Text.isAsciiDigit c = true := by
  unfold integerPart at h
  split at h
  · rw [List.mem_singleton.1 h]
    rfl
  · exact List.mem_takeWhile_imp h

theorem isWritable_digitsValue {digits : Text} (hdigits : ∀ c ∈ digits, Text.isAsciiDigit c = true)
    (h : digits.length ≤ Numeral.maxDigits) : Numeral.isWritable (Text.digitsValue digits) = true := by
  refine Numeral.isWritable_ofDigits (fun d hd => ?_) (by rwa [List.length_map])
  obtain ⟨c, hc, rfl⟩ := List.mem_map.1 hd
  have hrange := hdigits c hc
  simp only [Text.isAsciiDigit, Bool.and_eq_true, decide_eq_true_eq] at hrange
  omega

theorem writable_integer {digits : Text} (hdigits : ∀ c ∈ digits, Text.isAsciiDigit c = true) (negative : Bool) :
    Token.Writable (if Numeral.maxDigits < digits.length then .longInteger digits.length
      else .scalar (.int (if negative = true then -(Text.digitsValue digits : Int) else Text.digitsValue digits))) := by
  split
  · trivial
  · rename_i hlength
    have hvalue := isWritable_digitsValue hdigits (Nat.le_of_not_lt hlength)
    refine .int ?_
    split
    · rw [Numeral.isWritable_iff, Int.natAbs_neg]
      exact Numeral.isWritable_iff.1 hvalue
    · exact hvalue

theorem writable_numberAt (h : numberAt t = some (token, length)) : token.Writable := by
  unfold numberAt at h
  -- With a sign, and without one.
  split at h
  all_goals
    dsimp only at h
    split at h
    · cases h
    split at h
    · obtain ⟨rfl, -⟩ := Prod.mk.inj (Option.some.inj h)
      exact writable_integer (fun c hc => isAsciiDigit_of_mem_integerPart hc) _
    · obtain ⟨rfl, -⟩ := Prod.mk.inj (Option.some.inj h)
      exact .real _

theorem writable_scalarAt (h : scalarAt t = some (token, length)) : token.Writable := by
  have hnames : ∀ p ∈ names, p.2.Writable := by
    simp only [names, List.mem_cons, List.not_mem_nil, or_false]
    rintro p (rfl | rfl | rfl | rfl | rfl | rfl) <;> constructor
  unfold scalarAt at h
  split at h
  · rename_i name value hfind
    cases h
    exact hnames _ (List.mem_of_find?_eq_some hfind)
  · exact writable_numberAt h

theorem writable_mark {c : Nat} (h : mark? c = some token) : token.Writable := by
  unfold mark? at h
  repeat' split at h
  all_goals cases h
  all_goals trivial

theorem writable_of_mem_tokensFrom (h : p ∈ tokensFrom skip position t) : p.token.Writable := by
  fun_induction tokensFrom skip position t with
  | case1 => cases h
  | case2 _ _ _ _ ih => exact ih h
  | case3 _ _ _ _ ih => exact ih h
  | case4 _ _ _ _ _ _ ih =>
    rcases List.mem_cons.1 h with rfl | h
    · trivial
    · exact ih h
  | case5 =>
    rw [List.mem_singleton.1 h]
    trivial
  | case6 _ _ _ _ _ _ hmark ih =>
    rcases List.mem_cons.1 h with rfl | h
    · exact writable_mark hmark
    · exact ih h
  | case7 _ _ _ _ _ _ _ _ hscalar ih =>
    rcases List.mem_cons.1 h with rfl | h
    · exact writable_scalarAt hscalar
    · exact ih h
  | case8 =>
    rw [List.mem_singleton.1 h]
    trivial

/-! ## Readers -/

/-- The values that the container has can be written. -/
def Frame.Writable : Frame → Prop
  | .item before => ∀ v ∈ before, v.Writable
  | .member before _ => ∀ m ∈ before, m.2.Writable

/-- All values that have been read can be written. -/
def Expected.Writable : Expected → Prop
  | .value stack | .firstItem stack | .firstName stack => ∀ f ∈ stack, f.Writable
  | .afterItem items stack => (∀ v ∈ items, v.Writable) ∧ ∀ f ∈ stack, f.Writable
  | .name members stack | .colon members _ stack | .afterMember members stack =>
    (∀ m ∈ members, m.2.Writable) ∧ ∀ f ∈ stack, f.Writable
  | .nothing v => v.Writable

variable {room : Nat} {e e' : Expected} {stack : List Frame} {v : Json} {members : List (Text × Json)}

theorem writable_ofValue (hv : v.Writable) (hstack : ∀ f ∈ stack, f.Writable) : (Expected.ofValue v stack).Writable := by
  cases stack with
  | nil => exact hv
  | cons f stack =>
    obtain ⟨hf, hrest⟩ := List.forall_mem_cons.1 hstack
    cases f with
    | item before => exact ⟨List.forall_mem_cons.2 ⟨hv, hf⟩, hrest⟩
    | member before key =>
      refine ⟨fun m hm => ?_, hrest⟩
      rcases Assoc.mem_set hm with rfl | hm
      · exact hv
      · exact hf m hm

theorem writable_takeValue (hstack : ∀ f ∈ stack, f.Writable) (hp : p.token.Writable) (h : takeValue room stack p = .ok e) :
    e.Writable := by
  unfold takeValue at h
  split at h
  · rename_i v hv
    cases h
    rw [hv] at hp
    exact writable_ofValue hp hstack
  · cases h
    exact writable_ofValue (.text _) hstack
  · split at h
    · cases h
      split <;> exact hstack
    · cases h
  all_goals cases h

theorem writable_takeName (hmembers : ∀ m ∈ members, m.2.Writable) (hstack : ∀ f ∈ stack, f.Writable)
    (h : takeName members stack p = .ok e) : e.Writable := by
  unfold takeName at h
  split at h
  · cases h
    exact ⟨hmembers, hstack⟩
  all_goals cases h

/-- A token keeps what has been read writable. -/
theorem writable_step (he : e.Writable) (hp : p.token.Writable) (h : e.step room p = .ok e') : e'.Writable := by
  cases e with
  | value stack => exact writable_takeValue he hp h
  | firstItem stack =>
    dsimp only [Expected.step] at h
    split at h
    · cases h
      exact writable_ofValue (.array (by simp)) he
    · exact writable_takeValue (List.forall_mem_cons.2 ⟨by simp [Frame.Writable], he⟩) hp h
  | afterItem items stack =>
    dsimp only [Expected.step] at h
    split at h
    · cases h
      exact List.forall_mem_cons.2 ⟨he.1, he.2⟩
    · cases h
      exact writable_ofValue (.array fun v hv => he.1 v (List.mem_reverse.1 hv)) he.2
    · cases h
  | firstName stack =>
    dsimp only [Expected.step] at h
    split at h
    · cases h
      exact writable_ofValue (.object (by simp)) he
    · exact writable_takeName (by simp) he h
  | name members stack => exact writable_takeName he.1 he.2 h
  | colon members key stack =>
    dsimp only [Expected.step] at h
    split at h
    · cases h
      exact List.forall_mem_cons.2 ⟨he.1, he.2⟩
    · cases h
  | afterMember members stack =>
    dsimp only [Expected.step] at h
    split at h
    · cases h
      exact he
    · cases h
      exact writable_ofValue (.object he.1) he.2
    · cases h
  | nothing => cases h

theorem writable_parse (h : parse room t = .ok v) : v.Writable := by
  unfold parse at h
  split at h
  · cases h
  obtain ⟨e, he, h⟩ := bind_eq_ok.1 h
  have hwritable : e.Writable :=
    foldlM_keeps (P := Expected.Writable) (fun e p hp e' => (writable_step · (writable_of_mem_tokensFrom hp) ·))
      (by simp [Expected.Writable]) he
  cases e with
  | nothing v =>
    cases h
    exact hwritable
  | _ => cases h

end Json

end DecoderId
