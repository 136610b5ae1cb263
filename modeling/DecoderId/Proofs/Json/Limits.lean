import DecoderId.Json.Reader
import DecoderId.Proofs.Checked

/-!
# Texts beyond the limits of a reader

Reading stops at an integer of too many digits and at a container inside more others than there
is room for, if the text up to there is well formed (`Json.parse_limit_iff`). Every other text is
read, or is told to be malformed.
-/

namespace DecoderId.Json

/-- The error is that of a limit: the text may well be JSON. -/
inductive ReadError.OfLimit : ReadError → Prop
  | longInteger (digits : Nat) : OfLimit (.longInteger digits)
  | tooDeep (container : Container) : OfLimit (.tooDeep container)

/-- The containers that wait for a value which may stand here. -/
def Expected.waiting? : Expected → Option (List Frame)
  | .value stack => some stack
  | .firstItem stack => some (.item [] :: stack)
  | _ => none

/-- The token is beyond a limit where so many containers are open. -/
inductive Token.Beyond (room depth : Nat) : Token → Prop
  | longInteger (digits : Nat) : Beyond room depth (.longInteger digits)
  | opening (c : Container) : room ≤ depth → Beyond room depth (.opening c)

/-- Behind a well-formed part of the text, a token beyond a limit stands where a value may. -/
def Exceeds (room : Nat) (t : Text) : Prop :=
  t.head? ≠ some 0xFEFF ∧ ∃ before p after e stack, tokens t = before ++ p :: after ∧
    before.foldlM (Expected.step room) (.value []) = .ok e ∧ e.waiting? = some stack ∧
    p.token.Beyond room stack.length

variable {room : Nat} {t : Text} {f : ReadError} {p : Placed} {e : Expected} {stack : List Frame} {members : List (Text × Json)}

theorem not_ofLimit_malformed (fault : SyntaxFault) (position : Nat) : ¬ (ReadError.malformed fault position).OfLimit := by
  intro h
  cases h

theorem not_ofLimit_ofString (fault : StringFault) : ¬ (ReadError.ofString fault).OfLimit := by
  cases fault <;> exact not_ofLimit_malformed _ _

theorem takeValue_limit_iff : (∃ f, takeValue room stack p = .error f ∧ f.OfLimit) ↔ p.token.Beyond room stack.length := by
  constructor
  · rintro ⟨f, h, hf⟩
    unfold takeValue at h
    split at h
    · cases h
    · cases h
    · rename_i c hc
      split at h
      · cases h
      · rename_i hdepth
        rw [hc]
        exact .opening c (Nat.le_of_not_lt hdepth)
    · rename_i digits hdigits
      rw [hdigits]
      exact .longInteger digits
    · cases h
      exact absurd hf (not_ofLimit_ofString _)
    · cases h
      cases hf
  · intro h
    obtain ⟨position, token⟩ := p
    cases h with
    | longInteger digits => exact ⟨_, rfl, .longInteger digits⟩
    | opening c hdepth => exact ⟨_, if_neg (Nat.not_lt.2 hdepth), .tooDeep c⟩

theorem not_ofLimit_takeName (h : takeName members stack p = .error f) : ¬ f.OfLimit := by
  unfold takeName at h
  intro hf
  split at h
  · cases h
  · cases h
    exact not_ofLimit_ofString _ hf
  · cases h
    cases hf

/-- Where no value may stand, a token is no worse than malformed. -/
theorem not_ofLimit_step (he : e.waiting? = none) (h : e.step room p = .error f) : ¬ f.OfLimit := by
  intro hf
  cases e with
  | value | firstItem => cases he
  | name => exact not_ofLimit_takeName h hf
  | firstName =>
    dsimp only [Expected.step] at h
    split at h
    · cases h
    · exact not_ofLimit_takeName h hf
  | nothing =>
    cases h
    cases hf
  | afterItem | colon | afterMember =>
    dsimp only [Expected.step] at h
    split at h
    all_goals cases h
    all_goals cases hf

theorem step_limit_iff :
    (∃ f, e.step room p = .error f ∧ f.OfLimit) ↔ ∃ stack, e.waiting? = some stack ∧ p.token.Beyond room stack.length := by
  cases he : e.waiting? with
  | none =>
    constructor
    · rintro ⟨f, h, hf⟩
      exact absurd hf (not_ofLimit_step he h)
    · rintro ⟨stack, hstack, -⟩
      cases hstack
  | some stack =>
    simp only [Option.some.injEq, exists_eq_left']
    rw [← takeValue_limit_iff]
    cases e with
    | value => cases he; rfl
    | firstItem =>
      cases he
      dsimp only [Expected.step]
      split
      · rename_i hclosing
        simp [takeValue, hclosing, not_ofLimit_malformed]
      · rfl
    | _ => cases he

theorem not_ofLimit_finish {length : Nat} (h : e.finish length = .error f) : ¬ f.OfLimit := by
  intro hf
  cases e <;> cases h <;> cases hf

/-- Reading stops at a limit exactly for a text that goes beyond one. -/
theorem parse_limit_iff : (∃ f, parse room t = .error f ∧ f.OfLimit) ↔ Exceeds room t := by
  unfold parse
  constructor
  · rintro ⟨f, h, hf⟩
    split at h
    · cases h
      cases hf
    · rename_i hmark
      rcases bind_eq_error.1 h with hread | ⟨e, -, hfinish⟩
      · obtain ⟨before, p, after, e, htokens, hbefore, hp⟩ := foldlM_eq_error_iff.1 hread
        obtain ⟨stack, hstack, hbeyond⟩ := step_limit_iff.1 ⟨f, hp, hf⟩
        exact ⟨hmark, before, p, after, e, stack, htokens, hbefore, hstack, hbeyond⟩
      · exact absurd hf (not_ofLimit_finish hfinish)
  · rintro ⟨hmark, before, p, after, e, stack, htokens, hbefore, hstack, hbeyond⟩
    obtain ⟨f, hp, hf⟩ := step_limit_iff.2 ⟨stack, hstack, hbeyond⟩
    have hread := foldlM_eq_error_iff.2 ⟨before, p, after, e, htokens, hbefore, hp⟩
    rw [if_neg hmark, hread, error_bind]
    exact ⟨f, rfl, hf⟩

end DecoderId.Json
