import DecoderId.Json.Token
import DecoderId.Json.Writer
import DecoderId.Proofs.Text.Written

/-!
# Tokens that are written

What stands in the middle of a text is a token there as it is by itself, except that digits may go
on with a number in front of them. So a token is told with regard to what comes behind it
(`Json.Lexes`). Strings without escapes, integers and names are tokens in front of what
delimits them.
-/

namespace DecoderId.Json

/-! ## Parts of a text -/

/-- What follows does not go on with a number. -/
def Delimits (rest : Text) : Prop :=
  ∀ c ∈ rest.head?, Text.isAsciiDigit c = false ∧ c ≠ 0x2E ∧ c ≠ 0x65 ∧ c ≠ 0x45

/-- In front of this rest, the text is one token. -/
def Lexes (t : Text) (token : Token) (rest : Text) : Prop :=
  ∀ position, tokensFrom 0 position (t ++ rest) = ⟨position, token⟩ :: tokensFrom 0 (position + t.length) rest

/-- The text stands in a string as it is. -/
def Unescaped (t : Text) : Prop := ∀ c ∈ t, 0x20 ≤ c ∧ c < 0x7F ∧ c ≠ 0x22 ∧ c ≠ 0x5C

instance (t : Text) : Decidable (Unescaped t) :=
  inferInstanceAs (Decidable (∀ c ∈ t, 0x20 ≤ c ∧ c < 0x7F ∧ c ≠ 0x22 ∧ c ≠ 0x5C))

variable {t rest : Text} {token : Token} {c : Nat} {n : Int}

theorem delimits_nil : Delimits [] := by
  intro c hc
  cases hc

theorem delimits_cons (h : Text.isAsciiDigit c = false ∧ c ≠ 0x2E ∧ c ≠ 0x65 ∧ c ≠ 0x45) (rest : Text) :
    Delimits (c :: rest) := by
  intro c' hc'
  cases hc'
  exact h

theorem tokensFrom_skip (position : Nat) (t rest : Text) :
    tokensFrom t.length position (t ++ rest) = tokensFrom 0 (position + t.length) rest := by
  induction t generalizing position with
  | nil => rfl
  | cons c t ih =>
    rw [List.length_cons, List.cons_append, tokensFrom, ih]
    congr 1
    omega

theorem tokensFrom_blank (h : ∀ c ∈ t, isSpace c = true) (position : Nat) (rest : Text) :
    tokensFrom 0 position (t ++ rest) = tokensFrom 0 (position + t.length) rest := by
  induction t generalizing position with
  | nil => rfl
  | cons c t ih =>
    rw [List.cons_append, tokensFrom, if_pos (h c List.mem_cons_self),
      ih fun c hc => h c (List.mem_cons_of_mem _ hc), List.length_cons]
    congr 1
    omega

theorem lexes_mark (hc : mark? c = some token) (hspace : isSpace c = false) (hquote : c ≠ 0x22) (rest : Text) :
    Lexes [c] token rest := by
  intro position
  rw [List.singleton_append, tokensFrom, if_neg (by simp [hspace]), if_neg hquote, hc]
  rfl

/-- A name or a number is a token where no mark, string or white space starts. -/
theorem lexes_scalar (hspace : isSpace c = false) (hquote : c ≠ 0x22) (hmark : mark? c = none)
    (h : scalarAt (c :: t ++ rest) = some (token, (c :: t).length)) : Lexes (c :: t) token rest := by
  intro position
  rw [List.cons_append] at h ⊢
  rw [tokensFrom, if_neg (by simp [hspace]), if_neg hquote, hmark, h]
  dsimp only
  rw [List.length_cons, Nat.add_sub_cancel, tokensFrom_skip]
  congr 2
  omega

/-! ## Strings -/

theorem content_unescaped (h : Unescaped t) (opening position : Nat) (rest : Text) :
    content opening 0 position (t ++ 0x22 :: rest) = .ok (t, position + t.length + 1) := by
  induction t generalizing position with
  | nil => rfl
  | cons c t ih =>
    obtain ⟨hlow, -, hquote, hescape⟩ := h c List.mem_cons_self
    rw [List.cons_append, content, if_neg hquote, if_neg hescape, if_neg (by omega),
      ih fun c hc => h c (List.mem_cons_of_mem _ hc)]
    simp only [Except.map, List.length_cons, Except.ok.injEq, Prod.mk.injEq, true_and]
    omega

theorem lexes_string (h : Unescaped t) (rest : Text) : Lexes (0x22 :: t ++ [0x22]) (.text t) rest := by
  intro position
  have htext : 0x22 :: t ++ [0x22] ++ rest = 0x22 :: (t ++ 0x22 :: rest) := by simp
  have hlength : position + 1 + t.length + 1 - position - 1 = (t ++ [0x22]).length := by simp; omega
  rw [htext, tokensFrom, if_neg (by decide), if_pos rfl, content_unescaped h]
  dsimp only
  rw [hlength, List.append_cons t 0x22 rest, tokensFrom_skip]
  congr 2
  simp
  omega

theorem ofString_writeText (h : Unescaped t) : Text.ofString (writeText t) = 0x22 :: t ++ [0x22] := by
  have hchars : t.flatMap writeChar = t.map Char.ofNat := by
    rw [List.map_eq_flatMap]
    refine List.flatMap_congr fun c hc => ?_
    obtain ⟨hlow, hhigh, hquote, hescape⟩ := h c hc
    unfold writeChar
    rw [if_neg hquote, if_neg hescape, if_neg (by omega), if_neg (by omega), if_neg (by omega), if_neg (by omega),
      if_neg (by omega), if_pos ⟨hlow, hhigh⟩]
  have hback := Text.map_toNat_ofNat fun c hc => Nat.lt_trans (h c hc).2.1 (by decide : 0x7F < 0x80)
  rw [writeText, Text.ofString_ofList, hchars, List.map_append, List.map_append, hback]
  rfl

/-! ## Numbers and names -/

theorem integerPart_append {ds : Text} (h : Numeral.Plain ds) (hrest : Delimits rest) : integerPart (ds ++ rest) = ds := by
  have hrest' : rest.takeWhile Text.isAsciiDigit = [] := by
    cases rest with
    | nil => rfl
    | cons c rest => exact List.takeWhile_cons_of_neg (by simp [(hrest c rfl).1])
  unfold integerPart
  split
  · rename_i rest' hzero
    obtain ⟨c, ds, rfl⟩ := List.exists_cons_of_ne_nil h.ne_nil
    obtain ⟨rfl, -⟩ := List.cons.inj hzero
    obtain rfl : ds = [] := by simpa using h.head rfl
    rfl
  · rw [List.takeWhile_append_of_pos h.digits, hrest', List.append_nil]

theorem fractionPart_of_delimits (h : Delimits rest) : fractionPart rest = none := by
  unfold fractionPart
  split
  · exact absurd rfl (h _ rfl).2.1
  · rfl

theorem exponentPart_of_delimits (h : Delimits rest) : exponentPart rest = none := by
  cases rest with
  | nil => rfl
  | cons c rest =>
    obtain ⟨-, -, hsmall, hgreat⟩ := h c rfl
    unfold exponentPart
    dsimp only
    rw [if_neg (by simp [hsmall, hgreat])]

theorem numberAt_plain {ds : Text} (h : Numeral.Plain ds) (hrest : Delimits rest) :
    numberAt (ds ++ rest) = some (.scalar (.int (Text.digitsValue ds)), ds.length) := by
  unfold numberAt
  split
  rename_i negative body hcut
  split at hcut
  · rename_i hminus
    refine absurd ?_ h.sign
    obtain ⟨c, ds, rfl⟩ := List.exists_cons_of_ne_nil h.ne_nil
    obtain ⟨rfl, -⟩ := List.cons.inj hminus
    rfl
  · cases hcut
    simp only [integerPart_append h hrest, List.drop_left, fractionPart_of_delimits hrest, List.drop_zero,
      exponentPart_of_delimits hrest, List.isEmpty_iff, h.ne_nil, Nat.not_lt.2 h.length, Bool.false_eq_true, if_false,
      Nat.zero_add]

theorem numberAt_minus {ds : Text} (h : Numeral.Plain ds) (hrest : Delimits rest) :
    numberAt (0x2D :: ds ++ rest) = some (.scalar (.int (-(Text.digitsValue ds : Int))), (0x2D :: ds).length) := by
  unfold numberAt
  split
  rename_i negative body hcut
  have hcut : (true, ds ++ rest) = (negative, body) := hcut
  cases hcut
  simp only [integerPart_append h hrest, List.drop_left, fractionPart_of_delimits hrest, List.drop_zero,
    exponentPart_of_delimits hrest, List.isEmpty_iff, h.ne_nil, Nat.not_lt.2 h.length, if_true, if_false,
    List.length_cons, Nat.add_comm 1]

theorem find?_names_digit (h : Text.isAsciiDigit c = true) (t : Text) :
    (names.find? fun (name, _) => name.isPrefixOf (c :: t)) = none ∧
      (names.find? fun (name, _) => name.isPrefixOf (0x2D :: c :: t)) = none := by
  have hc := Text.isAsciiDigit_iff.1 h
  constructor <;>
    · refine List.find?_eq_none.2 fun p hp => ?_
      simp only [names, List.mem_cons, List.not_mem_nil, or_false] at hp
      rcases hp with rfl | rfl | rfl | rfl | rfl | rfl <;> simp <;> omega

/-- No mark, string or white space starts with a digit. -/
theorem not_special_of_digit (h : Text.isAsciiDigit c = true) : isSpace c = false ∧ c ≠ 0x22 ∧ mark? c = none := by
  have hall : ∀ c ≤ 0x39, 0x30 ≤ c → isSpace c = false ∧ c ≠ 0x22 ∧ mark? c = none := by decide
  obtain ⟨hlow, hhigh⟩ := Text.isAsciiDigit_iff.1 h
  exact hall c hhigh hlow

theorem lexes_int (h : Numeral.isWritable n = true) (hrest : Delimits rest) :
    Lexes (Numeral.ofInt n) (.scalar (.int n)) rest := by
  have hplain := Numeral.plain_digits h
  have hvalue : Text.digitsValue ((Numeral.digits 10 n.natAbs).map (0x30 + ·)) = n.natAbs := by
    rw [Text.digitsValue_map, Numeral.ofDigits_digits]
  obtain ⟨c, ds, hds⟩ := List.exists_cons_of_ne_nil hplain.ne_nil
  have hdigit : Text.isAsciiDigit c = true := hplain.digits c (by simp [hds])
  rcases Int.lt_or_le n 0 with hneg | hnonneg
  · have hnumber := numberAt_minus hplain hrest
    rw [hvalue, Int.ofNat_natAbs_of_nonpos (by omega), Int.neg_neg] at hnumber
    rw [Numeral.ofInt_of_neg hneg]
    refine lexes_scalar (by decide) (by decide) (by decide) ?_
    rw [scalarAt, hds, List.cons_append, List.cons_append, (find?_names_digit hdigit _).2]
    simpa [hds] using hnumber
  · have hnumber := numberAt_plain hplain hrest
    rw [hvalue, Int.natAbs_of_nonneg hnonneg, hds] at hnumber
    rw [Numeral.ofInt_of_nonneg hnonneg, hds]
    obtain ⟨hspace, hquote, hmark⟩ := not_special_of_digit hdigit
    refine lexes_scalar hspace hquote hmark ?_
    rw [scalarAt, List.cons_append, (find?_names_digit hdigit _).1]
    exact hnumber

theorem lexes_name {v : Json} (h : (t, v) ∈ names) (rest : Text) : Lexes t (.scalar v) rest := by
  simp only [names, List.mem_cons, List.not_mem_nil, or_false, Prod.mk.injEq] at h
  rcases h with ⟨rfl, rfl⟩ | ⟨rfl, rfl⟩ | ⟨rfl, rfl⟩ | ⟨rfl, rfl⟩ | ⟨rfl, rfl⟩ | ⟨rfl, rfl⟩
  all_goals exact lexes_scalar (by decide) (by decide) (by decide) (by rfl)

end DecoderId.Json
