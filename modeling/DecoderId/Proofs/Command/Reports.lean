import DecoderId.Command.Run
import DecoderId.Proofs.Json.Written

/-!
# Reports of identities

A report tells the manufacturer, by code and name, the model and the product ID of a decoder. Two
readers take this from what is printed: one from the lines, where the two forms of the product ID
have to denote the same number, and one from the JSON value. Both read from a report what the identity
says (`Report.ofLines?_identityLines`, `Report.ofJson?_identityJson`).
-/

namespace DecoderId.Report

/-! ## Readers -/

/-- What a report of an identity tells. -/
structure Told where
  manufacturerCode : Option Int
  manufacturer : Text
  modelCode : Option Int
  productId : Option Int
deriving DecidableEq

def Told.ofIdentity (i : Identity) : Told :=
  ⟨i.manufacturerCode, Text.ofString i.manufacturer.name, i.modelCode, i.productId⟩

/-- The integer that a text tells in decimal, or that there is none. -/
def code? (t : Text) : Option (Option Int) :=
  if t = Text.ofString "None" then some none else (Numeral.ofPlain? t).map some

/-- The text in front of a space, and the text in parentheses behind it. -/
def parenthesized? (t : Text) : Option (Text × Text) := do
  let (before, behind) := t.cut 0x20
  let opened ← (← behind).dropPrefix? (Text.ofString "(")
  let inside ← opened.dropSuffix? (Text.ofString ")")
  return (before, inside)

/-- The product ID that a text tells in decimal and in hexadecimal, or that there is none. -/
def productId? (t : Text) : Option (Option Int) := do
  if t = Text.ofString "none" then return none
  let (decimal, hexadecimal) ← parenthesized? t
  let id ← Numeral.ofPlain? decimal
  let digits ← Text.hexDigits? (← hexadecimal.dropPrefix? (Text.ofString "0x"))
  if id = Text.ofDigits 16 digits then return some id else none

/-- What three lines tell. -/
def ofLines? (t : Text) : Option Told :=
  match t.splitOn 0x0A with
  | [manufacturer, model, product, []] => do
    let (code, name) ← parenthesized? (← manufacturer.dropPrefix? (Text.ofString "Manufacturer:  "))
    let manufacturerCode ← code? code
    let modelCode ← code? (← model.dropPrefix? (Text.ofString "Model:         "))
    let productId ← productId? (← product.dropPrefix? (Text.ofString "Product ID:    "))
    return ⟨manufacturerCode, name, modelCode, productId⟩
  | _ => none

/-- The integer that a JSON value is, or that there is none. -/
def integer? : Json → Option (Option Int)
  | .null => some none
  | .int n => some (some n)
  | _ => none

/-- The text that a JSON value is. -/
def text? : Json → Option Text
  | .text t => some t
  | _ => none

/-- What a JSON object tells. -/
def ofJson? (t : Text) : Option Told :=
  match Json.parse 1 t with
  | .ok (.object members) => do
    let manufacturerCode ← integer? (← Assoc.get? members (Text.ofString "manufacturer_code"))
    let manufacturer ← text? (← Assoc.get? members (Text.ofString "manufacturer"))
    let modelCode ← integer? (← Assoc.get? members (Text.ofString "model_code"))
    let productId ← integer? (← Assoc.get? members (Text.ofString "product_id"))
    return ⟨manufacturerCode, manufacturer, modelCode, productId⟩
  | _ => none

variable {n : Int} {code : Option Int} {i : Identity}

/-- The codes of the identity can be written. -/
structure Writable (i : Identity) : Prop where
  manufacturerCode : ∀ n ∈ i.manufacturerCode, Numeral.isWritable n = true
  modelCode : ∀ n ∈ i.modelCode, Numeral.isWritable n = true

/-! ## Parts of a line -/

theorem dropPrefix?_append (l t : Text) : (l ++ t).dropPrefix? l = some t :=
  List.dropPrefix?_append_of_beq t (beq_self_eq_true l)

theorem parenthesized?_append {before : Text} (h : 0x20 ∉ before) (inside : Text) :
    parenthesized? (before ++ Text.ofString " (" ++ inside ++ Text.ofString ")") = some (before, inside) := by
  have hcut : (before ++ Text.ofString " (" ++ inside ++ Text.ofString ")").cut 0x20 =
      (before, some (Text.ofString "(" ++ (inside ++ Text.ofString ")"))) := by
    refine Text.cut_eq_some_iff.2 ⟨?_, h⟩
    simp [Text.ofString]
  have hsuffix : (inside ++ Text.ofString ")").dropSuffix? (Text.ofString ")") = some inside :=
    List.dropSuffix?_eq_some_iff.2 ⟨_, rfl, beq_self_eq_true _⟩
  rw [parenthesized?, hcut]
  simp only [Option.bind_eq_bind, Option.bind_some, dropPrefix?_append, hsuffix]
  rfl

theorem not_mem_ofInt {c : Nat} (h : c ≠ 0x2D) (hdigit : Text.isAsciiDigit c = false) (n : Int) : c ∉ Numeral.ofInt n := by
  intro hc
  rcases Numeral.exists_of_mem_ofInt hc with rfl | ⟨d, hd, rfl⟩
  · exact h rfl
  · rw [Numeral.isAsciiDigit_of_lt hd] at hdigit
    cases hdigit

theorem not_mem_displayOption {c : Nat} (h : c ≠ 0x2D) (hdigit : Text.isAsciiDigit c = false)
    (hnone : c ∉ Text.ofString "None") (code : Option Int) : c ∉ Text.ofString (displayOption code) := by
  cases code with
  | none => exact hnone
  | some n =>
    rw [displayOption, Numeral.ofString_decimal]
    exact not_mem_ofInt h hdigit n

theorem code?_displayOption (h : ∀ n ∈ code, Numeral.isWritable n = true) :
    code? (Text.ofString (displayOption code)) = some code := by
  cases code with
  | none => rfl
  | some n =>
    have hletter : Numeral.ofInt n ≠ Text.ofString "None" := by
      intro heq
      refine not_mem_ofInt (c := 0x4E) (by decide) (by decide) n ?_
      rw [heq]
      decide
    rw [displayOption, Numeral.ofString_decimal, code?, if_neg hletter, Numeral.ofPlain?_ofInt (h n rfl)]
    rfl

theorem isWritable_productId (h : isProductId n = true) : Numeral.isWritable n = true := by
  have hrange := isProductId_iff.1 h
  have hdigits : 10 ^ 10 ≤ 10 ^ Numeral.maxDigits := Nat.pow_le_pow_right (by decide) (by decide)
  exact Numeral.isWritable_iff.2 (Nat.lt_of_lt_of_le (by omega) hdigits)

theorem productId?_productId (h : ∀ id ∈ code, isProductId id = true) :
    productId? (Text.ofString (productId code)) = some code := by
  cases code with
  | none => rfl
  | some id =>
    have hid := h id rfl
    obtain ⟨digits, hdigits, hvalue⟩ := Numeral.hexDigits?_hexFilled 8 (isProductId_iff.1 hid).1
    have htext : Text.ofString (productId (some id)) =
        Numeral.ofInt id ++ Text.ofString " (" ++ (Text.ofString "0x" ++ Text.ofString (Numeral.hexFilled 8 id)) ++
          Text.ofString ")" := by
      have hopening : Text.ofString " (0x" = Text.ofString " (" ++ Text.ofString "0x" := by rfl
      simp only [productId, Text.ofString_append, Numeral.ofString_decimal, hopening, List.append_assoc]
    have hspace : 0x20 ∉ Numeral.ofInt id := not_mem_ofInt (by decide) (by decide) id
    have hword : Text.ofString (productId (some id)) ≠ Text.ofString "none" := by
      intro heq
      have hmem : 0x20 ∈ Text.ofString (productId (some id)) := by
        rw [htext]
        simp [Text.ofString]
      rw [heq] at hmem
      revert hmem
      decide
    rw [productId?, if_neg hword, htext, parenthesized?_append hspace]
    simp only [Option.bind_eq_bind, Option.bind_some, Numeral.ofPlain?_ofInt (isWritable_productId hid), dropPrefix?_append,
      hdigits]
    rw [if_pos hvalue.symm]
    rfl

/-! ## Identities -/

theorem unescaped_name (m : Manufacturer) : Json.Unescaped (Text.ofString m.name) := by
  cases m <;> decide

theorem newline_not_mem_name (m : Manufacturer) : 0x0A ∉ Text.ofString m.name := by
  intro h
  have := (unescaped_name m _ h).1
  omega

theorem newline_not_mem_productId (h : ∀ id ∈ code, isProductId id = true) : 0x0A ∉ Text.ofString (productId code) := by
  cases code with
  | none => decide
  | some id =>
    obtain ⟨digits, hdigits, -⟩ := Numeral.hexDigits?_hexFilled 8 (isProductId_iff.1 (h id rfl)).1
    have hhex : 0x0A ∉ Text.ofString (Numeral.hexFilled 8 id) := fun hmem => by
      cases Text.not_blank_of_hexDigits? hdigits _ hmem
    have hdecimal : 0x0A ∉ Text.ofString (Numeral.decimal id) := by
      rw [Numeral.ofString_decimal]
      exact not_mem_ofInt (by decide) (by decide) id
    simp only [productId, Text.ofString_append, List.mem_append, not_or]
    exact ⟨⟨⟨hdecimal, by decide⟩, hhex⟩, by decide⟩

/-- The lines of a report are read back. -/
theorem ofLines?_identityLines (h : Writable i) :
    ofLines? (Text.ofString (Command.ofLines (identityLines i))) = some (.ofIdentity i) := by
  have hcode : ∀ code : Option Int, 0x0A ∉ Text.ofString (displayOption code) :=
    not_mem_displayOption (by decide) (by decide) (by decide)
  have hproduct := newline_not_mem_productId i.productId_valid
  have htext : Text.ofString (Command.ofLines (identityLines i)) =
      Text.ofString "Manufacturer:  " ++ (Text.ofString (displayOption i.manufacturerCode) ++ Text.ofString " (" ++
          Text.ofString i.manufacturer.name ++ Text.ofString ")") ++
        0x0A :: (Text.ofString "Model:         " ++ Text.ofString (displayOption i.modelCode) ++
          0x0A :: (Text.ofString "Product ID:    " ++ Text.ofString (productId i.productId) ++ 0x0A :: [])) := by
    simp [Command.ofLines, identityLines, Text.ofString]
  have hspace : 0x20 ∉ Text.ofString (displayOption i.manufacturerCode) :=
    not_mem_displayOption (by decide) (by decide) (by decide) _
  rw [ofLines?, htext, Text.splitOn_append_cons, Text.splitOn_append_cons, Text.splitOn_append_cons]
  · simp only [Text.splitOn, Option.bind_eq_bind, Option.bind_some, dropPrefix?_append, parenthesized?_append hspace,
      code?_displayOption h.manufacturerCode, code?_displayOption h.modelCode, productId?_productId i.productId_valid]
    rfl
  · simp only [List.mem_append, not_or]
    exact ⟨by decide, hproduct⟩
  · simp only [List.mem_append, not_or]
    exact ⟨by decide, hcode _⟩
  · simp only [List.mem_append, not_or]
    exact ⟨by decide, ⟨⟨hcode _, by decide⟩, newline_not_mem_name _⟩, by decide⟩

theorem plain_ofOption (h : ∀ n ∈ code, Numeral.isWritable n = true) : Json.Plain 0 (ofOption code) := by
  cases code with
  | none => exact .null
  | some n => exact .int (h n rfl)

theorem plain_identityJson (h : Writable i) : Json.Plain 1 (identityJson i) := by
  have hproduct : ∀ id ∈ i.productId, Numeral.isWritable id = true :=
    fun id hid => isWritable_productId (i.productId_valid id hid)
  refine .object ?_ ?_ ?_
  · show (["manufacturer_code", "manufacturer", "model_code", "product_id"].map Text.ofString).Nodup
    decide
  · simp only [List.map_cons, List.map_nil, List.forall_mem_cons]
    exact ⟨by decide, by decide, by decide, by decide, by simp⟩
  · simp only [List.map_cons, List.map_nil, List.forall_mem_cons]
    exact ⟨plain_ofOption h.manufacturerCode, .text (unescaped_name i.manufacturer), plain_ofOption h.modelCode,
      plain_ofOption hproduct, by simp⟩

theorem integer?_ofOption (code : Option Int) : integer? (ofOption code) = some code := by
  cases code <;> rfl

/-- The JSON value of a report is read back. -/
theorem ofJson?_identityJson (h : Writable i) :
    ofJson? (Text.ofString (Command.ofLines [(identityJson i).render indent])) = some (.ofIdentity i) := by
  have hparse : Json.parse 1 (Text.ofString (Command.ofLines [(identityJson i).render indent])) = .ok (identityJson i) := by
    have hblank : ∀ c ∈ [0x0A], Json.isSpace c = true := by decide
    have hrender := Json.parse_render (plain_identityJson h) le_rfl indent hblank
    simpa [Command.ofLines, Text.ofString] using hrender
  obtain ⟨members, hmembers, hcode, hname, hmodel, hproduct⟩ : ∃ members, identityJson i = .object members ∧
      Assoc.get? members (Text.ofString "manufacturer_code") = some (ofOption i.manufacturerCode) ∧
      Assoc.get? members (Text.ofString "manufacturer") = some (ofString i.manufacturer.name) ∧
      Assoc.get? members (Text.ofString "model_code") = some (ofOption i.modelCode) ∧
      Assoc.get? members (Text.ofString "product_id") = some (ofOption i.productId) :=
    ⟨_, rfl, by rfl, by rfl, by rfl, by rfl⟩
  rw [ofJson?, hparse, hmembers]
  simp only [Option.bind_eq_bind, Option.bind_some, hcode, hname, hmodel, hproduct, integer?_ofOption]
  rfl

end DecoderId.Report
