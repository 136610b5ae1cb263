import DecoderId.Proofs.Assoc
import DecoderId.Proofs.Json.Limits
import DecoderId.Proofs.Json.Tokens

/-!
# Values that are written

A value that is written is read back, on one line or indented, and with white space behind it
(`Json.parse_render`). This is shown for plain values: their texts need no escapes, their integers
are not too long, and there is room for their containers. A reader is followed
over a part of a text (`Json.Reads`); from the parts of a container it is followed over the whole.
-/

namespace DecoderId.Json

/-! ## Readers -/

/-- In front of this rest, the text takes a reader from what is expected to what is expected behind it. -/
def Reads (room : Nat) (e : Expected) (t : Text) (e' : Expected) (rest : Text) : Prop :=
  ∀ position, (tokensFrom 0 position (t ++ rest)).foldlM (Expected.step room) e =
    (tokensFrom 0 (position + t.length) rest).foldlM (Expected.step room) e'

/-- The members so far of an object, where a name may stand. -/
def Expected.naming? : Expected → Option (List (Text × Json) × List Frame)
  | .firstName stack => some ([], stack)
  | .name members stack => some (members, stack)
  | _ => none

variable {t t' rest : Text} {token : Token} {c : Nat} {v : Json} {e e' e'' : Expected} {stack : List Frame}
  {members before : List (Text × Json)} {room height : Nat} {indent : Indent}

theorem Reads.append (h : Reads room e t e' (t' ++ rest)) (h' : Reads room e' t' e'' rest) : Reads room e (t ++ t') e'' rest := by
  intro position
  rw [List.append_assoc, h, h', List.length_append, Nat.add_assoc]

theorem reads_blank (h : ∀ c ∈ t, isSpace c = true) (e : Expected) (rest : Text) : Reads room e t e rest := by
  intro position
  rw [tokensFrom_blank h]

theorem Lexes.reads (h : Lexes t token rest) (hstep : ∀ position, e.step room ⟨position, token⟩ = .ok e') : Reads room e t e' rest := by
  intro position
  rw [h, List.foldlM_cons, hstep, ok_bind]

theorem step_of_waiting (he : e.waiting? = some stack) {p : Placed} (hp : p.token ≠ .closing .array) :
    e.step room p = takeValue room stack p := by
  cases e with
  | value => cases he; rfl
  | firstItem =>
    cases he
    dsimp only [Expected.step]
    split
    · rename_i hclosing
      exact absurd hclosing hp
    · rfl
  | _ => cases he

theorem reads_scalar (he : e.waiting? = some stack) (h : Lexes t (.scalar v) rest) : Reads room e t (.ofValue v stack) rest :=
  h.reads fun _ => step_of_waiting he (by simp)

theorem reads_string (he : e.waiting? = some stack) (h : Unescaped t) (rest : Text) :
    Reads room e (Text.ofString (writeText t)) (.ofValue (.text t) stack) rest := by
  rw [ofString_writeText h]
  exact (lexes_string h rest).reads fun _ => step_of_waiting he (by simp)

theorem reads_opening_array (he : e.waiting? = some stack) (h : stack.length < room) (rest : Text) :
    Reads room e [0x5B] (.firstItem stack) rest :=
  (lexes_mark rfl rfl (by decide) rest).reads fun _ => by
    rw [step_of_waiting he (by simp)]
    exact if_pos h

theorem reads_opening_object (he : e.waiting? = some stack) (h : stack.length < room) (rest : Text) :
    Reads room e [0x7B] (.firstName stack) rest :=
  (lexes_mark rfl rfl (by decide) rest).reads fun _ => by
    rw [step_of_waiting he (by simp)]
    exact if_pos h

theorem reads_name (he : e.naming? = some (members, stack)) (h : Unescaped t) (rest : Text) :
    Reads room e (Text.ofString (writeText t ++ ": ")) (.value (.member members t :: stack)) rest := by
  rw [Text.ofString_append, ofString_writeText h]
  have hstring : Reads room e (0x22 :: t ++ [0x22]) (.colon members t stack) (Text.ofString ": " ++ rest) :=
    (lexes_string h _).reads fun _ => by
      cases e with
      | firstName | name => cases he; rfl
      | _ => cases he
  have hcolon : Reads room (.colon members t stack) [0x3A] (.value (.member members t :: stack)) ([0x20] ++ rest) :=
    (lexes_mark rfl rfl (by decide) _).reads fun _ => rfl
  exact hstring.append (hcolon.append (reads_blank (by decide) _ rest))

/-! ## Line breaks -/

theorem isSpace_of_mem_lineBreak {depth : Nat} (h : c ∈ Text.ofString (indent.lineBreak depth)) : isSpace c = true := by
  cases indent with
  | none => cases h
  | some width =>
    rw [Indent.lineBreak, Text.ofString_ofList, List.map_cons, List.map_replicate] at h
    rcases List.mem_cons.1 h with rfl | h
    · rfl
    · rw [List.eq_of_mem_replicate h]
      rfl

theorem delimits_blank (h : ∀ c ∈ t, isSpace c = true) (hrest : Delimits rest) : Delimits (t ++ rest) := by
  cases t with
  | nil => exact hrest
  | cons c t =>
    refine delimits_cons ?_ _
    have hc := h c List.mem_cons_self
    simp only [isSpace, Bool.or_eq_true, beq_iff_eq] at hc
    rcases hc with ((rfl | rfl) | rfl) | rfl <;> decide

/-- What stands between two items: a comma and white space. -/
theorem exists_separator (indent : Indent) (depth : Nat) :
    ∃ blank, Text.ofString (indent.separator depth) = 0x2C :: blank ∧ ∀ c ∈ blank, isSpace c = true := by
  cases indent with
  | none => exact ⟨[0x20], show Text.ofString ", " = _ by rfl, by decide⟩
  | some width =>
    refine ⟨Text.ofString (Indent.lineBreak (some width) depth), ?_, fun c hc => isSpace_of_mem_lineBreak hc⟩
    rw [Indent.separator, Text.ofString_append]
    rfl

/-! ## Containers -/

/-- Where a value may stand and so many containers may be opened, what is written of this one is read. -/
def IsRead (room : Nat) (indent : Indent) (height : Nat) (v : Json) : Prop :=
  ∀ ⦃e stack rest⦄ (depth : Nat), e.waiting? = some stack → stack.length + height ≤ room → Delimits rest →
    Reads room e (Text.ofString (write indent depth v)) (.ofValue v stack) rest

variable {items : List Json} {itemsBefore : List Json} {depth : Nat}

theorem reads_separator (hcomma : ∀ position, e.step room ⟨position, .comma⟩ = .ok e') (indent : Indent) (depth : Nat) (rest : Text) :
    Reads room e (Text.ofString (indent.separator depth)) e' rest ∧ Delimits (Text.ofString (indent.separator depth) ++ rest) := by
  obtain ⟨blank, hseparator, hblank⟩ := exists_separator indent depth
  rw [hseparator]
  have hmark : Reads room e [0x2C] e' (blank ++ rest) := (lexes_mark rfl rfl (by decide) _).reads hcomma
  exact ⟨hmark.append (reads_blank hblank e' rest), delimits_cons (by decide) _⟩

theorem reads_items (hne : items ≠ []) (hitems : ∀ v ∈ items, IsRead room indent height v)
    (he : e.waiting? = some (.item itemsBefore :: stack)) (hroom : stack.length + 1 + height ≤ room) (hrest : Delimits rest) :
    Reads room e (Text.ofString ((indent.separator depth).intercalate (writeItems indent depth items)))
      (.afterItem (items.reverse ++ itemsBefore) stack) rest := by
  induction items generalizing e itemsBefore with
  | nil => exact absurd rfl hne
  | cons v items ih =>
    obtain ⟨hv, hitems⟩ := List.forall_mem_cons.1 hitems
    cases items with
    | nil =>
      rw [writeItems, writeItems, String.intercalate_singleton]
      exact hv depth he hroom hrest
    | cons w items =>
      have htail := ih (List.cons_ne_nil w items) hitems (e := .value (.item (v :: itemsBefore) :: stack)) rfl
      rw [writeItems] at htail
      rw [writeItems, writeItems, String.intercalate_cons_cons, Text.ofString_append, Text.ofString_append]
      obtain ⟨hseparator, hdelimits⟩ := reads_separator (e := .afterItem (v :: itemsBefore) stack) (fun _ => rfl) indent depth
        (Text.ofString ((indent.separator depth).intercalate (write indent depth w :: writeItems indent depth items)) ++ rest)
      have hfirst := hv depth he hroom hdelimits
      have hreverse : (v :: w :: items).reverse ++ itemsBefore = (w :: items).reverse ++ v :: itemsBefore := by simp
      rw [hreverse]
      exact (hfirst.append hseparator).append htail

theorem reads_members (hne : members ≠ []) (hnames : ∀ m ∈ members, Unescaped m.1)
    (hvalues : ∀ m ∈ members, IsRead room indent height m.2) (hnodup : ((before ++ members).map (·.1)).Nodup)
    (he : e.naming? = some (before, stack)) (hroom : stack.length + 1 + height ≤ room) (hrest : Delimits rest) :
    Reads room e (Text.ofString ((indent.separator depth).intercalate (writeMembers indent depth members)))
      (.afterMember (before ++ members) stack) rest := by
  induction members generalizing e before with
  | nil => exact absurd rfl hne
  | cons m members ih =>
    obtain ⟨name, v⟩ := m
    obtain ⟨hname, hnames⟩ := List.forall_mem_cons.1 hnames
    obtain ⟨hv, hvalues⟩ := List.forall_mem_cons.1 hvalues
    rw [List.append_cons] at hnodup ⊢
    have hnew : name ∉ before.map (·.1) := (Assoc.nodup_snoc_iff.1 (Assoc.nodup_left hnodup)).1
    have hmember : ∀ {rest}, Delimits rest →
        Reads room e (Text.ofString (writeText name ++ ": " ++ write indent depth v)) (.afterMember (before ++ [(name, v)]) stack) rest := by
      intro rest hrest
      have hvalue : Reads room (.value (.member before name :: stack)) (Text.ofString (write indent depth v))
          (.ofValue v (.member before name :: stack)) rest := hv depth rfl hroom hrest
      rw [Text.ofString_append, ← Assoc.set_of_not_mem hnew]
      exact (reads_name he hname _).append hvalue
    cases members with
    | nil =>
      rw [writeMembers, writeMembers, String.intercalate_singleton, List.append_nil]
      exact hmember hrest
    | cons m members =>
      obtain ⟨name', w⟩ := m
      have htail := ih (List.cons_ne_nil _ members) hnames hvalues hnodup (e := .name (before ++ [(name, v)]) stack) rfl
      rw [writeMembers] at htail
      rw [writeMembers, writeMembers, String.intercalate_cons_cons, Text.ofString_append, Text.ofString_append]
      obtain ⟨hseparator, hdelimits⟩ := reads_separator (e := .afterMember (before ++ [(name, v)]) stack) (fun _ => rfl) indent depth
        (Text.ofString ((indent.separator depth).intercalate
          ((writeText name' ++ ": " ++ write indent depth w) :: writeMembers indent depth members)) ++ rest)
      exact ((hmember hdelimits).append hseparator).append htail

/-- Between brackets and line breaks, items are read that are read by themselves. -/
theorem Reads.enclosed {written : List String} {opening closing : String} {o c : Nat} (hne : written ≠ [])
    (ho : Text.ofString opening = [o]) (hc : Text.ofString closing = [c]) (hdelimits : ∀ rest, Delimits (c :: rest))
    {first last : Expected} (hopening : ∀ rest, Reads room e [o] first rest) (hclosing : Reads room last [c] e' rest)
    (hitems : ∀ {rest}, Delimits rest →
      Reads room first (Text.ofString ((indent.separator (depth + 1)).intercalate written)) last rest) :
    Reads room e (Text.ofString (indent.enclose opening closing depth written)) e' rest := by
  have hblank : ∀ depth, ∀ b ∈ Text.ofString (indent.lineBreak depth), isSpace b = true :=
    fun depth b hb => isSpace_of_mem_lineBreak hb
  rw [Indent.enclose, if_neg (by simpa using hne)]
  simp only [Text.ofString_append, ho, hc]
  have hbody := hitems (delimits_blank (hblank depth) (hdelimits rest))
  exact ((((hopening _).append (reads_blank (hblank (depth + 1)) first _)).append hbody).append
    (reads_blank (hblank depth) last _)).append hclosing

/-! ## Values -/

/-- A value with texts that need no escapes, integers that are not too long, no other numbers, different names in
each object, and no more than so many containers inside each other. -/
inductive Plain : Nat → Json → Prop
  | null {height : Nat} : Plain height .null
  | bool {height : Nat} (b : Bool) : Plain height (.bool b)
  | int {height : Nat} {n : Int} : Numeral.isWritable n = true → Plain height (.int n)
  | text {height : Nat} {t : Text} : Unescaped t → Plain height (.text t)
  | array {height : Nat} {items : List Json} : (∀ v ∈ items, Plain height v) → Plain (height + 1) (.array items)
  | object {height : Nat} {members : List (Text × Json)} :
      (members.map (·.1)).Nodup → (∀ m ∈ members, Unescaped m.1) → (∀ m ∈ members, Plain height m.2) →
      Plain (height + 1) (.object members)

theorem isRead_array (h : ∀ v ∈ items, IsRead room indent height v) : IsRead room indent (height + 1) (.array items) := by
  intro e stack rest depth he hroom hrest
  have hopening : ∀ rest, Reads room e [0x5B] (.firstItem stack) rest := reads_opening_array he (by omega)
  cases items with
  | nil =>
    have hclosing : Reads room (.firstItem stack) [0x5D] (.ofValue (.array []) stack) rest :=
      (lexes_mark rfl rfl (by decide) rest).reads fun _ => rfl
    rw [write, writeItems, Indent.enclose, if_pos List.isEmpty_nil]
    exact (hopening _).append hclosing
  | cons v items =>
    have hclosing : Reads room (.afterItem (v :: items).reverse stack) [0x5D] (.ofValue (.array (v :: items)) stack) rest :=
      (lexes_mark rfl rfl (by decide) rest).reads fun _ => by
        dsimp only [Expected.step]
        rw [List.reverse_reverse]
    rw [write]
    refine Reads.enclosed (by simp [writeItems]) (by rfl) (by rfl) (delimits_cons (by decide)) hopening hclosing
      fun hrest => ?_
    rw [← List.append_nil (v :: items).reverse]
    exact reads_items (List.cons_ne_nil v items) h rfl (by omega) hrest

theorem isRead_object (hnodup : (members.map (·.1)).Nodup) (hnames : ∀ m ∈ members, Unescaped m.1)
    (h : ∀ m ∈ members, IsRead room indent height m.2) : IsRead room indent (height + 1) (.object members) := by
  intro e stack rest depth he hroom hrest
  have hopening : ∀ rest, Reads room e [0x7B] (.firstName stack) rest := reads_opening_object he (by omega)
  cases members with
  | nil =>
    have hclosing : Reads room (.firstName stack) [0x7D] (.ofValue (.object []) stack) rest :=
      (lexes_mark rfl rfl (by decide) rest).reads fun _ => rfl
    rw [write, writeMembers, Indent.enclose, if_pos List.isEmpty_nil]
    exact (hopening _).append hclosing
  | cons m members =>
    have hclosing : Reads room (.afterMember (m :: members) stack) [0x7D] (.ofValue (.object (m :: members)) stack) rest :=
      (lexes_mark rfl rfl (by decide) rest).reads fun _ => rfl
    rw [write]
    refine Reads.enclosed (by simp [writeMembers]) (by rfl) (by rfl) (delimits_cons (by decide)) hopening hclosing
      fun hrest => ?_
    rw [← List.nil_append (m :: members)] at hnodup ⊢
    exact reads_members (List.cons_ne_nil m members) hnames h hnodup rfl (by omega) hrest

/-- Every plain value is read wherever a value may stand. -/
theorem Plain.isRead (h : Plain height v) (indent : Indent) : IsRead room indent height v := by
  induction h with
  | null =>
    intro e stack rest depth he _ _
    rw [write]
    exact reads_scalar he (lexes_name (.head _) rest)
  | bool b =>
    intro e stack rest depth he _ _
    cases b with
    | false =>
      rw [write]
      exact reads_scalar he (lexes_name (.tail _ (.tail _ (.head _))) rest)
    | true =>
      rw [write]
      exact reads_scalar he (lexes_name (.tail _ (.head _)) rest)
  | int hn =>
    intro e stack rest depth he _ hrest
    rw [write, Numeral.ofString_decimal]
    exact reads_scalar he (lexes_int hn hrest)
  | text ht =>
    intro e stack rest depth he _ _
    rw [write]
    exact reads_string he ht rest
  | array _ ih => exact isRead_array ih
  | object hnodup hnames _ ih => exact isRead_object hnodup hnames ih

/-- A byte order mark is no token of a value. -/
theorem foldlM_byteOrderMark (room : Nat) (t : Text) :
    (tokens (0xFEFF :: t)).foldlM (Expected.step room) (.value []) = .error (.malformed .value 0) := by
  have htokens : tokens (0xFEFF :: t) = [⟨0, .unknown⟩] := by
    rw [tokens, tokensFrom, if_neg (by decide), if_neg (by decide)]
    rfl
  rw [htokens]
  rfl

/-- A plain value that is written is read back where there is room for it, with white space behind it or without. -/
theorem parse_render (h : Plain height v) (hroom : height ≤ room) (indent : Indent) {blank : Text}
    (hblank : ∀ c ∈ blank, isSpace c = true) : parse room (Text.ofString (v.render indent) ++ blank) = .ok v := by
  have hrest : Delimits blank := by simpa using delimits_blank hblank delimits_nil
  have hopen : ([] : List Frame).length + height ≤ room := by simpa using hroom
  have hread : Reads room (.value []) (Text.ofString (v.render indent)) (.nothing v) blank :=
    h.isRead indent 0 rfl hopen hrest
  have htokens : (tokens (Text.ofString (v.render indent) ++ blank)).foldlM (Expected.step room) (.value []) = .ok (.nothing v) := by
    have hend := tokensFrom_blank hblank (0 + (Text.ofString (v.render indent)).length) []
    rw [List.append_nil] at hend
    rw [tokens, hread 0, hend]
    rfl
  rw [parse, if_neg, htokens]
  · rfl
  · intro hmark
    obtain ⟨t, ht⟩ := List.head?_eq_some_iff.1 hmark
    rw [ht, foldlM_byteOrderMark] at htokens
    cases htokens

end DecoderId.Json
