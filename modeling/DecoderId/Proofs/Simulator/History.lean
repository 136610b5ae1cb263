import DecoderId.Proofs.Simulator.Locality

/-!
# The history of a CV

What a read of a simulated decoder is answered with depends on the operations on its CV alone: on
the values that the CV was given last, and on how often it has been read since. A read takes the
first of the values that are left, but never the last one of them (`Simulator.read_answered`).
-/

namespace DecoderId

/-- What is left of values after some reads. The last value stays. -/
def remaining (values : List Int) (reads : Nat) : List Int := values.drop (min reads (values.length - 1))

theorem remaining_zero (values : List Int) : remaining values 0 = values := by
  rw [remaining, Nat.zero_min, List.drop_zero]

theorem remaining_remaining (values : List Int) (reads : Nat) :
    remaining (remaining values reads) 1 = remaining values (reads + 1) := by
  unfold remaining
  rw [List.drop_drop, List.length_drop]
  congr 1
  omega

theorem head?_remaining (values : List Int) (reads : Nat) :
    (remaining values reads).head? = values[min reads (values.length - 1)]? :=
  List.head?_drop

theorem Series.toList_next_eq_remaining (s : Series) : s.next.toList = remaining s.toList 1 := by
  obtain ⟨first, _ | ⟨v, rest⟩⟩ := s
  · rfl
  · simp [next, toList, remaining]

namespace Simulator

/-- The CV that an operation is on. -/
def Op.cv : Op → Int
  | .read cv _ | .write cv _ | .assign cv _ => cv

/-- Is this a read of the CV? -/
def Op.reads (cv : Int) : Op → Bool
  | .read address _ => address = cv
  | .write _ _ | .assign _ _ => false

/-- The operation gives the CV these values: it writes the only one, or assigns them. -/
inductive Gives (failing : List Int) (cv : Int) : Op → List Int → Prop
  | write {value : Int} : cv ∉ failing → Gives failing cv (.write cv value) [value]
  | assign {raw : Json} {values : List Int} : raw.Serves values → Gives failing cv (.assign cv raw) values

/-- The values that the CV was given last, when the decoder was built or by one of the operations, and
how often it has been read since. -/
inductive LastGiven (d : Simulator) (cv : Int) : List Op → List Int → Nat → Prop
  | built {ops : List Op} {values : List Int} :
      d.values? cv = some values → (∀ op ∈ ops, ∀ l, ¬ Gives d.failing cv op l) →
      LastGiven d cv ops values (ops.countP (·.reads cv))
  | operation {before after : List Op} {op : Op} {values : List Int} :
      Gives d.failing cv op values → (∀ op' ∈ after, ∀ l, ¬ Gives d.failing cv op' l) →
      LastGiven d cv (before ++ op :: after) values (after.countP (·.reads cv))

/-- The CV has never been given a value. -/
structure NeverGiven (d : Simulator) (cv : Int) (ops : List Op) : Prop where
  built : d.values? cv = none
  operation : ∀ op ∈ ops, ∀ l, ¬ Gives d.failing cv op l

/-- What a read of the CV is answered with after the operations. -/
inductive Answers (d : Simulator) (cv : Int) (optional : Bool) (ops : List Op) : Outcome → Prop
  | failing : cv ∈ d.failing → Answers d cv optional ops (.failure ("CV " ++ Numeral.decimal cv ++ " read failed"))
  | missing : cv ∉ d.failing → NeverGiven d cv ops →
      Answers d cv optional ops
        (if optional then .absent else .failure ("CV " ++ Numeral.decimal cv ++ " not implemented"))
  | served {values : List Int} {reads : Nat} {b : Byte} :
      cv ∉ d.failing → LastGiven d cv ops values reads →
      values[min reads (values.length - 1)]? = some (b.val : Int) → Answers d cv optional ops (.value b)

variable {d : Simulator} {cv : Int} {op : Op} {ops : List Op} {values : List Int} {reads : Nat} {o : Outcome}
  {optional : Bool}

/-! ## One operation -/

theorem exists_series_of_serves {raw : Json} (h : raw.Serves values) (source : String) (cv : Int) :
    ∃ s, Series.ofJson source cv raw = .ok s ∧ s.toList = values := by
  cases values with
  | nil => exact absurd rfl h.ne_nil
  | cons first rest => exact ⟨⟨first, rest⟩, Image.ofJson_eq_ok_iff.2 h, rfl⟩

theorem values?_apply_of_gives (h : Gives d.failing cv op values) : (d.apply op).values? cv = some values := by
  cases h with
  | write hf =>
    simp only [apply, write_of_not_failing hf, values?_setSeries, ↓reduceIte]
    rfl
  | @assign raw _ hraw =>
    obtain ⟨s, hs, rfl⟩ := exists_series_of_serves hraw d.source cv
    have ha : d.assign cv raw = .ok (d.setSeries cv s) := by rw [Simulator.assign, hs]; rfl
    simp only [apply, ha, values?_setSeries, ↓reduceIte]

theorem values?_apply_of_ne (h : op.cv ≠ cv) : (d.apply op).values? cv = d.values? cv := by
  cases op with
  | read address optional =>
    have hne : address ≠ cv := h
    by_cases hf : address ∈ d.failing
    · simp only [apply, read_of_failing hf, values?_logged]
    · cases hs : d.series? address with
      | none => simp only [apply, read_of_missing hf hs, values?_logged]
      | some s => simp only [apply, read_of_series hf hs, values?_logged, values?_setSeries, if_neg hne]
  | write address value =>
    have hne : address ≠ cv := h
    by_cases hf : address ∈ d.failing
    · simp only [apply, write_of_failing hf, values?_logged]
    · simp only [apply, write_of_not_failing hf, values?_setSeries, if_neg hne, values?_logged]
  | assign address raw =>
    have hne : address ≠ cv := h
    cases ha : d.assign address raw with
    | error f => simp only [apply, ha]
    | ok d' =>
      obtain ⟨s, -, rfl⟩ := map_eq_ok.1 ha
      simp only [apply, ha, values?_setSeries, if_neg hne]

theorem values?_apply_read (hf : cv ∉ d.failing) (optional : Bool) :
    (d.apply (.read cv optional)).values? cv = (d.values? cv).map (remaining · 1) := by
  cases hs : d.series? cv with
  | none =>
    have hnone : d.values? cv = none := by rw [values?, hs, Option.map_none]
    simp only [apply, read_of_missing hf hs, values?_logged, hnone, Option.map_none]
  | some s =>
    have hsome : d.values? cv = some s.toList := by rw [values?, hs, Option.map_some]
    simp only [apply, read_of_series hf hs, values?_logged, values?_setSeries, ↓reduceIte, hsome, Option.map_some,
      s.toList_next_eq_remaining]

/-- Without new values, only a read of the CV changes what is left of the old ones. -/
theorem values?_apply_of_not_gives (hf : cv ∉ d.failing) (h : ∀ l, ¬ Gives d.failing cv op l) :
    (d.apply op).values? cv = if op.reads cv then (d.values? cv).map (remaining · 1) else d.values? cv := by
  by_cases hcv : op.cv = cv
  · subst hcv
    cases op with
    | read address optional => simpa [Op.reads, Op.cv] using values?_apply_read hf optional
    | write address value => exact absurd (.write hf) (h _)
    | assign address raw =>
      cases ha : d.assign address raw with
      | error f => simp [apply, ha, Op.reads]
      | ok d' =>
        obtain ⟨s, hs, -⟩ := map_eq_ok.1 ha
        exact absurd (.assign (Image.ofJson_eq_ok_iff.1 hs)) (h _)
  · have hreads : op.reads cv = false := by
      cases op with
      | read => simpa [Op.reads, Op.cv] using hcv
      | write | assign => rfl
    rw [values?_apply_of_ne hcv, hreads, if_neg Bool.false_ne_true]

/-! ## Runs -/

theorem run_append (d : Simulator) (ops ops' : List Op) : d.run (ops ++ ops') = (d.run ops).run ops' := List.foldl_append

theorem run_concat (d : Simulator) (ops : List Op) (op : Op) : d.run (ops ++ [op]) = (d.run ops).apply op :=
  run_append d ops [op]

theorem failing_run (d : Simulator) (ops : List Op) : (d.run ops).failing = d.failing := by
  induction ops using List.reverseRecOn with
  | nil => rfl
  | append_singleton ops op ih => rw [run_concat, failing_apply, ih]

theorem values?_run_of_not_given (hf : cv ∉ d.failing) (h : ∀ op ∈ ops, ∀ l, ¬ Gives d.failing cv op l) :
    (d.run ops).values? cv = (d.values? cv).map (remaining · (ops.countP (·.reads cv))) := by
  -- From the last operation on, which is a read of the CV or leaves it alone.
  induction ops using List.reverseRecOn with
  | nil =>
    simp only [List.countP_nil, remaining_zero, Option.map_id']
    rfl
  | append_singleton ops op ih =>
    have hops := ih fun op' hop' => h op' (List.mem_append_left _ hop')
    have hlast : ∀ l, ¬ Gives (d.run ops).failing cv op l := by
      rw [failing_run]
      exact h op (by simp)
    rw [run_concat, values?_apply_of_not_gives (by rwa [failing_run]) hlast, hops, List.countP_append, List.countP_singleton]
    split
    · rw [Option.map_map]
      exact congrArg (Option.map · _) (funext fun values => remaining_remaining values _)
    · rfl

theorem LastGiven.values? (h : LastGiven d cv ops values reads) (hf : cv ∉ d.failing) :
    (d.run ops).values? cv = some (remaining values reads) := by
  cases h with
  | built hvalues hnot => rw [values?_run_of_not_given hf hnot, hvalues, Option.map_some]
  | @operation before after op _ hgives hnot =>
    have hfailing : ((d.run before).apply op).failing = d.failing := by rw [failing_apply, failing_run]
    have hgiven : ((d.run before).apply op).values? cv = some values := by
      apply values?_apply_of_gives
      rwa [failing_run]
    rw [run_append]
    show (((d.run before).apply op).run after).values? cv = _
    rw [values?_run_of_not_given (by rwa [hfailing]) (by rwa [hfailing]), hgiven, Option.map_some]

theorem NeverGiven.values? (h : NeverGiven d cv ops) (hf : cv ∉ d.failing) : (d.run ops).values? cv = none := by
  rw [values?_run_of_not_given hf h.operation, h.built, Option.map_none]

/-- Operations on other CVs do not matter. -/
theorem values?_run_filter (hf : cv ∉ d.failing) (ops : List Op) :
    (d.run (ops.filter (·.cv = cv))).values? cv = (d.run ops).values? cv := by
  induction ops using List.reverseRecOn with
  | nil => rfl
  | append_singleton ops op ih =>
    rw [List.filter_append, run_concat]
    by_cases hcv : op.cv = cv
    · rw [List.filter_singleton, decide_eq_true hcv, cond_true, run_concat]
      have hf' : cv ∉ (d.run ops).failing := by rwa [failing_run]
      have hf'' : cv ∉ (d.run (ops.filter (·.cv = cv))).failing := by rwa [failing_run]
      -- The operation gives the CV new values in both runs, or it leaves some of the same old ones.
      by_cases hgives : ∃ l, Gives d.failing cv op l
      · obtain ⟨l, hl⟩ := hgives
        rw [values?_apply_of_gives (by rwa [failing_run]), values?_apply_of_gives (by rwa [failing_run])]
      · have hnot : ∀ l, ¬ Gives d.failing cv op l := not_exists.1 hgives
        rw [values?_apply_of_not_gives hf'' (by rwa [failing_run]), values?_apply_of_not_gives hf' (by rwa [failing_run]), ih]
    · rw [List.filter_singleton, decide_eq_false hcv, cond_false, List.append_nil, values?_apply_of_ne hcv, ih]

/-- All values that are written are bytes. -/
def WritesBytes (ops : List Op) : Prop := ∀ cv value, Op.write cv value ∈ ops → 0 ≤ value ∧ value ≤ 255

theorem allBytes_run (hd : AllBytes d.cvs) (hw : WritesBytes ops) : AllBytes (d.run ops).cvs := by
  induction ops using List.reverseRecOn with
  | nil => exact hd
  | append_singleton ops op ih =>
    have hops : AllBytes (d.run ops).cvs := ih fun cv value h => hw cv value (List.mem_append_left _ h)
    have hop : ¬ (d.run ops).Spoils op := by
      cases op with
      | read | assign => exact not_false
      | write cv value => exact fun hspoils => hspoils.2 (hw cv value (by simp))
    rw [run_concat]
    exact (sane_of_allBytes hops hop).bytes

/-! ## Answers -/

theorem series?_eq_none_iff : d.series? cv = none ↔ d.values? cv = none := by
  rw [values?, Option.map_eq_none_iff]

theorem exists_series?_of_values? (h : d.values? cv = some values) : ∃ s, d.series? cv = some s ∧ s.toList = values :=
  Option.map_eq_some_iff.1 h

theorem Answers.outcome (h : Answers d cv optional ops o) : ((d.run ops).read cv optional).outcome = .ok o := by
  cases h with
  | failing hf => rw [read_of_failing (by rwa [failing_run])]
  | missing hf hnever =>
    have hs : (d.run ops).series? cv = none := series?_eq_none_iff.2 (hnever.values? hf)
    rw [read_of_missing (by rwa [failing_run]) hs]
  | @served values reads b hf hlast hb =>
    obtain ⟨s, hs, hleft⟩ := exists_series?_of_values? (hlast.values? hf)
    have hfirst : s.first = b.val := by
      rw [← head?_remaining, ← hleft] at hb
      exact Option.some.inj hb
    rw [read_of_series (by rwa [failing_run]) hs, hfirst, outcomeOf_val]

theorem lastGiven_or_neverGiven (d : Simulator) (cv : Int) (ops : List Op) :
    (∃ values reads, LastGiven d cv ops values reads) ∨ NeverGiven d cv ops := by
  by_cases h : ∃ op ∈ ops, ∃ l, Gives d.failing cv op l
  · obtain ⟨before, op, after, rfl, ⟨values, hgives⟩, hafter⟩ := exists_last_of_exists h
    exact .inl ⟨values, _, .operation hgives fun op' hop' l hl => hafter op' hop' ⟨l, hl⟩⟩
  · have hnot : ∀ op ∈ ops, ∀ l, ¬ Gives d.failing cv op l := fun op hop l hl => h ⟨op, hop, l, hl⟩
    cases hvalues : d.values? cv with
    | none => exact .inr ⟨hvalues, hnot⟩
    | some values => exact .inl ⟨values, _, .built hvalues hnot⟩

theorem exists_answers (hd : AllBytes d.cvs) (hw : WritesBytes ops) (cv : Int) (optional : Bool) :
    ∃ o, Answers d cv optional ops o := by
  by_cases hf : cv ∈ d.failing
  · exact ⟨_, .failing hf⟩
  rcases lastGiven_or_neverGiven d cv ops with ⟨values, reads, hlast⟩ | hnever
  · obtain ⟨s, hs, hleft⟩ := exists_series?_of_values? (hlast.values? hf)
    obtain ⟨b, hb⟩ := exists_byte ((allBytes_run hd hw).served hs s.first List.mem_cons_self)
    refine ⟨_, .served (b := b) hf hlast ?_⟩
    rw [← head?_remaining, ← hleft, ← hb]
    rfl
  · exact ⟨_, .missing hf hnever⟩

theorem outcome_eq_ok_iff (hd : AllBytes d.cvs) (hw : WritesBytes ops) :
    ((d.run ops).read cv optional).outcome = .ok o ↔ Answers d cv optional ops o := by
  constructor
  · intro h
    obtain ⟨o', ho'⟩ := exists_answers hd hw cv optional
    obtain rfl : o = o' := Except.ok.inj (h.symm.trans ho'.outcome)
    exact ho'
  · exact Answers.outcome

theorem outcome_congr {s s' : Simulator} (hfailing : s'.failing = s.failing)
    (hvalues : cv ∉ s.failing → s'.values? cv = s.values? cv) (optional : Bool) :
    (s'.read cv optional).outcome = (s.read cv optional).outcome := by
  by_cases hf : cv ∈ s.failing
  · rw [read_of_failing hf, read_of_failing (hfailing ▸ hf)]
  · have hseries : s'.series? cv = s.series? cv := Option.map_injective Series.toList_injective (hvalues hf)
    cases hs : s.series? cv with
    | none => rw [read_of_missing hf hs, read_of_missing (hfailing ▸ hf) (hseries.trans hs)]
    | some series => rw [read_of_series hf hs, read_of_series (hfailing ▸ hf) (hseries.trans hs)]

theorem outcome_of_filter_eq {ops' : List Op} (h : ops'.filter (·.cv = cv) = ops.filter (·.cv = cv)) (optional : Bool) :
    ((d.run ops').read cv optional).outcome = ((d.run ops).read cv optional).outcome := by
  refine outcome_congr (by rw [failing_run, failing_run]) (fun hf => ?_) optional
  rw [failing_run] at hf
  rw [← values?_run_filter hf ops', h, values?_run_filter hf ops]

/-! ## The log -/

/-- The value that an outcome serves. -/
def served? : Except Fault Outcome → Option Int
  | .ok (.value b) => some b.val
  | _ => none

/-- What an operation adds to the log: an entry for a read or a write. -/
def entries (d : Simulator) : Op → List LogEntry
  | .read cv optional => [⟨false, cv, served? (d.read cv optional).outcome⟩]
  | .write cv value => [⟨true, cv, some value⟩]
  | .assign _ _ => []

theorem log_apply (hd : AllBytes d.cvs) (op : Op) : (d.apply op).log = d.log ++ d.entries op := by
  cases op with
  | read cv optional =>
    by_cases hf : cv ∈ d.failing
    · simp only [apply, entries, read_of_failing hf]
      rfl
    · cases hs : d.series? cv with
      | none =>
        simp only [apply, entries, read_of_missing hf hs]
        cases optional <;> rfl
      | some s =>
        obtain ⟨b, hb⟩ := exists_byte (hd.served hs s.first List.mem_cons_self)
        simp only [apply, entries, read_of_series hf hs, hb, outcomeOf_val]
        rfl
  | write cv value =>
    by_cases hf : cv ∈ d.failing
    · simp only [apply, entries, write_of_failing hf]
      rfl
    · simp only [apply, entries, write_of_not_failing hf]
      rfl
  | assign cv raw =>
    cases ha : d.assign cv raw with
    | error f => simp only [apply, entries, ha, List.append_nil]
    | ok d' =>
      obtain ⟨s, -, rfl⟩ := map_eq_ok.1 ha
      simp only [apply, entries, ha, List.append_nil]
      rfl

/-! ## Decoders built from values -/

/-- What a CV has been given when the decoder is built from pairs: the value in the last pair for it. -/
inductive BuiltWith (pairs : List (Int × Json)) (cv : Int) : Option (List Int) → Prop
  | absent : (∀ p ∈ pairs, p.1 ≠ cv) → BuiltWith pairs cv none
  | last {before after : List (Int × Json)} {raw : Json} {values : List Int} :
      pairs = before ++ (cv, raw) :: after → (∀ p ∈ after, p.1 ≠ cv) → raw.Serves values →
      BuiltWith pairs cv (some values)

variable {source : String} {pairs : List (Int × Json)} {failing : List Int} {d' : Simulator}

/-- With different keys, each pair gives its CV the values that it describes. -/
theorem values?_foldlM_assign (hnodup : (pairs.map (·.1)).Nodup)
    (h : pairs.foldlM (fun (d : Simulator) (cv, raw) => d.assign cv raw) d = .ok d') (cv : Int) :
    (cv ∉ pairs.map (·.1) → d'.values? cv = d.values? cv) ∧
      ∀ raw, (cv, raw) ∈ pairs → ∃ values, raw.Serves values ∧ d'.values? cv = some values := by
  induction pairs generalizing d with
  | nil =>
    cases h
    exact ⟨fun _ => rfl, by simp⟩
  | cons p pairs ih =>
    obtain ⟨key, raw⟩ := p
    obtain ⟨hkey, hrest⟩ := List.nodup_cons.1 hnodup
    rw [List.foldlM_cons, bind_eq_ok] at h
    obtain ⟨next, hnext, h⟩ := h
    obtain ⟨s, hs, rfl⟩ := map_eq_ok.1 hnext
    obtain ⟨hother, hgiven⟩ := ih hrest h
    constructor
    · intro hcv
      simp only [List.map_cons, List.mem_cons, not_or] at hcv
      rw [hother hcv.2, values?_setSeries, if_neg (Ne.symm hcv.1)]
    · intro raw' hmem
      rcases List.mem_cons.1 hmem with heq | hmem
      · obtain ⟨rfl, rfl⟩ := Prod.mk.inj heq
        exact ⟨s.toList, Image.ofJson_eq_ok_iff.1 hs, by rw [hother hkey, values?_setSeries, if_pos rfl]⟩
      · exact hgiven raw' hmem

theorem builtWith_build (h : build source pairs failing = .ok d) (cv : Int) : BuiltWith pairs cv (d.values? cv) := by
  obtain ⟨d₀, hd₀, h⟩ := bind_eq_ok.1 h
  cases h
  have hempty : (([] : List (Int × Json)).map (·.1)).Nodup := List.nodup_nil
  have hnodup : ((Assoc.ofList pairs).map (·.1)).Nodup := Assoc.nodup_setAll hempty pairs
  obtain ⟨hother, hgiven⟩ := values?_foldlM_assign hnodup hd₀ cv
  by_cases hcv : ∃ p ∈ pairs, p.1 = cv
  · obtain ⟨before, ⟨_, raw⟩, after, rfl, rfl, hafter⟩ := exists_last_of_exists hcv
    have hlast : (_, raw) ∈ Assoc.ofList (before ++ (_, raw) :: after) :=
      Assoc.mem_of_get? (Assoc.get?_setAll_of_last [] before hafter)
    obtain ⟨values, hraw, hvalues⟩ := hgiven raw hlast
    exact hvalues ▸ .last rfl hafter hraw
  · have hnone : ∀ p ∈ pairs, p.1 ≠ cv := fun p hp heq => hcv ⟨p, hp, heq⟩
    have hkeys : cv ∉ (Assoc.ofList pairs).map (·.1) :=
      Assoc.get?_eq_none_iff.1 (Assoc.get?_setAll_of_not_mem hnone)
    have hvalues : d₀.values? cv = none := hother hkeys
    exact hvalues ▸ .absent hnone

/-! ## Histories -/

/-- At any point of a run that writes nothing but bytes, a read is answered from the history of its CV, and
operations on other CVs do not matter. A CV that fails takes nothing and gives nothing away. A read or a
write adds one entry to the log, and a refused assignment changes nothing. -/
theorem read_answered (hd : d.Built) (hw : WritesBytes ops) :
    let s := d.run ops
    (∀ cv optional,
      (∃ o, (s.read cv optional).outcome = .ok o) ∧
      (∀ o, (s.read cv optional).outcome = .ok o ↔ Answers d cv optional ops o) ∧
      ∀ ops', ops'.filter (·.cv = cv) = ops.filter (·.cv = cv) →
        ((d.run ops').read cv optional).outcome = (s.read cv optional).outcome) ∧
    (∀ cv ∈ d.failing, ∀ optional value,
      (s.read cv optional).state.cvs = s.cvs ∧
      (s.write cv value).outcome = .ok (.failure ("CV " ++ Numeral.decimal cv ++ " write failed")) ∧
      (s.write cv value).state.cvs = s.cvs) ∧
    (∀ op, (s.apply op).log = s.log ++ s.entries op) ∧
    (∀ cv raw f, s.assign cv raw = .error f → s.apply (.assign cv raw) = s) ∧
    ∀ source pairs failing, build source pairs failing = .ok d →
      d.failing = failing ∧ ∀ cv, BuiltWith pairs cv (d.values? cv) := by
  intro s
  have hbytes : AllBytes d.cvs := hd.allBytes
  refine ⟨fun cv optional => ⟨?_, fun o => outcome_eq_ok_iff hbytes hw, fun ops' h => outcome_of_filter_eq h optional⟩,
    fun cv hcv optional value => ?_, log_apply (allBytes_run hbytes hw), fun cv raw f hf => ?_,
    fun source pairs failing h => ⟨?_, builtWith_build h⟩⟩
  · exact (exists_answers hbytes hw cv optional).imp fun o => Answers.outcome
  · have hf : cv ∈ s.failing := by rwa [failing_run]
    rw [read_of_failing hf, write_of_failing hf]
    exact ⟨rfl, rfl, rfl⟩
  · simp only [apply, hf]
  · obtain ⟨d₀, -, h⟩ := bind_eq_ok.1 h
    cases h
    rfl

theorem read_answered_two_values :
    Built { cvs := [(56, ⟨1, [2]⟩)], failing := [3] } ∧
      WritesBytes [.read 56 false, .write 3 9, .write 8 9, .assign 7 (.int 5)] ∧
      ((run { cvs := [(56, ⟨1, [2]⟩)], failing := [3] }
        [.read 56 false, .write 3 9, .write 8 9, .assign 7 (.int 5)]).read 56 false).outcome =
          .ok (.value ⟨2, by decide⟩) := by
  have built : Built { cvs := [(56, ⟨1, [2]⟩)], failing := [3] } :=
    .values (show build "<memory>" [(56, .array [.int 1, .int 2])] [3] = _ from rfl)
  have bytes : WritesBytes [.read 56 false, .write 3 9, .write 8 9, .assign 7 (.int 5)] := by
    intro cv value h
    simp only [List.mem_cons, List.not_mem_nil, reduceCtorEq, Op.write.injEq, false_or, or_false] at h
    omega
  have last : LastGiven { cvs := [(56, ⟨1, [2]⟩)], failing := [3] } 56
      [.read 56 false, .write 3 9, .write 8 9, .assign 7 (.int 5)] [1, 2] 1 := by
    refine .built rfl fun op hop l hgives => ?_
    cases hgives <;> simp at hop
  exact ⟨built, bytes, ((read_answered built bytes).1 56 false).2.1 _ |>.2 (.served (by decide) last rfl)⟩

end Simulator

end DecoderId
