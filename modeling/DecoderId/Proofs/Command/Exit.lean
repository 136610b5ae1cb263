import DecoderId.Command.Run
import DecoderId.Proofs.Bridge.Escape

/-!
# How an identification exits

An identification over a bridge exits with 0 when there is an identity and with 3 when the
CVs or the bridge fail. An error of the client that gets out makes it exit with 4, or with 2 if
something is not found, and so does with 4 a refused connection to a TCP port that cannot be
written (`Command.answer_reported_iff`).
-/

namespace DecoderId.Command

/-! ## Options that have been read -/

/-- Options that ask for the decoder behind a bridge. -/
structure IdentifyOptions.Bridged (o : IdentifyOptions) (name : String) : Prop where
  host : o.host = some name
  named : name ≠ ""
  image : o.image = none
  assignments : o.assignments = []

theorem offset_ge_of_readOr {t : Option Text} {offset : Int} (h : readOr (-1) readOffset t = some offset) :
    -1 ≤ offset := by
  cases t with
  | none =>
    cases h
    exact Int.le_refl _
  | some t =>
    obtain ⟨-, hge⟩ := Option.filter_eq_some_iff.1 h
    exact of_decide_eq_true hge

variable {environment : Environment} {o : IdentifyOptions}

/-- The offset is one that a bridge can have. -/
theorem IdentifyOptions.offset_ge {args : List Text} (h : IdentifyOptions.read environment args = some o) :
    -1 ≤ o.offset := by
  unfold IdentifyOptions.read at h
  simp only [Option.bind_eq_bind, Option.bind_eq_some_iff] at h
  obtain ⟨a, -, h⟩ := h
  split at h
  · cases h
  · simp only [Option.bind_eq_some_iff] at h
    obtain ⟨port, -, unit, -, timeout, -, retries, -, offset, ho, image, -, h⟩ := h
    cases h
    exact offset_ge_of_readOr ho

theorem Invocation.exists_read_of_ofCommand {command : Text} {args : List Text}
    (h : Invocation.ofCommand environment command args = some (.identify o)) :
    ∃ args, IdentifyOptions.read environment args = some o := by
  unfold Invocation.ofCommand at h
  simp only [Option.bind_eq_bind] at h
  split at h
  · obtain ⟨options, ho, hi⟩ := Option.bind_eq_some_iff.1 h
    cases hi
    exact ⟨args, ho⟩
  split at h
  · obtain ⟨⟨options, words⟩, -, hi⟩ := Option.bind_eq_some_iff.1 h
    rcases words with _ | ⟨code, _ | ⟨word, words⟩⟩
    · cases hi
    · obtain ⟨n, -, hn⟩ := Option.bind_eq_some_iff.1 hi
      cases hn
    · cases hi
  split at h
  · obtain ⟨⟨options, words⟩, -, hi⟩ := Option.bind_eq_some_iff.1 h
    cases words <;> cases hi
  · obtain ⟨a, -, hi⟩ := Option.bind_eq_some_iff.1 h
    split at hi <;> cases hi

/-- An identification that a command line asks for has such an offset. -/
theorem Invocation.offset_ge {args : List String} (h : Invocation.read environment args = some (.identify o)) :
    -1 ≤ o.offset := by
  unfold Invocation.read at h
  simp only [Option.bind_eq_bind, Option.bind_eq_some_iff] at h
  obtain ⟨a, -, h⟩ := h
  split at h
  · cases h
  split at h
  · cases h
  · obtain ⟨args, hread⟩ := exists_read_of_ofCommand h
    exact IdentifyOptions.offset_ge hread

/-! ## Exit codes -/

variable {config : BridgeConfig} {script : NetworkScript} {answer : Except Fault Identity} {n : Nat}

theorem faultClass_client (e : ClientError) : (faultClass (.client e)).2 = if e.kind = .notFound then 2 else 4 := by
  obtain ⟨kind, name, qualifiedName, text⟩ := e
  cases kind <;> rfl

theorem exit_of_settles (h : Bridge.Settles config script answer n) (v : Verbosity) (json : Bool) (events : List Event) :
    let exit := (identified v json events answer).exit
    (exit = 0 ∨ exit = 3 ↔
      script.escape? n = none ∧ (script.nextConnect = .refused → Numeral.isWritable config.port = true)) ∧
    (exit = 2 ↔ ∃ e, script.escape? n = some e ∧ e.kind = .notFound) ∧
    (exit = 4 ↔ (∃ e, script.escape? n = some e ∧ e.kind ≠ .notFound) ∨
      script.nextConnect = .refused ∧ Numeral.isWritable config.port = false) := by
  cases h with
  | identified identity hc hn => simp [identified, hc, hn]
  | failed f hc hn => simp [identified, faultClass, hc, hn]
  | unreachable hc hw hn => simp [identified, faultClass, hw, hn]
  | unwritable hc hw hn => simp [identified, faultClass, hc, hw, hn]
  | @escaped _ e hc he =>
    simp only [identified, faultClass_client]
    by_cases hk : e.kind = .notFound
    · simp [hc, he, hk]
    · simp [hc, he, hk]

/-- With a host and no image, the decoder behind a bridge is identified by one managed use of a new port. -/
theorem runIdentify_of_bridged {name : String} (h : o.Bridged name) (ho : -1 ≤ o.offset) (room : Nat) (disk : Disk)
    (script : NetworkScript) (stamp : String) :
    ∃ config : BridgeConfig, config.port = o.port ∧ ∃ v : Verbosity,
      runIdentify room disk script stamp o =
        { identified v o.json (Bridge.manage { config, script }).events (Bridge.manage { config, script }).answer with
          calls := (Bridge.manage { config, script }).state.calls } := by
  have hhost : o.host.filter (!·.isEmpty) = some name := by simp [h.host, h.named]
  have hsimulated : (o.image.isSome || !o.assignments.isEmpty) = false := by simp [h.image, h.assignments]
  unfold runIdentify
  dsimp only
  rw [hhost, hsimulated]
  dsimp only
  unfold runBridged BridgeConfig.withOffset
  dsimp only
  rw [dif_pos ho]
  exact ⟨_, rfl, _, rfl⟩

/-- Over a network of unsigned registers, an identification comes to an answer that a caller expects, and
exits with 0 or 3, exactly when no error gets out of the attempt to connect or of a request that it has made, and
the TCP port can be written if the connection is refused. The first error that gets out is the answer, and the
exit is 2 if something is not found, or else 4. Of the attempts that fail, only one that is refused is told as a
bridge that cannot be reached. -/
theorem answer_reported_iff (hs : script.Unsigned) :
    (∀ config,
      let r := Bridge.manage { config, script }
      (Reported config r.answer ↔
        script.escape? (asked r.state.calls) = none ∧
          (script.nextConnect = .refused → Numeral.isWritable config.port = true)) ∧
      (∀ e, r.answer = .error (.client e) ↔ script.escape? (asked r.state.calls) = some e) ∧
      (r.answer = .error (.bridge (Bridge.notReached config)) ↔
        script.nextConnect = .refused ∧ Numeral.isWritable config.port = true) ∧
      (r.answer = .error .longInteger ↔ script.nextConnect = .refused ∧ Numeral.isWritable config.port = false)) ∧
    ∀ room o name disk stamp, -1 ≤ o.offset → o.Bridged name →
      let out := (Invocation.identify o).run room disk script stamp
      let escape := script.escape? (asked out.calls)
      (out.exit = 0 ∨ out.exit = 3 ↔
        escape = none ∧ (script.nextConnect = .refused → Numeral.isWritable o.port = true)) ∧
      (out.exit = 2 ↔ ∃ e, escape = some e ∧ e.kind = .notFound) ∧
      (out.exit = 4 ↔ (∃ e, escape = some e ∧ e.kind ≠ .notFound) ∨
        script.nextConnect = .refused ∧ Numeral.isWritable o.port = false) := by
  constructor
  · intro config
    have h := Bridge.settles_manage hs config
    exact ⟨h.reported_iff, h.client_iff, h.unreachable_iff, h.unwritable_iff⟩
  · intro room o name disk stamp ho hb
    obtain ⟨config, hport, v, hrun⟩ := runIdentify_of_bridged hb ho room disk script stamp
    rw [Invocation.run, hrun, ← hport]
    exact exit_of_settles (Bridge.settles_manage hs config) v o.json _

/-- The error of a connection that is reset. -/
def connectionReset : ClientError := { kind := .os, name := "ConnectionResetError", text := "reset" }

/-- A connection that is reset after the first register. -/
def resetScript : NetworkScript where
  responses := [.registers (some [145]), .raises connectionReset]

theorem manage_resetScript :
    (Bridge.manage { config := { host := "b" }, script := resetScript }).answer = .error (.client connectionReset) := by
  obtain ⟨ha, -⟩ := Bridge.manage_of_client
    (Bridge.getClient_of_connected (b := { config := { host := "b" }, script := resetScript }) rfl rfl)
  rw [ha]
  -- The second round is the last one.
  exact (Port.Reaches.identify (.single (.intro (o := .value 145) rfl rfl)) (.raised rfl)).1

theorem answer_reported_iff_resetScript :
    resetScript.Unsigned ∧ -1 ≤ ({ host := some "b" } : IdentifyOptions).offset ∧
      IdentifyOptions.Bridged { host := some "b" } "b" ∧
      ((Invocation.identify { host := some "b" }).run 0 (fun _ => .error (.notFound "")) resetScript "").exit = 4 := by
  have unsigned : resetScript.Unsigned := by
    intro response hr
    simp only [resetScript, List.mem_cons, List.not_mem_nil, or_false] at hr
    rcases hr with rfl | rfl
    · simp [Response.Unsigned]
    · trivial
  have bridged : IdentifyOptions.Bridged { host := some "b" } "b" := ⟨rfl, by decide, rfl, rfl⟩
  obtain ⟨bridge, command⟩ := answer_reported_iff unsigned
  have escaped := ((bridge { host := "b" }).2.1 connectionReset).1 manage_resetScript
  have exit := (command 0 _ _ (fun _ => .error (.notFound "")) "" (by decide) bridged).2.2
  exact ⟨unsigned, by decide, bridged, exit.2 (.inl ⟨connectionReset, escaped, by decide⟩)⟩

/-- The network raises errors of the client's library and those of the system only. -/
structure Ordinary (script : NetworkScript) : Prop where
  connects : ∀ e, .raises e ∈ script.connects → e.kind.isModbus ∨ e.kind = .notFound ∨ e.kind = .os
  responses : ∀ e, .raises e ∈ script.responses → e.kind.isModbus ∨ e.kind = .notFound ∨ e.kind = .os
  unsigned : script.Unsigned

/-- A connection that the system refuses is not told as a bridge that cannot be reached. -/
theorem connection_error_escapes :
    ¬ ∀ (config : BridgeConfig) (script : NetworkScript), Ordinary script →
      Reported config (Bridge.manage { config, script }).answer := by
  intro h
  have ordinary : Ordinary { connects := [.raises { kind := .os, name := "OSError", text := "refused" }] } := by
    refine ⟨?_, by simp, by simp [NetworkScript.Unsigned]⟩
    intro e he
    simp only [List.mem_singleton, ConnectAnswer.raises.injEq] at he
    exact .inr (.inr (by rw [he]))
  exact not_reported_client _ _ (h { host := "bridge" } _ ordinary)

end DecoderId.Command
