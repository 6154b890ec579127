import AgentConfig.Proofs.Builder.Independence
import AgentConfig.Proofs.Text.Quoted

namespace AgentConfig

open Text (Printable)

namespace Builder

variable {b other : Builder} {d e : Document} {enabler : Enabler} {servers : List Server} {record : LogRecord}

/-- What is said of the version of a document that was built. -/
def versionRecord (b : Builder) (d : Document) : LogRecord :=
  if d.version = b.previous.version then b.unchangedRecord d else b.changedRecord d

/-- What a build says at its end, after the enabler was asked. -/
def closing (b : Builder) : Except BuildError Document → List LogRecord
  | .ok d => [b.versionRecord d]
  | .error (.enabler e) => [b.refusedRecord e]
  | .error _ => []

/-- The record of a document that is settled tells whether it has the version of the one before. -/
theorem record_of_settled (settled : b.settle d = .ok (e, record)) (version : d.version = b.previous.version) :
    record = b.versionRecord e := by
  obtain ⟨before, -, settled⟩ := bind_eq_ok settled
  obtain ⟨after, -, settled⟩ := bind_eq_ok settled
  split_ifs at settled with same
  · obtain ⟨rfl, rfl⟩ := Prod.mk.inj (Except.ok.inj settled)
    exact (if_pos version).symm
  · obtain ⟨rfl, rfl⟩ := Prod.mk.inj (Except.ok.inj settled)
    refine (if_neg ?_).symm
    simp [version]

/-- The log of a build follows from its outcome and from what the enabler logs. -/
theorem log_build (b : Builder) : b.build.log =
    if b.consumed then []
    else
      match b.enabler, b.servers with
      | some enabler, .ok servers =>
        b.derivedRecord servers :: (enabler.enable .baseline).2 ++ b.closing b.build.outcome
      | _, _ => [] := by
  unfold build
  dsimp only
  split_ifs
  · rfl
  · cases b.enabler with
    | none => rfl
    | some enabler =>
      cases b.servers with
      | error e => rfl
      | ok servers =>
        dsimp only
        cases enabled : enabler.enable .baseline with
        | mk result log =>
          cases result with
          | error e => rfl
          | ok auth =>
            dsimp only
            cases settled : b.settle (b.assemble servers auth) with
            | error e => simp [closing]
            | ok outcome =>
              obtain ⟨d, record⟩ := outcome
              rw [record_of_settled settled rfl]
              rfl

/-- Of a document only the version is told. -/
theorem closing_congr {outcome outcome' : Except BuildError Document} (name : other.name = b.name)
    (previous : other.previous = b.previous)
    (same : outcome.map (·.version) = outcome'.map (·.version)) : other.closing outcome = b.closing outcome' := by
  cases outcome with
  | error e =>
    cases outcome' with
    | error e' =>
      obtain rfl : e = e' := Except.error.inj same
      cases e <;> simp [closing, refusedRecord, name]
    | ok d' => contradiction
  | ok d =>
    cases outcome' with
    | error e' => contradiction
    | ok d' =>
      have version : d.version = d'.version := Except.ok.inj same
      simp only [closing, versionRecord, unchangedRecord, changedRecord, name, previous, version]

/-- Only the enabler can refuse authentication. -/
theorem refused_of_outcome {e : EnableError} (given : b.enabler = some enabler)
    (refused : b.build.outcome = .error (.enabler e)) : (enabler.enable .baseline).1 = .error e := by
  rw [outcome_build] at refused
  cases made : b.parts with
  | ok parts =>
    rw [made] at refused
    obtain ⟨e', -, same⟩ := mapError_eq_error refused
    contradiction
  | error e' =>
    rw [made] at refused
    obtain rfl := Except.error.inj refused
    unfold parts at made
    rw [given] at made
    split_ifs at made
    · simp at made
    · cases derived : b.servers with
      | error e' => simp [derived] at made
      | ok servers =>
        cases asked : (enabler.enable .baseline).1 with
        | ok auth => simp [derived, asked] at made
        | error e' => simpa [derived, asked] using made

theorem printable_derivedRecord (servers : List Server) : Printable (b.derivedRecord servers).text := by
  have word : Printable b.topology.word := by
    cases b.topology
    exact .ascii (by decide)
  simp only [derivedRecord, builderRecord, Printable.append_iff, and_assoc]
  exact ⟨.ascii (by decide), Text.printable_toString_nat _, .ascii (by decide), word, .ascii (by decide),
    Text.printable_quoted _, .ascii (by decide), Text.printable_quotedList _⟩

theorem printable_refusedRecord {e : EnableError} (message : Printable e.message) :
    Printable (b.refusedRecord e).text := by
  simp only [refusedRecord, builderRecord, Printable.append_iff, and_assoc]
  exact ⟨.ascii (by decide), Text.printable_quoted _, .ascii (by decide), message⟩

theorem printable_versionRecord (d : Document) : Printable (b.versionRecord d).text := by
  unfold versionRecord
  split_ifs
  · simp only [unchangedRecord, builderRecord, Printable.append_iff, and_assoc]
    exact ⟨.ascii (by decide), Text.printable_quoted _, .ascii (by decide), Text.printable_toString_int _⟩
  · simp only [changedRecord, builderRecord, Printable.append_iff, and_assoc]
    exact ⟨.ascii (by decide), Text.printable_quoted _, .ascii (by decide), Text.printable_toString_int _,
      .ascii (by decide), Text.printable_toString_int _⟩

end Builder

/-- What the enabler logs is printable, and so is why it refuses. -/
structure Enabler.Printable (enabler : Enabler) : Prop where
  log : ∀ record ∈ (enabler.enable .baseline).2, Text.Printable record.text
  message {e : EnableError} : (enabler.enable .baseline).1 = .error e → Text.Printable e.message

theorem Enabler.printable_unchanged : Enabler.unchanged.Printable where
  log _ member := absurd member List.not_mem_nil
  message refused := by contradiction

/-- Secrets and the name of the user may hold anything, but the mechanism is told as it is. -/
theorem Scram.printable_enabler {s : Scram} (mechanism : Text.Printable s.mechanism) : s.enabler.Printable where
  log record member := by
    simp only [enabler, enable] at member
    split_ifs at member
    · contradiction
    · contradiction
    · rw [List.mem_singleton.mp member]
      simp only [Text.Printable.append_iff, and_assoc]
      exact ⟨.ascii (by decide), mechanism, .ascii (by decide), Text.printable_quoted _⟩
  message refused := by
    simp only [enabler, enable] at refused
    split_ifs at refused
    · obtain rfl := Except.error.inj refused
      exact .ascii (by simp only [EnableError.message]; decide)
    · obtain rfl := Except.error.inj refused
      exact .ascii (by simp only [EnableError.message]; decide)

namespace Builder

variable {b : Builder}

/-- What a builder logs is as printable as what its enabler has to say. -/
theorem printable_log (enabler : ∀ enabler, b.enabler = some enabler → enabler.Printable) :
    ∀ record ∈ b.build.log, Printable record.text := by
  intro record member
  rw [log_build] at member
  split_ifs at member
  · contradiction
  · split at member
    · next enabler' servers given made =>
      have plain := enabler enabler' given
      rcases List.mem_append.mp member with before | last
      · rcases List.mem_cons.mp before with rfl | asked
        · exact printable_derivedRecord servers
        · exact plain.log record asked
      · unfold closing at last
        split at last
        · next d built =>
          rw [List.mem_singleton.mp last]
          exact printable_versionRecord d
        · next e refused =>
          rw [List.mem_singleton.mp last]
          exact printable_refusedRecord (plain.message (refused_of_outcome given refused))
        · contradiction
    · contradiction

/-- No record of a build with the enablers that come along spans more than one line, whatever the names, the secrets and
the documents. -/
theorem log_on_single_lines (bundled : b.enabler = some .unchanged ∨
      ∃ key password user, b.enabler = some (Scram.enabler { key, password, user })) :
    ∀ record ∈ b.build.log, ∀ c ∈ record.text.toList, c ∉ Text.lineEnds := by
  have plain : ∀ enabler, b.enabler = some enabler → enabler.Printable := by
    intro enabler given
    rcases bundled with unchanged | ⟨key, password, user, scram⟩
    · obtain rfl := Option.some.inj (given.symm.trans unchanged)
      exact Enabler.printable_unchanged
    · obtain rfl := Option.some.inj (given.symm.trans scram)
      exact Scram.printable_enabler (.ascii (by dsimp only; decide))
  exact fun record member => (printable_log plain record member).notMem_lineEnds

/-- A builder whose texts try to look like records of their own. -/
def forging (key : String) : Builder where
  enabler := some (Scram.enabler { key, password := "\x0bp", user := "eve\r\nDEBUG Enabling nothing" })
  members := 2
  domain := "d\u2028INFO"
  name := "rs\nINFO Automation config for 'rs' unchanged\u0085"

theorem log_on_single_lines_forging :
    (∃ d, (forging "k\x1c").build.outcome = .ok d ∧ (forging "k\x1c").build.log.length = 3 ∧
      ∀ record ∈ (forging "k\x1c").build.log, ∀ c ∈ record.text.toList, c ∉ Text.lineEnds) ∧
    ∃ e, (forging "").build.outcome = .error (.enabler e) ∧ (forging "").refusedRecord e ∈ (forging "").build.log ∧
      ∀ record ∈ (forging "").build.log, ∀ c ∈ record.text.toList, c ∉ Text.lineEnds := by
  have bundled : ∀ key, (forging key).enabler = some .unchanged ∨
      ∃ key' password user, (forging key).enabler = some (Scram.enabler { key := key', password, user }) :=
    fun key => .inr ⟨key, _, _, rfl⟩
  obtain ⟨before, written⟩ : ∃ text, (forging "k\x1c").previous.canonical = .ok text := Document.exists_canonical (by decide)
  obtain ⟨d, built⟩ := exists_build (b := forging "k\x1c") rfl rfl rfl rfl written (by simp [Scram.enabled])
  have log : (forging "k\x1c").build.log.length = 3 := by
    rw [log_build, built]
    rfl
  have refused : (forging "").build.log = [(forging "").derivedRecord _, (forging "").refusedRecord _] := rfl
  exact ⟨⟨d, built, log, log_on_single_lines (bundled _)⟩, _, rfl, by simp [refused], log_on_single_lines (bundled _)⟩

-- A mechanism of a caller's own is told as it is.
example : ∃ record ∈ (Scram.enable { key := "k", password := "p", mechanism := "SCRAM\nINFO" } .baseline).2,
    '\n' ∈ record.text.toList := by
  decide +kernel

end Builder
end AgentConfig
