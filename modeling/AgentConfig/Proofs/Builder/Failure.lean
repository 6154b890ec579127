import AgentConfig.Proofs.Builder.Encryption
import AgentConfig.Proofs.Builder.Session

namespace AgentConfig

/-- No text can be written for the document. -/
def Document.IsUnwritable (d : Document) : Prop :=
  ∀ text, d.canonical ≠ .ok text

theorem Document.isUnwritable_of_error {d : Document} {e : WriteError} (refused : d.canonical = .error e) :
    d.IsUnwritable := fun text written => by
  rw [refused] at written
  contradiction

namespace Builder

variable {b : Builder} {d : Document} {enabler : Enabler} {servers : List Server} {auth : Auth} {log : List LogRecord}

/-- What is wrong with a word for the mode of TLS that is none. -/
def noMode : Invalid where
  title := "MongoDBSSL"
  problems := [{ path := [.key "mode"], cause := .choice ["disabled", "allowSSL", "preferSSL", "requireSSL"] }]

/-- What may stand in the way of a document. -/
inductive Obstacle where
  | consumed
  | noEnabler
  | mode
  | refusal
  | unwritable

namespace Obstacle

/-- The place of an obstacle in the order in which a build comes upon them. -/
def place : Obstacle → Nat
  | consumed => 0
  | noEnabler => 1
  | mode => 2
  | refusal => 3
  | unwritable => 4

def Stands (b : Builder) : Obstacle → Prop
  | consumed => b.consumed = true
  | noEnabler => b.enabler = none
  | mode => 0 < b.members ∧ b.isTlsEnabled = true ∧ ∀ mode : TlsMode, mode.word ≠ b.tlsMode
  | refusal => ∃ enabler e, b.enabler = some enabler ∧ (enabler.enable .baseline).1 = .error e
  | unwritable => b.previous.IsUnwritable ∨ ∃ enabler servers auth, b.enabler = some enabler ∧
      b.servers = .ok servers ∧ (enabler.enable .baseline).1 = .ok auth ∧ (b.assemble servers auth).IsUnwritable

end Obstacle

/-- The first obstacle that stands in the way of a build. -/
structure StopsAt (b : Builder) (o : Obstacle) : Prop where
  stands : o.Stands b
  first (earlier : Obstacle) : earlier.place < o.place → ¬ earlier.Stands b

/-- The error that a build ends with at an obstacle, and all that is logged by then. -/
inductive Reports (b : Builder) : Obstacle → BuildError → List LogRecord → Prop
  | consumed : Reports b .consumed .consumed []
  | noEnabler : Reports b .noEnabler .noEnabler []
  | mode : Reports b .mode (.invalid noMode) []
  | refusal {enabler : Enabler} {servers : List Server} {e : EnableError} {log : List LogRecord}
      (given : b.enabler = some enabler) (made : b.servers = .ok servers)
      (refused : enabler.enable .baseline = (.error e, log)) :
      Reports b .refusal (.enabler e) (b.derivedRecord servers :: log ++ [b.refusedRecord e])
  | unwritable {enabler : Enabler} {servers : List Server} {auth : Auth} {log : List LogRecord}
      (given : b.enabler = some enabler) (made : b.servers = .ok servers)
      (enabled : enabler.enable .baseline = (.ok auth, log)) :
      Reports b .unwritable (.write .unwritable) (b.derivedRecord servers :: log)

theorem read_mode_eq_error {word : String} {problems : List Problem}
    (failed : TlsMode.choices.read (.text word) = .error problems) : (∀ mode : TlsMode, mode.word ≠ word) ∧
      problems = [{ path := [], cause := .choice (TlsMode.choices.all.map TlsMode.word) }] := by
  refine ⟨fun mode same => ?_, ?_⟩
  · have read : TlsMode.choices.read (.text mode.word) = .ok mode := TlsMode.choices.read_word mode
    rw [same, failed] at read
    contradiction
  · rw [Choices.read_text] at failed
    split at failed
    · contradiction
    · exact (Except.error.inj failed).symm

/-- Servers cannot be made just when a word that is no mode is needed for their encryption. -/
theorem servers_eq_error {e : Invalid} : b.servers = .error e ↔ Obstacle.mode.Stands b ∧ e = noMode := by
  rw [servers_eq, Obstacle.Stands]
  split_ifs with few
  · exact iff_of_false (by simp) fun stands => absurd stands.1.1 (not_lt.mpr few)
  · have some : 0 < b.members := not_le.mp few
    rw [encryption]
    split_ifs with on
    · cases read : TlsMode.choices.read (.text b.tlsMode) with
      | ok mode =>
        have word : mode.word = b.tlsMode := TlsMode.choices.word_of_read read
        exact iff_of_false (by simp [Except.map]) fun stands => stands.1.2.2 mode word
      | error problems =>
        obtain ⟨noWord, rfl⟩ := read_mode_eq_error read
        simp only [Except.map, Except.error.injEq]
        exact ⟨fun same => ⟨⟨some, on, noWord⟩, same.symm⟩, fun stands => stands.2.symm⟩
    · exact iff_of_false (by simp [Except.map]) fun stands => on stands.1.2.1

theorem exists_servers (clear : ¬ Obstacle.mode.Stands b) : ∃ servers, b.servers = .ok servers := by
  cases made : b.servers with
  | ok servers => exact ⟨servers, rfl⟩
  | error e => exact absurd (servers_eq_error.mp made).1 clear

/-- Settling a document fails only if it or the one before has no text. -/
theorem settle_eq_error {e : WriteError} : b.settle d = .error e ↔
    e = .unwritable ∧ (b.previous.IsUnwritable ∨ d.IsUnwritable) := by
  rw [settle]
  cases first : b.previous.canonical with
  | error e' =>
    obtain rfl := Document.canonical_eq_error first
    have unwritable := Document.isUnwritable_of_error first
    exact ⟨fun failed => ⟨(Except.error.inj failed).symm, .inl unwritable⟩,
      fun stated => congrArg Except.error stated.1.symm⟩
  | ok before =>
    cases second : d.canonical with
    | error e' =>
      obtain rfl := Document.canonical_eq_error second
      have unwritable := Document.isUnwritable_of_error second
      exact ⟨fun failed => ⟨(Except.error.inj failed).symm, .inr unwritable⟩,
        fun stated => congrArg Except.error stated.1.symm⟩
    | ok after =>
      refine iff_of_false ?_ fun stated => stated.2.elim (· before first) (· after second)
      simp only [bind, Except.bind]
      split_ifs <;> simp

section

variable (fresh : b.consumed = false)

include fresh

theorem build_of_noEnabler (missing : b.enabler = none) :
    b.build = { outcome := .error .noEnabler, log := [], builder := b } := by
  simp [build, fresh, missing]

theorem build_of_noServers {e : Invalid} (given : b.enabler = some enabler) (failed : b.servers = .error e) :
    b.build = { outcome := .error (.invalid e), log := [], builder := b } := by
  simp [build, fresh, given, failed]

theorem build_of_refused {e : EnableError} (given : b.enabler = some enabler) (made : b.servers = .ok servers)
    (refused : enabler.enable .baseline = (.error e, log)) :
    b.build = {
      outcome := .error (.enabler e)
      log := b.derivedRecord servers :: log ++ [b.refusedRecord e]
      builder := b } := by
  simp [build, fresh, given, made, refused]

theorem build_of_unsettled {e : WriteError} (given : b.enabler = some enabler) (made : b.servers = .ok servers)
    (enabled : enabler.enable .baseline = (.ok auth, log)) (failed : b.settle (b.assemble servers auth) = .error e) :
    b.build = { outcome := .error (.write e), log := b.derivedRecord servers :: log, builder := b } := by
  simp [build, fresh, given, made, enabled, failed]

end

/-- What a build that stops says. -/
theorem reports_of_stopsAt {o : Obstacle} (stops : b.StopsAt o) : ∃ e log, Reports b o e log ∧
    b.build = { outcome := .error e, log, builder := b } := by
  -- No obstacle before this one stands, so that the build gets as far.
  have fresh : o ≠ .consumed → b.consumed = false := fun later => by
    have clear := stops.first .consumed (by cases o <;> simp [Obstacle.place] at later ⊢)
    simpa [Obstacle.Stands] using clear
  have given : 1 < o.place → ∃ enabler, b.enabler = some enabler := fun later =>
    Option.ne_none_iff_exists'.mp (stops.first .noEnabler later)
  have made : 2 < o.place → ∃ servers, b.servers = .ok servers := fun later => exists_servers (stops.first .mode later)
  cases o with
  | consumed => exact ⟨_, _, .consumed, build_of_consumed stops.stands⟩
  | noEnabler => exact ⟨_, _, .noEnabler, build_of_noEnabler (fresh (by simp)) stops.stands⟩
  | mode =>
    obtain ⟨enabler, given⟩ := given (by decide)
    exact ⟨_, _, .mode, build_of_noServers (fresh (by simp)) given (servers_eq_error.mpr ⟨stops.stands, rfl⟩)⟩
  | refusal =>
    obtain ⟨servers, made⟩ := made (by decide)
    obtain ⟨enabler, e, given, refused⟩ := stops.stands
    have refused : enabler.enable .baseline = (.error e, (enabler.enable .baseline).2) := Prod.ext refused rfl
    exact ⟨_, _, .refusal given made refused, build_of_refused (fresh (by simp)) given made refused⟩
  | unwritable =>
    obtain ⟨enabler, given⟩ := given (by decide)
    obtain ⟨servers, made⟩ := made (by decide)
    cases enabled : enabler.enable .baseline with
    | mk result log =>
      cases result with
      | error e => exact absurd ⟨enabler, e, given, by rw [enabled]⟩ (stops.first .refusal (by decide))
      | ok auth =>
        have unwritable : b.previous.IsUnwritable ∨ (b.assemble servers auth).IsUnwritable := by
          rcases stops.stands with before | ⟨_, _, _, given', made', enabled', after⟩
          · exact .inl before
          · obtain rfl := Option.some.inj (given.symm.trans given')
            obtain rfl := Except.ok.inj (made.symm.trans made')
            rw [enabled] at enabled'
            obtain rfl := Except.ok.inj enabled'
            exact .inr after
        exact ⟨_, _, .unwritable given made enabled,
          build_of_unsettled (fresh (by simp)) given made enabled (settle_eq_error.mpr ⟨rfl, unwritable⟩)⟩

/-- Where no obstacle stands there is a document. -/
theorem exists_build_of_clear (clear : ∀ o : Obstacle, ¬ o.Stands b) : ∃ d, b.build.outcome = .ok d := by
  have fresh : b.consumed = false := by simpa [Obstacle.Stands] using clear .consumed
  obtain ⟨enabler, given⟩ := Option.ne_none_iff_exists'.mp (clear .noEnabler)
  obtain ⟨servers, made⟩ := exists_servers (clear .mode)
  obtain ⟨auth, enabled⟩ : ∃ auth, (enabler.enable .baseline).1 = .ok auth := by
    cases enabled : (enabler.enable .baseline).1 with
    | ok auth => exact ⟨auth, rfl⟩
    | error e => exact absurd ⟨enabler, e, given, enabled⟩ (clear .refusal)
  have written : ∀ d : Document, ¬ d.IsUnwritable → ∃ text, d.canonical = .ok text := fun d writable => by
    simpa [Document.IsUnwritable] using writable
  obtain ⟨before, first⟩ := written b.previous fun unwritable => clear .unwritable (.inl unwritable)
  obtain ⟨after, second⟩ := written (b.assemble servers auth) fun unwritable =>
    clear .unwritable (.inr ⟨enabler, servers, auth, given, made, enabled, unwritable⟩)
  exact ⟨_, build_eq_ok.mpr ⟨fresh, enabler, servers, auth, before, after, given, made, enabled, first, second, rfl⟩⟩

theorem exists_stopsAt {o : Obstacle} (stands : o.Stands b) : ∃ first, b.StopsAt first := by
  obtain ⟨first, holds, least⟩ := (measure Obstacle.place).wf.has_min {o : Obstacle | o.Stands b} ⟨o, stands⟩
  exact ⟨first, holds, fun earlier before stands => least earlier stands before⟩

/-- Records about the version of a document are none of what a builder itself logs when it stops. -/
theorem Reports.not_version {o : Obstacle} {e : BuildError} {record : LogRecord} (reports : Reports b o e log)
    (member : record ∈ log) (own : ∀ enabler, b.enabler = some enabler → record ∉ (enabler.enable .baseline).2)
    (d : Document) : record ≠ b.changedRecord d ∧ record ≠ b.unchangedRecord d := by
  suffices level : record.level ≠ .info from
    ⟨fun same => level (by rw [same]; rfl), fun same => level (by rw [same]; rfl)⟩
  cases reports with
  | consumed | noEnabler | mode => contradiction
  | refusal given made refused =>
    have others := own _ given
    rw [refused] at others
    rcases List.mem_append.mp member with before | last
    · rcases List.mem_cons.mp before with rfl | asked
      · simp [derivedRecord, builderRecord]
      · exact absurd asked others
    · rw [List.mem_singleton.mp last]
      simp [refusedRecord, builderRecord]
  | unwritable given made enabled =>
    have others := own _ given
    rw [enabled] at others
    rcases List.mem_cons.mp member with rfl | asked
    · simp [derivedRecord, builderRecord]
    · exact absurd asked others

/-- A build fails just when there is an obstacle, and the first one tells the error and what is logged. The builder stays
as it was, and nothing is said of a version. For want of a mode the enabler is not even asked. -/
theorem build_fails_at_first (b : Builder) :
    ((∃ e, b.build.outcome = .error e) ↔ ∃ o : Obstacle, o.Stands b) ∧
    (∀ o, b.StopsAt o → ∃ e, b.build.outcome = .error e ∧ Reports b o e b.build.log ∧ b.build.builder = b ∧
      ∀ record ∈ b.build.log, (∀ enabler, b.enabler = some enabler → record ∉ (enabler.enable .baseline).2) →
        ∀ d, record ≠ b.changedRecord d ∧ record ≠ b.unchangedRecord d) ∧
    (b.StopsAt .mode → ∀ other : Enabler, { b with enabler := some other }.build.outcome = .error (.invalid noMode) ∧
      { b with enabler := some other }.build.log = []) := by
  have stopped : ∀ o, b.StopsAt o → ∃ e, b.build.outcome = .error e ∧ Reports b o e b.build.log ∧ b.build.builder = b := by
    intro o stops
    obtain ⟨e, log, reports, failed⟩ := reports_of_stopsAt stops
    rw [failed]
    exact ⟨e, rfl, reports, rfl⟩
  refine ⟨⟨fun ⟨e, failed⟩ => ?_, fun ⟨o, stands⟩ => ?_⟩, fun o stops => ?_, fun stops other => ?_⟩
  · by_contra clear
    obtain ⟨d, built⟩ := exists_build_of_clear (not_exists.mp clear)
    rw [built] at failed
    contradiction
  · obtain ⟨first, stops⟩ := exists_stopsAt stands
    obtain ⟨e, failed, -⟩ := stopped first stops
    exact ⟨e, failed⟩
  · obtain ⟨e, failed, reports, same⟩ := stopped o stops
    exact ⟨e, failed, reports, same, fun record member own d => reports.not_version member own d⟩
  · have fresh : b.consumed = false := by simpa [Obstacle.Stands] using stops.first .consumed (by decide)
    have failed : { b with enabler := some other }.servers = .error noMode := servers_eq_error.mpr ⟨stops.stands, rfl⟩
    rw [build_of_noServers (b := { b with enabler := some other }) fresh rfl failed]
    exact ⟨rfl, rfl⟩

/-- A builder that has neither a mode nor a willing enabler nor a document before that could be written. -/
def cornered (members : Int) : Builder where
  enabler := some (.refusing "no")
  members := members
  previous := { auth := { key := .foreign } }
  caFile := "/ca"
  keyFile := "/pem"
  tlsMode := "always"

theorem build_fails_at_first_cornered :
    ((cornered 1).StopsAt .mode ∧ (cornered 1).build.outcome = .error (.invalid noMode) ∧ (cornered 1).build.log = [] ∧
      { cornered 1 with enabler := some .unchanged }.build.log = []) ∧
    (cornered 0).StopsAt .refusal ∧ (cornered 0).build.outcome = .error (.enabler (.policy "no")) ∧
    (cornered 0).build.log = [(cornered 0).derivedRecord [], (cornered 0).refusedRecord (.policy "no")] := by
  have stops : (cornered 1).StopsAt .mode := by
    refine ⟨⟨by decide, by decide, fun mode => by cases mode <;> decide⟩, fun earlier before => ?_⟩
    cases earlier <;> simp [Obstacle.place, Obstacle.Stands, cornered] at before ⊢
  have stops' : (cornered 0).StopsAt .refusal := by
    refine ⟨⟨_, _, rfl, rfl⟩, fun earlier before => ?_⟩
    cases earlier <;> simp [Obstacle.place, Obstacle.Stands, cornered] at before ⊢
  obtain ⟨-, stopped, unasked⟩ := build_fails_at_first (cornered 1)
  obtain ⟨-, stopped', -⟩ := build_fails_at_first (cornered 0)
  obtain ⟨e, failed, reports, -⟩ := stopped _ stops
  obtain ⟨e', failed', reports', -⟩ := stopped' _ stops'
  refine ⟨⟨stops, ?_⟩, stops', ?_⟩
  · generalize (cornered 1).build.log = log at reports
    cases reports
    exact ⟨failed, rfl, (unasked stops .unchanged).2⟩
  · generalize (cornered 0).build.log = log at reports'
    cases reports' with
    | refusal given made refused =>
      obtain rfl := Option.some.inj given
      obtain rfl : [] = _ := Except.ok.inj made
      obtain ⟨same, rfl⟩ := Prod.mk.inj refused
      obtain rfl := Except.error.inj same
      exact ⟨failed', rfl⟩

end Builder
end AgentConfig
