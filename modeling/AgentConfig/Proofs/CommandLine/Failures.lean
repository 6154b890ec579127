import AgentConfig.Proofs.CommandLine.Run
import AgentConfig.Proofs.Document.Parse
import AgentConfig.Proofs.Settings.Source

namespace AgentConfig

variable {env : Environment} {disk disk' : Disk} {c : BuildCommand} {s : Settings} {weight : Nat} {previous d : Document}
  {notices : List Notice} {f : Failure} {words : List String}

theorem Outcome.fail_of_reported (reported : f.isReported = true) :
    Outcome.fail f notices disk = { ending := .exit 1, output := f.output, notices := notices ++ [.failure f], disk } :=
  if_pos reported

theorem Outcome.fail_of_unreported (hidden : f.isReported = false) :
    Outcome.fail f notices disk = { ending := .brokenOff f, output := f.output, notices, disk } :=
  if_neg (by simp [hidden])

namespace BuildCommand

theorem threshold_reported (failed : c.threshold s = .error f) : f.isReported = true := by
  unfold threshold at failed
  dsimp only at failed
  split at failed
  · contradiction
  · obtain rfl := Except.error.inj failed
    rfl

/-- A fault that is not reported, in a text without tags. -/
theorem eq_of_unmarked {text : String} {fault : Yaml.ScalarFault} (unmarked : '!' ∉ text.toList)
    (read : Yaml.read text = .error (.scalar fault)) (hidden : fault.isReported = false) :
    fault = .floatBase ∨ fault = .codePointSize := by
  rcases Yaml.isPlain_or_isLexical_of_read unmarked read with possible | possible <;> cases fault with
  | floatBase => exact .inl rfl
  | codePointSize => exact .inr rfl
  | _ => contradiction

theorem baseline_unreported [Runtime] : c.baseline disk = .error f ∧ f.isReported = false ↔
    ∃ path text fault, given? c.previous = some path ∧ disk.holds path ∧ disk.readText path = .ok text ∧
      Format.ofPath path = .yaml ∧ Yaml.read text = .error (.scalar fault) ∧ fault.isReported = false ∧
      f = .previous (.scalar fault) := by
  unfold baseline Document.load
  cases given? c.previous with
  | none => simp
  | some path =>
    simp only [Option.some.injEq]
    constructor
    · rintro ⟨failed, hidden⟩
      split_ifs at failed with stands
      cases read : disk.readText path with
      | error e =>
        simp only [read] at failed
        obtain rfl := Except.error.inj failed
        contradiction
      | ok text =>
        simp only [read] at failed
        cases parsed : Document.parse (.ofPath path) (some path) text with
        | ok d => simp [parsed] at failed
        | error e =>
          simp only [parsed] at failed
          obtain rfl := Except.error.inj failed
          cases e with
          | load e => contradiction
          | scalar fault =>
            obtain ⟨format, content⟩ := Document.parse_eq_scalar.mp parsed
            exact ⟨path, text, fault, rfl, stands, read, format, content, hidden, rfl⟩
    · rintro ⟨_, text, fault, rfl, stands, read, format, content, hidden, rfl⟩
      have parsed : Document.parse (.ofPath path) (some path) text = .error (.scalar fault) :=
        Document.parse_eq_scalar.mpr ⟨format, content⟩
      simp only [stands, if_true, read, parsed, true_and]
      exact hidden

variable [Runtime] [SettingsLibrary]

/-- The steps of a run, without what they leave behind: all of them go well, or the first that does not says why. -/
def steps (c : BuildCommand) (env : Environment) (disk : Disk) : Except Failure Unit := do
  let (s, _, previous) ← c.prepare env disk
  let d ← (s.deploy previous).outcome.mapError .build
  match given? c.output with
  | none => ((d.render c.format).map fun _ => ()).mapError fun e => .store (.write e)
  | some path => (d.store disk path).2.mapError .store

/-- A run goes well just when its steps do. Otherwise the first that does not is what the run fails with, after nothing
but the log. -/
theorem run_steps (c : BuildCommand) (env : Environment) (disk : Disk) :
    match c.steps env disk with
    | .ok _ => (c.run env disk).ending = .exit 0
    | .error f => ∃ (log : List LogRecord) (disk' : Disk), c.run env disk = .fail f (log.map .log) disk' := by
  rw [steps, run]
  cases c.prepare env disk with
  | error f => exact ⟨[], disk, rfl⟩
  | ok parts =>
    obtain ⟨s, weight, previous⟩ := parts
    simp only [bind, Except.bind]
    cases (s.deploy previous).outcome with
    | error e => exact ⟨_, disk, rfl⟩
    | ok d =>
      simp only [Except.mapError]
      rcases c.deliver_cases d weight (shown weight (s.deploy previous).log) disk with
        ⟨unnamed, ⟨text, rendered, delivered⟩ | ⟨e, rendered, delivered⟩⟩ |
        ⟨path, left, named, ⟨stored, delivered⟩ | ⟨e, stored, delivered⟩⟩
      · simp only [unnamed, rendered, delivered]
        rfl
      · simp only [unnamed, rendered]
        exact ⟨_, _, delivered⟩
      · simp only [named, stored, delivered]
        rfl
      · simp only [named, stored]
        exact ⟨_, _, delivered⟩

theorem run_of_steps_error (failed : c.steps env disk = .error f) :
    ∃ (log : List LogRecord) (disk' : Disk), c.run env disk = .fail f (log.map .log) disk' := by
  have ran := c.run_steps env disk
  rw [failed] at ran
  exact ran

theorem ending_eq_exit_iff : (c.run env disk).ending = .exit 0 ↔ c.steps env disk = .ok () := by
  cases steps : c.steps env disk with
  | ok u =>
    have ran := c.run_steps env disk
    rw [steps] at ran
    simp [ran]
  | error f =>
    obtain ⟨log, left, ran⟩ := run_of_steps_error steps
    simp [ran, Outcome.ending_fail_ne]

/-- What breaks a run off: the contents of the deployment file or of the document before, or else JSON in a variable for
which the stack is too small. -/
inductive BreaksOff (c : BuildCommand) (env : Environment) (disk : Disk) : Failure → Prop
  | config {path text : String} {e : SettingsError} (given : c.config = some path)
      (read : disk.readText path = .ok text) (content : Settings.Unreported env text e) :
      BreaksOff c env disk (.settings e)
  | environment {s : String} (unnamed : c.config = none)
      (set : ({} : Settings.Lookup).textOf? env Settings.jsonField = some s)
      (deep : Json.readWithin Runtime.jsonDepth s = .error .tooDeep) :
      BreaksOff c env disk (.settings (.tooDeep Settings.jsonField))
  | previous {s : Settings} {weight : Nat} {path text : String} {fault : Yaml.ScalarFault}
      (settings : c.settings env disk = .ok s) (threshold : c.threshold s = .ok weight)
      (given : given? c.previous = some path) (stands : disk.holds path) (read : disk.readText path = .ok text)
      (format : Format.ofPath path = .yaml) (content : Yaml.read text = .error (.scalar fault))
      (hidden : fault.isReported = false) : BreaksOff c env disk (.previous (.scalar fault))

theorem settings_unreported : c.settings env disk = .error f ∧ f.isReported = false ↔ ∃ e, f = .settings e ∧
    ((c.config = none ∧ Settings.Given.BreaksOff env [] false e) ∨
      ∃ path text, c.config = some path ∧ disk.readText path = .ok text ∧ Settings.Unreported env text e) := by
  have mapped {x : Except SettingsError Settings} : x.mapError .settings = .error f ∧ f.isReported = false ↔
      ∃ e, f = .settings e ∧ x = .error e ∧ e.isReported = false := by
    constructor
    · rintro ⟨failed, hidden⟩
      obtain ⟨e, same, rfl⟩ := mapError_eq_error failed
      exact ⟨e, rfl, same, hidden⟩
    · rintro ⟨e, rfl, rfl, hidden⟩
      exact ⟨rfl, hidden⟩
  cases given : c.config with
  | none =>
    rw [settings_of_none given, mapped]
    simp [Settings.ofEntries_unreported, Settings.givenOf]
  | some path =>
    cases read : disk.readText path with
    | error e =>
      rw [settings_of_unread given read]
      constructor
      · rintro ⟨failed, hidden⟩
        obtain rfl := Except.error.inj failed
        contradiction
      · rintro ⟨_, _, ⟨unnamed, -⟩ | ⟨_, text, same, found, -⟩⟩
        · contradiction
        · obtain rfl := Option.some.inj same
          simp [read] at found
    | ok text =>
      rw [settings_of_config given read, mapped]
      simp [read, Settings.ofYaml_unreported]

theorem breaksOff_iff : c.BreaksOff env disk f ↔ c.steps env disk = .error f ∧ f.isReported = false := by
  constructor
  · intro breaks
    obtain ⟨prepared, hidden⟩ : c.prepare env disk = .error f ∧ f.isReported = false := by
      cases breaks with
      | config given read content =>
        obtain ⟨failed, hidden⟩ := settings_unreported.mpr ⟨_, rfl, .inr ⟨_, _, given, read, content⟩⟩
        exact ⟨prepare_eq_error.mpr (.inl failed), hidden⟩
      | environment unnamed set deep =>
        obtain ⟨failed, hidden⟩ := settings_unreported.mpr
          ⟨_, rfl, .inl ⟨unnamed, Settings.breaksOff_nil.mpr ⟨rfl, _, set, deep⟩⟩⟩
        exact ⟨prepare_eq_error.mpr (.inl failed), hidden⟩
      | previous settings threshold given stands read format content hidden =>
        obtain ⟨failed, hidden⟩ :=
          baseline_unreported.mpr ⟨_, _, _, given, stands, read, format, content, hidden, rfl⟩
        exact ⟨prepare_eq_error.mpr (.inr ⟨_, settings, .inr ⟨_, threshold, failed⟩⟩), hidden⟩
    refine ⟨?_, hidden⟩
    rw [steps, prepared]
    rfl
  · rintro ⟨failed, hidden⟩
    rcases bind_eq_error failed with unprepared | ⟨⟨s, weight, previous⟩, -, later⟩
    · rcases prepare_eq_error.mp unprepared with settings | ⟨s, settings, threshold | ⟨weight, threshold, baseline⟩⟩
      · obtain ⟨e, rfl, ⟨unnamed, breaks⟩ | ⟨path, text, given, read, content⟩⟩ :=
          settings_unreported.mp ⟨settings, hidden⟩
        · obtain ⟨rfl, s, set, deep⟩ := Settings.breaksOff_nil.mp breaks
          exact .environment unnamed set deep
        · exact .config given read content
      · simp [threshold_reported threshold] at hidden
      · obtain ⟨path, text, fault, given, stands, read, format, content, hidden, rfl⟩ :=
          baseline_unreported.mp ⟨baseline, hidden⟩
        exact .previous settings threshold given stands read format content hidden
    · rcases bind_eq_error later with built | ⟨d, -, delivered⟩
      · obtain ⟨e, -, rfl⟩ := mapError_eq_error built
        contradiction
      · split at delivered
        · obtain ⟨e, -, rfl⟩ := mapError_eq_error delivered
          contradiction
        · obtain ⟨e, -, rfl⟩ := mapError_eq_error delivered
          contradiction

theorem ending_eq_brokenOff_iff : (c.run env disk).ending = .brokenOff f ↔ c.BreaksOff env disk f := by
  rw [breaksOff_iff]
  cases steps : c.steps env disk with
  | ok u => simp [ending_eq_exit_iff.mpr steps]
  | error g =>
    obtain ⟨log, left, ran⟩ := run_of_steps_error steps
    rw [ran]
    cases hidden : g.isReported with
    | true =>
      simp only [Outcome.fail_of_reported hidden, reduceCtorEq, Except.error.injEq, false_iff, not_and, Bool.not_eq_false]
      rintro rfl
      exact hidden
    | false =>
      simp only [Outcome.fail_of_unreported hidden, Ending.brokenOff.injEq, Except.error.injEq, iff_self_and]
      rintro rfl
      exact hidden

/-- What is at fault when a run breaks off: a key of the deployment file, a scalar of a file, a variable, or the settings
library. -/
theorem BreaksOff.origin (breaks : c.BreaksOff env disk f) :
    f = .settings .key ∨ f = .settings .wholeKey ∨
    (∃ name s, (name, s) ∈ env ∧ Json.readWithin Runtime.jsonDepth s = .error .tooDeep ∧
      f = .settings (.tooDeep Settings.jsonField)) ∨
    (∃ halt, f = .settings (.halted halt) ∧ c.AsksLibrary disk) ∨
    ∃ path text fault, disk.readText path = .ok text ∧
      (f = .settings (.yaml (.scalar fault)) ∨ f = .previous (.scalar fault)) ∧ Yaml.Blames text fault ∧
      ('!' ∉ text.toList → fault = .floatBase ∨ fault = .codePointSize) := by
  cases breaks with
  | config given read content =>
    have failed := (Settings.ofYaml_unreported.mpr content).1
    cases content with
    | scalar unread hidden =>
      exact .inr (.inr (.inr (.inr ⟨_, _, _, read, .inl rfl, Yaml.blames_of_read unread, fun unmarked =>
        eq_of_unmarked unmarked unread hidden⟩)))
    | key => exact .inl rfl
    | given loaded deployed gathered breaks =>
      cases breaks with
      | wholeKey => exact .inr (.inl rfl)
      | tooDeep single silent asked set deep =>
        obtain ⟨name, member⟩ := Settings.mem_of_textOf? set
        exact .inr (.inr (.inl ⟨name, _, member, deep, rfl⟩))
      | halted =>
        exact .inr (.inr (.inr (.inl ⟨_, rfl, _, _, given, read, Settings.asksLibrary_of_halted failed⟩)))
  | environment unnamed set deep =>
    obtain ⟨name, member⟩ := Settings.mem_of_textOf? set
    exact .inr (.inr (.inl ⟨name, _, member, deep, rfl⟩))
  | previous settings threshold given stands read format content hidden =>
    exact .inr (.inr (.inr (.inr ⟨_, _, _, read, .inr rfl, Yaml.blames_of_read content, fun unmarked =>
      eq_of_unmarked unmarked content hidden⟩)))

end BuildCommand

namespace CommandLine

/-- A deployment file with a number for a key. -/
def numberedDisk : Disk :=
  deploymentDisk "1: 2\n"

theorem request_config : Request.ofStrings ["--config", "c.yaml"] = .ok (.build { config := some "c.yaml" }) := by
  decide

theorem ending_numbered : (run [] numberedDisk ["--config", "c.yaml"]).ending = .brokenOff (.settings .key) := by
  decide +kernel

end CommandLine
end AgentConfig
