import AgentConfig.CommandLine.Run
import AgentConfig.Proofs.Settings.Source
import AgentConfig.Proofs.Settings.Stored

namespace AgentConfig

variable {env : Environment} {disk disk' : Disk} {c : BuildCommand} {s : Settings} {weight : Nat} {previous d : Document}
  {notices : List Notice} {f : Failure}

theorem Outcome.ending_fail_ne (f : Failure) : (Outcome.fail f notices disk).ending ≠ .exit 0 := by
  unfold fail
  split_ifs <;> simp

namespace BuildCommand

/-- A document goes where the command says, and leaves the disk like this. -/
def Delivers (c : BuildCommand) (d : Document) (disk disk' : Disk) : Prop :=
  match given? c.output with
  | none => (∃ text, d.render c.format = .ok text) ∧ disk' = disk
  | some path => d.store disk path = (disk', .ok ())

/-- All that can come of a delivery. -/
theorem deliver_cases (c : BuildCommand) (d : Document) (weight : Nat) (notices : List Notice) (disk : Disk) :
    (given? c.output = none ∧
      ((∃ text, d.render c.format = .ok text ∧ c.deliver d weight notices disk = .succeed text notices disk) ∨
        ∃ e, d.render c.format = .error e ∧ c.deliver d weight notices disk = .fail (.store (.write e)) notices disk)) ∨
    ∃ path disk', given? c.output = some path ∧
      ((d.store disk path = (disk', .ok ()) ∧
          c.deliver d weight notices disk = .succeed "" (notices ++ shown weight [storedRecord d path]) disk') ∨
        ∃ e, d.store disk path = (disk', .error e) ∧ c.deliver d weight notices disk = .fail (.store e) notices disk') := by
  unfold deliver
  cases given? c.output with
  | none =>
    refine .inl ⟨rfl, ?_⟩
    cases d.render c.format with
    | ok text => exact .inl ⟨text, rfl, rfl⟩
    | error e => exact .inr ⟨e, rfl, rfl⟩
  | some path =>
    cases stored : d.store disk path with
    | mk disk' result =>
      refine .inr ⟨path, disk', rfl, ?_⟩
      simp only [stored]
      cases result with
      | ok u => exact .inl ⟨rfl, rfl⟩
      | error e => exact .inr ⟨e, rfl, rfl⟩

theorem deliver_iff : (c.deliver d weight notices disk).ending = .exit 0 ∧ (c.deliver d weight notices disk).disk = disk' ↔
    c.Delivers d disk disk' := by
  unfold Delivers
  rcases c.deliver_cases d weight notices disk with
    ⟨unnamed, ⟨text, rendered, delivered⟩ | ⟨e, rendered, delivered⟩⟩ |
    ⟨path, left, named, ⟨stored, delivered⟩ | ⟨e, stored, delivered⟩⟩
  · simp [unnamed, rendered, delivered, Outcome.succeed, eq_comm]
  · simp [unnamed, rendered, delivered, Outcome.ending_fail_ne]
  · simp [named, stored, delivered, Outcome.succeed]
  · simp [named, stored, delivered, Outcome.ending_fail_ne]

variable [Runtime] [SettingsLibrary]

/-- The document that a command comes to, before it goes anywhere. -/
def document? (c : BuildCommand) (env : Environment) (disk : Disk) : Option Document :=
  match c.prepare env disk with
  | .error _ => none
  | .ok (s, _, previous) => (s.deploy previous).outcome.toOption

theorem settings_of_config {path text : String} (given : c.config = some path) (read : disk.readText path = .ok text) :
    c.settings env disk = (Settings.ofYaml env text).mapError .settings := by
  unfold settings
  simp only [given, read]
  cases Settings.ofYaml env text <;> rfl

theorem settings_of_none (unnamed : c.config = none) :
    c.settings env disk = (Settings.ofEntries env []).mapError .settings := by
  unfold settings
  simp only [unnamed]
  cases Settings.ofEntries env [] <;> rfl

theorem settings_of_unread {path : String} {e : ReadError} (given : c.config = some path)
    (unread : disk.readText path = .error e) : c.settings env disk = .error (.read e) := by
  unfold settings
  simp only [given, unread]

/-- The deployment file of a command asks the settings library for something. -/
def AsksLibrary (c : BuildCommand) (disk : Disk) : Prop :=
  ∃ path text, c.config = some path ∧ disk.readText path = .ok text ∧ Settings.AsksLibrary text

/-- The settings come from the deployment file, if one is named. -/
theorem settings_eq_ok : c.settings env disk = .ok s ↔
    (c.config = none ∧ Settings.ofEntries env [] = .ok s) ∨
    ∃ path text, c.config = some path ∧ disk.readText path = .ok text ∧ Settings.ofYaml env text = .ok s := by
  cases given : c.config with
  | none => simp [settings_of_none given, mapError_eq_ok]
  | some path =>
    cases read : disk.readText path with
    | error e => simp [settings_of_unread given read, read]
    | ok text => simp [settings_of_config given read, mapError_eq_ok, read]

theorem prepare_eq_ok : c.prepare env disk = .ok (s, weight, previous) ↔
    c.settings env disk = .ok s ∧ c.threshold s = .ok weight ∧ c.baseline disk = .ok previous := by
  constructor
  · intro prepared
    obtain ⟨_, settings, prepared⟩ := bind_eq_ok prepared
    obtain ⟨_, threshold, prepared⟩ := bind_eq_ok prepared
    obtain ⟨_, baseline, same⟩ := bind_eq_ok prepared
    obtain ⟨rfl, rfl, rfl⟩ : _ = s ∧ _ = weight ∧ _ = previous := by simpa [pure, Except.pure] using same
    exact ⟨settings, threshold, baseline⟩
  · rintro ⟨settings, threshold, baseline⟩
    simp only [prepare, settings, threshold, baseline, bind, Except.bind, pure, Except.pure]

theorem prepare_eq_error : c.prepare env disk = .error f ↔ c.settings env disk = .error f ∨
    ∃ s, c.settings env disk = .ok s ∧ (c.threshold s = .error f ∨
      ∃ weight, c.threshold s = .ok weight ∧ c.baseline disk = .error f) := by
  unfold prepare
  cases c.settings env disk with
  | error f' => simp [bind, Except.bind]
  | ok s =>
    simp only [bind, Except.bind, reduceCtorEq, false_or, Except.ok.injEq, exists_eq_left']
    cases c.threshold s with
    | error f' => simp
    | ok weight => cases c.baseline disk <;> simp [pure, Except.pure]

/-- A run ends well just when all its steps do. -/
theorem run_iff : (c.run env disk).ending = .exit 0 ∧ (c.run env disk).disk = disk' ↔
    ∃ s weight previous d, c.prepare env disk = .ok (s, weight, previous) ∧ (s.deploy previous).outcome = .ok d ∧
      c.Delivers d disk disk' := by
  unfold run
  cases prepared : c.prepare env disk with
  | error f => simp [Outcome.ending_fail_ne]
  | ok parts =>
    obtain ⟨s, weight, previous⟩ := parts
    simp only [Except.ok.injEq, Prod.mk.injEq]
    cases deployed : (s.deploy previous).outcome with
    | error e =>
      simp only [Outcome.ending_fail_ne, false_and, false_iff, not_exists, not_and]
      rintro _ _ _ _ ⟨rfl, rfl, rfl⟩ other
      rw [deployed] at other
      contradiction
    | ok d =>
      simp only
      rw [deliver_iff]
      constructor
      · exact fun delivers => ⟨s, weight, previous, d, ⟨rfl, rfl, rfl⟩, deployed, delivers⟩
      · rintro ⟨_, _, _, _, ⟨rfl, rfl, rfl⟩, other, delivers⟩
        obtain rfl := Except.ok.inj (deployed.symm.trans other)
        exact delivers

theorem document?_eq_some : c.document? env disk = some d ↔
    ∃ s weight previous, c.prepare env disk = .ok (s, weight, previous) ∧ (s.deploy previous).outcome = .ok d := by
  unfold document?
  cases c.prepare env disk with
  | error f => simp
  | ok parts =>
    obtain ⟨s, weight, previous⟩ := parts
    cases deployed : (s.deploy previous).outcome with
    | error e => simp [deployed, Except.toOption]
    | ok e =>
      simp only [deployed, Except.toOption, Option.some.injEq, Except.ok.injEq, Prod.mk.injEq]
      constructor
      · rintro rfl
        exact ⟨s, weight, previous, ⟨rfl, rfl, rfl⟩, deployed⟩
      · rintro ⟨_, _, _, ⟨rfl, rfl, rfl⟩, other⟩
        exact Except.ok.inj (deployed.symm.trans other)

/-- All that can come of a run: it fails before there is a document, with the disk as it was, or the document is
delivered. -/
theorem run_cases (c : BuildCommand) (env : Environment) (disk : Disk) :
    (c.document? env disk = none ∧ ∃ f notices, c.run env disk = .fail f notices disk ∧
      (c.prepare env disk = .error f ∨ ∃ e, f = .build e)) ∨
    ∃ d weight notices, c.document? env disk = some d ∧ c.run env disk = c.deliver d weight notices disk := by
  unfold run document?
  cases c.prepare env disk with
  | error f => exact .inl ⟨rfl, f, [], rfl, .inl rfl⟩
  | ok parts =>
    obtain ⟨s, weight, previous⟩ := parts
    simp only
    cases (s.deploy previous).outcome with
    | error e => exact .inl ⟨rfl, _, _, rfl, .inr ⟨e, rfl⟩⟩
    | ok d => exact .inr ⟨d, weight, _, rfl, rfl⟩

end BuildCommand

namespace CommandLine

/-- Words that are read as a command run it. -/
theorem run_build [Runtime] [SettingsLibrary] {words : List String} (accepted : Request.ofStrings words = .ok (.build c)) :
    run env disk words = c.run env disk := by
  rw [run, accepted]

/-- A disk with nothing but a deployment file on it. -/
def deploymentDisk (text : String) : Disk :=
  (Disk.blank []).put ["c.yaml"] (.file (Text.utf8 text.toList))

end CommandLine

end AgentConfig
