import AgentConfig.Proofs.CommandLine.Arguments
import AgentConfig.Proofs.CommandLine.Run

namespace AgentConfig

variable {env : Environment} {disk disk' : Disk} {c : BuildCommand} {config : Option String} {path : String}
  {s : Settings} {weight : Nat} {previous d : Document}

/-- Two processes see the same in a deployment file and in the environment: they go through the sets of the file in the
same order, and their stacks admit the same JSON. -/
structure Runtime.Agree (first second : Runtime) (disk : Disk) (config : Option String) : Prop where
  load : ∀ file text, config = some file → disk.readText file = .ok text → @Yaml.load first text = @Yaml.load second text
  depth : first.jsonDepth = second.jsonDepth

section

variable {first second : Runtime} {library library' : SettingsLibrary}

/-- All processes see the same in a file without sets. -/
theorem Runtime.agree_of_not_holdsSet (depth : first.jsonDepth = second.jsonDepth)
    (free : ∀ file text v, config = some file → disk.readText file = .ok text → Yaml.read text = .ok v →
      v.holdsSet = false) : first.Agree second disk config where
  load file text given read := by
    cases found : Yaml.read text with
    | error e => rw [@Yaml.load_eq_error first _ _ |>.mpr found, @Yaml.load_eq_error second _ _ |>.mpr found]
    | ok v =>
      have free := free file text v given read found
      rw [@Yaml.load_of_not_holdsSet first _ _ found free, @Yaml.load_of_not_holdsSet second _ _ found free]
  depth := depth

namespace BuildCommand

/-- Another process comes to the same settings on another disk, if it sees the same in the same deployment file and the
settings library is not asked. -/
theorem settings_again (agree : first.Agree second disk c.config) (silent : ¬ c.AsksLibrary disk)
    (kept : ∀ file text, c.config = some file → disk.readText file = .ok text → disk'.readText file = .ok text)
    (found : @settings first library c env disk = .ok s) : @settings second library' c env disk' = .ok s := by
  rcases (@settings_eq_ok env disk c s first library).mp found with ⟨unnamed, made⟩ | ⟨file, text, given, read, made⟩
  · refine settings_eq_ok.mpr (.inl ⟨unnamed, ?_⟩)
    rwa [@Settings.ofEntries_alike env [] first second library library' agree.depth (by simp)] at made
  · refine settings_eq_ok.mpr (.inr ⟨file, text, given, kept file text given read, ?_⟩)
    have quiet : ¬ Settings.AsksLibrary text := fun asked => silent ⟨file, text, given, read, asked⟩
    rwa [@Settings.ofYaml_alike env text first second library library' agree.depth (agree.load file text given read) quiet]
      at made

/-- The command that builds on the document in a file and puts the next one there. -/
def redeploying (config : Option String) (path : String) : BuildCommand where
  config := config
  previous := some path
  output := some path

/-- Once a command has ended well it may be run again by another process, with the same result and no change to the
disk. -/
theorem redeploying_again (apart : ∀ file, config = some file → disk.Apart path file)
    (silent : ¬ (redeploying config path).AsksLibrary disk) (agree : first.Agree second disk config)
    (ended : (@run first library (redeploying config path) env disk).ending = .exit 0 ∧
      (@run first library (redeploying config path) env disk).disk = disk')
    (result : @document? first library (redeploying config path) env disk = some d)
    (digits : (decimalDigits d.version.natAbs).length ≤ digitLimit) :
    ((@run second library' (redeploying config path) env disk').ending = .exit 0 ∧
      (@run second library' (redeploying config path) env disk').disk = disk') ∧
      @document? second library' (redeploying config path) env disk' = some d ∧
      (path ≠ "" → @Document.load second disk' path = .ok d) := by
  obtain ⟨s, weight, previous, e, prepared, deployed, delivers⟩ := (@run_iff env disk disk' _ first library).mp ended
  have built := (@document?_eq_some env disk _ e first library).mpr ⟨s, weight, previous, prepared, deployed⟩
  obtain rfl : e = d := Option.some.inj (built.symm.trans result)
  obtain ⟨settings, threshold, baseline⟩ := (@prepare_eq_ok env disk _ s weight previous first library).mp prepared
  -- An empty path is as good as none: the document is put out, and the disk stays as it is.
  by_cases named : path = ""
  · have none : given? (some path) = none := by simp [given?, named]
    have put := delivers
    simp only [Delivers, redeploying, none] at put
    obtain ⟨-, rfl⟩ := put
    have prepared' : @prepare second library' (redeploying config path) env disk' = .ok (s, weight, previous) := by
      refine prepare_eq_ok.mpr ⟨settings_again agree silent (fun _ _ _ => id) settings, threshold, ?_⟩
      simpa only [BuildCommand.baseline, redeploying, none] using baseline
    exact ⟨run_iff.mpr ⟨s, weight, previous, e, prepared', deployed, delivers⟩,
      document?_eq_some.mpr ⟨s, weight, previous, prepared', deployed⟩, fun given => absurd named given⟩
  · have given : given? (some path) = some path := by simp [given?, named]
    have stored : e.store disk path = (disk', .ok ()) := by simpa only [Delivers, redeploying, given] using delivers
    have returns : e.Returns (.ofPath path) := by
      obtain ⟨-, _, _, -, -, rfl⟩ := Settings.deploy_eq_ok.mp deployed
      exact Settings.returns_document stored fun _ => digits
    obtain ⟨back, again⟩ := @Document.load_store _ _ second _ _ returns stored
    obtain ⟨place, text, target, -, -, rfl⟩ := Document.store_eq_ok.mp stored
    have kept : ∀ file text', config = some file → disk.readText file = .ok text' →
        (disk.put place (.file (Text.utf8 text.toList))).readText file = .ok text' := fun file text' given read =>
      Disk.readText_put_apart target (apart file given) _ read
    have prepared' : @prepare second library' (redeploying config path) env
        (disk.put place (.file (Text.utf8 text.toList))) = .ok (s, weight, e) := by
      refine prepare_eq_ok.mpr ⟨settings_again agree silent kept settings, threshold, ?_⟩
      simp only [BuildCommand.baseline, redeploying, given, back]
    have deployed' := Settings.deploy_again deployed
    refine ⟨run_iff.mpr ⟨s, weight, e, e, prepared', deployed', ?_⟩, document?_eq_some.mpr ⟨s, weight, e, prepared', deployed'⟩,
      fun _ => back⟩
    simpa only [Delivers, redeploying, given] using again

end BuildCommand

namespace CommandLine

/-- The words of the command. -/
def redeploying (config : Option String) (path : String) : List String :=
  match config with
  | none => ["--previous", path, "--output", path]
  | some file => ["--config", file, "--previous", path, "--output", path]

/-- The words are read as the command, or not at all. -/
theorem request_redeploying {r : Request} (read : Request.ofStrings (redeploying config path) = .ok r) :
    r = .build (.redeploying config path) := by
  have rest : ∀ c, Request.resume ["--previous", path, "--output", path] [] c = .ok r →
      r = .build { c with previous := some path, output := some path } := by
    intro c resumed
    obtain ⟨_, set, resumed⟩ := Request.resume_flag (f := .previous) rfl (by decide) (by decide) resumed
    obtain rfl := Except.ok.inj set
    obtain ⟨_, set, resumed⟩ := Request.resume_flag (f := .output) rfl (by decide) (by decide) resumed
    obtain rfl := Except.ok.inj set
    exact (Except.ok.inj resumed).symm
  cases config with
  | none => exact rest {} read
  | some file =>
    obtain ⟨_, set, resumed⟩ := Request.resume_flag (f := .config) rfl (by decide) (by decide) read
    obtain rfl := Except.ok.inj set
    exact rest _ resumed

/-- A run that ends well is the run of the command, in this process and in any other. -/
theorem run_redeploying (ended : (@run first library env disk (redeploying config path)).ending = .exit 0)
    (second : Runtime) (library' : SettingsLibrary) (disk' : Disk) :
    @run second library' env disk' (redeploying config path) =
      @BuildCommand.run second library' (BuildCommand.redeploying config path) env disk' := by
  unfold run at ended ⊢
  cases read : Request.ofStrings (redeploying config path) with
  | error e => simp [read] at ended
  | ok r => rw [request_redeploying read]

/-- Once a deployment has been built on the document in a file and put there, to build it again in another process that
sees the same in the deployment file changes nothing: not the disk, so not a byte of the file, and not the version. The
file is of either format, or missing at first. -/
theorem redeploy_fixpoint (first second : Runtime) (library library' : SettingsLibrary) (env : Environment) (disk : Disk)
    (config : Option String) (path : String) (apart : ∀ file, config = some file → disk.Apart path file)
    (silent : ¬ (BuildCommand.redeploying config path).AsksLibrary disk) (agree : first.Agree second disk config)
    (ended : (@run first library env disk (redeploying config path)).ending = .exit 0)
    (digits : ∀ d, @BuildCommand.document? first library (.redeploying config path) env disk = some d →
      (decimalDigits d.version.natAbs).length ≤ 4300) :
    let once := @run first library env disk (redeploying config path)
    let again := @run second library' env once.disk (redeploying config path)
    again.ending = .exit 0 ∧ again.disk = once.disk ∧
    ∃ d, @BuildCommand.document? first library (.redeploying config path) env disk = some d ∧
      @BuildCommand.document? second library' (.redeploying config path) env once.disk = some d ∧
      (path ≠ "" → @Document.load second again.disk path = .ok d) := by
  have command := run_redeploying ended
  simp only [command] at ended ⊢
  obtain ⟨s, weight, previous, d, prepared, deployed, -⟩ := (@BuildCommand.run_iff env disk _ _ first library).mp ⟨ended, rfl⟩
  have result := (@BuildCommand.document?_eq_some env disk _ d first library).mpr
    ⟨s, weight, previous, prepared, deployed⟩
  obtain ⟨⟨again, same⟩, result', loaded⟩ :=
    BuildCommand.redeploying_again apart silent agree ⟨ended, rfl⟩ result (digits d result)
  refine ⟨again, same, d, result, result', fun named => ?_⟩
  rw [same]
  exact loaded named

end CommandLine

end

namespace CommandLine

/-- Whether a tree is a record with a YAML text of at most a thousand characters. -/
def isShortRecord : Tree → Bool
  | .record entries => Yaml.entriesWritable entries && decide ((Yaml.writeRecord entries).length ≤ 1000)
  | _ => false

theorem exists_store {place : Place} (target : disk.target "/a.yaml" = .ok place)
    (small : (Document.shape.write .document d).any isShortRecord = true) :
    ∃ disk', d.store disk "/a.yaml" = (disk', .ok ()) := by
  obtain ⟨t, tree, shape⟩ := (Option.any_eq_true _ _).mp small
  cases t with
  | record entries =>
    obtain ⟨short, few⟩ := Bool.and_eq_true_iff.mp shape
    have written : d.render (.ofPath "/a.yaml") = .ok (String.ofList (Yaml.writeRecord entries)) := by
      have format : Format.ofPath "/a.yaml" = .yaml := by decide
      simp only [format, Document.render, Document.toYaml, tree, short, if_true]
    refine ⟨_, Document.store_eq_ok.mpr ⟨_, _, target, written, ?_, rfl⟩⟩
    rw [String.toList_ofList]
    calc (Text.utf8 (Yaml.writeRecord entries)).length
      _ ≤ 4 * (Yaml.writeRecord entries).length := Text.utf8_le_length _
      _ ≤ 4 * 1000 := Nat.mul_le_mul_left 4 (of_decide_eq_true few)
      _ ≤ Disk.sizeLimit := by decide
  | _ => simp [isShortRecord] at shape

/-- The words of the command for the deployment file. -/
def deploying : List String :=
  redeploying (some "/c.yaml") "/a.yaml"

theorem request_deploying : Request.ofStrings deploying = .ok (.build (.redeploying (some "/c.yaml") "/a.yaml")) := by
  decide

section

variable {text : String}

theorem target_deploymentDisk (text : String) : (deploymentDisk text).target "/a.yaml" = .ok ["a.yaml"] := by
  rfl

theorem apart_deploymentDisk (text : String) :
    ∀ file, some "/c.yaml" = some file → (deploymentDisk text).Apart "/a.yaml" file := by
  rintro file same place leads leads'
  obtain rfl := Option.some.inj same
  have config : (deploymentDisk text).find "/c.yaml" = .ok ["c.yaml"] := by rfl
  obtain ⟨-, output, -⟩ := Disk.target_eq_ok.mp (target_deploymentDisk text)
  have places : ["a.yaml"] = ["c.yaml"] :=
    (Except.ok.inj (output.symm.trans leads)).trans (Except.ok.inj (config.symm.trans leads')).symm
  exact absurd places (by decide)

theorem readText_deploymentDisk (clean : ∀ c ∈ text.toList, c ≠ '\r') :
    (deploymentDisk text).readText "/c.yaml" = .ok text := by
  have target : (Disk.blank []).target "/c.yaml" = .ok ["c.yaml"] := by rfl
  have read := Disk.readText_put_self target clean
  rwa [String.ofList_toList] at read

/-- The command puts the document that settings with the usual log level come to into its file. -/
theorem run_deploying [Runtime] [SettingsLibrary] {place : Place} (read : disk.readText "/c.yaml" = .ok text)
    (found : Settings.ofYaml env text = .ok s) (level : s.logLevel = "INFO")
    (loaded : Document.load disk "/a.yaml" = .ok previous) (deployed : (s.deploy previous).outcome = .ok d)
    (target : disk.target "/a.yaml" = .ok place)
    (small : (Document.shape.write .document d).any isShortRecord = true) :
    ∃ disk', d.store disk "/a.yaml" = (disk', .ok ()) ∧ (run env disk deploying).ending = .exit 0 ∧
      (run env disk deploying).disk = disk' ∧
      (BuildCommand.redeploying (some "/c.yaml") "/a.yaml").document? env disk = some d := by
  have given : BuildCommand.given? (some "/a.yaml") = some "/a.yaml" := by decide
  have threshold : (BuildCommand.redeploying (some "/c.yaml") "/a.yaml").threshold s = .ok 20 := by
    have usual : (BuildCommand.given? none).getD s.logLevel = "INFO" := level
    simp only [BuildCommand.threshold, BuildCommand.redeploying, usual]
    rfl
  have prepared : (BuildCommand.redeploying (some "/c.yaml") "/a.yaml").prepare env disk = .ok (s, 20, previous) := by
    refine BuildCommand.prepare_eq_ok.mpr ⟨BuildCommand.settings_eq_ok.mpr (.inr ⟨_, _, rfl, read, found⟩), threshold, ?_⟩
    simp only [BuildCommand.baseline, BuildCommand.redeploying, given, loaded]
  obtain ⟨disk', stored⟩ := exists_store target small
  have delivers : (BuildCommand.redeploying (some "/c.yaml") "/a.yaml").Delivers d disk disk' := stored
  rw [run_build request_deploying]
  obtain ⟨ended, left⟩ := BuildCommand.run_iff.mpr ⟨_, _, _, _, prepared, deployed, delivers⟩
  exact ⟨disk', stored, ended, left, BuildCommand.document?_eq_some.mpr ⟨_, _, _, prepared, deployed⟩⟩

/-- After a deployment of other settings the version moves on. -/
theorem run_deploying_next [Runtime] [SettingsLibrary] {next : Settings} (clean : ∀ c ∈ text.toList, c ≠ '\r')
    (stored : (s.document 1).store (deploymentDisk text) "/a.yaml" = (disk', .ok ()))
    (found : Settings.ofYaml env text = .ok next) (level : next.logLevel = "INFO") (secrets : next.HasSecrets)
    (differ : s.effective ≠ next.effective)
    (small : (Document.shape.write .document (next.document 2)).any isShortRecord = true) :
    (run env disk' deploying).ending = .exit 0 ∧
      Document.load (run env disk' deploying).disk "/a.yaml" = .ok (next.document 2) := by
  obtain ⟨loaded, -⟩ := Document.load_store (Settings.returns_document stored fun _ => by decide) stored
  obtain ⟨place, written, target, -, -, rfl⟩ := Document.store_eq_ok.mp stored
  have read := Disk.readText_put_apart target (apart_deploymentDisk text _ rfl) (.file (Text.utf8 written.toList))
    (readText_deploymentDisk clean)
  obtain ⟨_, stored', ended, rfl, -⟩ := run_deploying read found level loaded (Settings.deploy_next secrets differ)
    (Disk.target_put target) small
  obtain ⟨loaded', -⟩ := Document.load_store (Settings.returns_document stored' fun _ => by decide) stored'
  exact ⟨ended, loaded'⟩

theorem load_deploymentDisk [Runtime] (text : String) : Document.load (deploymentDisk text) "/a.yaml" = .ok .empty := by
  have missing : (deploymentDisk text).holds "/a.yaml" = false := by rfl
  rw [Document.load, missing]
  rfl

end

/-- A process that goes through sets from the end. -/
abbrev backward : Runtime where
  arrange := List.reverse
  arrange_perm := List.reverse_perm
  jsonDepth := 900
  jsonDepth_enough := Runtime.inOrder.jsonDepth_enough

deriving instance DecidableEq for Settings

/-- What a deployment file says, some of whose texts need quotes in YAML. -/
def quotedSettings : Settings where
  name := "yes"
  members := 0
  authMode := .scram
  scramKey := "a: \n\t#"
  scramPassword := "'"

def quotedText : String :=
  "name: 'yes'\nmembers: 0\nauth_mode: scram\nscram_key: \"a: \\n\\t#\"\nscram_password: ''''\n"

/-- A disk with nothing but the file. -/
def quotedDisk : Disk :=
  deploymentDisk quotedText

theorem deploy_empty {s : Settings} (secrets : s.HasSecrets) : (s.deploy .empty).outcome = .ok (s.document 1) :=
  Settings.deploy_first secrets (Document.finite_iff.mpr fun server member => by simp [Document.empty] at member)
    (by decide) rfl

theorem readText_quoted : quotedDisk.readText "/c.yaml" = .ok quotedText :=
  readText_deploymentDisk (by decide +kernel)

theorem run_quoted : (run [] quotedDisk deploying).ending = .exit 0 ∧
    (BuildCommand.redeploying (some "/c.yaml") "/a.yaml").document? [] quotedDisk = some (quotedSettings.document 1) := by
  have found : Settings.ofYaml [] quotedText = .ok quotedSettings := by decide +kernel
  obtain ⟨_, -, ended, -, built⟩ := run_deploying readText_quoted found rfl (load_deploymentDisk _)
    (deploy_empty fun _ => by decide) (target_deploymentDisk _) (by decide +kernel)
  exact ⟨ended, built⟩

/-- Another process, which goes through sets from the end, builds the deployment again, and its first version stays. -/
theorem redeploy_fixpoint_quoted :
    (∀ file, some "/c.yaml" = some file → quotedDisk.Apart "/a.yaml" file) ∧
    ¬ (BuildCommand.redeploying (some "/c.yaml") "/a.yaml").AsksLibrary quotedDisk ∧
    Runtime.inOrder.Agree backward quotedDisk (some "/c.yaml") ∧
    (run [] quotedDisk deploying).ending = .exit 0 ∧
    (∀ d, (BuildCommand.redeploying (some "/c.yaml") "/a.yaml").document? [] quotedDisk = some d →
      (decimalDigits d.version.natAbs).length ≤ 4300) ∧
    ∃ again, @run backward .silent [] (run [] quotedDisk deploying).disk deploying = again ∧
      again.ending = .exit 0 ∧ again.disk = (run [] quotedDisk deploying).disk ∧
      @Document.load backward again.disk "/a.yaml" = .ok (quotedSettings.document 1) := by
  obtain ⟨ended, built⟩ := run_quoted
  have apart := apart_deploymentDisk quotedText
  have plain : (Yaml.read quotedText).map (fun v => (v.asksLibrary, v.holdsSet)) = .ok (false, false) := by
    decide +kernel
  have known : ∀ {file text}, some "/c.yaml" = some file → quotedDisk.readText file = .ok text → text = quotedText := by
    rintro file text same read
    obtain rfl := Option.some.inj same
    exact Except.ok.inj (read.symm.trans readText_quoted)
  have silent : ¬ (BuildCommand.redeploying (some "/c.yaml") "/a.yaml").AsksLibrary quotedDisk := by
    rintro ⟨file, text, given, read, v, found, asked⟩
    obtain rfl := known given read
    simp [found, asked, Except.map] at plain
  have agree : Runtime.inOrder.Agree backward quotedDisk (some "/c.yaml") :=
    Runtime.agree_of_not_holdsSet rfl fun file text v given read found => by
      obtain rfl := known given read
      exact (Prod.mk.inj (Except.ok.inj (found ▸ plain))).2
  have digits : ∀ d, (BuildCommand.redeploying (some "/c.yaml") "/a.yaml").document? [] quotedDisk = some d →
      (decimalDigits d.version.natAbs).length ≤ 4300 := by
    intro d found
    obtain rfl := Option.some.inj (built.symm.trans found)
    decide
  obtain ⟨again, same, d, found, -, loaded⟩ :=
    redeploy_fixpoint .inOrder backward .silent .silent [] quotedDisk (some "/c.yaml") "/a.yaml" apart silent agree ended digits
  obtain rfl := Option.some.inj (built.symm.trans found)
  exact ⟨apart, silent, agree, ended, digits, _, rfl, again, same, loaded (by decide)⟩

/-- Settings for a catalog with one release, which has the modules. -/
def listing (modules : List String) : Settings where
  members := 0
  releases := [{ name := "a", builds := [{ modules := some modules }] }]

/-- A deployment file that gives modules as a set. -/
def setText : String :=
  "members: 0\nversions: [{name: a, builds: [{modules: !!set {x, y}}]}]\n"

theorem effective_listing : (listing ["x", "y"]).effective ≠ (listing ["y", "x"]).effective := by
  intro same
  have catalogs := congrArg Effective.catalog same
  revert catalogs
  decide

/-- If a deployment file gives modules as a set, then another process may list them in another order, and the version
moves although nothing has changed. -/
theorem set_order_moves_version :
    let once := run [] (deploymentDisk setText) deploying
    let again := @run backward .silent [] once.disk deploying
    (once.ending = .exit 0 ∧ Document.load once.disk "/a.yaml" = .ok ((listing ["x", "y"]).document 1)) ∧
      again.ending = .exit 0 ∧ @Document.load backward again.disk "/a.yaml" = .ok ((listing ["y", "x"]).document 2) := by
  have clean : ∀ c ∈ setText.toList, c ≠ '\r' := by decide +kernel
  have secrets : ∀ modules, (listing modules).HasSecrets := fun _ scram => nomatch scram
  have first : Settings.ofYaml [] setText = .ok (listing ["x", "y"]) := by decide +kernel
  have second : @Settings.ofYaml backward .silent [] setText = .ok (listing ["y", "x"]) := by decide +kernel
  obtain ⟨disk, stored, ended, rfl, -⟩ := run_deploying (readText_deploymentDisk clean) first rfl
    (load_deploymentDisk setText) (deploy_empty (secrets _)) (target_deploymentDisk setText) (by decide +kernel)
  obtain ⟨loaded, -⟩ := Document.load_store (Settings.returns_document stored fun _ => by decide) stored
  have next := @run_deploying_next [] _ _ _ backward .silent _ clean stored second rfl (secrets _) effective_listing
    (by decide +kernel)
  exact ⟨⟨ended, loaded⟩, next⟩

end CommandLine
end AgentConfig
