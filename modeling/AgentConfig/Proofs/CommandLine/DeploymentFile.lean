import AgentConfig.Proofs.CommandLine.Failures

namespace AgentConfig

def Value.isMapping : Value → Bool
  | .map _ => true
  | _ => false

variable {env : Environment} {disk : Disk} {c : BuildCommand} {path text : String} {v : Value} {f : Failure}

section

variable [Runtime] [SettingsLibrary]

namespace Settings

theorem ofYaml_of_void (read : Yaml.read text = .ok v) (void : v.isVoid = true) : ofYaml env text = ofEntries env [] := by
  rw [ofYaml, Yaml.load_of_read read]
  exact if_pos (v.isVoid_arranged.trans void)

theorem ofYaml_of_not_mapping (read : Yaml.read text = .ok v) (other : v.isMapping = false)
    (present : v.isVoid = false) : ofYaml env text = .error .notMapping := by
  have none : deployed? v.arranged = none := by
    unfold deployed?
    rw [v.isVoid_arranged, present, if_neg Bool.false_ne_true]
    cases v <;> first | rfl | contradiction
  rw [ofYaml_of_load (Yaml.load_of_read read), none]

end Settings

namespace BuildCommand

/-- The deployment file matters to a run only through the settings. -/
theorem run_without_config (same : c.settings env disk = { c with config := none }.settings env disk) :
    c.run env disk = { c with config := none }.run env disk := by
  unfold run prepare
  rw [same]
  rfl

theorem run_of_refused (refused : c.settings env disk = .error f) : c.run env disk = .fail f [] disk := by
  rw [run, prepare, refused]
  rfl

end BuildCommand

end

namespace CommandLine

/-- Only a mapping is a deployment file. Anything else is refused, and a run that is given it ends there with nothing
done, unless it is void: then it passes for an empty file, and the run is the one without a file. -/
theorem only_mapping_deploys [Runtime] [SettingsLibrary] (read : Yaml.read text = .ok v) (other : v.isMapping = false) (env : Environment) :
    (v.isVoid = false → Settings.ofYaml env text = .error .notMapping ∧
      ∀ words c path disk, Request.ofStrings words = .ok (.build c) → c.config = some path →
        disk.readText path = .ok text →
        run env disk words = { ending := .exit 1, notices := [.failure (.settings .notMapping)], disk }) ∧
    (v.isVoid = true → Settings.ofYaml env text = Settings.ofEntries env [] ∧
      ∀ words c path disk, Request.ofStrings words = .ok (.build c) → c.config = some path →
        disk.readText path = .ok text →
        run env disk words = BuildCommand.run { c with config := none } env disk) := by
  refine ⟨fun present => ?_, fun void => ?_⟩
  · have refused : Settings.ofYaml env text = .error .notMapping := Settings.ofYaml_of_not_mapping read other present
    refine ⟨refused, fun words c path disk accepted given stands => ?_⟩
    have settings : c.settings env disk = .error (.settings .notMapping) := by
      rw [BuildCommand.settings_of_config given stands, refused]
      rfl
    rw [run_build accepted, BuildCommand.run_of_refused settings, Outcome.fail_of_reported rfl]
    rfl
  · have empty : Settings.ofYaml env text = Settings.ofEntries env [] := Settings.ofYaml_of_void read void
    refine ⟨empty, fun words c path disk accepted given stands => ?_⟩
    rw [run_build accepted]
    refine BuildCommand.run_without_config ?_
    rw [BuildCommand.settings_of_config given stands, empty, BuildCommand.settings_of_none rfl]

theorem only_mapping_deploys_list :
    Settings.ofYaml [] "[a]" = .error .notMapping ∧
    run [] (deploymentDisk "[a]") ["--config", "c.yaml"] =
      { ending := .exit 1, notices := [.failure (.settings .notMapping)], disk := deploymentDisk "[a]" } := by
  have kind : (Yaml.read "[a]").map (fun v => (v.isMapping, v.isVoid)) = .ok (false, false) := by
    decide +kernel
  obtain ⟨v, read, same⟩ := map_eq_ok kind
  obtain ⟨other, present⟩ := Prod.mk.inj same
  obtain ⟨refused, ended⟩ := (only_mapping_deploys read other []).1 present
  exact ⟨refused, ended _ _ _ _ request_config rfl (by decide +kernel)⟩

set_option maxRecDepth 4000 in
/-- An empty list passes for an empty mapping. -/
theorem empty_list_deploys : Yaml.read "[]" = .ok (.list []) ∧ (∃ s, Settings.ofYaml [] "[]" = .ok s) ∧
    (run [("MONGODB_MEMBERS", "0")] (deploymentDisk "[]") ["--config", "c.yaml"]).ending = .exit 0 := by
  have settled : (Settings.ofYaml [] "[]").map (fun _ => ()) = .ok () := by
    decide +kernel
  obtain ⟨s, found, -⟩ := map_eq_ok settled
  exact ⟨rfl, ⟨s, found⟩, by decide +kernel⟩

end CommandLine
end AgentConfig
