import AgentConfig.Proofs.Number.Dotted
import AgentConfig.Proofs.Settings.Deploy
import AgentConfig.Proofs.Settings.Environment
import AgentConfig.Proofs.Yaml.Line

namespace AgentConfig

/-- No variable of a setting is set. -/
def Environment.Unset (env : Environment) : Prop :=
  ∀ name ∈ Settings.names, env.textOf? name = none

namespace Environment

variable {env : Environment} {name : String}

open Settings (foldCase)

/-- It is enough that no variable has the prefix of the settings in whatever letter case. -/
theorem unset_of_foreign (foreign : ∀ entry ∈ env, ¬ "mongodb_".toList <+: (foldCase entry.1).toList) : env.Unset := by
  have lower : (foldCase "MONGODB_").toList = "mongodb_".toList := by decide
  have prefixed : ∀ name, (foldCase (variableFor name)).toList = "mongodb_".toList ++ (foldCase name).toList := by
    intro name
    rw [← lower]
    simp only [variableFor, foldCase, String.toList_ofList, String.toList_append, List.map_append]
  intro name _
  have none : env.spellings (variableFor name) = [] := by
    refine List.filter_eq_nil_iff.mpr fun entry member same => foreign entry member ?_
    rw [eq_of_beq same, prefixed]
    exact List.prefix_append _ _
  rw [textOf?, none]
  rfl

namespace Unset

theorem gives [Runtime] (unset : env.Unset) (among : name ∈ Settings.names) : env.Gives name none :=
  .unset (unset name among)

theorem decodes [Runtime] (unset : env.Unset) : env.Decodes := by
  intro text set
  rw [unset Settings.jsonField (by decide)] at set
  contradiction

end Unset

end Environment

namespace Settings

variable {env : Environment} {s : Settings} {a b : Nat}

/-- With a deployment file of one entry and no variables all other settings are the usual ones. -/
theorem ofEntries_alone [Runtime] [SettingsLibrary] (unset : env.Unset) {key : String} {v : Value} (among : key ∈ names)
    (given : ∀ field ∈ shape.filled s, field.label.name = key → field.shape.read .native v = .ok field.value)
    (usual : ∀ field ∈ shape.filled s, field.label.name ≠ key → field.fallback = some field.value) :
    ofEntries env [(.text key, v)] = .ok s := by
  have named : Names [(.text key, v)] := List.forall_mem_singleton.mpr ⟨key, among, rfl⟩
  refine (ofEntries_eq_ok named unset.decodes).mpr fun field member => ?_
  obtain ⟨-, known⟩ := label_of_filled field member
  by_cases here : field.label.name = key
  · exact .file (by simp [Value.lookup, here]) (given field member here)
  · exact .usual (by simp [Value.lookup, Ne.symm here]) (unset.gives known) (usual field member here)

/-- The text that a number becomes which two numbers with a point between them are read as. -/
def recast (a b : Nat) : String :=
  String.ofList (NumberLayout.plain.write ((numeral a b).toBinary64 false))

/-- Two numbers with a point between them are read as the floating-point number nearest to them. -/
theorem read_dotted {key : String} (isKey : Yaml.IsKey key.toList) (name : Yaml.Tag.ofPlain key.toList = .text) :
    Yaml.read (String.ofList (Yaml.line key.toList (dotted a b))) =
      .ok (.map [(.text key, .float ((numeral a b).toBinary64 false))]) := by
  have bare := Yaml.bare_decimal (wellFormed_dottedParts (a := a) (b := b))
  have denotes := Yaml.denotes_decimal (wellFormed_dottedParts (a := a) (b := b)) rfl
  rw [text_dottedParts] at bare denotes
  rw [value_dottedParts] at denotes
  have read := Yaml.read_line isKey name bare denotes
  rwa [String.ofList_toList] at read

/-- A file of one line gives one setting, and all others are the usual ones. -/
theorem ofYaml_dotted [Runtime] [SettingsLibrary] (unset : env.Unset) (key : String) {label : String}
    (isKey : Yaml.IsKey key.toList) (name : Yaml.Tag.ofPlain key.toList = .text) (among : key ∈ names)
    (colon : label = key ++ ": ")
    (given : ∀ field ∈ shape.filled s, field.label.name = key →
      field.shape.read .native (.float ((numeral a b).toBinary64 false)) = .ok field.value)
    (usual : ∀ field ∈ shape.filled s, field.label.name ≠ key → field.fallback = some field.value) :
    ofYaml env s!"{label}{a}.{b}" = .ok s := by
  have text : s!"{label}{a}.{b}" = String.ofList (Yaml.line key.toList (dotted a b)) := by
    rw [← String.toList_inj]
    simp [colon, toString, Yaml.line, dotted, decimalDigits]
  rw [text, ofYaml_map (Yaml.load_of_not_holdsSet (read_dotted isKey name) rfl)]
  exact ofEntries_alone unset among given usual

theorem ofYaml_compatibility [Runtime] [SettingsLibrary] (unset : env.Unset) (a b : Nat) :
    ofYaml env s!"fcv: {a}.{b}" = .ok { compatibility := recast a b } := by
  refine ofYaml_dotted unset "fcv" (by decide) (by decide) (by decide) rfl ?_ ?_
  · simp [shape, Shape.filled, Fields.filled, Label.plain, Shape.read, Value.readText, recast]
  · simp [shape, Shape.filled, Fields.filled, Label.plain]

theorem ofYaml_version [Runtime] [SettingsLibrary] (unset : env.Unset) (a b : Nat) :
    ofYaml env s!"version: {a}.{b}" = .ok { version := recast a b } := by
  refine ofYaml_dotted unset "version" (by decide) (by decide) (by decide) rfl ?_ ?_
  · simp [shape, Shape.filled, Fields.filled, Label.plain, Shape.read, Value.readText, recast]
  · simp [shape, Shape.filled, Fields.filled, Label.plain]

theorem recast_eq_iff : recast a b = s!"{a}.{b}" ↔ a < 10 ^ 16 ∧ (b = 0 ∨ ¬ 10 ∣ b) ∧ (numeral a b).IsShortest := by
  have text : s!"{a}.{b}".toList = dotted a b := by
    simp [toString, dotted, decimalDigits]
  rw [← NumberLayout.plain_write_iff, ← text, recast, ← String.toList_inj, String.toList_ofList]

theorem recast_zeros (positive : 0 < b) (k : Nat) : recast a (b * 10 ^ k) = recast a b := by
  rw [recast, recast, Decimal.toBinary64_congr false (toRat_numeral_zeros b k positive)]

/-- A compatibility or a version that is given as two numbers with a point between them, without quotes, passes through
the floating-point number nearest to it. All servers get its text. That is what was given just when the first number is
below `10 ^ 16`, the second has no zeros at its end, and no other decimal that is read as the same number has fewer
digits or as many and is nearer. So up to fifteen digits nothing but zeros at the end is lost, and more than seventeen
are never kept. -/
theorem unquoted_versions [Runtime] [SettingsLibrary] (unset : env.Unset) (a b : Nat) :
    ofYaml env s!"fcv: {a}.{b}" = .ok { compatibility := recast a b } ∧
    ofYaml env s!"version: {a}.{b}" = .ok { version := recast a b } ∧
    (∀ s, ofYaml env s!"fcv: {a}.{b}" = .ok s ∨ ofYaml env s!"version: {a}.{b}" = .ok s → ∀ previous,
      (∀ before, previous.canonical = .ok before → ∃ d, (s.deploy previous).outcome = .ok d) ∧
      ∀ d, (s.deploy previous).outcome = .ok d → d.servers.length = 3 ∧
        ∀ server ∈ d.servers, server.compatibility = s.compatibility ∧ server.version = s.version) ∧
    (recast a b = s!"{a}.{b}" ↔ a < 10 ^ 16 ∧ (b = 0 ∨ ¬ 10 ∣ b) ∧ (numeral a b).IsShortest) ∧
    (0 < b → ∀ k, recast a (b * 10 ^ k) = recast a b) ∧
    (a < 10 ^ 16 → (numeral a b).digitCount ≤ 15 → (numeral a b).IsShortest) ∧
    ((numeral a b).IsShortest → (numeral a b).digitCount ≤ 17) := by
  have compatibility := ofYaml_compatibility unset a b
  have version := ofYaml_version unset a b
  refine ⟨compatibility, version, fun s read previous => ?_, recast_eq_iff, recast_zeros, isShortest_numeral,
    Decimal.IsShortest.digitCount_le⟩
  have usual : s.authMode = .none ∧ s.members = 3 := by
    rw [compatibility, version] at read
    rcases read with read | read <;> obtain rfl := Except.ok.inj read <;> exact ⟨rfl, rfl⟩
  have secrets : s.HasSecrets := fun scram => by
    rw [usual.1] at scram
    contradiction
  constructor
  · intro before written
    obtain ⟨version, deployed⟩ := exists_deploy secrets written
    exact ⟨_, deployed⟩
  · intro d deployed
    obtain ⟨count, servers⟩ := servers_deploy deployed
    rw [usual.2] at count
    exact ⟨count, servers⟩

/-- Fifteen digits are kept beside variables that are none of the settings', and a zero at the end is lost. -/
theorem unquoted_versions_release :
    ofYaml [("PATH", "/usr/bin")] "fcv: 12345678901234.5" = .ok { compatibility := "12345678901234.5" } ∧
    recast 4 10 ≠ "4.10" := by
  have unset : Environment.Unset [("PATH", "/usr/bin")] :=
    Environment.unset_of_foreign (List.forall_mem_singleton.mpr (by decide))
  obtain ⟨read, -, -, kept, -, short, -⟩ := unquoted_versions unset 12345678901234 5
  obtain ⟨-, -, -, kept', -⟩ := unquoted_versions unset 4 10
  have digits : (numeral 12345678901234 5).digitCount ≤ 15 := by decide
  have bound : 12345678901234 < 10 ^ 16 := by decide
  have same := kept.mpr ⟨bound, .inr (by decide), short bound digits⟩
  rw [same] at read
  exact ⟨read, fun same => absurd (kept'.mp same).2.1 (by decide)⟩

/-- The feature compatibility `4.10` becomes `4.1`. -/
theorem trailing_zero_lost :
    ∃ s, ofYaml [] "fcv: 4.10" = .ok s ∧ s.compatibility = "4.1" ∧ s.compatibility ≠ "4.10" := by
  have settled : (ofYaml [] "fcv: 4.10").map (·.compatibility) = .ok "4.1" := by
    decide +kernel
  obtain ⟨s, read, text⟩ := map_eq_ok settled
  exact ⟨s, read, text, by rw [text]; decide⟩

end Settings
end AgentConfig
