import AgentConfig.Proofs.Settings.Environment
import AgentConfig.Proofs.Yaml.Datum

namespace AgentConfig.Settings

variable {env env' : Environment} {entries : List (Value × Value)} {given : Given} {field text : String}
  {e : SettingsError}

theorem lookup_isSome_of_mem {v : Value} (member : (.text field, v) ∈ entries) :
    (Value.lookup field entries).isSome := by
  induction entries with
  | nil => contradiction
  | cons entry rest ih =>
    obtain ⟨key, w⟩ := entry
    unfold Value.lookup
    cases later : Value.lookup field rest with
    | some u => rfl
    | none =>
      rcases List.mem_cons.mp member with here | behind
      · obtain ⟨rfl, -⟩ := Prod.mk.inj here
        simp
      · rw [later] at ih
        exact absurd (ih behind) (by simp)

theorem collect_refused [Runtime] (refused : env.refusal? = some e) : collect {} env given names = .error e :=
  collect_eq_error.mpr ⟨by decide, Environment.refusal?_eq_some.mp refused⟩

/-- What the deployment file gives is collected without regard to the variables for it, if they can be read. -/
theorem collect_shadowed [Runtime] (known : given.Known) (stands : (given.find? field).isSome) (agree : env.AgreesBut field env')
    (decodes : field = jsonField → env.Decodes) (decodes' : field = jsonField → env'.Decodes) :
    collect {} env given names = collect {} env' given names := by
  have among : field ∈ names := known field (find?_isSome.mp stands)
  refine collect_congr fun name known_name => ?_
  by_cases same : name = field
  · -- The variable has no say here, but it is read all the same and must not be at fault.
    subst same
    refine .inr ⟨⟨name, by rw [known.givenKey?_eq among, if_pos stands]⟩, ?_, ?_⟩
    · obtain ⟨v, gives⟩ := Environment.exists_gives decodes
      exact ⟨v, Environment.value?_eq_ok.mpr gives⟩
    · obtain ⟨v, gives⟩ := Environment.exists_gives decodes'
      exact ⟨v, Environment.value?_eq_ok.mpr gives⟩
  · exact .inl (Environment.value?_congr (agree _ (variable_ne name known_name field among same)))

/-- A setting that the deployment file gives is the same in every environment, and the others come from the environment
or are the usual ones. Only a variable for the catalog that cannot be read is an error even where the file gives the
catalog. -/
theorem file_shadows_environment [Runtime] [SettingsLibrary] (loaded : Yaml.load text = .ok (.map entries)) (named : Names entries) :
    (∀ field env env', (∃ v, (.text field, v) ∈ entries) → env.AgreesBut field env' →
      (field = jsonField → env.refusal? = env'.refusal?) → ofYaml env text = ofYaml env' text) ∧
    (∀ env e, env.refusal? = some e →
      ofYaml env text = .error e ∧ (e = .decode jsonField ∨ e = .tooDeep jsonField)) ∧
    ∀ env s, env.Decodes →
      (ofYaml env text = .ok s ↔ ∀ field ∈ shape.filled s, field.SettledBy env entries) := by
  obtain ⟨given, known, stands, opened⟩ := ofEntries_eq named
  have opened : ∀ env, ofYaml env text = collect {} env given names >>= settle := fun env => by
    rw [ofYaml_map loaded, opened, ofGiven_eq known]
  have failed : ∀ env e, env.refusal? = some e → ofYaml env text = .error e := fun env e refused => by
    rw [opened, collect_refused refused]
    rfl
  refine ⟨fun field env env' ⟨v, member⟩ agree alike => ?_,
    fun env e refused => ⟨failed env e refused, Environment.eq_of_refusal? refused⟩, fun env s decodes => ?_⟩
  · have present : (given.find? field).isSome := stands field ▸ lookup_isSome_of_mem member
    -- If the variable is at fault, then so it is in the other environment, and in the same way.
    by_cases decodes : field = jsonField → env.Decodes
    · have decodes' : field = jsonField → env'.Decodes := fun same =>
        Environment.refusal?_eq_none.mp (alike same ▸ Environment.refusal?_eq_none.mpr (decodes same))
      rw [opened, opened, collect_shadowed known present agree decodes decodes']
    · obtain ⟨same, undecoded⟩ := Classical.not_imp.mp decodes
      obtain ⟨e, refused⟩ := Option.ne_none_iff_exists'.mp (mt Environment.refusal?_eq_none.mp undecoded)
      rw [failed env e refused, failed env' e (alike same ▸ refused)]
  · rw [ofYaml_map loaded]
    exact ofEntries_eq_ok named decodes

/-- A deployment file that gives the name and nothing else. -/
def named : String :=
  String.ofList (Yaml.writeRecord [("name", .text "rs0")])

theorem load_named : Yaml.load named = .ok (.map [(.text "name", .text "rs0")]) := by
  have key : Yaml.IsKey "name".toList := by decide
  refine Yaml.load_of_not_holdsSet (Yaml.read_writeRecord ?_ ?_ (by decide) (by decide)) rfl
  · simpa [Tree.entryKeys, Tree.keys] using key
  · decide

theorem file_shadows_environment_name :
    ofYaml [("MONGODB_NAME", "a"), ("MONGODB_MEMBERS", "5")] named =
      ofYaml [("MONGODB_MEMBERS", "5"), ("mongodb_name", "b")] named ∧
    ofYaml [("MONGODB_VERSIONS", "[")] named = .error (.decode jsonField) := by
  have keys : Names [(.text "name", .text "rs0")] := by
    simp only [Names, List.forall_mem_singleton]
    exact ⟨"name", by decide, rfl⟩
  obtain ⟨shadowed, undecoded, -⟩ := file_shadows_environment load_named keys
  have refused : Environment.refusal? [("MONGODB_VERSIONS", "[")] = some (.decode jsonField) := by decide +kernel
  refine ⟨shadowed "name" _ _ ⟨_, List.mem_cons_self⟩ ?_ (fun same => absurd same (by decide)), (undecoded _ _ refused).1⟩
  intro other apart
  have upper : foldCase "MONGODB_NAME" = foldCase (Environment.variableFor "name") := by decide
  have lower : foldCase "mongodb_name" = foldCase (Environment.variableFor "name") := by decide
  simp [Environment.spellings, List.filter_cons, upper, lower, Ne.symm apart]

/-- The variable for the catalog is read even where the deployment file gives the catalog. -/
theorem undecoded_beneath_file : ofYaml [("MONGODB_VERSIONS", "[\x7b")] "versions: []" = .error (.decode "versions") ∧
    ∃ s, ofYaml [] "versions: []" = .ok s := by
  have failed : (ofYaml [("MONGODB_VERSIONS", "[\x7b")] "versions: []").map (fun _ => ()) =
      .error (.decode "versions") := by
    decide +kernel
  have settled : (ofYaml [] "versions: []").map (fun _ => ()) = .ok () := by
    decide +kernel
  refine ⟨?_, ?_⟩
  · revert failed
    cases ofYaml [("MONGODB_VERSIONS", "[\x7b")] "versions: []" with
    | error e => exact fun same => congrArg Except.error (Except.error.inj same)
    | ok s => exact fun same => by contradiction
  · obtain ⟨s, found, -⟩ := map_eq_ok settled
    exact ⟨s, found⟩

end AgentConfig.Settings
