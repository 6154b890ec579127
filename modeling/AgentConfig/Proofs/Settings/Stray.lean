import AgentConfig.Proofs.Settings.Shadowed

namespace AgentConfig

/-- A key that is the name of a setting in some letter case. -/
def Value.isSetting : Value → Bool
  | .text key => Settings.names.contains (Settings.foldCase key)
  | _ => false

/-- A key that is an option of the lookup of variables. -/
def Value.isOption : Value → Bool
  | .text key => Settings.lookupOptions.contains key
  | _ => false

/-- The text that a key is. -/
def Value.text? : Value → Option String
  | .text key => some key
  | _ => none

namespace Settings

variable {env env' : Environment} {entries : List (Value × Value)} {given given' found : Given} {fields : List String}
  {field key : String} {v : Value} {l l' : Lookup} {s : Settings} {broken : Bool}

/-- The value that a file gives for a setting: under its name, or else under the first of its other spellings. -/
def spelled? (entries : List (Value × Value)) (field : String) : Option Value :=
  (Value.lookup field entries).or
    (((entries.filterMap (·.1.text?)).find? (foldCase · == field)).bind (Value.lookup · entries))

/-- What a file gives for the settings, each under its name. -/
def spelledOut (entries : List (Value × Value)) : List (Value × Value) :=
  names.filterMap fun field => (spelled? entries field).map (.text field, ·)

theorem known_of_ofGiven [Runtime] [SettingsLibrary] (silent : consulted env given broken = none)
    (settled : ofGiven env given broken = .ok s) :
    broken = false ∧ ∃ l, ∀ key ∈ given.map (·.1), isKnownKey l key = true := by
  unfold ofGiven at settled
  by_cases whole : (given.find? "__pydantic_self__").isSome
  · rw [if_pos whole] at settled
    contradiction
  · rw [if_neg whole, silent] at settled
    obtain ⟨l, -, settled⟩ := bind_eq_ok settled
    obtain ⟨entries, -, settled⟩ := bind_eq_ok settled
    dsimp only [accept] at settled
    split at settled
    · split_ifs at settled
    · split_ifs at settled with clean
      · obtain ⟨strange, whole⟩ := Bool.and_eq_true_iff.mp clean
        refine ⟨by simpa using whole, l, fun key member => ?_⟩
        simpa using List.filter_eq_nil_iff.mp (List.isEmpty_iff.mp strange) key member

theorem isSetting_or_isOption (plain : (Value.text key).isLibraryOption = false) (known : isKnownKey l key = true) :
    (Value.text key).isSetting = true ∨ (Value.text key).isOption = true := by
  obtain (option | library) | setting := Bool.or_eq_true_iff.mp known |>.imp_left Bool.or_eq_true_iff.mp
  · exact .inr option
  · exact absurd (plain.symm.trans library) Bool.false_ne_true
  · refine .inl ?_
    split_ifs at setting
    · have name : key ∈ names := by simpa using setting
      rwa [Value.isSetting, foldCase_name key name]
    · exact setting

theorem exists_text {key : Value} (known : key.isSetting = true ∨ key.isOption = true) : ∃ word, key = .text word := by
  cases key with
  | text word => exact ⟨word, rfl⟩
  | _ => rcases known with setting | option <;> contradiction

/-- Without options of the settings library, a deployment is settled only if each key is a setting in some letter case
or an option of the lookup. -/
theorem key_of_ofEntries [Runtime] [SettingsLibrary] (plain : ∀ entry ∈ entries, entry.1.isLibraryOption = false)
    (settled : ofEntries env entries = .ok s) :
    ∀ entry ∈ entries, entry.1.isSetting = true ∨ entry.1.isOption = true := by
  obtain ⟨given, read, -⟩ := bind_eq_ok settled
  rw [ofEntries_of_givenOf read] at settled
  obtain ⟨whole, l, known⟩ := known_of_ofGiven (consulted_gathered read plain) settled
  rintro ⟨key, v⟩ member
  have isKey : key.isKey = true := by
    by_contra strange
    have refused : givenOf entries [] = .error .key := givenOf_eq_error.mpr ⟨rfl, _, member, Bool.not_eq_true _ ▸ strange⟩
    simp [read] at refused
  cases key with
  | text key =>
    exact isSetting_or_isOption (plain _ member) (known key ((mem_keys_givenOf read).mpr (.inr ⟨v, member⟩)))
  | brokenText => exact absurd rfl (List.any_eq_false.mp whole _ member)
  | _ => contradiction

theorem keys_put : (given.put key v).map (·.1) =
    if key ∈ given.map (·.1) then given.map (·.1) else given.map (·.1) ++ [key] := by
  have stands : key ∈ given.map (·.1) ↔ (given.lookup key).isSome := find?_isSome.symm
  unfold Given.put
  simp only [stands]
  split_ifs
  · rw [List.map_map]
    refine List.map_congr_left fun entry _ => ?_
    dsimp only [Function.comp]
    split_ifs <;> rfl
  · rw [List.map_append, List.map_singleton]

/-- Gathering entries keeps the first of the keys with a property. -/
theorem find?_keys_givenOf {p : String → Bool} (read : givenOf entries given = .ok found) :
    (found.map (·.1)).find? p = (given.map (·.1) ++ entries.filterMap (·.1.text?)).find? p := by
  induction entries generalizing given with
  | nil =>
    obtain rfl := Except.ok.inj read
    rw [List.filterMap_nil, List.append_nil]
  | cons entry rest ih =>
    obtain ⟨key, v⟩ := entry
    cases key with
    | text key =>
      have texts : List.filterMap (·.1.text?) ((Value.text key, v) :: rest) = key :: rest.filterMap (·.1.text?) := rfl
      rw [ih read, keys_put, texts]
      split_ifs with again
      · -- A key that stands already is not the first with the property.
        rw [List.find?_append, List.find?_append, List.find?_cons]
        cases holds : p key with
        | false => rfl
        | true =>
          have earlier : ((given.map (·.1)).find? p).isSome := List.find?_isSome.mpr ⟨key, again, holds⟩
          obtain ⟨first, found⟩ := Option.isSome_iff_exists.mp earlier
          rw [found]
          rfl
      · rw [List.append_assoc, List.singleton_append]
    | brokenText => exact ih read
    | _ => contradiction

theorem find?_gathered (read : givenOf entries [] = .ok given) : given.find? key = Value.lookup key entries := by
  rw [find?_givenOf read]
  exact Option.or_none

/-- What is given for a setting, unless the letter case matters. -/
theorem map_givenKey? (read : givenOf entries [] = .ok given) (insensitive : l.caseSensitive = false) :
    (givenKey? l given field).map given.find? = (spelled? entries field).map some := by
  have other : (List.find? (fun entry => foldCase entry.1 == field) given).map (·.1) =
      (entries.filterMap (·.1.text?)).find? (foldCase · == field) := by
    have first := find?_keys_givenOf (p := (foldCase · == field)) read
    rw [List.find?_map] at first
    exact first
  rw [givenKey?, spelled?, find?_gathered read, insensitive, other]
  cases own : Value.lookup field entries with
  | some v => simp [find?_gathered read, own]
  | none =>
    cases first : (entries.filterMap (·.1.text?)).find? (foldCase · == field) with
    | none => rfl
    | some key =>
      obtain ⟨entry, member, text⟩ := List.mem_filterMap.mp (List.mem_of_find?_eq_some first)
      have stands : (Value.lookup key entries).isSome := by
        obtain ⟨_ | _ | _ | _ | word | _, v⟩ := entry <;> try contradiction
        exact lookup_isSome_of_mem (Option.some.inj text ▸ member)
      obtain ⟨v, stands⟩ := Option.isSome_iff_exists.mp stands
      simp [find?_gathered read, stands]

theorem names_spelledOut (entries : List (Value × Value)) : Names (spelledOut entries) := by
  intro entry member
  obtain ⟨field, among, found⟩ := List.mem_filterMap.mp member
  obtain ⟨v, -, rfl⟩ := Option.map_eq_some_iff.mp found
  exact ⟨field, among, rfl⟩

theorem lookup_filterMap {value? : String → Option Value} :
    Value.lookup key (fields.filterMap fun field => (value? field).map (.text field, ·)) =
      if key ∈ fields then value? key else none := by
  induction fields with
  | nil => rfl
  | cons field rest ih =>
    cases given : value? field with
    | none =>
      rw [List.filterMap_cons_none (by rw [given]; rfl), ih]
      by_cases same : key = field
      · simp [same, given]
      · simp [same]
    | some v =>
      rw [List.filterMap_cons_some (by rw [given]; rfl), Value.lookup, ih]
      by_cases same : key = field
      · subst same
        by_cases among : key ∈ rest <;> simp [among, given]
      · by_cases among : key ∈ rest
        · cases value? key <;> simp [among, Ne.symm same]
        · simp [among, same, Ne.symm same]

theorem lookup_spelledOut (among : field ∈ names) :
    Value.lookup field (spelledOut entries) = spelled? entries field := by
  rw [spelledOut, lookup_filterMap, if_pos among]

/-- Settings are collected alike from two sources that say the same about each of them. -/
theorem collect_congr_of_found [Runtime] (alike : ∀ field ∈ fields, l.value? env field = l'.value? env' field ∧
    (givenKey? l given field).map given.find? = (givenKey? l' given' field).map given'.find?) :
    collect l env given fields = collect l' env' given' fields := by
  induction fields with
  | nil => rfl
  | cons field rest ih =>
    obtain ⟨⟨value, found⟩, others⟩ := List.forall_mem_cons.mp alike
    rw [collect, collect, ih others, value]
    cases key : givenKey? l given field <;> cases key' : givenKey? l' given' field <;>
      simp only [key, key', Option.map_none, Option.map_some, reduceCtorEq, Option.some.injEq] at found
    · rfl
    · simp only [found]

theorem isLibraryOption_of_known {key : Value} (known : key.isSetting = true ∨ key.isOption = true) :
    key.isLibraryOption = false := by
  obtain ⟨word, rfl⟩ := exists_text known
  have apart : ∀ option ∈ libraryOptions, (Value.text option).isSetting = false ∧ (Value.text option).isOption = false := by
    decide +kernel
  by_contra library
  obtain ⟨setting, option⟩ := apart word (by simpa [Value.isLibraryOption] using library)
  simp [setting, option] at known

/-- A file in which all keys are known is read as the settings spelled out, in an environment that answers the usual
lookup as this one does the one that is asked for. -/
theorem ofEntries_spelledOut [Runtime] [SettingsLibrary] (read : givenOf entries [] = .ok given)
    (asked : lookupOf given = .ok l) (known : ∀ entry ∈ entries, entry.1.isSetting = true ∨ entry.1.isOption = true)
    (insensitive : l.caseSensitive = false)
    (same : ∀ field ∈ names, l.textOf? env field = ({} : Lookup).textOf? env' field) :
    ofEntries env entries = ofEntries env' (spelledOut entries) := by
  have keys : ∀ key ∈ given.map (·.1), isKnownKey l key = true := fun key member => by
    obtain none | ⟨v, member⟩ := (mem_keys_givenOf read).mp member
    · contradiction
    · rw [isKnownKey, insensitive]
      rcases known _ member with setting | option
      · exact Bool.or_eq_true_iff.mpr (.inr setting)
      · exact Bool.or_eq_true_iff.mpr (.inl (Bool.or_eq_true_iff.mpr (.inl option)))
  have whole : given.find? "__pydantic_self__" = none := by
    by_contra stands
    have key := keys _ (find?_isSome.mp (Option.isSome_iff_ne_none.mpr stands))
    rw [isKnownKey, insensitive] at key
    revert key
    decide +kernel
  have silent : consulted env given false = none :=
    consulted_gathered read fun entry member => isLibraryOption_of_known (known entry member)
  have unbroken : entries.any (·.1.isBroken) = false := List.any_eq_false.mpr fun entry member => by
    obtain ⟨key, text⟩ := exists_text (known entry member)
    simp [text, Value.isBroken]
  obtain ⟨given', known', stands, opened⟩ := ofEntries_eq (names_spelledOut entries)
  have collected : collect l env given names = collect {} env' given' names := by
    refine collect_congr_of_found fun field among => ⟨?_, ?_⟩
    · rw [Lookup.value?, Lookup.value?, same field among]
    · have found : given'.find? field = spelled? entries field := by rw [stands, lookup_spelledOut among]
      rw [map_givenKey? read insensitive, known'.givenKey?_eq among, found]
      cases value : spelled? entries field with
      | none => rfl
      | some v => exact congrArg some (found.trans value).symm
  rw [ofEntries_of_givenOf read, unbroken, ofGiven_of_known whole silent asked keys, collected, opened, ofGiven_eq known']

end Settings

namespace Environment

open Settings (names foldCase)

variable {env : Environment} {field variablePrefix : String}

/-- The environment where the usual variables hold what those with another prefix do in this one. -/
def renamed (env : Environment) (variablePrefix : String) : Environment :=
  names.filterMap fun field =>
    (({ variablePrefix } : Settings.Lookup).textOf? env field).map (variableFor field, ·)

/-- Among variables for different settings there is one for each at most. -/
theorem spellings_filterMap {fields : List String} {text : String → Option String} (distinct : fields.Nodup)
    (known : ∀ name ∈ fields, name ∈ names) (among : field ∈ fields) :
    spellings (fields.filterMap fun name => (text name).map (variableFor name, ·)) (variableFor field) =
      ((text field).map (variableFor field, ·)).toList := by
  have own : ∀ name ∈ fields, ((text name).map (variableFor name, ·)).filter
      (fun entry => foldCase entry.1 == foldCase (variableFor field)) =
      if name == field then (text name).map (variableFor name, ·) else none := fun name member => by
    by_cases same : name = field
    · cases text name <;> simp [same]
    · have apart := Settings.variable_ne name (known name member) field (known field among) same
      cases text name <;> simp [same, apart]
  rw [spellings, List.filter_filterMap, List.filterMap_congr own, ← List.filterMap_filter, List.filter_beq,
    List.count_eq_one_of_mem distinct among]
  cases set : text field <;> simp [set]

theorem textOf?_renamed (among : field ∈ names) :
    ({} : Settings.Lookup).textOf? (env.renamed variablePrefix) field =
      ({ variablePrefix } : Settings.Lookup).textOf? env field := by
  rw [textOf?_default, textOf?, renamed, spellings_filterMap (by decide) (fun _ => id) among]
  cases ({ variablePrefix } : Settings.Lookup).textOf? env field <;> rfl

end Environment

namespace Settings

variable {entries : List (Value × Value)} {given : Given} {key text : String}

theorem exists_gathered (known : ∀ entry ∈ entries, entry.1.isSetting = true ∨ entry.1.isOption = true) :
    ∃ given, givenOf entries [] = .ok given := by
  cases read : givenOf entries [] with
  | ok given => exact ⟨given, rfl⟩
  | error e =>
    obtain ⟨-, entry, member, strange⟩ := givenOf_eq_error.mp read
    obtain ⟨key, text⟩ := exists_text (known entry member)
    simp [text, Value.isKey] at strange

theorem find?_eq_none_of_ne (read : givenOf entries [] = .ok given) (apart : ∀ entry ∈ entries, entry.1 ≠ .text key) :
    given.find? key = none := by
  by_contra stands
  obtain none | ⟨v, member⟩ := (mem_keys_givenOf read).mp (find?_isSome.mp (Option.isSome_iff_ne_none.mpr stands))
  · contradiction
  · exact apart _ member rfl

theorem isSetting_option : ∀ option ∈ lookupOptions, (Value.text option).isSetting = false := by
  decide

/-- Settings may be given in any letter case. -/
theorem ofEntries_of_settings [Runtime] [SettingsLibrary] (known : ∀ entry ∈ entries, entry.1.isSetting = true) (env : Environment) :
    ofEntries env entries = ofEntries env (spelledOut entries) := by
  obtain ⟨given, read⟩ := exists_gathered fun entry member => .inl (known entry member)
  have absent : ∀ option ∈ lookupOptions, given.find? option = none := fun option among =>
    find?_eq_none_of_ne read fun entry member same => by
      simpa [same, isSetting_option option among] using known entry member
  have asked : lookupOf given = .ok {} := by
    simp only [lookupOf, absent "_env_prefix" (by decide), absent "_case_sensitive" (by decide),
      absent "_env_ignore_empty" (by decide)]
  exact ofEntries_spelledOut read asked (fun entry member => .inl (known entry member)) rfl fun _ _ => rfl

/-- A prefix decides which variables are read for the settings that the file does not give. -/
theorem ofEntries_renamed [Runtime] [SettingsLibrary] {variablePrefix : String}
    (option : Value.lookup "_env_prefix" entries = some (.text variablePrefix))
    (known : ∀ entry ∈ entries, entry.1.isSetting = true ∨ entry.1 = .text "_env_prefix") (env : Environment) :
    ofEntries env entries = ofEntries (env.renamed variablePrefix) (spelledOut entries) := by
  have keys : ∀ entry ∈ entries, entry.1.isSetting = true ∨ entry.1.isOption = true := fun entry member =>
    (known entry member).imp_right fun same => by rw [same]; decide
  obtain ⟨given, read⟩ := exists_gathered keys
  have absent : ∀ option ∈ lookupOptions, option ≠ "_env_prefix" → given.find? option = none :=
    fun option among other => find?_eq_none_of_ne read fun entry member same => by
      rcases known entry member with setting | only
      · simp [same, isSetting_option option among] at setting
      · exact other (Value.text.inj (same.symm.trans only))
  have named : given.find? "_env_prefix" = some (.text variablePrefix) := by
    rw [find?_gathered read, option]
  have asked : lookupOf given = .ok { variablePrefix } := by
    simp only [lookupOf, named, absent "_case_sensitive" (by decide) (by decide),
      absent "_env_ignore_empty" (by decide) (by decide)]
  exact ofEntries_spelledOut read asked keys rfl fun field among => (Environment.textOf?_renamed among).symm

/-- A deployment file without options of the settings library is refused for a key that is neither a setting, in
whatever letter case, nor an option of the lookup. Of several spellings of a setting the name itself counts, or else the
first. The option for the prefix is taken away from the file and decides where all other settings come from. -/
theorem stray_keys_refused [Runtime] [SettingsLibrary] (loaded : Yaml.load text = .ok (.map entries)) :
    ((∀ entry ∈ entries, entry.1.isLibraryOption = false) →
      (∃ entry ∈ entries, entry.1.isSetting = false ∧ entry.1.isOption = false) →
      ∀ env, ∃ e, ofYaml env text = .error e) ∧
    ((∀ entry ∈ entries, entry.1.isSetting = true) →
      ∀ env, ofYaml env text = ofEntries env (spelledOut entries)) ∧
    ∀ variablePrefix, Value.lookup "_env_prefix" entries = some (.text variablePrefix) →
      (∀ entry ∈ entries, entry.1.isSetting = true ∨ entry.1 = .text "_env_prefix") →
      ∀ env, ofYaml env text = ofEntries (env.renamed variablePrefix) (spelledOut entries) := by
  refine ⟨fun plain ⟨entry, member, setting, option⟩ env => ?_, fun known env => ?_, fun variablePrefix option known env => ?_⟩
  · cases settled : ofYaml env text with
    | error e => exact ⟨e, rfl⟩
    | ok s =>
      rw [ofYaml_map loaded] at settled
      have known := key_of_ofEntries plain settled entry member
      simp [setting, option] at known
  · rw [ofYaml_map loaded, ofEntries_of_settings known]
  · rw [ofYaml_map loaded, ofEntries_renamed option known]

/-- A deployment file with a single key. -/
def lone (key word : String) : String :=
  String.ofList (Yaml.writeRecord [(key, .text word)])

theorem load_lone {key word : String} (isKey : Yaml.IsKey key.toList) (plain : Yaml.Tag.ofPlain key.toList = .text) :
    Yaml.load (lone key word) = .ok (.map [(.text key, .text word)]) := by
  have narrow : 2 * Tree.entryDepth [(key, .text word)] + 2 < Yaml.lineWidth := by
    simp [Tree.entryDepth, Tree.depth, Yaml.lineWidth]
  refine Yaml.load_of_not_holdsSet (Yaml.read_writeRecord ?_ ?_ narrow rfl) rfl
  · simpa [Tree.entryKeys, Tree.keys] using isKey
  · simpa [Tree.entryKeys, Tree.keys] using plain

theorem stray_keys_refused_lone :
    (∃ e, ofYaml [] (lone "nme" "x") = .error e) ∧
    ofYaml [("X_NAME", "a")] (lone "_env_prefix" "X_") = ofEntries [("MONGODB_name", "a")] [] ∧
    ofYaml [] (lone "NAME" "x") = ofEntries [] [(.text "name", .text "x")] := by
  have misspelled : Yaml.load (lone "nme" "x") = .ok (.map [(.text "nme", .text "x")]) :=
    load_lone (by decide) (by decide)
  have redirected : Yaml.load (lone "_env_prefix" "X_") = .ok (.map [(.text "_env_prefix", .text "X_")]) :=
    load_lone (by decide) (by decide)
  have shouted : Yaml.load (lone "NAME" "x") = .ok (.map [(.text "NAME", .text "x")]) :=
    load_lone (by decide) (by decide)
  have renamed : Environment.renamed [("X_NAME", "a")] "X_" = [("MONGODB_name", "a")] := by
    decide
  have plain : foldCase "_env_prefix" = "_env_prefix" := by
    decide
  have apart : ∀ field ∈ names, "_env_prefix" ≠ field := by
    decide
  have alone : spelledOut [(.text "_env_prefix", .text "X_")] = [] := by
    refine List.filterMap_eq_nil_iff.mpr fun field member => ?_
    simp [spelled?, Value.lookup, Value.text?, plain, apart field member]
  have fold : foldCase "NAME" = "name" := by
    decide
  have others : ∀ field ∈ names.tail, "NAME" ≠ field ∧ "name" ≠ field := by
    decide
  have folded : spelledOut [(.text "NAME", .text "x")] = [(.text "name", .text "x")] := by
    rw [spelledOut, show names = "name" :: names.tail from rfl, List.filterMap_cons_some (b := (.text "name", .text "x")),
      List.filterMap_eq_nil_iff.mpr fun field member => ?_]
    · obtain ⟨upper, lower⟩ := others field member
      simp [spelled?, Value.lookup, Value.text?, fold, upper, lower]
    · simp [spelled?, Value.lookup, Value.text?, fold]
  obtain ⟨refused, -, -⟩ := stray_keys_refused misspelled
  obtain ⟨-, respelled, -⟩ := stray_keys_refused shouted
  obtain ⟨-, -, taken⟩ := stray_keys_refused redirected
  have settings : ∀ entry ∈ [((.text "NAME", .text "x") : Value × Value)], entry.1.isSetting = true :=
    List.forall_mem_singleton.mpr (by decide)
  have prefixed : ∀ entry ∈ [((.text "_env_prefix", .text "X_") : Value × Value)],
      entry.1.isSetting = true ∨ entry.1 = .text "_env_prefix" :=
    List.forall_mem_singleton.mpr (.inr rfl)
  have plain' : ∀ entry ∈ [((.text "nme", .text "x") : Value × Value)], entry.1.isLibraryOption = false :=
    List.forall_mem_singleton.mpr (by decide)
  refine ⟨refused plain' ⟨_, List.mem_cons_self, by decide, by decide⟩ [], ?_, ?_⟩
  · rw [taken "X_" rfl prefixed, renamed, alone]
  · rw [respelled settings, folded]

/-- The prefix of the variables is no setting, but a file that names one is accepted and redirects the settings. -/
theorem prefix_redirects :
    Yaml.load "_env_prefix: OTHER_\n" = .ok (.map [(.text "_env_prefix", .text "OTHER_")]) ∧
    (Value.text "_env_prefix").isSetting = false ∧
    (∃ s, ofYaml [("OTHER_NAME", "o"), ("MONGODB_NAME", "m")] "_env_prefix: OTHER_\n" = .ok s ∧ s.name = "o") ∧
    ∃ s, ofYaml [("OTHER_NAME", "o"), ("MONGODB_NAME", "m")] "" = .ok s ∧ s.name = "m" := by
  have written : lone "_env_prefix" "OTHER_" = "_env_prefix: OTHER_\n" := by
    decide +kernel
  have read : Yaml.load (lone "_env_prefix" "OTHER_") = .ok (.map [(.text "_env_prefix", .text "OTHER_")]) :=
    load_lone (by decide) (by decide)
  have redirected : (ofYaml [("OTHER_NAME", "o"), ("MONGODB_NAME", "m")] "_env_prefix: OTHER_\n").map (·.name) =
      .ok "o" := by
    decide +kernel
  have usual : (ofYaml [("OTHER_NAME", "o"), ("MONGODB_NAME", "m")] "").map (·.name) = .ok "m" := by
    decide +kernel
  exact ⟨written ▸ read, by decide, map_eq_ok redirected, map_eq_ok usual⟩

end Settings
end AgentConfig
