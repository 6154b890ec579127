import AgentConfig.Proofs.Schema.Field
import AgentConfig.Proofs.Settings.Source

namespace AgentConfig
namespace Environment

open Settings (foldCase jsonField)

variable {env env' : Environment} {field : String} {v : Option Value}

/-- The name of the variable for a setting. -/
def variableFor (field : String) : String :=
  "MONGODB_" ++ field

/-- The variables of a name in any letter case, in order. -/
def spellings (env : Environment) (name : String) : Environment :=
  env.filter fun entry => foldCase entry.1 == foldCase name

/-- The text of the variable for a setting, of several spellings the last one. -/
def textOf? (env : Environment) (field : String) : Option String :=
  (env.spellings (variableFor field)).getLast?.map (·.2)

/-- What the environment says about a setting. A null in JSON says nothing. -/
inductive Gives [Runtime] (env : Environment) (field : String) : Option Value → Prop
  | unset (unset : env.textOf? field = none) : Gives env field none
  | text {s : String} (set : env.textOf? field = some s) (verbatim : field ≠ jsonField) :
      Gives env field (some (.text s))
  | null {s : String} (set : env.textOf? field = some s) (decoded : field = jsonField)
      (read : Json.readWithin Runtime.jsonDepth s = .ok .null) : Gives env field none
  | tree {s : String} {t : Tree} (set : env.textOf? field = some s) (decoded : field = jsonField)
      (read : Json.readWithin Runtime.jsonDepth s = .ok t) (present : t ≠ .null) : Gives env field (some (.ofTree t))

/-- The variable that should hold JSON holds it, if it is set. -/
def Decodes [Runtime] (env : Environment) : Prop :=
  ∀ s, env.textOf? jsonField = some s → ∃ t, Json.readWithin Runtime.jsonDepth s = .ok t

/-- Two environments with the same variables but for those of one setting. -/
def AgreesBut (env : Environment) (field : String) (env' : Environment) : Prop :=
  ∀ name, foldCase name ≠ foldCase (variableFor field) → env.spellings name = env'.spellings name

theorem textOf?_of_spellings {name text : String}
    (alone : env.spellings (variableFor field) = [(name, text)]) : env.textOf? field = some text := by
  rw [textOf?, alone]
  rfl

theorem textOf?_default : ({} : Settings.Lookup).textOf? env field = env.textOf? field := by
  simp [Settings.Lookup.textOf?, textOf?, spellings, variableFor]

theorem value?_eq_ok [Runtime] : ({} : Settings.Lookup).value? env field = .ok v ↔ env.Gives field v := by
  rw [Settings.Lookup.value?, textOf?_default]
  constructor
  · intro found
    split at found
    · next unset => exact Except.ok.inj found ▸ .unset unset
    · next s set =>
      split_ifs at found with decoded
      · split at found
        · contradiction
        · next read => exact Except.ok.inj found ▸ .null set decoded read
        · next t present read => exact Except.ok.inj found ▸ .tree set decoded read present
      · exact Except.ok.inj found ▸ .text set decoded
  · rintro (unset | ⟨set, verbatim⟩ | ⟨set, decoded, read⟩ | ⟨set, decoded, read, present⟩)
    · simp only [unset]
    · simp only [set, if_neg verbatim]
    · simp only [set, if_pos decoded, read]
    · simp only [set, if_pos decoded, read]

theorem Gives.eq [Runtime] {v' : Option Value} (gives : env.Gives field v) (gives' : env.Gives field v') : v = v' :=
  Except.ok.inj ((value?_eq_ok.mpr gives).symm.trans (value?_eq_ok.mpr gives'))

theorem exists_gives [Runtime] (decodes : field = jsonField → env.Decodes) : ∃ v, env.Gives field v := by
  cases set : env.textOf? field with
  | none => exact ⟨none, .unset set⟩
  | some s =>
    by_cases decoded : field = jsonField
    · obtain ⟨t, read⟩ := decodes decoded s (decoded ▸ set)
      by_cases present : t = .null
      · exact ⟨none, .null set decoded (present ▸ read)⟩
      · exact ⟨_, .tree set decoded read present⟩
    · exact ⟨_, .text set decoded⟩

/-- What is said about the variable for the catalog, if it is set and what it holds cannot be read. -/
def refusal? [Runtime] (env : Environment) : Option SettingsError :=
  (env.textOf? jsonField).bind fun s =>
    match Json.readWithin Runtime.jsonDepth s with
    | .ok _ => none
    | .error fault => some (.ofJson jsonField fault)

theorem refusal?_eq_none [Runtime] : env.refusal? = none ↔ env.Decodes := by
  rw [refusal?, Option.bind_eq_none_iff]
  refine forall₂_congr fun s _ => ?_
  cases Json.readWithin Runtime.jsonDepth s <;> simp

theorem refusal?_eq_some [Runtime] {e : SettingsError} : env.refusal? = some e ↔
    ({} : Settings.Lookup).value? env jsonField = .error e := by
  rw [refusal?, Option.bind_eq_some_iff, Settings.value?_eq_error, textOf?_default]
  constructor
  · rintro ⟨s, set, refused⟩
    cases read : Json.readWithin Runtime.jsonDepth s with
    | ok t => simp [read] at refused
    | error fault =>
      simp only [read] at refused
      exact ⟨rfl, s, fault, set, read, (Option.some.inj refused).symm⟩
  · rintro ⟨-, s, fault, set, read, rfl⟩
    exact ⟨s, set, by rw [read]⟩

/-- What is said about it tells JSON for which the stack is too small from anything else that is no JSON. -/
theorem eq_of_refusal? [Runtime] {e : SettingsError} (refused : env.refusal? = some e) :
    e = .decode jsonField ∨ e = .tooDeep jsonField := by
  obtain ⟨-, _, fault, -, -, rfl⟩ := Settings.value?_eq_error.mp (refusal?_eq_some.mp refused)
  cases fault <;> first | exact .inl rfl | exact .inr rfl

/-- A setting whose variables agree is given the same. -/
theorem value?_congr [Runtime] (same : env.spellings (variableFor field) = env'.spellings (variableFor field)) :
    ({} : Settings.Lookup).value? env field = ({} : Settings.Lookup).value? env' field := by
  rw [Settings.Lookup.value?, Settings.Lookup.value?, textOf?_default, textOf?_default, textOf?, textOf?, same]

end Environment

/-- Where the value of a setting comes from: the deployment file, or else the environment, or else nowhere. -/
inductive Field.SettledBy [Runtime] (env : Environment) (entries : List (Value × Value)) (field : Field) : Prop
  | file {v : Value} (given : Value.lookup field.label.name entries = some v)
      (read : field.shape.read .native v = .ok field.value)
  | variable {v : Value} (absent : Value.lookup field.label.name entries = none)
      (set : env.Gives field.label.name (some v)) (read : field.shape.read .native v = .ok field.value)
  | usual (absent : Value.lookup field.label.name entries = none) (unset : env.Gives field.label.name none)
      (fallback : field.fallback = some field.value)

namespace Settings

variable {env env' : Environment} {entries found : List (Value × Value)} {given result : Given} {fields : List String}
  {field key other : String} {v : Value} {l : Lookup} {s : Settings} {e : SettingsError}

theorem Given.find?_cons :
    Given.find? ((key, v) :: given) other = if other = key then some v else given.find? other := by
  by_cases same : other = key
  · simp [Given.find?, same]
  · simp [Given.find?, List.lookup_cons, beq_false_of_ne same, same]

theorem Given.find?_replaced : Given.find? (given.map fun (k, old) => if k = key then (k, v) else (k, old)) other =
    if other = key then (given.find? other).map (fun _ => v) else given.find? other := by
  induction given with
  | nil => simp [Given.find?]
  | cons entry rest ih =>
    obtain ⟨first, old⟩ := entry
    rw [List.map_cons]
    by_cases same : first = key
    · by_cases here : other = key <;> simp [find?_cons, same, here, ih]
    · by_cases here : other = first
      · simp [find?_cons, same, here]
      · simp only [if_neg same, find?_cons, if_neg here, ih]

theorem Given.find?_put : (given.put key v).find? other = if other = key then some v else given.find? other := by
  unfold Given.put
  split_ifs with known same same
  · obtain ⟨old, stands⟩ := Option.isSome_iff_exists.mp known
    have stands : given.find? key = some old := stands
    simp [find?_replaced, same, stands]
  · simp [find?_replaced, same]
  · have absent : given.find? key = none := Option.not_isSome_iff_eq_none.mp known
    rw [Given.find?] at absent
    simp [Given.find?, List.lookup_append, same, absent]
  · simp [Given.find?, List.lookup_append, List.lookup_cons, beq_false_of_ne same]

/-- Of several entries with one key the last one is kept. -/
theorem find?_givenOf (read : givenOf entries given = .ok result) :
    result.find? key = (Value.lookup key entries).or (given.find? key) := by
  induction entries generalizing given with
  | nil =>
    obtain rfl := Except.ok.inj read
    rfl
  | cons entry rest ih =>
    obtain ⟨first, v⟩ := entry
    cases first with
    | text first =>
      rw [ih read, Given.find?_put, Value.lookup]
      cases Value.lookup key rest with
      | some later => rfl
      | none =>
        by_cases same : key = first
        · simp [same]
        · simp [same, Ne.symm same]
    | brokenText =>
      have passed : Value.lookup key ((.brokenText, v) :: rest) = Value.lookup key rest := by
        rw [Value.lookup]
        cases Value.lookup key rest
        · rfl
        · rfl
        · simp
      rw [ih read, passed]
    | _ => contradiction

/-- The keys of a deployment file are names of settings. -/
def Names (entries : List (Value × Value)) : Prop :=
  ∀ entry ∈ entries, ∃ name ∈ names, entry.1 = .text name

/-- What is given stands under names of settings. -/
def Given.Known (given : Given) : Prop :=
  ∀ key ∈ given.map (·.1), key ∈ names

theorem exists_givenOf (named : Names entries) :
    ∃ given, givenOf entries [] = .ok given ∧ given.Known ∧ ∀ key, given.find? key = Value.lookup key entries := by
  cases read : givenOf entries [] with
  | error e =>
    obtain ⟨-, entry, member, strange⟩ := givenOf_eq_error.mp read
    obtain ⟨name, -, key⟩ := named entry member
    simp [key, Value.isKey] at strange
  | ok given =>
    refine ⟨given, rfl, fun key member => ?_, fun key => ?_⟩
    · obtain none | ⟨v, among⟩ := (mem_keys_givenOf read).mp member
      · contradiction
      · obtain ⟨name, known, same⟩ := named _ among
        exact Value.text.inj same ▸ known
    · rw [find?_givenOf read]
      exact Option.or_none

theorem foldCase_name : ∀ name ∈ names, foldCase name = name := by
  decide +kernel

/-- Different settings have different variables. -/
theorem variable_ne : ∀ name ∈ names, ∀ other ∈ names, name ≠ other →
    foldCase (Environment.variableFor name) ≠ foldCase (Environment.variableFor other) := by
  decide +kernel

namespace Given.Known

theorem find?_eq_none (known : given.Known) (strange : key ∉ names) : given.find? key = none := by
  by_contra stands
  exact strange (known key (find?_isSome.mp (Option.isSome_iff_ne_none.mpr stands)))

theorem lookupOf_eq (known : given.Known) : lookupOf given = .ok {} := by
  have caseSensitive : given.find? "_case_sensitive" = none := known.find?_eq_none (by decide)
  have ignoreEmpty : given.find? "_env_ignore_empty" = none := known.find?_eq_none (by decide)
  have variablePrefix : given.find? "_env_prefix" = none := known.find?_eq_none (by decide)
  simp only [lookupOf, caseSensitive, ignoreEmpty, variablePrefix]

theorem consulted_eq [SettingsLibrary] {broken : Bool} (known : given.Known) : consulted env given broken = none := by
  have plain : ∀ name ∈ names, libraryOptions.contains name = false := by decide
  exact consulted_eq_none fun key member => plain key (known key member)

theorem givenKey?_eq (known : given.Known) (field_known : field ∈ names) :
    givenKey? {} given field = if (given.find? field).isSome then some field else none := by
  unfold givenKey?
  split_ifs with stands
  · rfl
  · contradiction
  · rw [Option.map_eq_none_iff, List.find?_eq_none]
    rintro ⟨key, v⟩ member
    have among : key ∈ given.map (·.1) := List.mem_map_of_mem member
    simp only [foldCase_name key (known key among), beq_iff_eq]
    rintro rfl
    exact stands (find?_isSome.mpr among)

theorem isKnownKey (known : given.Known) : ∀ key ∈ given.map (·.1), isKnownKey {} key = true := by
  intro key member
  have plain := foldCase_name key (known key member)
  simp [Settings.isKnownKey, plain, known key member]

end Given.Known

/-- What is collected first for one setting, and then for the others. -/
theorem collect_cons [Runtime] (collected : collect l env given (field :: fields) = .ok found) :
    ∃ v others, l.value? env field = .ok v ∧ collect l env given fields = .ok others ∧
      found = match (givenKey? l given field).elim v given.find? with
        | some w => (.text field, w) :: others
        | none => others := by
  obtain ⟨v, first, later⟩ := bind_eq_ok collected
  obtain ⟨others, rest, last⟩ := bind_eq_ok later
  refine ⟨v, others, first, rest, ?_⟩
  dsimp only at last
  cases key : givenKey? l given field with
  | none =>
    simp only [key] at last
    cases v <;> exact (Except.ok.inj last).symm
  | some key' =>
    simp only [key] at last
    simp only [Option.elim]
    cases stands : given.find? key' <;> simp only [stands] at last <;> exact (Except.ok.inj last).symm

theorem lookup_collect_of_not_mem [Runtime] (collected : collect l env given fields = .ok found) (absent : field ∉ fields) :
    Value.lookup field found = none := by
  induction fields generalizing found with
  | nil =>
    obtain rfl := Except.ok.inj collected
    rfl
  | cons first rest ih =>
    obtain ⟨v, others, -, remaining, rfl⟩ := collect_cons collected
    obtain ⟨other, absent⟩ := not_or.mp (List.mem_cons.not.mp absent)
    split
    · simp [Value.lookup, ih remaining absent, Ne.symm other]
    · exact ih remaining absent

/-- What is collected for a setting stands in the deployment file, or else in the environment. -/
theorem lookup_collect [Runtime] (distinct : fields.Nodup) (collected : collect l env given fields = .ok found)
    (member : field ∈ fields) : ∃ v, l.value? env field = .ok v ∧
      Value.lookup field found = (givenKey? l given field).elim v given.find? := by
  induction fields generalizing found with
  | nil => contradiction
  | cons first rest ih =>
    obtain ⟨fresh, distinct⟩ := List.nodup_cons.mp distinct
    obtain ⟨v, others, value, remaining, rfl⟩ := collect_cons collected
    rcases List.mem_cons.mp member with rfl | later
    · refine ⟨v, value, ?_⟩
      have none := lookup_collect_of_not_mem remaining fresh
      split
      · next w stands => simp [Value.lookup, none, stands]
      · next stands => rw [stands, none]
    · obtain ⟨w, value', stands⟩ := ih distinct remaining later
      refine ⟨w, value', stands ▸ ?_⟩
      have other : first ≠ field := fun same => fresh (same ▸ later)
      split
      · rw [Value.lookup]
        cases Value.lookup field others <;> simp [other]
      · rfl

theorem exists_collect [Runtime] (values : ∀ field ∈ fields, ∃ v, l.value? env field = .ok v) :
    ∃ found, collect l env given fields = .ok found := by
  induction fields with
  | nil => exact ⟨[], rfl⟩
  | cons field rest ih =>
    obtain ⟨⟨v, value⟩, values⟩ := List.forall_mem_cons.mp values
    obtain ⟨others, remaining⟩ := ih values
    rw [collect, value, remaining]
    simp only [bind, Except.bind]
    split <;> exact ⟨_, rfl⟩

/-- Two environments that give the same, or something where the deployment file has its own, are collected alike. -/
theorem collect_congr [Runtime] (agree : ∀ field ∈ fields, l.value? env field = l.value? env' field ∨
    (∃ key, givenKey? l given field = some key) ∧ (∃ v, l.value? env field = .ok v) ∧
      ∃ v, l.value? env' field = .ok v) :
    collect l env given fields = collect l env' given fields := by
  induction fields with
  | nil => rfl
  | cons field rest ih =>
    obtain ⟨first, rest_agree⟩ := List.forall_mem_cons.mp agree
    rw [collect, collect, ih rest_agree]
    rcases first with same | ⟨⟨key, given⟩, ⟨v, value⟩, ⟨v', value'⟩⟩
    · rw [same]
    · rw [value, value']
      simp only [given]
      rfl

/-- The settings in what has been put together, if nothing strange is given. -/
def settle (entries : List (Value × Value)) : Except SettingsError Settings :=
  match shape.read .native (.map entries) with
  | .ok s => .ok s
  | .error problems =>
    if problems.any (·.cause == .digits) then .error .digits
    else .error (.invalid { title := shape.title, problems })

theorem accept_clean : accept entries [] false = settle entries := by
  simp only [accept, settle]
  cases shape.read .native (.map entries) <;> simp

/-- Where all keys are known, the settings result from what is given for each of them. -/
theorem ofGiven_of_known [Runtime] [SettingsLibrary] (whole : given.find? "__pydantic_self__" = none)
    (silent : consulted env given false = none) (asked : lookupOf given = .ok l)
    (known : ∀ key ∈ given.map (·.1), isKnownKey l key = true) :
    ofGiven env given false = collect l env given names >>= settle := by
  have clean : (given.map (·.1)).filter (!isKnownKey l ·) = [] :=
    List.filter_eq_nil_iff.mpr fun key member => by simp [known key member]
  rw [ofGiven_of_silent silent, whole, if_neg (by simp), asked]
  refine congrArg (collect l env given names >>= ·) (funext fun entries => ?_)
  rw [clean, accept_clean]

theorem ofGiven_eq [Runtime] [SettingsLibrary] (known : given.Known) :
    ofGiven env given false = collect {} env given names >>= settle :=
  ofGiven_of_known (known.find?_eq_none (by decide)) known.consulted_eq known.lookupOf_eq known.isKnownKey

theorem ofEntries_eq [Runtime] [SettingsLibrary] (named : Names entries) : ∃ given, given.Known ∧
    (∀ key, given.find? key = Value.lookup key entries) ∧ ∀ env, ofEntries env entries = ofGiven env given false := by
  obtain ⟨given, read, known, stands⟩ := exists_givenOf named
  refine ⟨given, known, stands, fun env => ?_⟩
  unfold ofEntries
  rw [read]
  refine congrArg (ofGiven env given) (List.any_eq_false.mpr fun entry member => ?_)
  obtain ⟨name, -, key⟩ := named entry member
  simp [key, Value.isBroken]

theorem settle_eq_ok : settle entries = .ok s ↔ shape.read .native (.map entries) = .ok s := by
  unfold settle
  cases shape.read .native (.map entries) with
  | ok s' => simp
  | error problems =>
    simp only [reduceCtorEq, iff_false]
    split_ifs <;> simp

theorem label_of_filled : ∀ field ∈ shape.filled s,
    field.label.documentName = field.label.name ∧ field.label.name ∈ names := by
  simp only [shape, Shape.filled, Fields.filled, List.forall_mem_cons, Label.plain]
  decide

/-- A setting comes from the entry that has been put together for it, whether out of the file or the environment. -/
theorem comesFrom_iff [Runtime] {field : Field} {v : Option Value} (plain : field.label.documentName = field.label.name)
    (set : env.Gives field.label.name v)
    (stands : Value.lookup field.label.name found = (Value.lookup field.label.name entries).or v) :
    field.ComesFrom .native found ↔ field.SettledBy env entries := by
  have lookup : field.label.find? found = (Value.lookup field.label.name found).map (field.label.name, ·) := by
    rw [Label.find?, plain]
    cases Value.lookup field.label.name found <;> rfl
  rw [Field.ComesFrom, lookup, stands]
  -- The file comes before the environment, and the default is asked only where both are silent.
  cases given : Value.lookup field.label.name entries with
  | some w =>
    constructor
    · exact .file given
    · rintro (⟨given', read⟩ | ⟨absent, -, -⟩ | ⟨absent, -, -⟩)
      · exact Option.some.inj (given.symm.trans given') ▸ read
      · simp [given] at absent
      · simp [given] at absent
  | none =>
    cases v with
    | some w =>
      constructor
      · exact .variable given set
      · rintro (⟨given', -⟩ | ⟨-, set', read⟩ | ⟨-, unset, -⟩)
        · simp [given] at given'
        · exact Option.some.inj (set.eq set') ▸ read
        · exact absurd (set.eq unset) (by simp)
    | none =>
      constructor
      · exact .usual given set
      · rintro (⟨given', -⟩ | ⟨-, set', -⟩ | ⟨-, -, fallback⟩)
        · simp [given] at given'
        · exact absurd (set.eq set') (by simp)
        · exact fallback

/-- A deployment is settled just when each setting gets its value from the file, from the environment or by default. -/
theorem ofEntries_eq_ok [Runtime] [SettingsLibrary] (named : Names entries) (decodes : env.Decodes) :
    ofEntries env entries = .ok s ↔ ∀ field ∈ shape.filled s, field.SettledBy env entries := by
  obtain ⟨given, known, stands, opened⟩ := ofEntries_eq named
  obtain ⟨found, collected⟩ : ∃ found, collect {} env given names = .ok found :=
    exists_collect fun field _ => by
      obtain ⟨v, gives⟩ := Environment.exists_gives fun _ => decodes
      exact ⟨v, Environment.value?_eq_ok.mpr gives⟩
  have settled : ofEntries env entries = settle found := by
    rw [opened, ofGiven_eq known, collected]
    rfl
  rw [settled, settle_eq_ok]
  refine Shape.read_map_eq_ok.trans (forall₂_congr fun field member => ?_)
  obtain ⟨plain, among⟩ := label_of_filled field member
  obtain ⟨v, value, lookup⟩ := lookup_collect (by decide) collected among
  refine comesFrom_iff plain (Environment.value?_eq_ok.mp value) ?_
  rw [lookup, known.givenKey?_eq among, ← stands]
  cases here : given.find? field.label.name <;> simp [here]

end Settings
end AgentConfig
