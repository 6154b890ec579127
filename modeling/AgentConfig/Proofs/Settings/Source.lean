import AgentConfig.CommandLine.Run
import AgentConfig.Proofs.Except
import AgentConfig.Proofs.Runtime

namespace AgentConfig

/-- A key that may stand in a deployment file: a text, or what is left of one with half of a surrogate pair. -/
def Value.isKey : Value → Bool
  | .text _ | .brokenText => true
  | _ => false

/-- A key that is an option of the settings library. -/
def Value.isLibraryOption : Value → Bool
  | .text key => Settings.libraryOptions.contains key
  | _ => false

/-- Whether an option of the settings library stands among the keys of a mapping. -/
def Value.asksLibrary : Value → Bool
  | .map entries => entries.any (·.1.isLibraryOption)
  | _ => false

@[simp] theorem Value.isLibraryOption_arranged [Runtime] (key : Value) :
    key.arranged.isLibraryOption = key.isLibraryOption := by
  cases key <;> rfl

@[simp] theorem Value.asksLibrary_arranged [Runtime] (v : Value) : v.arranged.asksLibrary = v.asksLibrary := by
  have options (entries : List (Value × Value)) :
      (entriesArranged entries).any (·.1.isLibraryOption) = entries.any (·.1.isLibraryOption) := by
    induction entries with
    | nil => rfl
    | cons entry rest ih => simp [entriesArranged, ih]
  cases v with
  | map entries => exact options entries
  | _ => rfl

namespace Settings

variable {env : Environment} {entries : List (Value × Value)} {given found : Given} {broken : Bool} {e : SettingsError}
  {l : Lookup} {key : String} {v : Value} {s : Settings}

theorem find?_isSome : (given.find? key).isSome ↔ key ∈ given.map (·.1) := by
  rw [Given.find?, ← Option.ne_none_iff_isSome, ne_eq, List.lookup_eq_none_iff]
  simp

theorem mem_keys_put {other : String} :
    other ∈ (given.put key v).map (·.1) ↔ other = key ∨ other ∈ given.map (·.1) := by
  have same {f : String × Value → String × Value} (kept : ∀ entry, (f entry).1 = entry.1) :
      (given.map f).map (·.1) = given.map (·.1) := by
    rw [List.map_map]
    exact List.map_congr_left fun entry _ => kept entry
  unfold Given.put
  split_ifs with known
  · rw [same fun entry => by dsimp only; split_ifs <;> rfl]
    refine ⟨.inr, ?_⟩
    rintro (rfl | member)
    · exact find?_isSome.mp known
    · exact member
  · simp [or_comm]

/-- Entries are refused for a key that is no text, and for nothing else. -/
theorem givenOf_eq_error : givenOf entries given = .error e ↔
    e = .key ∧ ∃ entry ∈ entries, entry.1.isKey = false := by
  induction entries generalizing given with
  | nil => simp [givenOf]
  | cons entry rest ih =>
    obtain ⟨key, v⟩ := entry
    cases key with
    | text key => simp [givenOf, ih, Value.isKey]
    | brokenText => simp [givenOf, ih, Value.isKey]
    | _ => exact ⟨fun same => ⟨(Except.error.inj same).symm, _, List.mem_cons_self, rfl⟩, fun ⟨same, _⟩ => by rw [same]; rfl⟩

/-- The keys that are given are those of the entries. -/
theorem mem_keys_givenOf (read : givenOf entries given = .ok found) :
    key ∈ found.map (·.1) ↔ key ∈ given.map (·.1) ∨ ∃ v, (.text key, v) ∈ entries := by
  induction entries generalizing given with
  | nil =>
    obtain rfl := Except.ok.inj read
    simp
  | cons entry rest ih =>
    obtain ⟨first, v⟩ := entry
    cases first with
    | text first =>
      rw [ih read, mem_keys_put]
      simp only [List.mem_cons, Prod.mk.injEq, Value.text.injEq, exists_or, exists_and_left, exists_eq, and_true]
      tauto
    | brokenText => simp [ih read]
    | _ => contradiction

theorem lookupOf_eq_error (failed : lookupOf given = .error e) : ∃ field, e = .lookup field := by
  unfold lookupOf at failed
  dsimp only at failed
  split at failed <;> first | contradiction | exact ⟨_, (Except.error.inj failed).symm⟩

theorem accept_eq_error {strange : List String} (failed : accept entries strange broken = .error e) :
    e = .digits ∨ ∃ i, e = .invalid i := by
  unfold accept at failed
  dsimp only at failed
  split at failed <;> split_ifs at failed <;> first
    | exact .inl (Except.error.inj failed).symm
    | exact .inr ⟨_, (Except.error.inj failed).symm⟩

theorem reported_of_accept {strange : List String} (failed : accept entries strange broken = .error e) :
    e.isReported = true := by
  obtain rfl | ⟨i, rfl⟩ := accept_eq_error failed <;> rfl

theorem ofJson_unreported {field : String} {fault : Json.Error} :
    (SettingsError.ofJson field fault).isReported = false ↔ fault = .tooDeep := by
  cases fault <;> simp [SettingsError.ofJson, SettingsError.isReported]

/-- An option of the settings library stands among the keys of a deployment file. -/
def AsksLibrary (text : String) : Prop :=
  ∃ v, Yaml.read text = .ok v ∧ v.asksLibrary = true

theorem mem_of_textOf? {field s : String} (set : l.textOf? env field = some s) : ∃ name, (name, s) ∈ env := by
  obtain ⟨entry, last, rfl⟩ := Option.map_eq_some_iff.mp set
  exact ⟨entry.1, (List.mem_filter.mp (List.mem_of_getLast? last)).1⟩

/-- The entries of a deployment file. A file that says nothing has none. -/
def deployed? (v : Value) : Option (List (Value × Value)) :=
  if v.isVoid then some []
  else
    match v with
    | .map entries => some entries
    | _ => none

@[simp] theorem deployed?_map : deployed? (.map entries) = some entries := by
  cases entries <;> rfl

theorem eq_map_of_deployed? (deployed : deployed? v = some entries) : v = .map entries ∨ entries = [] := by
  unfold deployed? at deployed
  split_ifs at deployed
  · exact .inr (Option.some.inj deployed).symm
  · cases v with
    | map _ => exact .inl (congrArg _ (Option.some.inj deployed))
    | _ => contradiction

theorem consulted_eq_none [SettingsLibrary] (plain : ∀ key ∈ given.map (·.1), libraryOptions.contains key = false) :
    consulted env given broken = none := by
  refine if_neg fun asked => ?_
  obtain ⟨entry, member, option⟩ := List.any_eq_true.mp asked
  exact Bool.false_ne_true ((plain _ (List.mem_map_of_mem member)).symm.trans option)

theorem consulted_gathered [SettingsLibrary] (read : givenOf entries [] = .ok given)
    (plain : ∀ entry ∈ entries, entry.1.isLibraryOption = false) : consulted env given broken = none := by
  refine consulted_eq_none fun key member => ?_
  obtain none | ⟨v, among⟩ := (mem_keys_givenOf read).mp member
  · contradiction
  · exact plain _ among

theorem ofEntries_of_givenOf [Runtime] [SettingsLibrary] (read : givenOf entries [] = .ok given) :
    ofEntries env entries = ofGiven env given (entries.any (·.1.isBroken)) := by
  rw [ofEntries, read]
  rfl

theorem ofEntries_of_refused [Runtime] [SettingsLibrary] (read : givenOf entries [] = .error e) :
    ofEntries env entries = .error e := by
  rw [ofEntries, read]
  rfl

/-- Where the settings library has no answer, the settings are put together here. -/
theorem ofGiven_of_silent [Runtime] [SettingsLibrary] (silent : consulted env given broken = none) :
    ofGiven env given broken =
      if (given.find? "__pydantic_self__").isSome then .error .wholeKey
      else lookupOf given >>= fun l => collect l env given names >>= fun entries =>
        accept entries ((given.map (·.1)).filter (!isKnownKey l ·)) broken := by
  rw [ofGiven, silent]

section

variable [Runtime]

/-- Only a variable that should hold JSON can be at fault, and only for what it holds. -/
theorem value?_eq_error {field : String} : l.value? env field = .error e ↔ field = jsonField ∧
    ∃ s fault, l.textOf? env field = some s ∧ Json.readWithin Runtime.jsonDepth s = .error fault ∧
      e = .ofJson field fault := by
  unfold Lookup.value?
  constructor
  · intro failed
    split at failed
    · contradiction
    · next s set =>
      split_ifs at failed with decoded
      split at failed
      · next fault read => exact ⟨decoded, s, fault, set, read, (Except.error.inj failed).symm⟩
      · contradiction
      · contradiction
  · rintro ⟨decoded, s, fault, set, read, rfl⟩
    simp only [set, if_pos decoded, read]

/-- What is at fault when settings are put together is that variable. -/
theorem collect_eq_error {fields : List String} : collect l env given fields = .error e ↔
    jsonField ∈ fields ∧ l.value? env jsonField = .error e := by
  induction fields with
  | nil => exact iff_of_false nofun fun ⟨member, _⟩ => absurd member List.not_mem_nil
  | cons field rest ih =>
    rw [List.mem_cons]
    constructor
    · intro failed
      rcases bind_eq_error failed with first | ⟨_, -, later⟩
      · obtain ⟨rfl, -⟩ := value?_eq_error.mp first
        exact ⟨.inl rfl, first⟩
      · rcases bind_eq_error later with others | ⟨_, -, last⟩
        · exact ⟨.inr (ih.mp others).1, (ih.mp others).2⟩
        · dsimp only at last
          split at last <;> contradiction
    · rintro ⟨member, failed⟩
      rw [collect]
      cases first : l.value? env field with
      | error e' =>
        obtain ⟨rfl, -⟩ := value?_eq_error.mp first
        obtain rfl := Except.error.inj (first.symm.trans failed)
        rfl
      | ok v =>
        have later : jsonField ∈ rest := member.resolve_left fun same => by simp [← same, failed] at first
        rw [ih.mpr ⟨later, failed⟩]
        rfl

end

variable {text : String}

theorem asksLibrary_iff [Runtime] (loaded : Yaml.load text = .ok v) : AsksLibrary text ↔ v.asksLibrary = true := by
  obtain ⟨written, read, rfl⟩ := Yaml.load_eq_ok.mp loaded
  simp [AsksLibrary, read]

section

variable [Runtime] [SettingsLibrary]

/-- How given settings break off a run: by the key that stands for the settings as a whole, by an end that the settings
library makes, or by JSON in the environment for which the stack is too small. -/
inductive Given.BreaksOff (env : Environment) (given : Given) (broken : Bool) : SettingsError → Prop
  | wholeKey (whole : "__pydantic_self__" ∈ given.map (·.1)) : BreaksOff env given broken .wholeKey
  | halted {halt : Halt} (single : "__pydantic_self__" ∉ given.map (·.1))
      (answer : consulted env given broken = some (.error halt)) (hidden : halt.isReported = false) :
      BreaksOff env given broken (.halted halt)
  | tooDeep {l : Lookup} {s : String} (single : "__pydantic_self__" ∉ given.map (·.1))
      (silent : consulted env given broken = none) (asked : lookupOf given = .ok l)
      (set : l.textOf? env jsonField = some s) (deep : Json.readWithin Runtime.jsonDepth s = .error .tooDeep) :
      BreaksOff env given broken (.tooDeep jsonField)

/-- Without a file only JSON that is nested too deep breaks off a run. -/
theorem breaksOff_nil : Given.BreaksOff env [] false e ↔ e = .tooDeep jsonField ∧
    ∃ s, ({} : Lookup).textOf? env jsonField = some s ∧ Json.readWithin Runtime.jsonDepth s = .error .tooDeep := by
  constructor
  · rintro (whole | ⟨single, answer, hidden⟩ | ⟨single, silent, asked, set, deep⟩)
    · contradiction
    · simp [consulted] at answer
    · obtain rfl := Except.ok.inj asked
      exact ⟨rfl, _, set, deep⟩
  · rintro ⟨rfl, s, set, deep⟩
    exact .tooDeep (by simp) rfl rfl set deep

/-- Given settings are refused with a report, unless they break off the run. -/
theorem ofGiven_unreported : ofGiven env given broken = .error e ∧ e.isReported = false ↔
    given.BreaksOff env broken e := by
  unfold ofGiven
  constructor
  · rintro ⟨failed, hidden⟩
    split_ifs at failed with whole
    · obtain rfl := Except.error.inj failed
      exact .wholeKey (find?_isSome.mp whole)
    · have single : "__pydantic_self__" ∉ given.map (·.1) := fun member => whole (find?_isSome.mpr member)
      split at failed
      · next halt answer =>
        obtain rfl := Except.error.inj failed
        exact .halted single answer hidden
      · simp [reported_of_accept failed] at hidden
      · next silent =>
        rcases bind_eq_error failed with first | ⟨l, asked, later⟩
        · obtain ⟨field, rfl⟩ := lookupOf_eq_error first
          contradiction
        · rcases bind_eq_error later with collected | ⟨_, -, last⟩
          · obtain ⟨-, s, fault, set, read, rfl⟩ := value?_eq_error.mp (collect_eq_error.mp collected).2
            obtain rfl := ofJson_unreported.mp hidden
            exact .tooDeep single silent asked set read
          · simp [reported_of_accept last] at hidden
  · rintro (whole | ⟨single, answer, hidden⟩ | ⟨single, silent, asked, set, deep⟩)
    · exact ⟨if_pos (find?_isSome.mpr whole), rfl⟩
    · rw [if_neg (mt find?_isSome.mp single), answer]
      exact ⟨rfl, hidden⟩
    · have refused : collect _ env given names = .error (.tooDeep jsonField) :=
        collect_eq_error.mpr ⟨by decide, value?_eq_error.mpr ⟨rfl, _, _, set, deep, rfl⟩⟩
      rw [if_neg (mt find?_isSome.mp single), silent, asked]
      simp only [bind, Except.bind, refused, true_and]
      rfl

/-- Entries are refused with a report, unless a key is no text or what is given breaks off the run. -/
theorem ofEntries_unreported : ofEntries env entries = .error e ∧ e.isReported = false ↔
    (e = .key ∧ ∃ entry ∈ entries, entry.1.isKey = false) ∨
    ∃ given, givenOf entries [] = .ok given ∧ given.BreaksOff env (entries.any (·.1.isBroken)) e := by
  unfold ofEntries
  cases read : givenOf entries [] with
  | error e' =>
    obtain ⟨rfl, strange⟩ := givenOf_eq_error.mp read
    simp only [bind, Except.bind, Except.error.injEq, reduceCtorEq, false_and, exists_false, or_false]
    constructor
    · rintro ⟨rfl, -⟩
      exact ⟨rfl, strange⟩
    · rintro ⟨rfl, -⟩
      exact ⟨rfl, rfl⟩
  | ok given =>
    have keyed : ¬ ∃ entry ∈ entries, entry.1.isKey = false := fun strange => by
      have refused : givenOf entries [] = .error .key := givenOf_eq_error.mpr ⟨rfl, strange⟩
      simp [read] at refused
    simp only [bind, Except.bind, keyed, and_false, false_or, Except.ok.injEq, exists_eq_left']
    exact ofGiven_unreported

theorem ofYaml_of_load (loaded : Yaml.load text = .ok v) : ofYaml env text =
    match deployed? v with
    | some entries => ofEntries env entries
    | none => .error .notMapping := by
  rw [ofYaml, loaded]
  unfold deployed?
  by_cases void : v.isVoid
  · simp only [void, if_true]
  · dsimp only
    rw [if_neg void, if_neg void]
    cases v <;> rfl

theorem ofYaml_map (loaded : Yaml.load text = .ok (.map entries)) : ofYaml env text = ofEntries env entries := by
  rw [ofYaml_of_load loaded, deployed?_map]

/-- What makes a deployment file break off a run: a scalar that cannot be made, in a way that is not reported, a key that
is no text, or what is given for the settings. -/
inductive Unreported (env : Environment) (text : String) : SettingsError → Prop
  | scalar {fault : Yaml.ScalarFault} (read : Yaml.read text = .error (.scalar fault)) (hidden : fault.isReported = false) :
      Unreported env text (.yaml (.scalar fault))
  | key {entries : List (Value × Value)} (loaded : Yaml.load text = .ok (.map entries))
      (strange : ∃ entry ∈ entries, entry.1.isKey = false) : Unreported env text .key
  | given {v : Value} {entries : List (Value × Value)} {given : Given} {e : SettingsError}
      (loaded : Yaml.load text = .ok v) (deployed : deployed? v = some entries)
      (gathered : givenOf entries [] = .ok given) (breaks : given.BreaksOff env (entries.any (·.1.isBroken)) e) :
      Unreported env text e

theorem ofYaml_unreported : ofYaml env text = .error e ∧ e.isReported = false ↔ Unreported env text e := by
  constructor
  · rintro ⟨failed, hidden⟩
    cases loaded : Yaml.load text with
    | error e' =>
      rw [ofYaml, loaded] at failed
      obtain rfl := Except.error.inj failed
      cases e' with
      | scalar fault => exact .scalar (Yaml.load_eq_error.mp loaded) hidden
      | _ => contradiction
    | ok v =>
      rw [ofYaml_of_load loaded] at failed
      cases deployed : deployed? v with
      | none =>
        simp only [deployed] at failed
        obtain rfl := Except.error.inj failed
        contradiction
      | some entries =>
        simp only [deployed] at failed
        rcases ofEntries_unreported.mp ⟨failed, hidden⟩ with ⟨rfl, strange⟩ | ⟨given, gathered, breaks⟩
        · -- A key stands in a mapping that is not empty.
          obtain rfl | rfl := eq_map_of_deployed? deployed
          · exact .key loaded strange
          · obtain ⟨entry, member, -⟩ := strange
            exact absurd member List.not_mem_nil
        · exact .given loaded deployed gathered breaks
  · rintro (⟨read, hidden⟩ | ⟨loaded, strange⟩ | ⟨loaded, deployed, gathered, breaks⟩)
    · exact ⟨by rw [ofYaml, Yaml.load_eq_error.mpr read], hidden⟩
    · rw [ofYaml_map loaded]
      exact ofEntries_unreported.mpr (.inl ⟨rfl, strange⟩)
    · rw [ofYaml_of_load loaded, deployed]
      exact ofEntries_unreported.mpr (.inr ⟨_, gathered, breaks⟩)

/-- Only if it is asked does the settings library put an end to everything. -/
theorem ofEntries_halted {halt : Halt} (failed : ofEntries env entries = .error (.halted halt)) :
    ∃ entry ∈ entries, entry.1.isLibraryOption = true := by
  by_contra none
  have plain : ∀ entry ∈ entries, entry.1.isLibraryOption = false := by simpa using none
  rcases bind_eq_error failed with strange | ⟨given, read, refused⟩
  · exact absurd (givenOf_eq_error.mp strange).1 nofun
  · rw [ofGiven_of_silent (consulted_gathered read plain)] at refused
    split_ifs at refused
    · exact absurd (Except.error.inj refused) nofun
    · rcases bind_eq_error refused with asked | ⟨l, -, later⟩
      · obtain ⟨field, same⟩ := lookupOf_eq_error asked
        contradiction
      · rcases bind_eq_error later with collected | ⟨_, -, last⟩
        · obtain ⟨-, _, fault, -, -, same⟩ := value?_eq_error.mp (collect_eq_error.mp collected).2
          cases fault <;> contradiction
        · obtain same | ⟨i, same⟩ := accept_eq_error last <;> contradiction

theorem asksLibrary_of_halted {halt : Halt} (failed : ofYaml env text = .error (.halted halt)) : AsksLibrary text := by
  cases loaded : Yaml.load text with
  | error e => simp [ofYaml, loaded] at failed
  | ok v =>
    rw [ofYaml_of_load loaded] at failed
    cases deployed : deployed? v with
    | none => simp [deployed] at failed
    | some entries =>
      rw [deployed] at failed
      obtain ⟨entry, member, option⟩ := ofEntries_halted failed
      obtain rfl | rfl := eq_map_of_deployed? deployed
      · exact (asksLibrary_iff loaded).mpr (List.any_eq_true.mpr ⟨entry, member, option⟩)
      · exact absurd member List.not_mem_nil

end

variable {first second : Runtime} {library library' : SettingsLibrary}

theorem value?_of_depth (depth : first.jsonDepth = second.jsonDepth) (l : Lookup) (env : Environment) (field : String) :
    @Lookup.value? first l env field = @Lookup.value? second l env field := by
  unfold Lookup.value?
  rw [show @Runtime.jsonDepth first = @Runtime.jsonDepth second from depth]

theorem collect_of_depth (depth : first.jsonDepth = second.jsonDepth) (fields : List String) :
    @collect first l env given fields = @collect second l env given fields := by
  induction fields with
  | nil => rfl
  | cons field rest ih => rw [@collect.eq_2 first, @collect.eq_2 second, value?_of_depth depth, ih]

/-- Entries come to the same in two processes whose stacks admit the same JSON, if the settings library is not asked. -/
theorem ofEntries_alike (depth : first.jsonDepth = second.jsonDepth)
    (plain : ∀ entry ∈ entries, entry.1.isLibraryOption = false) :
    @ofEntries first library env entries = @ofEntries second library' env entries := by
  cases read : givenOf entries [] with
  | error e =>
    rw [@ofEntries_of_refused env entries e first library read, @ofEntries_of_refused env entries e second library' read]
  | ok given =>
    have opened := @ofEntries_of_givenOf env entries given first library read
    have opened' := @ofEntries_of_givenOf env entries given second library' read
    have silent := @consulted_gathered env entries given (entries.any (·.1.isBroken)) library read plain
    have silent' := @consulted_gathered env entries given (entries.any (·.1.isBroken)) library' read plain
    rw [opened, opened', @ofGiven_of_silent _ _ _ first library silent, @ofGiven_of_silent _ _ _ second library' silent']
    simp only [collect_of_depth depth]

/-- So does a deployment file that they see as the same. -/
theorem ofYaml_alike (depth : first.jsonDepth = second.jsonDepth) (alike : @Yaml.load first text = @Yaml.load second text)
    (silent : ¬ AsksLibrary text) : @ofYaml first library env text = @ofYaml second library' env text := by
  cases loaded : @Yaml.load first text with
  | error e => rw [@ofYaml.eq_1 first, @ofYaml.eq_1 second, ← alike, loaded]
  | ok v =>
    rw [@ofYaml_of_load env v text first library loaded, @ofYaml_of_load env v text second library' (alike ▸ loaded)]
    cases deployed : deployed? v with
    | none => rfl
    | some entries =>
      refine ofEntries_alike depth fun entry member => ?_
      obtain rfl | rfl := eq_map_of_deployed? deployed
      · have plain : Value.asksLibrary (.map entries) = false := by
          simpa using mt (@asksLibrary_iff _ text first loaded).mpr silent
        simpa using List.any_eq_false.mp plain entry member
      · exact absurd member List.not_mem_nil

end Settings
end AgentConfig
