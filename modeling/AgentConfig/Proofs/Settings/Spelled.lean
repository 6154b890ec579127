import AgentConfig.Proofs.Document.JsonRoundTrip
import AgentConfig.Proofs.Document.Version
import AgentConfig.Proofs.Settings.Environment

namespace AgentConfig

/-- The text of a variable for written data: texts as they are, integers in decimal and lists as JSON. -/
inductive Tree.SpelledBy [Runtime] : Tree → String → Prop
  | text (s : String) : SpelledBy (.text s) s
  | int (n : Int) : SpelledBy (.int n) (String.ofList (Json.writeInt n))
  | list {items : List Tree} {s : String} (read : Json.readWithin Runtime.jsonDepth s = .ok (.list items)) :
      SpelledBy (.list items) s

/-- Every setting has one variable, in any letter case, and its text stands for what is in the settings. The records
in it may have the keys of documents or those of the program. -/
def Environment.Spells [Runtime] (env : Environment) (s : Settings) : Prop :=
  ∀ field ∈ Settings.shape.filled s, ∃ name text naming t,
    env.spellings (variableFor field.label.name) = [(name, text)] ∧
      field.shape.write naming field.value = some t ∧ t.SpelledBy text

namespace Settings

variable {env env' : Environment} {s : Settings} {field : Field} {naming : Naming} {t : Tree}

theorem sound : shape.Sound := by
  simp [shape, Shape.Sound, Fields.Sound, Fields.labels, Label.Apart, Label.plain, Release.sound, Topology.shape,
    TlsMode.shape, AuthMode.shape]

/-- The field for the number of members. -/
def membersField (s : Settings) : Field where
  Carrier := Int
  label := .plain "members"
  shape := .int
  fallback := some 3
  value := s.members

/-- The field for the releases that are listed besides. -/
def catalogField (s : Settings) : Field where
  Carrier := List Release
  label := .plain jsonField
  shape := .list Release.shape
  fallback := some []
  value := s.releases

theorem membersField_mem : s.membersField ∈ shape.filled s :=
  List.mem_cons_of_mem _ List.mem_cons_self

theorem catalogField_mem : s.catalogField ∈ shape.filled s := by
  simp [shape, Shape.filled, Fields.filled, catalogField, jsonField]

/-- All settings are texts but for the number of members and the catalog. -/
theorem kind_of_filled (s : Settings) :
    ∀ field ∈ shape.filled s, ∀ naming t, field.shape.write naming field.value = some t →
      field = s.membersField ∨ field = s.catalogField ∨ field.label.name ≠ jsonField ∧ ∃ text, t = .text text := by
  simp only [shape, Shape.filled, Fields.filled, List.forall_mem_cons, List.not_mem_nil, false_implies, implies_true,
    and_true]
  and_intros
  all_goals
    intro naming t written
    first
    | exact .inl rfl
    | exact .inr (.inl rfl)
    | exact .inr (.inr ⟨by decide, _, (Option.some.inj written).symm⟩)

theorem membersField_verbatim (s : Settings) : s.membersField.label.name ≠ jsonField :=
  (by decide : "members" ≠ jsonField)

/-- The number of members is read back from its text, if that is short. -/
theorem read_members (s : Settings) :
    s.membersField.shape.read .native (.text (String.ofList (Json.writeInt s.members))) = .ok s.members ↔
      IsShort s.members := by
  have opened : s.membersField.shape.read .native (.text (String.ofList (Json.writeInt s.members))) =
      NumberText.readInt (String.ofList (Json.writeInt s.members)).toList := rfl
  rw [opened, String.toList_ofList, NumberText.readInt_writeInt, IsShort]
  split_ifs with short
  · exact iff_of_true rfl short
  · exact iff_of_false (by simp [Checked.fail]) short

section

variable [Runtime] (spelled : env.Spells s)

include spelled

theorem decodes_of_spells : env.Decodes := by
  intro text set
  obtain ⟨name, text', naming, t, alone, written, stands⟩ := spelled _ s.catalogField_mem
  have set' : env.textOf? jsonField = some text' := Environment.textOf?_of_spellings alone
  obtain rfl := Option.some.inj (set.symm.trans set')
  obtain ⟨items, -, rfl⟩ := Option.map_eq_some_iff.mp written
  cases stands with
  | list found => exact ⟨_, found⟩

/-- In a spelled environment every setting is found, the number of members if it is short. -/
theorem settledBy_of_spells (member : field ∈ shape.filled s) (short : IsShort s.members) : field.SettledBy env [] := by
  obtain ⟨name, text, naming, t, alone, written, stands⟩ := spelled field member
  have set := Environment.textOf?_of_spellings alone
  have read := Shape.read_filled .native sound (by decide) member written
  rcases kind_of_filled s field member naming t written with rfl | rfl | ⟨verbatim, w, rfl⟩
  · obtain rfl := Option.some.inj written
    cases stands
    exact .variable rfl (.text set s.membersField_verbatim) (s.read_members.mpr short)
  · obtain ⟨items, -, rfl⟩ := Option.map_eq_some_iff.mp written
    cases stands with
    | list found => exact .variable rfl (.tree set rfl found (by simp)) read
  · cases stands
    exact .variable rfl (.text set verbatim) read

/-- The settings are read from an environment that spells them out, unless the members have too many digits. -/
theorem ofEntries_nil_iff [SettingsLibrary] : ofEntries env [] = .ok s ↔ IsShort s.members := by
  have names : Names [] := fun entry member => absurd member List.not_mem_nil
  rw [ofEntries_eq_ok names (decodes_of_spells spelled)]
  constructor
  · intro settled
    obtain ⟨name, text, naming, t, alone, written, stands⟩ := spelled _ s.membersField_mem
    have set := Environment.textOf?_of_spellings alone
    obtain rfl := Option.some.inj written
    cases stands
    rcases settled _ s.membersField_mem with ⟨given, -⟩ | ⟨-, found, read⟩ | ⟨-, unset, -⟩
    · contradiction
    · obtain rfl := Option.some.inj (found.eq (.text set s.membersField_verbatim))
      exact s.read_members.mp read
    · exact absurd (unset.eq (.text set s.membersField_verbatim)) (by simp)
  · exact fun short field member => settledBy_of_spells spelled member short

end

theorem kept_of_filled (s : Settings) : ∀ field ∈ shape.filled s, field.label.omitEmpty = false := by
  simp [shape, Shape.filled, Fields.filled, Label.plain]

theorem names_ofEntries {entries : List (String × Tree)} (known : ∀ entry ∈ entries, entry.1 ∈ names) :
    Names (Value.ofEntries entries) := by
  induction entries with
  | nil => exact fun entry member => absurd member List.not_mem_nil
  | cons entry rest ih =>
    obtain ⟨first, others⟩ := List.forall_mem_cons.mp known
    exact List.forall_mem_cons.mpr ⟨⟨entry.1, first, rfl⟩, ih others⟩

/-- The settings are read from what is written for them, whatever is in the environment. -/
theorem ofEntries_written [Runtime] [SettingsLibrary] {entries : List (String × Tree)} (written : shape.write .program s = some (.record entries))
    (decodes : env.Decodes) : ofEntries env (Value.ofEntries entries) = .ok s := by
  have known : ∀ entry ∈ entries, entry.1 ∈ names := by
    obtain ⟨found, all, same⟩ := Option.map_eq_some_iff.mp written
    obtain rfl := Tree.record.inj same
    intro entry member
    obtain ⟨label, among, key⟩ := Fields.key_of_write _ all entry member
    rw [key]
    exact List.mem_map_of_mem among
  refine (ofEntries_eq_ok (names_ofEntries known) decodes).mpr fun field member => ?_
  obtain ⟨t, inside, stands⟩ := Shape.exists_at? sound written member
  have stands := stands fun left => Bool.false_ne_true ((kept_of_filled s field member).symm.trans left.1)
  obtain ⟨u, found, same⟩ := Option.bind_eq_some_iff.mp stands
  obtain rfl := Option.some.inj same
  have given : Value.lookup field.label.name (Value.ofEntries entries) = some (.ofTree u) := by
    rw [Value.lookup_ofEntries]
    exact congrArg (·.map Value.ofTree) found
  exact .file given (Shape.read_filled .native sound (by decide) member inside)

end Settings

/-- The text of a variable for written data, with JSON on one line. -/
def Tree.spelling : Tree → String
  | .text s => s
  | .int n => String.ofList (Json.writeInt n)
  | t => Json.write none t

/-- Variables for all settings, with their names in some letter case. -/
def Environment.spelling (naming : Naming) (recase : String → String) (s : Settings) : Environment :=
  (Settings.shape.filled s).map fun field =>
    (recase (variableFor field.label.name), ((field.shape.write naming field.value).getD .null).spelling)

namespace Settings

variable {s : Settings} {field : Field} {naming : Naming} {t : Tree}

theorem exists_write_filled (naming : Naming) (member : field ∈ shape.filled s) :
    ∃ t, field.shape.write naming field.value = some t := by
  obtain ⟨whole, written⟩ := shape.write_isSome (fun _ clean => clean) naming (shape.meets_written (by decide) s)
  obtain ⟨t, inside, -⟩ := Shape.exists_at? sound written member
  exact ⟨t, inside⟩

theorem spelledBy_spelling [Runtime] (member : field ∈ shape.filled s) (written : field.shape.write naming field.value = some t) :
    t.SpelledBy t.spelling := by
  rcases kind_of_filled s field member naming t written with rfl | rfl | ⟨-, w, rfl⟩
  · obtain rfl := Option.some.inj written
    exact .int _
  · have storable : (Shape.list Release.shape).Meets .storable s.releases := Shape.meets_storable _ rfl _
    have few : (Shape.list Release.shape).depth ≤ 100 := by decide
    have shallow : t.depth ≤ Runtime.jsonDepth :=
      ((Shape.depth_write _ written).trans few).trans Runtime.jsonDepth_enough
    have tokens := Json.tokens_write (by decide) (Shape.allFinite_write written)
      (Shape.not_holdsLong_write storable written) none Json.endsScalar_nil (by simp)
    rw [List.append_nil] at tokens
    have read : Json.readWithin Runtime.jsonDepth (Json.write none t) = .ok t := by
      rw [Json.readWithin, Json.tokensOf, tokens, Json.readTokens_tokensFor shallow]
    obtain ⟨items, -, rfl⟩ := Option.map_eq_some_iff.mp written
    exact .list read
  · exact .text w

theorem filter_name {fields : List Field} (distinct : (fields.map (·.label.name)).Nodup) (member : field ∈ fields) :
    fields.filter (·.label.name == field.label.name) = [field] := by
  induction fields with
  | nil => contradiction
  | cons first rest ih =>
    obtain ⟨fresh, distinct⟩ := List.nodup_cons.mp distinct
    rcases List.mem_cons.mp member with rfl | later
    · have none : rest.filter (·.label.name == field.label.name) = [] := by
        rw [List.filter_eq_nil_iff]
        intro other among same
        exact fresh (List.mem_map.mpr ⟨other, among, beq_iff_eq.mp same⟩)
      simp [none]
    · have other : first.label.name ≠ field.label.name := fun same =>
        fresh (List.mem_map.mpr ⟨field, later, same.symm⟩)
      rw [List.filter_cons, if_neg (by simpa using other), ih distinct later]

/-- All settings can be spelled out in an environment. -/
theorem spells_spelling [Runtime] (naming : Naming) {recase : String → String} (recased : ∀ name ∈ names,
    foldCase (recase (Environment.variableFor name)) = foldCase (Environment.variableFor name)) :
    (Environment.spelling naming recase s).Spells s := by
  intro field member
  obtain ⟨t, written⟩ := exists_write_filled naming member
  have known := (label_of_filled field member).2
  have matched : (shape.filled s).filter (fun other => foldCase (recase (Environment.variableFor other.label.name)) ==
      foldCase (Environment.variableFor field.label.name)) = [field] := by
    have distinct : ((shape.filled s).map (·.label.name)).Nodup := (by decide : names.Nodup)
    rw [← filter_name distinct member]
    refine List.filter_congr fun other among => ?_
    have known' := (label_of_filled other among).2
    rw [recased _ known', Bool.eq_iff_iff, beq_iff_eq, beq_iff_eq]
    refine ⟨fun same => ?_, fun same => same ▸ rfl⟩
    by_contra apart
    exact variable_ne _ known' _ known apart same
  refine ⟨recase (Environment.variableFor field.label.name), _, naming, t, ?_, written,
    spelledBy_spelling member written⟩
  rw [Environment.spellings, Environment.spelling, List.filter_map]
  exact (congrArg (List.map _) matched).trans (by rw [List.map_singleton, written]; rfl)

/-- Settings are the same whether they are given as they are written, under any environment in which the catalog can be
read, or spelled out in an environment, and so is what is built with them. Only members with too many digits
cannot be spelled out. -/
theorem sources_agree [Runtime] [SettingsLibrary] {env env' : Environment} (decodes : env.Decodes) (spelled : env'.Spells s) :
    ∃ entries, shape.write .program s = some (.record entries) ∧
      ofEntries env (Value.ofEntries entries) = .ok s ∧
      (ofEntries env' [] = .ok s ↔ IsShort s.members) ∧
      (IsShort s.members → ∀ enabler previous,
        (ofEntries env (Value.ofEntries entries)).map (fun r => (r.builder enabler previous).build) =
          (ofEntries env' []).map fun r => (r.builder enabler previous).build) := by
  obtain ⟨t, written⟩ := shape.write_isSome (fun _ clean => clean) .program (shape.meets_written (by decide) s)
  obtain ⟨entries, -, rfl⟩ := Option.map_eq_some_iff.mp written
  have given := ofEntries_written written decodes
  have found := ofEntries_nil_iff spelled
  exact ⟨entries, written, given, found, fun short enabler previous => by rw [given, found.mpr short]⟩

/-- Settings that are spelled out under names in small letters. -/
def spelledSettings : Settings where
  members := -2
  tlsMode := .require
  scramKey := " a=\"b\" "
  releases := [{ name := "4.4.0", builds := [{ platform := "linux", modules := some [] }, {}] }]

theorem sources_agree_lowercase :
    IsShort spelledSettings.members ∧
    (Environment.spelling .document foldCase spelledSettings).Spells spelledSettings ∧
    ofEntries (Environment.spelling .document foldCase spelledSettings) [] = .ok spelledSettings ∧
    ∃ entries, shape.write .program spelledSettings = some (.record entries) ∧
      ofEntries [("MONGODB_NAME", "other")] (Value.ofEntries entries) = .ok spelledSettings := by
  have short : IsShort spelledSettings.members :=
    isShort_of_natAbs_lt (k := 1) (by decide) (by decide) (by decide)
  have spelled : (Environment.spelling .document foldCase spelledSettings).Spells spelledSettings :=
    spells_spelling .document (by decide +kernel)
  have decodes : Environment.Decodes [("MONGODB_NAME", "other")] := by
    intro text set
    have unset : Environment.textOf? [("MONGODB_NAME", "other")] jsonField = none := by decide
    exact absurd (set.symm.trans unset) (by simp)
  obtain ⟨entries, written, given, found, -⟩ := sources_agree decodes spelled
  exact ⟨short, spelled, found.mpr short, entries, written, given⟩

end Settings
end AgentConfig
