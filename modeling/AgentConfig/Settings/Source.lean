import AgentConfig.Json.Reader
import AgentConfig.Settings.Basic
import AgentConfig.Settings.Library
import AgentConfig.Yaml.Datum

namespace AgentConfig

/-- Why there are no settings. -/
inductive SettingsError where
  | yaml (e : Yaml.Error)
  | notMapping
  /-- A key that is no text. -/
  | key
  /-- A key that stands for the settings as a whole. -/
  | wholeKey
  /-- The variable of a field cannot be looked up. -/
  | lookup (field : String)
  /-- The variable of a field holds no JSON. -/
  | decode (field : String)
  /-- The variable of a field holds JSON that is nested too deep for the stack. -/
  | tooDeep (field : String)
  /-- The settings library has put an end to everything. -/
  | halted (halt : Settings.Halt)
  | digits
  | invalid (e : Invalid)
  deriving DecidableEq

def SettingsError.message : SettingsError → String
  | yaml e => e.message
  | notMapping => "Deployment YAML must be a mapping of setting names."
  | key => "keywords must be strings"
  | wholeKey => "BaseSettings.__init__() got multiple values for argument '__pydantic_self__'"
  | lookup field => s!"error getting value for field \"{field}\" from source \"EnvSettingsSource\""
  | decode field => s!"error parsing value for field \"{field}\" from source \"EnvSettingsSource\""
  | tooDeep _ => "maximum recursion depth exceeded while decoding a JSON array from a unicode string"
  | halted halt => halt.message
  | digits => Cause.digits.message
  | invalid e => e.message

/-- What is said about the variable of a field whose JSON cannot be read. -/
def SettingsError.ofJson (field : String) : Json.Error → SettingsError
  | .tooDeep => .tooDeep field
  | _ => .decode field

namespace Settings

/-- Names are compared without regard to case. The sign for kelvin is a capital K too. -/
def foldCase (name : String) : String :=
  String.ofList (name.toList.map fun c => if c = '\u212a' then 'k' else c.toLower)

/-- How variables are found: `none` for the usual prefix. -/
structure Lookup where
  variablePrefix : String := "MONGODB_"
  caseSensitive : Bool := false
  ignoreEmpty : Bool := false

/-- The value under a key. -/
def Given.find? (given : Given) (key : String) : Option Value :=
  given.lookup key

/-- Of several entries with one key only the place of the first and the value of the last are kept. -/
def Given.put (given : Given) (key : String) (v : Value) : Given :=
  if (given.lookup key).isSome then given.map fun (k, old) => if k = key then (k, v) else (k, old)
  else given ++ [(key, v)]

/-- The entries of a mapping, whose keys must be texts. Those that hold half of a surrogate pair name no setting and
are passed over. -/
def givenOf : List (Value × Value) → Given → Except SettingsError Given
  | [], given => .ok given
  | (.text key, v) :: rest, given => givenOf rest (given.put key v)
  | (.brokenText, _) :: rest, given => givenOf rest given
  | (_, _) :: _, _ => .error .key

/-- How to look up variables, as the settings themselves say. -/
def lookupOf (given : Given) : Except SettingsError Lookup := do
  let usual : Lookup := {}
  let flag (key : String) (usual : Bool) : Bool :=
    match given.find? key with
    | none | some .null => usual
    | some v => !v.isVoid
  let lookup := { usual with
    caseSensitive := flag "_case_sensitive" false
    ignoreEmpty := flag "_env_ignore_empty" false }
  match given.find? "_env_prefix" with
  | none | some .null => .ok lookup
  | some (.text p) => .ok { lookup with variablePrefix := p }
  | some _ => .error (.lookup (names.headD ""))

/-- The value of the variable for a field: of several spellings the last one set. -/
def Lookup.textOf? (l : Lookup) (env : Environment) (field : String) : Option String :=
  let fold (name : String) : String := if l.caseSensitive then name else foldCase name
  let wanted := fold (l.variablePrefix ++ field)
  ((env.filter fun (name, value) => fold name == wanted && !(l.ignoreEmpty && value.isEmpty)).getLast?).map (·.2)

/-- The name of the field whose variable holds JSON. -/
def jsonField : String := "versions"

/-- What the environment gives for a field. The catalog is given as JSON, where null gives nothing. -/
def Lookup.value? [Runtime] (l : Lookup) (env : Environment) (field : String) : Except SettingsError (Option Value) :=
  match l.textOf? env field with
  | none => .ok none
  | some text =>
    if field = jsonField then
      match Json.readWithin Runtime.jsonDepth text with
      | .error e => .error (.ofJson field e)
      | .ok .null => .ok none
      | .ok t => .ok (some (.ofTree t))
    else .ok (some (.text text))

/-- The key under which a field is given: its name, or else its name in another spelling. -/
def givenKey? (l : Lookup) (given : Given) (field : String) : Option String :=
  if (given.find? field).isSome then some field
  else if l.caseSensitive then none
  else (List.find? (fun (key, _) => foldCase key == field) given).map (·.1)

/-- Whether a key is one of the settings or an option. -/
def isKnownKey (l : Lookup) (key : String) : Bool :=
  lookupOptions.contains key || libraryOptions.contains key || names.contains (if l.caseSensitive then key else foldCase key)

/-- The settings that are given or stand in the environment, in the order of the fields. What is given
goes before the environment, but the environment is read in any case. -/
def collect [Runtime] (l : Lookup) (env : Environment) (given : Given) :
    List String → Except SettingsError (List (Value × Value))
  | [] => .ok []
  | field :: rest => do
    let fromEnvironment ← l.value? env field
    let others ← collect l env given rest
    let found := match givenKey? l given field with
      | some key => given.find? key
      | none => fromEnvironment
    match found with
    | some v => .ok ((.text field, v) :: others)
    | none => .ok others

/-- The settings in the entries that have been put together. Strange keys are refused; if a key is broken, nothing else is
said about them. -/
def accept (entries : List (Value × Value)) (strange : List String) (broken : Bool) : Except SettingsError Settings :=
  let strangeProblems := strange.map fun key => { path := [.key key], cause := .unknownKey : Problem }
  let problems (found : List Problem) : Except SettingsError Settings :=
    if found.any (·.cause == .digits) then .error .digits
    else
      let all := if broken then [{ path := [], cause := .textUnicode }] else found ++ strangeProblems
      .error (.invalid { title := shape.title, problems := all })
  match shape.read .native (.map entries) with
  | .error found => problems found
  | .ok s => if strange.isEmpty && !broken then .ok s else problems []

/-- What the library is asked, if any of its options stands among the settings, and what it answers. -/
def consulted [SettingsLibrary] (env : Environment) (given : Given) (broken : Bool) : Option (Except Halt Findings) :=
  if given.any fun (key, _) => libraryOptions.contains key then SettingsLibrary.consult env { given, broken } else none

/-- The settings that result from what is given, the environment and the defaults. -/
def ofGiven [Runtime] [SettingsLibrary] (env : Environment) (given : Given) (broken : Bool) :
    Except SettingsError Settings := do
  if (given.find? "__pydantic_self__").isSome then .error .wholeKey
  else
    match consulted env given broken with
    | some (.error halt) => .error (.halted halt)
    | some (.ok found) =>
      let entries := found.given.map fun (key, v) => (Value.text key, v)
      accept entries ((found.given.map (·.1)).filter (!names.contains ·)) found.broken
    | none =>
      let l ← lookupOf given
      let entries ← collect l env given names
      accept entries ((given.map (·.1)).filter (!isKnownKey l ·)) broken

/-- Settings from the entries of a mapping. -/
def ofEntries [Runtime] [SettingsLibrary] (env : Environment) (entries : List (Value × Value)) : Except SettingsError Settings := do
  ofGiven env (← givenOf entries []) (entries.any (·.1.isBroken))

/-- Settings from a deployment file. One that says nothing gives nothing. -/
def ofYaml [Runtime] [SettingsLibrary] (env : Environment) (text : String) : Except SettingsError Settings :=
  match Yaml.load text with
  | .error e => .error (.yaml e)
  | .ok v =>
    if v.isVoid then ofEntries env []
    else
      match v with
      | .map entries => ofEntries env entries
      | _ => .error .notMapping

end Settings
end AgentConfig
