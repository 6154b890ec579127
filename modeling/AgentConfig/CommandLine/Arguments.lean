import AgentConfig.Document.Text
import AgentConfig.Text.Digit
import AgentConfig.Text.Pieces

namespace AgentConfig

inductive Flag where
  | help
  | config
  | previous
  | output
  | format
  | logLevel
  deriving DecidableEq

namespace Flag

def all : List Flag :=
  [help, config, previous, output, format, logLevel]

def spellings : Flag → List String
  | help => ["-h", "--help"]
  | config => ["--config"]
  | previous => ["--previous"]
  | output => ["--output"]
  | format => ["--format"]
  | logLevel => ["--log-level"]

/-- A flag as error messages name it. -/
def title (f : Flag) : String :=
  "/".intercalate f.spellings

/-- The spellings of all flags, in order. -/
def table : List (String × Flag) :=
  all.flatMap fun f => f.spellings.map (·, f)

end Flag

/-- Why words are no command. -/
inductive UsageError where
  | ambiguous (word : String) (spellings : List String)
  | missingValue (f : Flag)
  | needlessValue (f : Flag) (value : String)
  | unknownFormat (value : String)
  | unrecognized (words : List String)
  deriving DecidableEq

def Format.word : Format → String
  | json => "json"
  | yaml => "yaml"

def Format.all : List Format :=
  [json, yaml]

def UsageError.message : UsageError → String
  | ambiguous word spellings => s!"ambiguous option: {word} could match " ++ ", ".intercalate spellings
  | missingValue f => s!"argument {f.title}: expected one argument"
  | needlessValue f value => s!"argument {f.title}: ignored explicit argument {Text.quoted value}"
  | unknownFormat value =>
    s!"argument {Flag.format.title}: invalid choice: {Text.quoted value} (choose from " ++
      ", ".intercalate (Format.all.map (Text.quoted ·.word)) ++ ")"
  | unrecognized words => "unrecognized arguments: " ++ " ".intercalate words

/-- What a word of the command line is by itself. -/
inductive Word where
  | plain (s : String)
  /-- Two dashes, after which no word is a flag. -/
  | divider
  /-- A flag, with the value that an equals sign gives it. -/
  | flag (f : Flag) (value : Option String)
  /-- A flag of one letter with more text right after it. -/
  | letters (f : Flag) (tail : List Char)
  | unknownFlag (s : String)
  deriving DecidableEq

namespace Word

/-- Negative numbers look like flags and are none. -/
def isNegativeNumber (s : List Char) : Bool :=
  let isDigit (c : Char) : Bool := (Text.digitValue? c).isSome
  let body := match s.reverse with
    | '\n' :: rest => rest.reverse
    | _ => s
  match body with
  | '-' :: rest =>
    match rest.dropWhile isDigit with
    | [] => !rest.isEmpty
    | '.' :: fraction => !fraction.isEmpty && fraction.all isDigit
    | _ => false
  | _ => false

/-- The spellings that a word with two dashes may abbreviate, each with the word that it stands for. -/
def abbreviated (s : List Char) : List (String × Word) :=
  let (start, value) := match Text.divide? '=' s with
    | some (start, value) => (start, some (String.ofList value))
    | none => (s, none)
  Flag.table.filterMap fun (spelling, f) =>
    if start.isPrefixOf spelling.toList then some (spelling, .flag f value) else none

/-- The flag whose letter begins a word with a single dash. -/
def lettered? (s : List Char) : Option Word :=
  (Flag.table.lookup (String.ofList (s.take 2))).map (.letters · (s.drop 2))

/-- The flag that is spelled out before an equals sign. -/
def assigned? (s : List Char) : Option Word :=
  (Text.divide? '=' s).bind fun (start, value) =>
    (Flag.table.lookup (String.ofList start)).map (.flag · (some (String.ofList value)))

/-- A word that looks like a flag and is none. -/
def stray (s : List Char) : Word :=
  if isNegativeNumber s || s.contains ' ' then .plain (String.ofList s) else .unknownFlag (String.ofList s)

/-- A word that begins with a dash and goes on. -/
def ofDashed (s : List Char) : Except UsageError Word :=
  match (Flag.table.lookup (String.ofList s)).map (.flag · none) <|> assigned? s with
  | some word => .ok word
  | none =>
    match s with
    | '-' :: '-' :: _ =>
      match abbreviated s with
      | [] => .ok (stray s)
      | [(_, word)] => .ok word
      | several => .error (.ambiguous (String.ofList s) (several.map (·.1)))
    | _ => .ok ((lettered? s).getD (stray s))

def ofString (word : String) : Except UsageError Word :=
  match word.toList with
  | '-' :: c :: rest => ofDashed ('-' :: c :: rest)
  | _ => .ok (.plain word)

/-- The words of a command line up to the first divider are read one by one. -/
def ofStrings : List String → Except UsageError (List Word)
  | [] => .ok []
  | word :: rest =>
    if word = "--" then .ok (.divider :: rest.map .plain)
    else do
      let first ← ofString word
      return first :: (← ofStrings rest)

end Word

/-- What a command line asks of a build. Of several values for a flag the last one counts. -/
structure BuildCommand where
  config : Option String := none
  previous : Option String := none
  output : Option String := none
  format : Format := .json
  logLevel : Option String := none
  deriving DecidableEq

inductive Request where
  | help
  | build (c : BuildCommand)
  deriving DecidableEq

/-- Gives a flag its value. -/
def BuildCommand.set (c : BuildCommand) (f : Flag) (value : String) : Except UsageError BuildCommand :=
  match f with
  | .help => .ok c
  | .config => .ok { c with config := some value }
  | .previous => .ok { c with previous := some value }
  | .output => .ok { c with output := some value }
  | .logLevel => .ok { c with logLevel := some value }
  | .format =>
    match Format.all.find? (·.word = value) with
    | some format => .ok { c with format }
    | none => .error (.unknownFormat value)

namespace Request

/-- What follows the letter for help in one word: a value is refused, and letters that are no flags are left
unread. -/
def helpLetters : List Char → Except UsageError Request
  | '-' :: rest => .error (.needlessValue .help (String.ofList ('-' :: rest)))
  | 'h' :: '=' :: value => .error (.needlessValue .help (String.ofList value))
  | 'h' :: rest => helpLetters rest
  | _ => .ok .help

/-- Goes through the words. `extras` are those so far that mean nothing to a build. -/
def follow : List Word → List String → BuildCommand → Except UsageError Request
  | [], extras, c => if extras.isEmpty then .ok (.build c) else .error (.unrecognized extras)
  | .plain s :: rest, extras, c => follow rest (extras ++ [s]) c
  | .unknownFlag s :: rest, extras, c => follow rest (extras ++ [s]) c
  | .divider :: rest, extras, c => follow rest (extras ++ ["--"]) c
  | .letters .help tail :: _, _, _ => helpLetters tail
  | .letters f tail :: rest, extras, c => do follow rest extras (← c.set f (String.ofList tail))
  | .flag .help none :: _, _, _ => .ok .help
  | .flag .help (some value) :: _, _, _ => .error (.needlessValue .help value)
  | .flag f (some value) :: rest, extras, c => do follow rest extras (← c.set f value)
  | .flag f none :: .plain s :: rest, extras, c => do follow rest extras (← c.set f s)
  | .flag f none :: _, _, _ => .error (.missingValue f)

/-- Reads a command line. -/
def ofStrings (words : List String) : Except UsageError Request := do
  follow (← Word.ofStrings words) [] {}

end Request
end AgentConfig
