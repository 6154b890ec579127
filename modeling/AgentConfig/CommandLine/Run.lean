import AgentConfig.CommandLine.Usage
import AgentConfig.Document.File
import AgentConfig.Settings.Source
import AgentConfig.Text.Capital

namespace AgentConfig

/-- Why a build gives no document, or does not get it out. -/
inductive Failure where
  | read (e : ReadError)
  | settings (e : SettingsError)
  | logLevel (word : String)
  | previous (e : ParseError)
  | build (e : BuildError)
  | store (e : StoreError)
  deriving DecidableEq

/-- Faults of a scalar that a run reports. The others break it off. -/
def Yaml.ScalarFault.isReported : Yaml.ScalarFault → Bool
  | .empty | .bool _ | .moment | .momentFromMapping | .floatBase | .codePointSize => false
  | _ => true

namespace SettingsError

def isReported : SettingsError → Bool
  | .yaml (.scalar fault) => fault.isReported
  | .key | .wholeKey | .tooDeep _ => false
  | .halted halt => halt.isReported
  | _ => true

end SettingsError

namespace Failure

/-- Whether a run reports the failure and ends in order. -/
def isReported : Failure → Bool
  | settings e => e.isReported
  | previous (.scalar fault) => fault.isReported
  | _ => true

def message : Failure → String
  | read e => e.message
  | settings e => e.message
  | logLevel word => s!"Unknown level: {Text.quoted word}"
  | previous (.load e) => e.message
  | previous (.scalar fault) => fault.message
  | build e => e.message
  | store e => e.message

/-- What has been put out before the failure: nothing, unless the settings library did so. -/
def output : Failure → String
  | settings (.halted halt) => halt.output
  | _ => ""

end Failure

/-- A line for the operator. -/
inductive Notice where
  | log (r : LogRecord)
  | failure (f : Failure)
  | usage (line : String)
  deriving DecidableEq

def Notice.text : Notice → String
  | log r => r.line
  | failure f => "ERROR: " ++ f.message
  | usage line => line

/-- A run ends with an exit code, or is broken off by a failure: something that it does not handle leaves the program, and be
it an exit that the settings library makes. -/
inductive Ending where
  | exit (code : Nat)
  | brokenOff (f : Failure)
  deriving DecidableEq

/-- What a run comes to: its end, the text it puts out, its notices in order, and the disk afterwards. -/
structure Outcome where
  ending : Ending
  output : String := ""
  notices : List Notice := []
  disk : Disk

namespace Outcome

def succeed (output : String) (notices : List Notice) (disk : Disk) : Outcome :=
  { ending := .exit 0, output, notices, disk }

/-- A reported failure is the last notice. -/
def fail (f : Failure) (notices : List Notice) (disk : Disk) : Outcome :=
  if f.isReported then { ending := .exit 1, output := f.output, notices := notices ++ [.failure f], disk }
  else { ending := .brokenOff f, output := f.output, notices, disk }

end Outcome

namespace BuildCommand

variable [Runtime] [SettingsLibrary]

/-- An empty value is as good as none. -/
def given? (value : Option String) : Option String :=
  value.filter (· ≠ "")

/-- The settings of the file, if there is one, over the environment. -/
def settings (c : BuildCommand) (env : Environment) (disk : Disk) : Except Failure Settings :=
  let outcome (found : Except SettingsError Settings) : Except Failure Settings :=
    match found with
    | .error e => .error (.settings e)
    | .ok s => .ok s
  match c.config with
  | none => outcome (Settings.ofEntries env [])
  | some path =>
    match disk.readText path with
    | .error e => .error (.read e)
    | .ok text => outcome (Settings.ofYaml env text)

/-- The least weight of the log records that are shown. -/
def threshold (c : BuildCommand) (s : Settings) : Except Failure Nat :=
  let word := Text.capitals ((given? c.logLevel).getD s.logLevel)
  match logThreshold? word with
  | some weight => .ok weight
  | none => .error (.logLevel word)

/-- The document that was deployed before. -/
def baseline (c : BuildCommand) (disk : Disk) : Except Failure Document :=
  match given? c.previous with
  | none => .ok .empty
  | some path =>
    match Document.load disk path with
    | .error (.read e) => .error (.read e)
    | .error (.parse e) => .error (.previous e)
    | .ok d => .ok d

/-- All that a build is made from: the settings, the least weight of the log records shown and the
document before. -/
def prepare (c : BuildCommand) (env : Environment) (disk : Disk) : Except Failure (Settings × Nat × Document) := do
  let s ← c.settings env disk
  let weight ← c.threshold s
  return (s, weight, ← c.baseline disk)

def shown (weight : Nat) (log : List LogRecord) : List Notice :=
  (log.filter (weight ≤ ·.level.weight)).map .log

def storedRecord (d : Document) (path : String) : LogRecord where
  level := .info
  source := .command
  text := s!"Wrote automation config version {d.version} to {path}"

/-- Puts the document into its file, or out as a text if no file is named. -/
def deliver (c : BuildCommand) (d : Document) (weight : Nat) (notices : List Notice) (disk : Disk) : Outcome :=
  match given? c.output with
  | none =>
    match d.render c.format with
    | .error e => .fail (.store (.write e)) notices disk
    | .ok text => .succeed text notices disk
  | some path =>
    match d.store disk path with
    | (disk, .error e) => .fail (.store e) notices disk
    | (disk, .ok ()) => .succeed "" (notices ++ shown weight [storedRecord d path]) disk

def run (c : BuildCommand) (env : Environment) (disk : Disk) : Outcome :=
  match c.prepare env disk with
  | .error f => .fail f [] disk
  | .ok (s, weight, previous) =>
    let attempt := s.deploy previous
    let notices := shown weight attempt.log
    match attempt.outcome with
    | .error e => .fail (.build e) notices disk
    | .ok d => c.deliver d weight notices disk

end BuildCommand

/-- Runs a command line. -/
def CommandLine.run [Runtime] [SettingsLibrary] (env : Environment) (disk : Disk) (words : List String) : Outcome :=
  match Request.ofStrings words with
  | .error e => { ending := .exit 2, notices := e.report.map .usage, disk }
  | .ok .help => .succeed (String.join (BuildCommand.help.map (· ++ "\n"))) [] disk
  | .ok (.build c) => c.run env disk

end AgentConfig
