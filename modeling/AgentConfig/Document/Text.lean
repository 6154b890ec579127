import AgentConfig.Document.Basic
import AgentConfig.Schema.Json
import AgentConfig.Yaml.Datum
import AgentConfig.Yaml.Writer

namespace AgentConfig

/-- The two ways in which documents are written. -/
inductive Format where
  | json
  | yaml
  deriving DecidableEq

/-- Why a text is no document. -/
inductive DocumentError where
  | invalid (e : Invalid)
  | yaml (e : Yaml.Error)
  deriving DecidableEq

/-- Why a document cannot be written: a part of it has no written form, or an integer is too long. -/
inductive WriteError where
  | unwritable
  | tooManyDigits
  deriving DecidableEq

def WriteError.message : WriteError → String
  | unwritable => "Unable to serialize unknown type"
  | tooManyDigits => Cause.digits.message

/-- A stored text that could not be read, and where it was stored. -/
structure LoadError where
  source : Option String
  cause : DocumentError
  deriving DecidableEq

/-- What the text is said to come from. -/
def LoadError.origin (e : LoadError) : String :=
  match e.source with
  | none | some "" => "<string>"
  | some source => source

def LoadError.message (e : LoadError) : String :=
  match e.cause with
  | .invalid cause => s!"Failed to parse AutomationConfig from '{e.origin}': {cause.message}"
  | .yaml cause => s!"Invalid YAML in '{e.origin}': {cause.message}"

/-- How reading a stored text ends badly. Numbers and moments that do not exist are faults of their own. -/
inductive ParseError where
  | load (e : LoadError)
  | scalar (fault : Yaml.ScalarFault)
  deriving DecidableEq

namespace Document

def ofJson (text : String) : Except Invalid Document :=
  shape.ofJson text

/-- Reads a document from YAML. An empty text is the empty document. -/
def ofYaml [Runtime] (text : String) : Except DocumentError Document :=
  match Yaml.load text with
  | .error e => .error (.yaml e)
  | .ok v =>
    match shape.check .native (match v with | .null => .map [] | v => v) with
    | .ok d => .ok d
    | .error e => .error (.invalid e)

def ofText [Runtime] (format : Format) (text : String) : Except DocumentError Document :=
  match format with
  | .json =>
    match ofJson text with
    | .ok d => .ok d
    | .error e => .error (.invalid e)
  | .yaml => ofYaml text

/-- Reads a stored text; `source` tells where it was stored. -/
def parse [Runtime] (format : Format) (source : Option String) (text : String) : Except ParseError Document :=
  match ofText format text with
  | .ok d => .ok d
  | .error (.yaml (.scalar fault)) => .error (.scalar fault)
  | .error cause => .error (.load { source, cause })

/-- The text that documents are compared by: compact JSON. -/
def canonical (d : Document) : Except WriteError String :=
  match shape.canonical d with
  | some text => .ok text
  | none => .error .unwritable

def toJson (indent : Json.Indent) (d : Document) : Except WriteError String :=
  match shape.toJson .document indent d with
  | some text => .ok text
  | none => .error .unwritable

def toYaml (d : Document) : Except WriteError String :=
  match shape.write .document d with
  | some (.record entries) =>
    if Yaml.entriesWritable entries then .ok (String.ofList (Yaml.writeRecord entries)) else .error .tooManyDigits
  | _ => .error .unwritable

/-- The text that a document is stored as. -/
def render (format : Format) (d : Document) : Except WriteError String :=
  match format with
  | .json => (· ++ "\n") <$> d.toJson (some 2)
  | .yaml => d.toYaml

/-- A document never changes: putting a value into one of its fields is refused. -/
def assign (field : String) : Invalid where
  title := shape.title
  problems := [{ path := [.key field], cause := .frozen }]

/-- Equality by content: numbers count by value. -/
def equal (d e : Document) : Bool :=
  shape.equal d e

end Document
end AgentConfig
