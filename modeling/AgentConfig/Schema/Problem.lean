import AgentConfig.Json.Error

namespace AgentConfig

/-- Where the data to be read comes from. The wording of some problems depends on it. -/
inductive Source where
  | json
  | native
  deriving DecidableEq

/-- One step of the way from the root of the data to a part of it. -/
inductive Step where
  | key (name : String)
  | index (n : Nat)
  deriving DecidableEq

/-- What is wrong with a part of the data. -/
inductive Cause where
  | missing
  | text
  | textUnicode
  | int
  | intText
  | intSize
  | intFraction
  | finite
  | bool
  | boolText
  | float
  | floatText
  | choice (words : List String)
  | list (source : Source)
  | record (source : Source) (title : String)
  | frozen
  | unknownKey
  | json (error : Json.Error)
  /-- A number in place of a text has too many digits to be written out. -/
  | digits
  deriving DecidableEq

namespace Cause

def kind : Cause → String
  | missing => "missing"
  | text => "string_type"
  | textUnicode => "string_unicode"
  | int => "int_type"
  | intText => "int_parsing"
  | intSize => "int_parsing_size"
  | intFraction => "int_from_float"
  | finite => "finite_number"
  | bool => "bool_type"
  | boolText => "bool_parsing"
  | float => "float_type"
  | floatText => "float_parsing"
  | choice _ => "enum"
  | list _ => "list_type"
  | record .. => "model_type"
  | frozen => "frozen_instance"
  | unknownKey => "extra_forbidden"
  | json _ => "json_invalid"
  | digits => "number_digits"

/-- Alternatives as a sentence lists them: `'a', 'b' or 'c'`. -/
def alternatives : List String → String
  | [] => ""
  | [a] => s!"'{a}'"
  | [a, b] => s!"'{a}' or '{b}'"
  | a :: rest => s!"'{a}', " ++ alternatives rest

def message : Cause → String
  | missing => "Field required"
  | text => "Input should be a valid string"
  | textUnicode => "Input should be a valid string, unable to parse raw data as a unicode string"
  | int => "Input should be a valid integer"
  | intText => "Input should be a valid integer, unable to parse string as an integer"
  | intSize => "Unable to parse input string as an integer, exceeded maximum size"
  | intFraction => "Input should be a valid integer, got a number with a fractional part"
  | finite => "Input should be a finite number"
  | bool => "Input should be a valid boolean"
  | boolText => "Input should be a valid boolean, unable to interpret input"
  | float => "Input should be a valid number"
  | floatText => "Input should be a valid number, unable to parse string as a number"
  | choice words => "Input should be " ++ alternatives words
  | list .json => "Input should be a valid array"
  | list .native => "Input should be a valid list"
  | record .json _ => "Input should be an object"
  | record .native title => s!"Input should be a valid dictionary or instance of {title}"
  | frozen => "Instance is frozen"
  | unknownKey => "Extra inputs are not permitted"
  | json error => "Invalid JSON: " ++ error.message
  | digits => "Exceeds the limit (4300 digits) for integer string conversion; " ++
      "use sys.set_int_max_str_digits() to increase the limit"

end Cause

/-- A problem and the place where it was found. -/
structure Problem where
  path : List Step
  cause : Cause
  deriving DecidableEq

/-- The problem seen from one step further out. -/
def Problem.within (step : Step) (p : Problem) : Problem :=
  { p with path := step :: p.path }

/-- Everything that is wrong with data read as a `title`. -/
structure Invalid where
  title : String
  problems : List Problem
  deriving DecidableEq

def Invalid.message (e : Invalid) : String :=
  let count := e.problems.length
  s!"{count} validation error" ++ (if count = 1 then "" else "s") ++ s!" for {e.title}"

/-- Either the data or all problems found, in the order of the fields. -/
abbrev Checked (α : Type) := Except (List Problem) α

namespace Checked

def fail {α : Type} (cause : Cause) : Checked α :=
  .error [{ path := [], cause }]

def within {α : Type} (step : Step) : Checked α → Checked α
  | .ok a => .ok a
  | .error problems => .error (problems.map (·.within step))

/-- Both data, or the problems of the first and then those of the second. -/
def both {α β : Type} : Checked α → Checked β → Checked (α × β)
  | .ok a, .ok b => .ok (a, b)
  | .ok _, .error q => .error q
  | .error p, .ok _ => .error p
  | .error p, .error q => .error (p ++ q)

end Checked
end AgentConfig
