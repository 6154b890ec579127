import AgentConfig.Json.Reader
import AgentConfig.Json.Writer
import AgentConfig.Schema.Read
import AgentConfig.Schema.Write

namespace AgentConfig.Shape

/-- Reads data of a shape from JSON text. -/
def ofJson {α : Type} (shape : Shape α) (text : String) : Except Invalid α :=
  match Json.read text with
  | .ok t => shape.check .json (.ofTree t)
  | .error e => .error { title := shape.title, problems := [{ path := [], cause := .json e }] }

/-- Writes data as JSON text, unless a part of them cannot be written. -/
def toJson {α : Type} (shape : Shape α) (naming : Naming) (indent : Json.Indent) (a : α) : Option String :=
  (shape.write naming a).map (Json.write indent)

/-- The one text that stands for the data when documents are compared. -/
def canonical {α : Type} (shape : Shape α) (a : α) : Option String :=
  shape.toJson .document none a

end AgentConfig.Shape
