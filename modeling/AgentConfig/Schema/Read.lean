import AgentConfig.Schema.Scalar
import AgentConfig.Schema.Shape

namespace AgentConfig

/-- The entry for a field and the key it was found under: the name in documents goes first. -/
def Label.find? (label : Label) (entries : List (Value × Value)) : Option (String × Value) :=
  match Value.lookup label.documentName entries with
  | some v => some (label.documentName, v)
  | none => (Value.lookup label.name entries).map (label.name, ·)

/-- A word is read as texts are, so it may also stand in bytes. -/
def Choices.read {α : Type} (choices : Choices α) (v : Value) : Checked α :=
  match (v.readText false).toOption.bind fun s => choices.all.find? (choices.word · == s) with
  | some a => .ok a
  | none => .fail (.choice (choices.all.map choices.word))

/-- All items, or the problems of all of them with their positions. -/
def Checked.items {α : Type} (read : Value → Checked α) : Nat → List Value → Checked (List α)
  | _, [] => .ok []
  | position, v :: rest =>
    match ((read v).within (.index position)).both (items read (position + 1) rest) with
    | .ok (a, as) => .ok (a :: as)
    | .error problems => .error problems

mutual
/-- Reads data of a shape. Every part is checked, so all problems are found. -/
def Shape.read (source : Source) : {α : Type} → Shape α → Value → Checked α
  | _, .text numbers, v => v.readText numbers
  | _, .secret, v => (v.readText false).map .text
  | _, .int, v => v.readInt
  | _, .bool, v => v.readBool
  | _, .float, v => v.readFloat source
  | _, .choice choices, v => choices.read v
  | _, .nullable inner, v =>
    match v with
    | .null => .ok none
    | _ => (inner.read source v).map some
  | _, .list item, v =>
    match v with
    | .list items | .set items => Checked.items (item.read source) 0 items
    | _ => .fail (.list source)
  | _, .record title fields parts, v =>
    match v with
    | .map entries => (fields.read source entries).map parts.join
    | _ => .fail (.record source title)

/-- Reads the entries of a record; entries that belong to no field are passed over. -/
def Fields.read (source : Source) : {ρ : Type} → Fields ρ → List (Value × Value) → Checked ρ
  | _, .nil, _ => .ok ()
  | _, .cons label shape fallback rest, entries =>
    let first := match label.find? entries, fallback with
      | some (key, v), _ => (shape.read source v).within (.key key)
      | none, some a => .ok a
      | none, none => (Checked.fail .missing).within (.key label.documentName)
    first.both (rest.read source entries)
end

/-- Reads data of a shape, or says what is wrong with it. -/
def Shape.check {α : Type} (shape : Shape α) (source : Source) (v : Value) : Except Invalid α :=
  match shape.read source v with
  | .ok a => .ok a
  | .error problems => .error { title := shape.title, problems }

end AgentConfig
