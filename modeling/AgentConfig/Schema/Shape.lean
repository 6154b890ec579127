import AgentConfig.Number.Binary64

namespace AgentConfig

/-- A closed set of alternatives, each with a word of its own. -/
structure Choices (α : Type) where
  all : List α
  word : α → String
  mem_all : ∀ a, a ∈ all
  word_injective : ∀ a b, word a = word b → a = b

/-- A one-to-one view of the values of `α` as tuples of fields. -/
structure Parts (α ρ : Type) where
  split : α → ρ
  join : ρ → α
  join_split : ∀ a, join (split a) = a
  split_join : ∀ r, split (join r) = r

/-- The names of a field: one in documents and one inside the program. A field that is left out
when empty has no entry in a document while it is null, the empty text or the empty list. -/
structure Label where
  name : String
  documentName : String
  omitEmpty : Bool

namespace Label

/-- A field with one name. -/
def plain (name : String) : Label where
  name := name
  documentName := name
  omitEmpty := false

def aliased (name documentName : String) : Label where
  name := name
  documentName := documentName
  omitEmpty := false

/-- The same field, left out when empty. -/
def omitted (label : Label) : Label :=
  { label with omitEmpty := true }

end Label

/-- A text that may have to be hidden, or an object that nothing can be said about. -/
inductive Secret where
  | text (s : String)
  | foreign
  deriving DecidableEq

mutual
/-- The description of data that are read from and written to documents, by the type they have here. -/
inductive Shape : Type → Type 1 where
  | text (numbers : Bool) : Shape String
  | secret : Shape Secret
  | int : Shape Int
  | bool : Shape Bool
  | float : Shape Binary64
  | choice {α : Type} (choices : Choices α) : Shape α
  | nullable {α : Type} (inner : Shape α) : Shape (Option α)
  | list {α : Type} (item : Shape α) : Shape (List α)
  | record {α ρ : Type} (title : String) (fields : Fields ρ) (parts : Parts α ρ) : Shape α

/-- The fields of a record in order, each with the value it has when nothing is given for it, if any. -/
inductive Fields : Type → Type 1 where
  | nil : Fields Unit
  | cons {α ρ : Type} (label : Label) (shape : Shape α) (fallback : Option α) (rest : Fields ρ) : Fields (α × ρ)
end

/-- The name of a record, empty for all other data. -/
def Shape.title : {α : Type} → Shape α → String
  | _, .record title _ _ => title
  | _, _ => ""

def Fields.labels : {ρ : Type} → Fields ρ → List Label
  | _, .nil => []
  | _, .cons label _ _ rest => label :: rest.labels

end AgentConfig
