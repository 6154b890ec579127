import AgentConfig.Number.Binary64

namespace AgentConfig

/-- Plain data as a document holds it: the entries of a record keep their order. -/
inductive Tree where
  | null
  | bool (b : Bool)
  | int (n : Int)
  | float (x : Binary64)
  | text (s : String)
  | list (items : List Tree)
  | record (entries : List (String × Tree))

/-- Nothing at all: null, the empty text, the empty list or the empty record. -/
def Tree.isEmpty : Tree → Bool
  | .null => true
  | .text s => s.isEmpty
  | .list items => items.isEmpty
  | .record entries => entries.isEmpty
  | _ => false

end AgentConfig
